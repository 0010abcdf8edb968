import Mathlib.Data.Finset.Card
import Mathlib.Data.Nat.Find
import Mathlib.Logic.Function.Iterate

/-!
# Walks along a linked list

A walk follows `next` until it meets an end. It meets one after a number of steps or never;
the elements before the end are all different, so in a finite memory it takes no more steps
than there are elements.

## Main definitions

- `Stops` — the walk meets its first end after so many steps

## Main results

- `exists_stops` — a walk that meets an end meets a first one
- `Stops.injOn`, `Stops.le_card`
- `Stops.congr` — two walks that take the same steps
-/

namespace ListWalk

universe u

variable {α : Type u} {next : α → α} {stop : α → Prop} {a : α} {n m : Nat}

/-- From `a` on, the walk along `next` meets its first end after `n` steps. -/
structure Stops (next : α → α) (stop : α → Prop) (a : α) (n : Nat) : Prop where
  stops : stop (next^[n] a)
  goesOn : ∀ j < n, ¬ stop (next^[j] a)

/-- One step of the walk. -/
theorem stops_succ_iff :
    Stops next stop a (n + 1) ↔ ¬ stop a ∧ Stops next stop (next a) n := by
  constructor
  · rintro ⟨hstop, hgoes⟩
    exact ⟨hgoes 0 (Nat.succ_pos n), hstop, fun j hj => hgoes (j + 1) (Nat.succ_lt_succ hj)⟩
  · rintro ⟨ha, hstop, hgoes⟩
    refine ⟨hstop, fun j hj => ?_⟩
    cases j with
    | zero => exact ha
    | succ j => exact hgoes j (Nat.lt_of_succ_lt_succ hj)

theorem exists_stops : (∃ n, stop (next^[n] a)) ↔ ∃ n, Stops next stop a n := by
  classical
  constructor
  · intro h
    exact ⟨Nat.find h, Nat.find_spec h, fun j hj => Nat.find_min h hj⟩
  · rintro ⟨n, h⟩
    exact ⟨n, h.stops⟩

/-- The elements before the end are different: the walk would not end from an element
that it meets twice. -/
theorem Stops.injOn (h : Stops next stop a n) : Set.InjOn (fun j => next^[j] a) {j | j < n} := by
  have hlt : ∀ i j, i < j → j < n → next^[i] a ≠ next^[j] a := by
    intro i j hij hj heq
    have hend : next^[n - j + i] a = next^[n] a := by
      rw [Function.iterate_add_apply, heq, ← Function.iterate_add_apply,
        Nat.sub_add_cancel hj.le]
    exact h.goesOn (n - j + i) (by omega) (hend ▸ h.stops)
  intro i hi j hj heq
  rcases Nat.lt_trichotomy i j with hij | hij | hij
  · exact absurd heq (hlt i j hij hj)
  · exact hij
  · exact absurd heq.symm (hlt j i hij hi)

theorem Stops.le_card (h : Stops next stop a n) {S : Finset α} (hS : ∀ j < n, next^[j] a ∈ S) :
    n ≤ S.card := by
  have hmaps : Set.MapsTo (fun j => next^[j] a) (Finset.range n) S := fun j hj =>
    hS j (Finset.mem_range.mp hj)
  have hcard := Finset.card_le_card_of_injOn _ hmaps fun i hi j hj =>
    h.injOn (Finset.mem_range.mp hi) (Finset.mem_range.mp hj)
  rwa [Finset.card_range] at hcard

/-- Two walks are the same when they take the same steps. -/
theorem iterate_congr {next' : α → α} {n : Nat}
    (h : ∀ j < n, next' (next^[j] a) = next (next^[j] a)) : ∀ j ≤ n, next'^[j] a = next^[j] a
  | 0, _ => rfl
  | j + 1, hj => by
    rw [Function.iterate_succ_apply', Function.iterate_succ_apply',
      iterate_congr h j (Nat.le_of_succ_le hj), h j hj]

theorem Stops.congr {next' : α → α} (h : Stops next stop a n)
    (hsame : ∀ j < n, next' (next^[j] a) = next (next^[j] a)) : Stops next' stop a n where
  stops := by
    rw [iterate_congr hsame n le_rfl]
    exact h.stops
  goesOn := by
    intro j hj
    rw [iterate_congr hsame j hj.le]
    exact h.goesOn j hj

end ListWalk
