import Mathlib.Data.List.Basic

/-!
# The runs of a list

The maximal runs of a list between separators, each with its position.

## Main definitions

- `runs`, `words` — the maximal runs, and without their positions
- `Parts` — a list in parts: gaps of separators, and runs between them

## Main results

- `parts_runs`, `Parts.eq_runs` — the gaps and runs of a list
-/

namespace Runs

variable {α : Type*} (sep : α → Bool)

/-- The maximal runs of elements that are no separators; the list begins at position `p`. -/
def runs : (p : Nat) → (s : List α) → List (Nat × List α)
  | _, [] => []
  | p, c :: s =>
    if sep c then runs (p + 1) s
    else
      match runs (p + 1) s with
      | [] => [(p, [c])]
      | (q, w) :: ts => if q = p + 1 then (p, c :: w) :: ts else (p, [c]) :: (q, w) :: ts

/-- The maximal runs alone. -/
def words (s : List α) : List (List α) := (runs sep 0 s).map Prod.snd

/-- The list `s`, from position `p` on, consists of gaps of separators and of the runs `ts`: a run
is not empty, has no separator, and the list ends behind it or goes on with one. -/
inductive Parts : (p : Nat) → (s : List α) → (ts : List (Nat × List α)) → Prop
  | gap {p : Nat} {g : List α} (hg : ∀ c ∈ g, sep c = true) : Parts p g []
  | run {p : Nat} {g w t : List α} {ts : List (Nat × List α)} (hg : ∀ c ∈ g, sep c = true)
      (hne : w ≠ []) (hw : ∀ c ∈ w, sep c = false) (ht : ∀ c ∈ t.head?, sep c = true)
      (htail : Parts (p + g.length + w.length) t ts) :
      Parts p (g ++ w ++ t) ((p + g.length, w) :: ts)

variable {sep}

theorem Parts.cons_sep {p : Nat} {s : List α} {ts : List (Nat × List α)}
    (h : Parts sep (p + 1) s ts) {c : α} (hc : sep c = true) : Parts sep p (c :: s) ts := by
  cases h with
  | gap hg => exact .gap (List.forall_mem_cons.mpr ⟨hc, hg⟩)
  | @run _ g w t ts hg hne hw ht htail =>
    have hpos : p + (c :: g).length = p + 1 + g.length := by
      rw [List.length_cons]
      omega
    rw [← hpos] at htail ⊢
    exact .run (List.forall_mem_cons.mpr ⟨hc, hg⟩) hne hw ht htail

/-- A list is made up of its maximal runs and the gaps between them. -/
theorem parts_runs (p : Nat) (s : List α) : Parts sep p s (runs sep p s) := by
  induction s generalizing p with
  | nil => exact .gap (by simp)
  | cons c s ih =>
    have htail := ih (p + 1)
    unfold runs
    cases hc : sep c with
    | true => exact htail.cons_sep hc
    | false =>
      have hone : ∀ d ∈ [c], sep d = false := by simpa using hc
      rw [if_neg Bool.false_ne_true]
      generalize runs sep (p + 1) s = ts at htail
      cases htail with
      | gap hg =>
        refine .run (g := []) (by simp) (List.cons_ne_nil c []) hone ?_ (.gap hg)
        intro d hd
        exact hg d (List.mem_of_mem_head? hd)
      | @run _ g w t ts hg hne hw ht htail =>
        dsimp only
        cases g with
        | nil =>
          rw [List.length_nil, Nat.add_zero] at htail ⊢
          rw [if_pos rfl]
          refine .run (g := []) (w := c :: w) (by simp) (List.cons_ne_nil c w)
            (List.forall_mem_cons.mpr ⟨hc, hw⟩) ht ?_
          rw [List.length_nil, List.length_cons, Nat.add_zero]
          rwa [Nat.add_right_comm, Nat.add_assoc] at htail
        | cons d g =>
          rw [if_neg (by rw [List.length_cons]; omega)]
          refine .run (g := []) (w := [c]) (t := d :: g ++ w ++ t) (by simp)
            (List.cons_ne_nil c []) hone ?_ (.run hg hne hw ht htail)
          simpa using hg d (.head _)

theorem le_of_mem_runs {p : Nat} {s : List α} {t : Nat × List α} (h : t ∈ runs sep p s) :
    p ≤ t.1 := by
  induction s generalizing p t with
  | nil => cases h
  | cons c s ih =>
    unfold runs at h
    cases hc : sep c with
    | true =>
      rw [hc] at h
      exact Nat.le_of_succ_le (ih h)
    | false =>
      rw [hc, if_neg Bool.false_ne_true] at h
      have hlater : ∀ {x}, x ∈ runs sep (p + 1) s → p ≤ x.1 := fun hx => Nat.le_of_succ_le (ih hx)
      generalize runs sep (p + 1) s = rest at h hlater
      cases rest with
      | nil =>
        obtain rfl := List.mem_singleton.mp h
        exact Nat.le_refl p
      | cons x ts =>
        obtain ⟨q, w⟩ := x
        dsimp only at h
        split at h
        · rcases List.mem_cons.mp h with rfl | h
          · exact Nat.le_refl p
          · exact hlater (.tail _ h)
        · rcases List.mem_cons.mp h with rfl | h
          · exact Nat.le_refl p
          · exact hlater h

theorem runs_gap {g : List α} (hg : ∀ c ∈ g, sep c = true) (p : Nat) (s : List α) :
    runs sep p (g ++ s) = runs sep (p + g.length) s := by
  induction g generalizing p with
  | nil => rfl
  | cons c g ih =>
    rw [List.cons_append, runs, if_pos (hg c (.head _)), ih (fun d hd => hg d (.tail _ hd)),
      List.length_cons, Nat.add_assoc, Nat.add_comm 1]

theorem runs_run {w t : List α} (hne : w ≠ []) (hw : ∀ c ∈ w, sep c = false)
    (ht : ∀ c ∈ t.head?, sep c = true) (p : Nat) :
    runs sep p (w ++ t) = (p, w) :: runs sep (p + w.length) t := by
  induction w generalizing p with
  | nil => exact absurd rfl hne
  | cons c w ih =>
    have hc : ¬ sep c = true := by rw [hw c (.head _)]; exact Bool.false_ne_true
    rw [List.cons_append, runs, if_neg hc]
    cases w with
    | nil =>
      rw [List.nil_append]
      cases t with
      | nil => rfl
      | cons d t =>
        have hd : sep d = true := ht d rfl
        have hlater : ∀ x ∈ runs sep (p + 1 + 1) t, x.1 ≠ p + 1 := by
          intro x hx
          have := le_of_mem_runs hx
          omega
        rw [List.length_singleton, runs, if_pos hd]
        cases hruns : runs sep (p + 1 + 1) t with
        | nil => rfl
        | cons x ts => exact if_neg (hlater x (hruns ▸ .head _))
    | cons d w =>
      rw [ih (List.cons_ne_nil d w) (fun e he => hw e (.tail _ he)) (p + 1)]
      rw [List.length_cons, Nat.add_assoc p 1, Nat.add_comm 1]
      exact if_pos rfl

/-- There is only one way to take a list apart. -/
theorem Parts.eq_runs {p : Nat} {s : List α} {ts : List (Nat × List α)} (h : Parts sep p s ts) :
    ts = runs sep p s := by
  induction h with
  | @gap p g hg =>
    have h := runs_gap hg p []
    rw [List.append_nil] at h
    exact h.symm
  | run hg hne hw ht htail ih =>
    rw [List.append_assoc, runs_gap hg, runs_run hne hw ht, ih]

theorem runs_add (p k : Nat) (s : List α) :
    runs sep (p + k) s = (runs sep p s).map fun t => (t.1 + k, t.2) := by
  induction s generalizing p with
  | nil => rfl
  | cons c s ih =>
    unfold runs
    rw [Nat.add_right_comm, ih (p + 1)]
    cases sep c with
    | true => rfl
    | false =>
      rw [if_neg Bool.false_ne_true, if_neg Bool.false_ne_true]
      cases runs sep (p + 1) s with
      | nil => rfl
      | cons t ts =>
        obtain ⟨q, w⟩ := t
        dsimp only
        by_cases hq : q = p + 1
        · rw [if_pos hq]
          exact if_pos (by dsimp only; omega)
        · rw [if_neg hq]
          exact if_neg (by dsimp only; omega)

/-- Where the list begins does not matter for its runs. -/
theorem map_runs (p : Nat) (s : List α) : (runs sep p s).map Prod.snd = words sep s := by
  have h : runs sep (0 + p) s = _ := runs_add 0 p s
  rw [Nat.zero_add] at h
  rw [h, List.map_map]
  rfl

theorem length_runs_le (p : Nat) (s : List α) : (runs sep p s).length ≤ s.length := by
  induction s generalizing p with
  | nil => exact Nat.le_refl 0
  | cons c s ih =>
    have htail := ih (p + 1)
    unfold runs
    rw [List.length_cons]
    cases sep c with
    | true => exact Nat.le_succ_of_le htail
    | false =>
      rw [if_neg Bool.false_ne_true]
      generalize runs sep (p + 1) s = ts at htail
      cases ts with
      | nil => exact Nat.le_add_left 1 _
      | cons t ts =>
        dsimp only
        split
        · exact Nat.le_succ_of_le htail
        · exact Nat.succ_le_succ htail

end Runs
