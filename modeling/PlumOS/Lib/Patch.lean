import Mathlib.Data.List.Perm.Basic
import Mathlib.Data.List.Pairwise

/-!
# Patches of a function

A patch gives a function new values on a part of its arguments. Patches of disjoint parts
do not disturb each other, so a list of them may be applied in any order.

## Main definitions

- `Patch` — where the values change, and to what
- `patched` — a function after a list of patches, the first one first

## Main results

- `patched_of_mem`, `patched_of_not_mem` — the values afterwards
- `patched_perm` — the order does not matter
-/

namespace Patches

universe u v

/-- New values for the arguments in `domain`. -/
structure Patch (α : Type u) (β : Type v) where
  domain : α → Prop
  dec : DecidablePred domain
  value : α → β

variable {α : Type u} {β : Type v} {m : α → β} {a : α}

/-- The function with its new values. -/
def Patch.apply (p : Patch α β) (m : α → β) : α → β := fun a =>
  haveI := p.dec a
  if p.domain a then p.value a else m a

theorem Patch.apply_of_mem {p : Patch α β} (h : p.domain a) : p.apply m a = p.value a := if_pos h

theorem Patch.apply_of_not_mem {p : Patch α β} (h : ¬ p.domain a) : p.apply m a = m a := if_neg h

/-- No argument is in both parts. -/
def Patch.Apart (p q : Patch α β) : Prop := ∀ a, ¬ (p.domain a ∧ q.domain a)

/-- The function after all patches of the list. -/
def patched (m : α → β) (ps : List (Patch α β)) : α → β := ps.foldl (fun m p => p.apply m) m

@[simp] theorem patched_cons (p : Patch α β) (ps : List (Patch α β)) :
    patched m (p :: ps) = patched (p.apply m) ps := rfl

/-- Outside all the parts nothing changes. -/
theorem patched_of_not_mem {ps : List (Patch α β)} (h : ∀ p ∈ ps, ¬ p.domain a) :
    patched m ps a = m a := by
  induction ps generalizing m with
  | nil => rfl
  | cons p ps ih =>
    rw [patched_cons, ih fun q hq => h q (List.mem_cons_of_mem p hq)]
    exact Patch.apply_of_not_mem (h p List.mem_cons_self)

/-- In the part of one patch its values stand. -/
theorem patched_of_mem {ps : List (Patch α β)} (hps : ps.Pairwise Patch.Apart) {p : Patch α β}
    (hp : p ∈ ps) (h : p.domain a) : patched m ps a = p.value a := by
  induction ps generalizing m with
  | nil => cases hp
  | cons q ps ih =>
    obtain ⟨hq, hps⟩ := List.pairwise_cons.mp hps
    rw [patched_cons]
    rcases List.mem_cons.mp hp with rfl | hp
    · rw [patched_of_not_mem fun r hr hra => hq r hr a ⟨h, hra⟩]
      exact Patch.apply_of_mem h
    · exact ih hps hp

theorem Patch.Apart.symm {p q : Patch α β} (h : p.Apart q) : q.Apart p := fun a ha => h a ha.symm

/-- Patches of disjoint parts may be applied in any order. -/
theorem patched_perm {ps qs : List (Patch α β)} (hperm : ps.Perm qs) (hps : ps.Pairwise Patch.Apart) :
    patched m ps = patched m qs := by
  have hqs : qs.Pairwise Patch.Apart := hperm.pairwise hps fun h => h.symm
  funext a
  by_cases h : ∃ p ∈ ps, p.domain a
  · obtain ⟨p, hp, ha⟩ := h
    rw [patched_of_mem hps hp ha, patched_of_mem hqs (hperm.mem_iff.mp hp) ha]
  · push Not at h
    rw [patched_of_not_mem h, patched_of_not_mem fun q hq => h q (hperm.mem_iff.mpr hq)]

end Patches
