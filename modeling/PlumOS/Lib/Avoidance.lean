import PlumOS.Lib.EarlyExit

/-!
# Programs that avoid an error

A program over a state that may fail, run from some state, avoids an error if it does not
end with it: it returns, or fails with another one. Where the error stands for a loop that
has no end, this is termination.

## Main definitions

- `Avoids` — the program does not end with the error, from one state
- `NeverFails` — from every state; the rules are instances

## Main results

- `Avoids.bind`, `Avoids.left` — sequences
-/

namespace StateExcept

universe u

variable {σ ε ρ : Type u} {α β : Type u} {e : ε} {s : σ}

/-- Run from `s`, the program does not end with the error `e`. -/
def Avoids (e : ε) (m : StateT σ (Except ε) α) (s : σ) : Prop := m s ≠ .error e

/-- From no state the program ends with the error `e`. -/
class NeverFails (e : ε) (m : StateT σ (Except ε) α) : Prop where
  avoids : ∀ s, Avoids e m s

theorem NeverFails.run (e : ε) (m : StateT σ (Except ε) α) [h : NeverFails e m] (s : σ) :
    Avoids e m s := h.avoids s

theorem Avoids.of_ok {m : StateT σ (Except ε) α} {r : α × σ} (h : m s = .ok r) : Avoids e m s := by
  unfold Avoids
  rw [h]
  nofun

/-- The sequencing rule: what the first part ensures is known to the second. -/
theorem Avoids.bind {m : StateT σ (Except ε) α} {f : α → StateT σ (Except ε) β}
    {R : α → σ → Prop} (hm : Avoids e m s) (hR : Ensures m s R)
    (hf : ∀ a s', R a s' → Avoids e (f a) s') : Avoids e (m >>= f) s := by
  unfold Avoids at hm ⊢
  cases h : m s with
  | error e' =>
    rw [bind_of_error h]
    intro heq
    cases heq
    exact hm h
  | ok r =>
    obtain ⟨a, s'⟩ := r
    rw [bind_of_ok h]
    exact hf a s' (hR a s' h)

/-- The first part of a sequence avoids what the sequence avoids. -/
theorem Avoids.left {m : StateT σ (Except ε) α} {f : α → StateT σ (Except ε) β}
    (h : Avoids e (m >>= f) s) : Avoids e m s := by
  intro hm
  exact h (bind_of_error hm)

instance NeverFails.pure (a : α) : NeverFails e (Pure.pure a : StateT σ (Except ε) α) :=
  ⟨fun _ => nofun⟩

instance NeverFails.reads (g : σ → α) : NeverFails e (StateExcept.reads g : StateT σ (Except ε) α) :=
  ⟨fun _ => nofun⟩

instance NeverFails.modifies (g : σ → σ) :
    NeverFails e (StateExcept.modifies g : StateT σ (Except ε) PUnit) := ⟨fun _ => nofun⟩

instance NeverFails.bind (m : StateT σ (Except ε) α) (f : α → StateT σ (Except ε) β)
    [hm : NeverFails e m] [hf : ∀ a, NeverFails e (f a)] : NeverFails e (m >>= f) :=
  ⟨fun s => Avoids.bind (R := fun _ _ => True) (hm.avoids s) (fun _ _ _ => trivial)
    fun a s' _ => (hf a).avoids s'⟩

instance NeverFails.ite (c : Prop) [Decidable c] (m m' : StateT σ (Except ε) α)
    [h : NeverFails e m] [h' : NeverFails e m'] : NeverFails e (if c then m else m') := by
  split
  · exact h
  · exact h'

instance NeverFails.onlyIf (c : Prop) [Decidable c] (m : StateT σ (Except ε) PUnit)
    [NeverFails e m] : NeverFails e (StateExcept.onlyIf c m) :=
  inferInstanceAs (NeverFails e (if c then m else Pure.pure ⟨⟩))

theorem NeverFails.fails {e' : ε} (h : e' ≠ e) :
    NeverFails e (StateExcept.fails e' : StateT σ (Except ε) α) := by
  refine ⟨fun _ heq => h ?_⟩
  cases heq
  rfl

/-! ### Programs that may leave early -/

theorem avoids_stays {m : StateT σ (Except ε) α} :
    Avoids e (stays m : Leaving ρ σ ε α).run s ↔ Avoids e m s := by
  unfold Avoids
  rw [run_stays]
  cases m s with
  | error e' =>
    refine not_congr ⟨?_, ?_⟩
    · rintro ⟨⟩
      rfl
    · rintro ⟨⟩
      rfl
  | ok r => exact iff_of_true nofun nofun

theorem avoids_leaves {r : ρ} : Avoids e (leaves r : Leaving ρ σ ε α).run s := nofun

theorem Avoids.run_bind {m : Leaving ρ σ ε α} {f : α → Leaving ρ σ ε β}
    (hm : Avoids e m.run s) (hf : ∀ a s', Avoids e (f a).run s') : Avoids e (m >>= f).run s := by
  unfold Avoids at hm ⊢
  rw [StateExcept.run_bind]
  cases h : m.run s with
  | error e' =>
    intro heq
    cases heq
    exact hm h
  | ok r =>
    obtain ⟨r | a, s'⟩ := r
    · nofun
    · exact hf a s'

end StateExcept
