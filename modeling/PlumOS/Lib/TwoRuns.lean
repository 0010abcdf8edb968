import PlumOS.Lib.StateExcept

/-!
# Two runs of a program

A relational specification compares two programs run from related states: they fail
alike, or both return the same value and end in related states. A program compared
with itself gives a non-interference result: what the relation does not fix cannot
influence what the program returns.

## Main definitions

- `Alike` — two programs that cannot be told apart from related states
-/

namespace StateExcept

variable {σ ε α β : Type}

/-- From states that `P` relates, both programs fail with the same error, or both return
the same value in states that `Q` relates. -/
def Alike (P : σ → σ → Prop) (m m' : StateT σ (Except ε) α) (Q : α → σ → σ → Prop) : Prop :=
  ∀ s s', P s s' → match m s, m' s' with
    | .ok (a, t), .ok (a', t') => a = a' ∧ Q a t t'
    | .error e, .error e' => e = e'
    | _, _ => False

variable {P P' R : σ → σ → Prop} {m m' : StateT σ (Except ε) α} {Q : α → σ → σ → Prop}

/-- If one of the programs returns, so does the other. -/
theorem Alike.returns (h : Alike P m m' Q) {s s' t : σ} {a : α} (hP : P s s')
    (hm : m s = .ok (a, t)) : ∃ t', m' s' = .ok (a, t') ∧ Q a t t' := by
  have := h s s' hP
  rw [hm] at this
  cases hm' : m' s' with
  | error e => simp [hm'] at this
  | ok r =>
    obtain ⟨a', t'⟩ := r
    simp only [hm'] at this
    obtain ⟨rfl, hQ⟩ := this
    exact ⟨t', rfl, hQ⟩

/-- For two states only the runs from these states count. -/
theorem Alike.of_eq {n n' : StateT σ (Except ε) α} {t t' : σ}
    (h : Alike (fun s s' => s = t ∧ s' = t') m m' Q) (hn : n t = m t) (hn' : n' t' = m' t') :
    Alike (fun s s' => s = t ∧ s' = t') n n' Q := by
  rintro _ _ ⟨rfl, rfl⟩
  rw [hn, hn']
  exact h _ _ ⟨rfl, rfl⟩

/-- The rule of consequence. -/
theorem Alike.mono {Q' : α → σ → σ → Prop} (h : Alike P m m' Q) (hP : ∀ s s', P' s s' → P s s')
    (hQ : ∀ a s s', Q a s s' → Q' a s s') : Alike P' m m' Q' := by
  intro s s' hs
  have := h s s' (hP s s' hs)
  cases hm : m s <;> cases hm' : m' s' <;> simp only [hm, hm'] at this ⊢
  · exact this
  · exact ⟨this.1, hQ _ _ _ this.2⟩

theorem Alike.pure {a : α} (h : ∀ s s', P s s' → Q a s s') :
    Alike P (Pure.pure a : StateT σ (Except ε) α) (Pure.pure a) Q :=
  fun s s' hs => ⟨rfl, h s s' hs⟩

theorem Alike.fails {e : ε} :
    Alike P (StateExcept.fails e : StateT σ (Except ε) α) (StateExcept.fails e) Q :=
  fun _ _ _ => rfl

/-- The sequencing rule. -/
theorem Alike.bind {f f' : α → StateT σ (Except ε) β} {Q' : β → σ → σ → Prop}
    (hm : Alike P m m' Q) (hf : ∀ a, Alike (Q a) (f a) (f' a) Q') :
    Alike P (m >>= f) (m' >>= f') Q' := by
  intro s s' hs
  have hms := hm s s' hs
  cases h : m s with
  | error e =>
    cases h' : m' s' with
    | error e' =>
      simp only [h, h'] at hms
      rw [bind_of_error h, bind_of_error h']
      exact hms
    | ok r' => simp [h, h'] at hms
  | ok r =>
    cases h' : m' s' with
    | error e' => simp [h, h'] at hms
    | ok r' =>
      simp only [h, h'] at hms
      obtain ⟨ha, hQ⟩ := hms
      rw [bind_of_ok h, bind_of_ok h', ← ha]
      exact hf r.1 r.2 r'.2 hQ

theorem Alike.modifies {g g' : σ → σ} {Q : PUnit → σ → σ → Prop}
    (h : ∀ s s', P s s' → Q ⟨⟩ (g s) (g' s')) :
    Alike P (StateExcept.modifies g : StateT σ (Except ε) PUnit) (StateExcept.modifies g') Q :=
  fun s s' hs => ⟨rfl, h s s' hs⟩

theorem Alike.ite {c : Prop} [Decidable c] {n n' : StateT σ (Except ε) α} (h₁ : c → Alike P m m' Q)
    (h₂ : ¬ c → Alike P n n' Q) : Alike P (if c then m else n) (if c then m' else n') Q := by
  split
  · next hc => exact h₁ hc
  · next hc => exact h₂ hc

end StateExcept
