import PlumOS.Lib.StateExcept

/-!
# Programs with a log

A program over a state that may fail, run with a list of events beside its state. The
calls to be observed add an entry, all others are silent. A logged program erases to the
program itself when forgetting the log gives the same results, so what is proved about
its log is about the program's run.

## Main definitions

- `silent`, `logged` — a call without and with an entry
- `Erases` — forgetting the log
- `LogGrows` — no entry is taken back
-/

namespace StateExcept

universe u

variable {σ ι ε α β : Type u}

/-- A call that is not observed. -/
def silent (m : StateT σ (Except ε) α) : StateT (σ × List ι) (Except ε) α := fun s =>
  (m s.1).map fun r => (r.1, r.2, s.2)

/-- A call that is observed: its entry is made of the state it starts in. -/
def logged (entry : σ → ι) (m : StateT σ (Except ε) α) : StateT (σ × List ι) (Except ε) α :=
  fun s => (m s.1).map fun r => (r.1, r.2, s.2 ++ [entry s.1])

/-- Without its log, `l` is `m`. -/
def Erases (l : StateT (σ × List ι) (Except ε) α) (m : StateT σ (Except ε) α) : Prop :=
  ∀ s, (l s).map (fun r => (r.1, r.2.1)) = m s.1

theorem Erases.silent (m : StateT σ (Except ε) α) : Erases (ι := ι) (silent m) m := by
  intro s
  unfold StateExcept.silent
  cases m s.1 <;> rfl

theorem Erases.logged (entry : σ → ι) (m : StateT σ (Except ε) α) :
    Erases (logged entry m) m := by
  intro s
  unfold StateExcept.logged
  cases m s.1 <;> rfl

theorem Erases.pure (a : α) :
    Erases (σ := σ) (ι := ι) (ε := ε) (Pure.pure a) (Pure.pure a) := fun _ => rfl

theorem Erases.fails (e : ε) :
    Erases (σ := σ) (ι := ι) (α := α) (StateExcept.fails e) (StateExcept.fails e) := fun _ => rfl

theorem Erases.ite {c : Prop} [Decidable c] {l l' : StateT (σ × List ι) (Except ε) α}
    {m m' : StateT σ (Except ε) α} (h : Erases l m) (h' : Erases l' m') :
    Erases (if c then l else l') (if c then m else m') := by
  split
  · exact h
  · exact h'

theorem Erases.bind {l : StateT (σ × List ι) (Except ε) α} {m : StateT σ (Except ε) α}
    {f : α → StateT (σ × List ι) (Except ε) β} {g : α → StateT σ (Except ε) β}
    (h : Erases l m) (hf : ∀ a, Erases (f a) (g a)) : Erases (l >>= f) (m >>= g) := by
  intro s
  have hs := h s
  cases hl : l s with
  | error e =>
    rw [hl] at hs
    rw [bind_of_error hl, bind_of_error hs.symm]
    rfl
  | ok r =>
    rw [hl] at hs
    rw [bind_of_ok (t := r.2) hl, bind_of_ok (t := r.2.1) hs.symm]
    exact hf r.1 r.2

/-- The result of the program is the result of its logged version. -/
theorem Erases.ok {l : StateT (σ × List ι) (Except ε) α} {m : StateT σ (Except ε) α}
    (h : Erases l m) {s s' : σ × List ι} {a : α} (hl : l s = .ok (a, s')) :
    m s.1 = .ok (a, s'.1) := by
  rw [← h s, hl]
  rfl

theorem silent_of_ok {m : StateT σ (Except ε) α} {s : σ × List ι} {a : α} {t : σ}
    (h : m s.1 = .ok (a, t)) : silent m s = .ok (a, t, s.2) := by
  unfold silent
  rw [h]
  rfl

theorem logged_of_ok {entry : σ → ι} {m : StateT σ (Except ε) α} {s : σ × List ι} {a : α} {t : σ}
    (h : m s.1 = .ok (a, t)) : logged entry m s = .ok (a, t, s.2 ++ [entry s.1]) := by
  unfold logged
  rw [h]
  rfl

theorem Returns.silent {m : StateT σ (Except ε) α} {s : σ × List ι} {Q : α → σ → Prop}
    (h : Returns m s.1 Q) :
    Returns (StateExcept.silent m) s fun a s' => Q a s'.1 ∧ s.2 = s'.2 := by
  obtain ⟨a, s', hm, hQ⟩ := h
  exact ⟨a, (s', s.2), silent_of_ok hm, hQ, rfl⟩

theorem Returns.logged {entry : σ → ι} {m : StateT σ (Except ε) α} {s : σ × List ι}
    {Q : α → σ → Prop} (h : Returns m s.1 Q) :
    Returns (StateExcept.logged entry m) s fun a s' => Q a s'.1 ∧ s'.2 = s.2 ++ [entry s.1] := by
  obtain ⟨a, s', hm, hQ⟩ := h
  exact ⟨a, (s', s.2 ++ [entry s.1]), logged_of_ok hm, hQ, rfl⟩

/-- The log of a run is kept in the log it ends with. -/
def LogGrows (l : StateT (σ × List ι) (Except ε) α) : Prop :=
  ∀ s, Ensures l s fun _ s' => s.2 <+: s'.2

theorem LogGrows.silent (m : StateT σ (Except ε) α) : LogGrows (ι := ι) (silent m) := by
  intro s a s' h
  unfold StateExcept.silent at h
  cases hm : m s.1 with
  | error e =>
    rw [hm] at h
    cases h
  | ok r =>
    rw [hm] at h
    cases h
    exact List.prefix_rfl

theorem LogGrows.logged (entry : σ → ι) (m : StateT σ (Except ε) α) :
    LogGrows (logged entry m) := by
  intro s a s' h
  unfold StateExcept.logged at h
  cases hm : m s.1 with
  | error e =>
    rw [hm] at h
    cases h
  | ok r =>
    rw [hm] at h
    cases h
    exact List.prefix_append _ _

theorem LogGrows.pure (a : α) : LogGrows (σ := σ) (ι := ι) (ε := ε) (Pure.pure a) :=
  fun _ => Ensures.pure List.prefix_rfl

theorem LogGrows.bind {l : StateT (σ × List ι) (Except ε) α}
    {f : α → StateT (σ × List ι) (Except ε) β} (h : LogGrows l) (hf : ∀ a, LogGrows (f a)) :
    LogGrows (l >>= f) := fun s =>
  Ensures.bind (h s) fun a s₁ h₁ => (hf a s₁).mono fun _ _ h₂ => h₁.trans h₂

end StateExcept
