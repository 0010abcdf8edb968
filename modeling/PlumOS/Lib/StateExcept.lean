import Mathlib.Order.Defs.Unbundled

/-!
# Specifications of stateful programs that can fail

Programs are functions of a state that either fail or return a value with a new
state. `Ensures` is partial correctness from a fixed state: failing is allowed,
returning must establish the postcondition. `Returns` is total correctness.

## Main results

- `Ensures.bind`, `Returns.bind` — the sequencing rules
- `bind_eq_ok` — inversion of a sequence that returned
-/

namespace StateExcept

universe u

variable {σ ε : Type u} {α β : Type u}

/-- Read something of the state. -/
def reads (f : σ → α) : StateT σ (Except ε) α := fun s => .ok (f s, s)

/-- Fail. -/
def fails (e : ε) : StateT σ (Except ε) α := fun _ => .error e

/-- Change the state; the value returned says nothing. -/
def modifies (f : σ → σ) : StateT σ (Except ε) PUnit := fun s => .ok (⟨⟩, f s)

/-- The program, run from `s`, can only return in a state and with a value that
satisfy `Q`. -/
def Ensures (m : StateT σ (Except ε) α) (s : σ) (Q : α → σ → Prop) : Prop :=
  ∀ a s', m s = .ok (a, s') → Q a s'

/-- The program, run from `s`, returns, with a value and a state that satisfy `Q`. -/
def Returns (m : StateT σ (Except ε) α) (s : σ) (Q : α → σ → Prop) : Prop :=
  ∃ a s', m s = .ok (a, s') ∧ Q a s'

/-- Run the program from `s` and check what it returns. -/
def checks (m : StateT σ (Except ε) α) (s : σ) (ok : α → σ → Bool) : Bool :=
  match m s with
  | .ok (a, s') => ok a s'
  | .error _ => false

/-- Run `m` if the condition holds. -/
def onlyIf (c : Prop) [Decidable c] (m : StateT σ (Except ε) PUnit) :
    StateT σ (Except ε) PUnit :=
  if c then m else Pure.pure ⟨⟩

/-- A sequence returns exactly when both parts do. -/
theorem bind_eq_ok {m : StateT σ (Except ε) α} {f : α → StateT σ (Except ε) β} {s s'' : σ}
    {b : β} :
    (m >>= f) s = .ok (b, s'') ↔ ∃ a s', m s = .ok (a, s') ∧ f a s' = .ok (b, s'') := by
  change (m s >>= fun p => f p.1 p.2) = _ ↔ _
  cases h : m s with
  | error e => simp [bind, Except.bind]
  | ok p =>
    obtain ⟨a, s'⟩ := p
    constructor
    · intro hf
      exact ⟨a, s', rfl, hf⟩
    · rintro ⟨_, _, heq, hf⟩
      cases heq
      exact hf

theorem bind_of_ok {m : StateT σ (Except ε) α} {f : α → StateT σ (Except ε) β} {s t : σ}
    {a : α} (h : m s = .ok (a, t)) : (m >>= f) s = f a t := by
  change (m s >>= fun p => f p.1 p.2) = _
  rw [h]
  rfl

theorem bind_of_error {m : StateT σ (Except ε) α} {f : α → StateT σ (Except ε) β} {s : σ}
    {e : ε} (h : m s = .error e) : (m >>= f) s = .error e := by
  change (m s >>= fun p => f p.1 p.2) = _
  rw [h]
  rfl

theorem pure_eq_ok {s s' : σ} {a b : α} :
    (pure a : StateT σ (Except ε) α) s = .ok (b, s') ↔ a = b ∧ s = s' := by
  change (Except.ok (a, s) : Except ε (α × σ)) = _ ↔ _
  simp

theorem Ensures.reads {s : σ} {f : σ → α} {Q : α → σ → Prop} (h : Q (f s) s) :
    Ensures (reads f : StateT σ (Except ε) α) s Q := by
  intro b s' hb
  cases hb
  exact h

theorem Ensures.modifies {s : σ} {f : σ → σ} {Q : PUnit → σ → Prop} (h : Q ⟨⟩ (f s)) :
    Ensures (modifies f : StateT σ (Except ε) PUnit) s Q := by
  intro b s' hb
  cases hb
  exact h

theorem Ensures.fails {s : σ} {e : ε} {Q : α → σ → Prop} :
    Ensures (fails e : StateT σ (Except ε) α) s Q := by
  intro b s' hb
  cases hb

theorem Ensures.onlyIf {s : σ} {c : Prop} [Decidable c] {m : StateT σ (Except ε) PUnit}
    {Q : PUnit → σ → Prop} (h₁ : c → Ensures m s Q) (h₂ : ¬ c → Q ⟨⟩ s) :
    Ensures (onlyIf c m) s Q := by
  unfold StateExcept.onlyIf
  split
  · next hc => exact h₁ hc
  · next hc =>
    intro b s' hb
    cases hb
    exact h₂ hc

theorem Returns.onlyIf {s : σ} {c : Prop} [Decidable c] {m : StateT σ (Except ε) PUnit}
    {Q : PUnit → σ → Prop} (h₁ : c → Returns m s Q) (h₂ : ¬ c → Q ⟨⟩ s) :
    Returns (onlyIf c m) s Q := by
  unfold StateExcept.onlyIf
  split
  · next hc => exact h₁ hc
  · next hc => exact ⟨_, _, rfl, h₂ hc⟩

theorem Returns.reads {s : σ} {f : σ → α} {Q : α → σ → Prop} (h : Q (f s) s) :
    Returns (reads f : StateT σ (Except ε) α) s Q := ⟨_, _, rfl, h⟩

theorem Returns.modifies {s : σ} {f : σ → σ} {Q : PUnit → σ → Prop} (h : Q ⟨⟩ (f s)) :
    Returns (modifies f : StateT σ (Except ε) PUnit) s Q := ⟨_, _, rfl, h⟩

theorem Ensures.pure {s : σ} {a : α} {Q : α → σ → Prop} (h : Q a s) :
    Ensures (Pure.pure a : StateT σ (Except ε) α) s Q := by
  intro b s' hb
  obtain ⟨rfl, rfl⟩ := pure_eq_ok.mp hb
  exact h

/-- The sequencing rule for partial correctness. -/
theorem Ensures.bind {m : StateT σ (Except ε) α} {f : α → StateT σ (Except ε) β} {s : σ}
    {R : α → σ → Prop} {Q : β → σ → Prop} (hm : Ensures m s R)
    (hf : ∀ a s', R a s' → Ensures (f a) s' Q) : Ensures (m >>= f) s Q := by
  intro b s'' h
  obtain ⟨a, s', hma, hfb⟩ := bind_eq_ok.mp h
  exact hf a s' (hm a s' hma) b s'' hfb

/-- Two sequences are the same when they go on alike behind their first part. -/
theorem Ensures.bind_congr {m : StateT σ (Except ε) α} {f g : α → StateT σ (Except ε) β} {s : σ}
    {R : α → σ → Prop} (hm : Ensures m s R) (h : ∀ a s', R a s' → f a s' = g a s') :
    (m >>= f) s = (m >>= g) s := by
  cases hrun : m s with
  | error e => rw [bind_of_error hrun, bind_of_error hrun]
  | ok r =>
    obtain ⟨a, s'⟩ := r
    rw [bind_of_ok hrun, bind_of_ok hrun]
    exact h a s' (hm a s' hrun)

/-- The rule of consequence for partial correctness. -/
theorem Ensures.mono {m : StateT σ (Except ε) α} {s : σ} {Q Q' : α → σ → Prop}
    (hm : Ensures m s Q) (h : ∀ a s', Q a s' → Q' a s') : Ensures m s Q' :=
  fun a s' hma => h a s' (hm a s' hma)

theorem Ensures.of_eq {m m' : StateT σ (Except ε) α} {s s₁ : σ} {Q : α → σ → Prop}
    (heq : m s = m' s₁) (h : Ensures m' s₁ Q) : Ensures m s Q := by
  intro a s' hm
  exact h a s' (heq ▸ hm)

theorem Ensures.and {m : StateT σ (Except ε) α} {s : σ} {Q Q' : α → σ → Prop}
    (h : Ensures m s Q) (h' : Ensures m s Q') : Ensures m s fun a s' => Q a s' ∧ Q' a s' :=
  fun a s' hma => ⟨h a s' hma, h' a s' hma⟩

theorem Returns.pure {s : σ} {a : α} {Q : α → σ → Prop} (h : Q a s) :
    Returns (Pure.pure a : StateT σ (Except ε) α) s Q := ⟨a, s, rfl, h⟩

/-- The sequencing rule for total correctness. -/
theorem Returns.of_eq {m m' : StateT σ (Except ε) α} {s s' : σ} {Q : α → σ → Prop}
    (heq : m s = m' s') (h : Returns m' s' Q) : Returns m s Q := by
  obtain ⟨a, s₁, hm, hQ⟩ := h
  exact ⟨a, s₁, heq.trans hm, hQ⟩

theorem Returns.of_checks {m : StateT σ (Except ε) α} {s : σ} {q : α → σ → Bool}
    (h : checks m s q = true) : Returns m s fun a s' => q a s' = true := by
  unfold checks at h
  cases hm : m s with
  | error e =>
    rw [hm] at h
    cases h
  | ok p =>
    rw [hm] at h
    exact ⟨p.1, p.2, hm, h⟩

theorem Returns.bind {m : StateT σ (Except ε) α} {f : α → StateT σ (Except ε) β} {s : σ}
    {R : α → σ → Prop} {Q : β → σ → Prop} (hm : Returns m s R)
    (hf : ∀ a s', R a s' → Returns (f a) s' Q) : Returns (m >>= f) s Q := by
  obtain ⟨a, s', hma, hR⟩ := hm
  obtain ⟨b, s'', hfb, hQ⟩ := hf a s' hR
  exact ⟨b, s'', (bind_of_ok hma).trans hfb, hQ⟩

/-- The rule of consequence for total correctness. -/
theorem Returns.mono {m : StateT σ (Except ε) α} {s : σ} {Q Q' : α → σ → Prop}
    (hm : Returns m s Q) (h : ∀ a s', Q a s' → Q' a s') : Returns m s Q' := by
  obtain ⟨a, s', hma, hQ⟩ := hm
  exact ⟨a, s', hma, h a s' hQ⟩

theorem Returns.and_ensures {m : StateT σ (Except ε) α} {s : σ} {Q Q' : α → σ → Prop}
    (hm : Returns m s Q) (h : Ensures m s Q') : Returns m s fun a s' => Q a s' ∧ Q' a s' := by
  obtain ⟨a, s', hma, hQ⟩ := hm
  exact ⟨a, s', hma, hQ, h a s' hma⟩

/-- Programs are deterministic, so a total specification is a partial one. -/
theorem Returns.ensures {m : StateT σ (Except ε) α} {s : σ} {Q : α → σ → Prop}
    (hm : Returns m s Q) : Ensures m s Q := by
  obtain ⟨a, s', hma, hQ⟩ := hm
  intro b s'' hb
  rw [hma] at hb
  cases hb
  exact hQ

/-! ### Frames -/

/-- Partial correctness with a frame: the program can only return in a state that `R`
relates to the one it is run from. -/
def Framed (R : σ → σ → Prop) (m : StateT σ (Except ε) α) (s : σ) (Q : α → σ → Prop) : Prop :=
  Ensures m s fun a s' => R s s' ∧ Q a s'

section Framed

variable {R : σ → σ → Prop} {s : σ}

theorem Framed.mono {m : StateT σ (Except ε) α} {Q Q' : α → σ → Prop} (hm : Framed R m s Q)
    (h : ∀ a s', R s s' → Q a s' → Q' a s') : Framed R m s Q' :=
  Ensures.mono hm fun a s' hQ => ⟨hQ.1, h a s' hQ.1 hQ.2⟩

theorem Framed.ensures {m : StateT σ (Except ε) α} {Q Q' : α → σ → Prop} (hm : Framed R m s Q)
    (h : ∀ a s', R s s' → Q a s' → Q' a s') : Ensures m s Q' :=
  Ensures.mono hm fun a s' hQ => h a s' hQ.1 hQ.2

/-- A program that keeps to a stronger frame. -/
theorem Framed.weaken {R' : σ → σ → Prop} {m : StateT σ (Except ε) α} {Q : α → σ → Prop}
    (hm : Framed R' m s Q) (hR : ∀ s', R' s s' → R s s') :
    Framed R m s fun a s' => R' s s' ∧ Q a s' :=
  Ensures.mono hm fun _ s' hQ => ⟨hR s' hQ.1, hQ⟩

/-- The run is noted with what it ends in. -/
theorem Framed.noting {m : StateT σ (Except ε) α} {Q : α → σ → Prop} (hm : Framed R m s Q) :
    Framed R m s fun a s' => m s = .ok (a, s') ∧ Q a s' :=
  fun a s' hrun => ⟨(hm a s' hrun).1, hrun, (hm a s' hrun).2⟩

/-- The sequencing rule: frames compose. -/
theorem Framed.bind [IsTrans σ R] {m : StateT σ (Except ε) α} {f : α → StateT σ (Except ε) β}
    {P : α → σ → Prop} {Q : β → σ → Prop} (hm : Framed R m s P)
    (hf : ∀ a s', R s s' → P a s' → Framed R (f a) s' Q) : Framed R (m >>= f) s Q := by
  refine Ensures.bind hm ?_
  rintro a s' ⟨hR, hP⟩
  exact Ensures.mono (hf a s' hR hP) fun _ _ h => ⟨IsTrans.trans _ _ _ hR h.1, h.2⟩

theorem Framed.pure {a : α} {Q : α → σ → Prop} (hR : R s s) (h : Q a s) :
    Framed R (Pure.pure a : StateT σ (Except ε) α) s Q := Ensures.pure ⟨hR, h⟩

theorem Framed.fails {e : ε} {Q : α → σ → Prop} :
    Framed R (StateExcept.fails e : StateT σ (Except ε) α) s Q := Ensures.fails

theorem Framed.reads {f : σ → α} {Q : α → σ → Prop} (hR : R s s) (h : Q (f s) s) :
    Framed R (StateExcept.reads f : StateT σ (Except ε) α) s Q := Ensures.reads ⟨hR, h⟩

theorem Framed.modifies {f : σ → σ} {Q : PUnit → σ → Prop} (hR : R s (f s)) (h : Q ⟨⟩ (f s)) :
    Framed R (StateExcept.modifies f : StateT σ (Except ε) PUnit) s Q := Ensures.modifies ⟨hR, h⟩

theorem Framed.onlyIf {c : Prop} [Decidable c] {m : StateT σ (Except ε) PUnit}
    {Q : PUnit → σ → Prop} (hR : R s s) (h₁ : c → Framed R m s Q) (h₂ : ¬ c → Q ⟨⟩ s) :
    Framed R (StateExcept.onlyIf c m) s Q := Ensures.onlyIf h₁ fun hc => ⟨hR, h₂ hc⟩

end Framed

end StateExcept
