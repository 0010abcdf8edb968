import PlumOS.Lib.StateExcept

/-!
# Programs that may leave early

Programs of `StateExcept` with one more way to end: they leave with a value of their
own, and what follows them in a sequence is not run.

## Main definitions

- `Leaving` — such programs
- `Ends` — partial correctness with a postcondition for each of the two endings
- `Passes` — total correctness of a program that does not leave
- `Leaves` — total correctness of a program that leaves
- `Within` — a program that keeps to a relation from every state
- `Keeping` — the same for a program that may leave
- `EndsFramed` — the same with a frame
- `Watches` — a program that leaves where another one goes wrong

## Main results

- `Ends.bind`, `Passes.bind`, `Within.bind`, `Keeping.bind` — the sequencing rules
- `Ends.bind_congr` — two sequences that differ behind their first part
-/

namespace StateExcept

universe u

variable {σ ε ρ γ : Type u} {α β : Type u}

/-- Programs that return a value, leave with a `ρ`, or fail. -/
abbrev Leaving (ρ σ ε : Type u) := ExceptT ρ (StateT σ (Except ε))

/-- Leave. -/
def leaves (r : ρ) : Leaving ρ σ ε α := ExceptT.mk fun s => .ok (.error r, s)

/-- A program that never leaves. -/
def stays (m : StateT σ (Except ε) α) : Leaving ρ σ ε α := ExceptT.mk fun s =>
  match m s with
  | .ok (a, s') => .ok (.ok a, s')
  | .error e => .error e

/-- Run `w`, which may leave, if the condition holds. -/
def leavingIf (c : Prop) [Decidable c] (w : Leaving ρ σ ε PUnit) : Leaving ρ σ ε PUnit :=
  if c then w else Pure.pure ⟨⟩

/-- Leave if the state does not satisfy `c`. -/
def expects (c : σ → Prop) [DecidablePred c] (r : ρ) : Leaving ρ σ ε PUnit :=
  ExceptT.mk fun s => if c s then .ok (.ok ⟨⟩, s) else .ok (.error r, s)

/-- The program, run from `s`, can only leave with a value and in a state that satisfy
`E`, and can only return with a value and in a state that satisfy `Q`. -/
def Ends (m : Leaving ρ σ ε α) (s : σ) (E : ρ → σ → Prop) (Q : α → σ → Prop) : Prop :=
  Ensures m.run s fun r s' => match r with
    | .error e => E e s'
    | .ok a => Q a s'

/-- The program, run from `s`, returns, with a value and a state that satisfy `Q`. -/
def Passes (m : Leaving ρ σ ε α) (s : σ) (Q : α → σ → Prop) : Prop :=
  ∃ a s', m.run s = .ok (.ok a, s') ∧ Q a s'

theorem run_bind (m : Leaving ρ σ ε α) (f : α → Leaving ρ σ ε β) (s : σ) :
    (m >>= f).run s = match m.run s with
      | .ok (.ok a, s') => (f a).run s'
      | .ok (.error r, s') => .ok (.error r, s')
      | .error e => .error e := by
  change (m.run >>= ExceptT.bindCont f) s = _
  cases h : m.run s with
  | error e => exact bind_of_error h
  | ok p =>
    obtain ⟨_ | a, s'⟩ := p
    · exact bind_of_ok h
    · exact bind_of_ok h

theorem run_stays (m : StateT σ (Except ε) α) (s : σ) :
    (stays m : Leaving ρ σ ε α).run s = match m s with
      | .ok (a, s') => .ok (.ok a, s')
      | .error e => .error e := rfl

theorem run_stays_bind {m : StateT σ (Except ε) α} {f : α → Leaving ρ σ ε β} {s s' : σ} {a : α}
    (h : m s = .ok (a, s')) : (stays m >>= f).run s = (f a).run s' := by
  rw [run_bind, run_stays, h]

theorem run_expects_of_pos {c : σ → Prop} [DecidablePred c] {r : ρ} {s : σ} (h : c s) :
    (expects c r : Leaving ρ σ ε PUnit).run s = .ok (.ok ⟨⟩, s) := if_pos h

theorem run_expects_of_neg {c : σ → Prop} [DecidablePred c] {r : ρ} {s : σ} (h : ¬ c s) :
    (expects c r : Leaving ρ σ ε PUnit).run s = .ok (.error r, s) := if_neg h

section Ends

variable {s : σ} {E : ρ → σ → Prop}

theorem Ends.pure {a : α} {Q : α → σ → Prop} (h : Q a s) :
    Ends (Pure.pure a : Leaving ρ σ ε α) s E Q := by
  rintro _ _ ⟨⟩
  exact h

theorem Ends.leaves {r : ρ} {Q : α → σ → Prop} (h : E r s) :
    Ends (StateExcept.leaves r : Leaving ρ σ ε α) s E Q := by
  rintro _ _ ⟨⟩
  exact h

theorem Ends.stays {m : StateT σ (Except ε) α} {Q : α → σ → Prop} (h : Ensures m s Q) :
    Ends (StateExcept.stays m : Leaving ρ σ ε α) s E Q := by
  intro r s' hr
  rw [run_stays] at hr
  cases hm : m s with
  | error e =>
    rw [hm] at hr
    cases hr
  | ok p =>
    rw [hm] at hr
    cases hr
    exact h _ _ hm

/-- The sequencing rule: leaving ends the sequence. -/
theorem Ends.bind {m : Leaving ρ σ ε α} {f : α → Leaving ρ σ ε β} {R : α → σ → Prop}
    {Q : β → σ → Prop} (hm : Ends m s E R) (hf : ∀ a s', R a s' → Ends (f a) s' E Q) :
    Ends (m >>= f) s E Q := by
  intro b s'' h
  rw [run_bind] at h
  cases hma : m.run s with
  | error e =>
    rw [hma] at h
    cases h
  | ok p =>
    obtain ⟨r | a, s'⟩ := p
    · rw [hma] at h
      cases h
      exact hm _ _ hma
    · rw [hma] at h
      exact hf a s' (hm _ _ hma) b s'' h

/-- The rule of consequence. -/
theorem Ends.mono {m : Leaving ρ σ ε α} {Q Q' : α → σ → Prop} (hm : Ends m s E Q)
    (h : ∀ a s', Q a s' → Q' a s') : Ends m s E Q' := by
  intro r s' hr
  have := hm r s' hr
  cases r with
  | error e => exact this
  | ok a => exact h a s' this

theorem Ends.expects {c : σ → Prop} [DecidablePred c] {r : ρ} {Q : PUnit → σ → Prop}
    (h : c s) (hQ : Q ⟨⟩ s) : Ends (StateExcept.expects c r : Leaving ρ σ ε PUnit) s E Q := by
  intro a s' ha
  rw [run_expects_of_pos h] at ha
  cases ha
  exact hQ

/-- Where the condition does not hold, the rest is not run. -/
theorem Ends.expects_bind_of_neg {c : σ → Prop} [DecidablePred c] {r : ρ}
    {f : PUnit → Leaving ρ σ ε α} {Q : α → σ → Prop} (h : ¬ c s) :
    Ends (StateExcept.expects c r >>= f) s E Q ↔ E r s := by
  have hrun : (StateExcept.expects c r >>= f).run s = .ok (.error r, s) := by
    rw [run_bind, run_expects_of_neg h]
  constructor
  · intro hends
    exact hends _ _ hrun
  · intro hE a s' ha
    change (StateExcept.expects c r >>= f).run s = _ at ha
    rw [hrun] at ha
    cases ha
    exact hE

/-- Where it holds, the rest is all that is run. -/
theorem Ends.expects_bind_of_pos {c : σ → Prop} [DecidablePred c] {r : ρ}
    {f : PUnit → Leaving ρ σ ε α} {Q : α → σ → Prop} (h : c s) :
    Ends (StateExcept.expects c r >>= f) s E Q ↔ Ends (f ⟨⟩) s E Q := by
  have hrun : (StateExcept.expects c r >>= f).run s = (f ⟨⟩).run s := by
    rw [run_bind, run_expects_of_pos h]
  exact ⟨Ensures.of_eq hrun.symm, Ensures.of_eq hrun⟩

theorem Ends.stays_bind_of_ok {m : StateT σ (Except ε) α} {f : α → Leaving ρ σ ε β} {a : α} {s' : σ}
    {Q : β → σ → Prop} (h : m s = .ok (a, s')) :
    Ends (StateExcept.stays m >>= f) s E Q ↔ Ends (f a) s' E Q := by
  have hrun := run_stays_bind (f := f) h
  exact ⟨Ensures.of_eq hrun.symm, Ensures.of_eq hrun⟩

theorem Ends.pure_iff {a : α} {Q : α → σ → Prop} :
    Ends (Pure.pure a : Leaving ρ σ ε α) s E Q ↔ Q a s := ⟨fun h => h (.ok a) s rfl, .pure⟩

/-- The first part of a sequence leaves only as the sequence does. -/
theorem Ends.left {m : Leaving ρ σ ε α} {f : α → Leaving ρ σ ε β} {Q : β → σ → Prop}
    (h : Ends (m >>= f) s E Q) : Ends m s E fun _ _ => True := by
  rintro (r | a) s' hm
  · have hrun : m.run s = .ok (.error r, s') := hm
    refine h (.error r) s' ((run_bind m f s).trans ?_)
    rw [hrun]
  · trivial

/-- The rule of consequence for both endings. -/
theorem Ends.conseq {m : Leaving ρ σ ε α} {E' : ρ → σ → Prop} {Q Q' : α → σ → Prop}
    (hm : Ends m s E Q) (hE : ∀ r s', E r s' → E' r s') (hQ : ∀ a s', Q a s' → Q' a s') :
    Ends m s E' Q' := by
  rintro (r | a) s' hr
  · exact hE r s' (hm _ _ hr)
  · exact hQ a s' (hm _ _ hr)

/-- Two sequences with one first part. Where it leaves, both are wrong; where it returns,
they are right together. -/
theorem Ends.bind_congr {m : Leaving ρ σ ε α} {f g : α → Leaving ρ σ ε β} {E' : ρ → σ → Prop}
    {R : α → σ → Prop} {Q Q' : β → σ → Prop}
    (hm : Ends m s (fun r s' => ¬ E r s' ∧ ¬ E' r s') R)
    (hfg : ∀ a s', R a s' → (Ends (f a) s' E Q ↔ Ends (g a) s' E' Q')) :
    Ends (m >>= f) s E Q ↔ Ends (m >>= g) s E' Q' := by
  unfold Ends Ensures
  change (∀ a s', (m >>= f).run s = .ok (a, s') → _) ↔ ∀ a s', (m >>= g).run s = .ok (a, s') → _
  rw [run_bind, run_bind]
  cases hrun : m.run s with
  | error e => exact iff_of_true (fun _ _ h => by cases h) fun _ _ h => by cases h
  | ok p =>
    obtain ⟨r | a, s'⟩ := p
    · obtain ⟨hE, hE'⟩ := hm _ _ hrun
      exact iff_of_false (fun h => hE (h _ _ rfl)) fun h => hE' (h _ _ rfl)
    · exact hfg a s' (hm _ _ hrun)

end Ends

/-- `Ends` with a frame: the program can only return in a state that `R` relates to the one
it is run from. -/
def EndsFramed (R : σ → σ → Prop) (m : Leaving ρ σ ε α) (s : σ) (E : ρ → σ → Prop)
    (Q : α → σ → Prop) : Prop :=
  Ends m s E fun a s' => R s s' ∧ Q a s'

section EndsFramed

variable {R : σ → σ → Prop} {s : σ} {E : ρ → σ → Prop}

theorem EndsFramed.pure {a : α} {Q : α → σ → Prop} (hR : R s s) (h : Q a s) :
    EndsFramed R (Pure.pure a : Leaving ρ σ ε α) s E Q := Ends.pure ⟨hR, h⟩

theorem EndsFramed.stays {m : StateT σ (Except ε) α} {Q : α → σ → Prop} (h : Framed R m s Q) :
    EndsFramed R (StateExcept.stays m : Leaving ρ σ ε α) s E Q := Ends.stays h

theorem EndsFramed.leavingIf {c : Prop} [Decidable c] {w : Leaving ρ σ ε PUnit}
    {Q : PUnit → σ → Prop} (hR : R s s) (h₁ : c → EndsFramed R w s E Q) (h₂ : ¬ c → Q ⟨⟩ s) :
    EndsFramed R (StateExcept.leavingIf c w) s E Q := by
  unfold StateExcept.leavingIf
  split
  · next hc => exact h₁ hc
  · next hc => exact .pure hR (h₂ hc)

theorem EndsFramed.mono {m : Leaving ρ σ ε α} {Q Q' : α → σ → Prop} (hm : EndsFramed R m s E Q)
    (h : ∀ a s', R s s' → Q a s' → Q' a s') : EndsFramed R m s E Q' :=
  Ends.mono hm fun a s' hQ => ⟨hQ.1, h a s' hQ.1 hQ.2⟩

/-- A program that keeps to a stronger frame. -/
theorem EndsFramed.weaken {R' : σ → σ → Prop} {m : Leaving ρ σ ε α} {Q : α → σ → Prop}
    (hm : EndsFramed R' m s E Q) (hR : ∀ s', R' s s' → R s s') :
    EndsFramed R m s E fun a s' => R' s s' ∧ Q a s' :=
  Ends.mono hm fun _ s' hQ => ⟨hR s' hQ.1, hQ⟩

/-- The sequencing rule: frames compose. -/
theorem EndsFramed.bind [IsTrans σ R] {m : Leaving ρ σ ε α} {f : α → Leaving ρ σ ε β}
    {P : α → σ → Prop} {Q : β → σ → Prop} (hm : EndsFramed R m s E P)
    (hf : ∀ a s', R s s' → P a s' → EndsFramed R (f a) s' E Q) : EndsFramed R (m >>= f) s E Q := by
  refine Ends.bind hm ?_
  rintro a s' ⟨hR, hP⟩
  exact Ends.mono (hf a s' hR hP) fun _ _ h => ⟨IsTrans.trans _ _ _ hR h.1, h.2⟩

end EndsFramed

section Passes

variable {s : σ}

theorem Passes.pure {a : α} {Q : α → σ → Prop} (h : Q a s) :
    Passes (Pure.pure a : Leaving ρ σ ε α) s Q := ⟨a, s, rfl, h⟩

theorem Passes.stays {m : StateT σ (Except ε) α} {Q : α → σ → Prop} (h : Returns m s Q) :
    Passes (StateExcept.stays m : Leaving ρ σ ε α) s Q := by
  obtain ⟨a, s', hm, hQ⟩ := h
  refine ⟨a, s', ?_, hQ⟩
  rw [run_stays, hm]

theorem Passes.bind {m : Leaving ρ σ ε α} {f : α → Leaving ρ σ ε β} {R : α → σ → Prop}
    {Q : β → σ → Prop} (hm : Passes m s R) (hf : ∀ a s', R a s' → Passes (f a) s' Q) :
    Passes (m >>= f) s Q := by
  obtain ⟨a, s', hma, hR⟩ := hm
  obtain ⟨b, s'', hfb, hQ⟩ := hf a s' hR
  refine ⟨b, s'', ?_, hQ⟩
  rw [run_bind, hma]
  exact hfb

theorem Passes.mono {m : Leaving ρ σ ε α} {Q Q' : α → σ → Prop} (hm : Passes m s Q)
    (h : ∀ a s', Q a s' → Q' a s') : Passes m s Q' := by
  obtain ⟨a, s', hma, hQ⟩ := hm
  exact ⟨a, s', hma, h a s' hQ⟩

/-- The program, run from `s`, leaves with a value and in a state that satisfy `E`. -/
def Leaves (m : Leaving ρ σ ε α) (s : σ) (E : ρ → σ → Prop) : Prop :=
  ∃ r s', m.run s = .ok (.error r, s') ∧ E r s'

theorem Leaves.leaves {r : ρ} {E : ρ → σ → Prop} (h : E r s) :
    Leaves (StateExcept.leaves r : Leaving ρ σ ε α) s E := ⟨r, s, rfl, h⟩

theorem Leaves.mono {m : Leaving ρ σ ε α} {E E' : ρ → σ → Prop} (hm : Leaves m s E)
    (h : ∀ r s', E r s' → E' r s') : Leaves m s E' := by
  obtain ⟨r, s', hrun, hE⟩ := hm
  exact ⟨r, s', hrun, h r s' hE⟩

/-- A sequence leaves where its second part does. -/
theorem Passes.leaves {m : Leaving ρ σ ε α} {f : α → Leaving ρ σ ε β} {R : α → σ → Prop}
    {E : ρ → σ → Prop} (hm : Passes m s R) (hf : ∀ a s', R a s' → Leaves (f a) s' E) :
    Leaves (m >>= f) s E := by
  obtain ⟨a, s', hma, hR⟩ := hm
  obtain ⟨r, s'', hfr, hE⟩ := hf a s' hR
  refine ⟨r, s'', ?_, hE⟩
  rw [run_bind, hma]
  exact hfr

/-- A sequence leaves where its first part does. -/
theorem Leaves.bind {m : Leaving ρ σ ε α} {f : α → Leaving ρ σ ε β} {E : ρ → σ → Prop}
    (hm : Leaves m s E) : Leaves (m >>= f) s E := by
  obtain ⟨r, s', hrun, hE⟩ := hm
  refine ⟨r, s', ?_, hE⟩
  rw [run_bind, hrun]

/-- A loop keeps what each of its rounds keeps. -/
theorem Passes.forM {w : γ → Leaving ρ σ ε PUnit} {I : σ → Prop} (l : List γ)
    (h : ∀ c ∈ l, ∀ s, I s → Passes (w c) s fun _ => I) (hs : I s) :
    Passes (l.forM w) s fun _ => I := by
  induction l generalizing s with
  | nil => exact .pure hs
  | cons c l ih =>
    refine .bind (h c List.mem_cons_self s hs) fun _ s' hs' => ?_
    exact ih (fun d hd => h d (List.mem_cons_of_mem c hd)) hs'

end Passes

/-! ### Programs that keep to a relation -/

/-- From every state, the program can only return in a state that `R` relates to it. The
rules are instances, so that the shape of a program shows it. -/
class Within (R : σ → σ → Prop) (m : StateT σ (Except ε) α) : Prop where
  within : ∀ s, Ensures m s fun _ s' => R s s'

section Within

variable {R : σ → σ → Prop}

theorem Within.ensures (m : StateT σ (Except ε) α) [h : Within R m] (s : σ) :
    Ensures m s fun _ s' => R s s' := h.within s

instance Within.fails (e : ε) : Within R (StateExcept.fails e : StateT σ (Except ε) α) :=
  ⟨fun _ => Ensures.fails⟩

instance Within.pure [Std.Refl R] (a : α) : Within R (Pure.pure a : StateT σ (Except ε) α) :=
  ⟨fun s => Ensures.pure (Std.Refl.refl s)⟩

instance Within.reads [Std.Refl R] (g : σ → α) :
    Within R (StateExcept.reads g : StateT σ (Except ε) α) :=
  ⟨fun s => Ensures.reads (Std.Refl.refl s)⟩

theorem Within.modifies {g : σ → σ} (h : ∀ s, R s (g s)) :
    Within R (StateExcept.modifies g : StateT σ (Except ε) PUnit) := ⟨fun s => Ensures.modifies (h s)⟩

instance Within.bind [IsTrans σ R] (m : StateT σ (Except ε) α) (g : α → StateT σ (Except ε) β)
    [hm : Within R m] [hg : ∀ a, Within R (g a)] : Within R (m >>= g) where
  within s := by
    refine Ensures.bind (hm.within s) fun a s' hs' => ?_
    refine ((hg a).within s').mono fun _ s'' hs'' => ?_
    exact IsTrans.trans _ _ _ hs' hs''

/-- `Within.bind` with its premises as arguments, for a program that splits into cases. -/
theorem Within.seq [IsTrans σ R] {m : StateT σ (Except ε) α} {g : α → StateT σ (Except ε) β}
    (hm : Within R m) (hg : ∀ a, Within R (g a)) : Within R (m >>= g) := inferInstance

instance Within.onlyIf [Std.Refl R] (c : Prop) [Decidable c] (m : StateT σ (Except ε) PUnit)
    [h : Within R m] : Within R (StateExcept.onlyIf c m) :=
  ⟨fun s => Ensures.onlyIf (fun _ => h.within s) fun _ => Std.Refl.refl s⟩

instance Within.ite (c : Prop) [Decidable c] (m m' : StateT σ (Except ε) α) [h : Within R m]
    [h' : Within R m'] : Within R (if c then m else m') := by
  split
  · exact h
  · exact h'

end Within

/-- From every state, the program can only leave with a value and in a state that satisfy
`E`, and can only return in a state that `R` relates to it. -/
class Keeping (E : ρ → σ → Prop) (R : σ → σ → Prop) (m : Leaving ρ σ ε α) : Prop where
  keeping : ∀ s, Ends m s E fun _ s' => R s s'

section Keeping

variable {E : ρ → σ → Prop} {R : σ → σ → Prop}

theorem Keeping.ends (m : Leaving ρ σ ε α) [h : Keeping E R m] (s : σ) :
    Ends m s E fun _ s' => R s s' := h.keeping s

instance Keeping.pure [Std.Refl R] (a : α) : Keeping E R (Pure.pure a : Leaving ρ σ ε α) :=
  ⟨fun s => Ends.pure (Std.Refl.refl s)⟩

instance Keeping.stays (m : StateT σ (Except ε) α) [Within R m] :
    Keeping E R (StateExcept.stays m : Leaving ρ σ ε α) :=
  ⟨fun s => Ends.stays (Within.ensures m s)⟩

instance Keeping.bind [IsTrans σ R] (m : Leaving ρ σ ε α) (g : α → Leaving ρ σ ε β)
    [hm : Keeping E R m] [hg : ∀ a, Keeping E R (g a)] : Keeping E R (m >>= g) where
  keeping s := by
    refine Ends.bind (hm.keeping s) fun a s' hs' => ?_
    refine ((hg a).keeping s').mono fun _ s'' hs'' => ?_
    exact IsTrans.trans _ _ _ hs' hs''

instance Keeping.ite (c : Prop) [Decidable c] (m m' : Leaving ρ σ ε α) [h : Keeping E R m]
    [h' : Keeping E R m'] : Keeping E R (if c then m else m') := by
  split
  · exact h
  · exact h'

instance Keeping.forM [Std.Refl R] [IsTrans σ R] (w : γ → Leaving ρ σ ε PUnit) (l : List γ)
    [hw : ∀ c, Keeping E R (w c)] : Keeping E R (l.forM w) := by
  induction l with
  | nil => exact inferInstanceAs (Keeping E R (Pure.pure PUnit.unit))
  | cons c l ih =>
    have hrest : ∀ _ : PUnit.{u + 1}, Keeping E R (l.forM w) := fun _ => ih
    exact Keeping.bind (w c) fun _ => l.forM w

end Keeping

/-! ### Programs that are watched -/

/-- Unless it leaves, the program `w` does what `m` does. -/
def Watches (w : Leaving ρ σ ε α) (m : StateT σ (Except ε) α) : Prop :=
  ∀ s, (∃ r s', w.run s = .ok (.error r, s')) ∨ w.run s = (stays m : Leaving ρ σ ε α).run s

/-- The program, run from `s`, does not leave. -/
def NeverLeaves (w : Leaving ρ σ ε α) (s : σ) : Prop := Ends w s (fun _ _ => False) fun _ _ => True

section Watches

theorem Watches.stays (m : StateT σ (Except ε) α) :
    Watches (StateExcept.stays m : Leaving ρ σ ε α) m := fun _ => Or.inr rfl

theorem Watches.pure (a : α) : Watches (Pure.pure a : Leaving ρ σ ε α) (Pure.pure a) :=
  fun _ => Or.inr rfl

theorem Watches.bind {w : Leaving ρ σ ε α} {m : StateT σ (Except ε) α} {f : α → Leaving ρ σ ε β}
    {g : α → StateT σ (Except ε) β} (h : Watches w m) (hf : ∀ a, Watches (f a) (g a)) :
    Watches (w >>= f) (m >>= g) := by
  intro s
  rcases h s with ⟨r, s', hw⟩ | hw
  · refine Or.inl ⟨r, s', ?_⟩
    rw [run_bind, hw]
  · rw [run_bind, hw, run_stays, run_stays]
    cases hm : m s with
    | error e =>
      rw [bind_of_error hm]
      exact Or.inr rfl
    | ok r =>
      rw [bind_of_ok (t := r.2) hm]
      exact hf r.1 r.2

theorem Watches.ite {c : Prop} [Decidable c] {w w' : Leaving ρ σ ε α}
    {m m' : StateT σ (Except ε) α} (h : Watches w m) (h' : Watches w' m') :
    Watches (if c then w else w') (if c then m else m') := by
  split
  · exact h
  · exact h'

theorem Watches.ite_bind {c : Prop} [Decidable c] {w w' : Leaving ρ σ ε β}
    {f : β → Leaving ρ σ ε α} {m m' : StateT σ (Except ε) α} (h : Watches (w >>= f) m)
    (h' : Watches (w' >>= f) m') :
    Watches ((if c then w else w') >>= f) (if c then m else m') := by
  split
  · exact h
  · exact h'

theorem Watches.onlyIf {c : Prop} [Decidable c] {w : Leaving ρ σ ε PUnit}
    {m : StateT σ (Except ε) PUnit} (h : Watches w m) :
    Watches (leavingIf c w) (StateExcept.onlyIf c m) := .ite h (.pure _)

/-- A condition before the rest of the program. -/
theorem Watches.expects {c : σ → Prop} [DecidablePred c] {r : ρ} {w : Leaving ρ σ ε α}
    {m : StateT σ (Except ε) α} (h : Watches w m) :
    Watches (StateExcept.expects c r >>= fun _ => w) m := by
  intro s
  rw [run_bind]
  by_cases hc : c s
  · rw [run_expects_of_pos hc]
    exact h s
  · rw [run_expects_of_neg hc]
    exact Or.inl ⟨r, s, rfl⟩

/-- A program that returns more than the one it watches. -/
theorem Watches.bind_map {δ : Type u} {w : Leaving ρ σ ε δ} {p : δ → α}
    {m : StateT σ (Except ε) α} {f : δ → Leaving ρ σ ε β} {g : α → StateT σ (Except ε) β}
    (h : Watches (w >>= fun d => Pure.pure (p d)) m) (hf : ∀ d, Watches (f d) (g (p d))) :
    Watches (w >>= f) (m >>= g) := by
  intro s
  have hs := h s
  rw [run_bind] at hs ⊢
  cases hw : w.run s with
  | error e =>
    rw [hw, run_stays] at hs
    obtain ⟨_, _, hleaves⟩ | hm := hs
    · cases hleaves
    cases hms : m s with
    | error e' =>
      rw [hms] at hm
      cases hm
      right
      rw [run_stays, bind_of_error hms]
    | ok r =>
      rw [hms] at hm
      cases hm
  | ok r =>
    obtain ⟨r | d, s'⟩ := r
    · exact Or.inl ⟨r, s', rfl⟩
    rw [hw, run_stays] at hs
    obtain ⟨_, _, hleaves⟩ | hm := hs
    · cases hleaves
    cases hms : m s with
    | error e =>
      rw [hms] at hm
      cases hm
    | ok q =>
      obtain ⟨a, t⟩ := q
      rw [hms] at hm
      cases hm
      rw [run_stays, bind_of_ok hms]
      exact hf d s'

theorem Watches.forM {w : γ → Leaving ρ σ ε PUnit} {m : γ → StateT σ (Except ε) PUnit}
    (l : List γ) (h : ∀ c, Watches (w c) (m c)) : Watches (l.forM w) (l.forM m) := by
  induction l with
  | nil => exact .pure _
  | cons c l ih => exact .bind (h c) fun _ => ih

/-- Where a watched program returns, so does the program. -/
theorem Watches.ok {w : Leaving ρ σ ε α} {m : StateT σ (Except ε) α} (h : Watches w m)
    {s s' : σ} {a : α} (hw : w.run s = .ok (.ok a, s')) : m s = .ok (a, s') := by
  rcases h s with ⟨r, s'', hleaves⟩ | heq
  · rw [hw] at hleaves
    cases hleaves
  · rw [hw, run_stays] at heq
    cases hm : m s with
    | error e =>
      rw [hm] at heq
      cases heq
    | ok p =>
      rw [hm] at heq
      cases heq
      rfl

end Watches

section NeverLeaves

variable {s : σ}

theorem NeverLeaves.congr {w w' : Leaving ρ σ ε α} {s' : σ} (h : w.run s = w'.run s') :
    NeverLeaves w s ↔ NeverLeaves w' s' := by
  unfold NeverLeaves Ends Ensures
  change (∀ r t, w.run s = .ok (r, t) → _) ↔ ∀ r t, w'.run s' = .ok (r, t) → _
  rw [h]

theorem NeverLeaves.stays (m : StateT σ (Except ε) α) :
    NeverLeaves (StateExcept.stays m : Leaving ρ σ ε α) s := Ends.stays fun _ _ _ => trivial

theorem NeverLeaves.pure (a : α) : NeverLeaves (Pure.pure a : Leaving ρ σ ε α) s :=
  Ends.pure trivial

theorem NeverLeaves.bind {w : Leaving ρ σ ε α} {f : α → Leaving ρ σ ε β} (h : NeverLeaves w s)
    (hf : ∀ a s', NeverLeaves (f a) s') : NeverLeaves (w >>= f) s :=
  Ends.bind h fun a s' _ => hf a s'

theorem NeverLeaves.leavingIf {c : Prop} [Decidable c] {w : Leaving ρ σ ε PUnit}
    (h : c → NeverLeaves w s) : NeverLeaves (StateExcept.leavingIf c w) s := by
  unfold StateExcept.leavingIf
  split
  · next hc => exact h hc
  · exact .pure _

/-- A program that never leaves is the one it watches. -/
theorem Watches.run_eq {w : Leaving ρ σ ε α} {m : StateT σ (Except ε) α} (h : Watches w m)
    (hs : NeverLeaves w s) : w.run s = (StateExcept.stays m : Leaving ρ σ ε α).run s := by
  rcases h s with ⟨r, s', hw⟩ | hw
  · exact (hs _ _ hw).elim
  · exact hw

/-- What a watched program that never leaves ensures, the program does. -/
theorem Watches.ensures {w : Leaving ρ σ ε α} {m : StateT σ (Except ε) α} (h : Watches w m)
    (hs : NeverLeaves w s) {E : ρ → σ → Prop} {Q : α → σ → Prop} (hw : Ends w s E Q) :
    Ensures m s Q := by
  intro a s' hm
  have hrun := h.run_eq hs
  rw [run_stays, hm] at hrun
  exact hw _ _ hrun

end NeverLeaves

end StateExcept
