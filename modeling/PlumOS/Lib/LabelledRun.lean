import Mathlib.Data.List.Basic

/-!
# Labelled runs

Runs of a labelled step relation, and the rules that take a fact about one
step to a fact about a whole run: an invariant that every step keeps holds in
every state visited, a property that is kept exactly by the steps a
condition admits holds along a run exactly when the condition admits every step,
and what is never given back can be gained only so often.

## Main definitions

- `Run` — a run, given by its labels and the states they lead to
- `AllStates` — a property of every state the run visits
- `AllSteps` — a condition on the source state and the label of every step
- `AllMoves` — a relation between the source and the target of every step
- `lastState` — where the run ends

## Main results

- `Run.invariant`, `Run.allMoves`, `Run.allStates_iff_allSteps` — from a step to a run
- `Run.countP_le` — how often a run can gain
-/

namespace LabelledRun

variable {σ ℓ : Type*}

/-- A run from a state: the labels of its steps, each with the state it leads to. -/
inductive Run (step : σ → ℓ → σ → Prop) : σ → List (ℓ × σ) → Prop
  | nil (s : σ) : Run step s []
  | cons {s s' : σ} {l : ℓ} {tr : List (ℓ × σ)} :
      step s l s' → Run step s' tr → Run step s ((l, s') :: tr)

/-- Every state visited by the run satisfies `P`. -/
def AllStates (P : σ → Prop) (s : σ) (tr : List (ℓ × σ)) : Prop :=
  P s ∧ ∀ x ∈ tr, P x.2

/-- Every step of the run starts in a state where `C` admits its label. -/
def AllSteps (C : σ → ℓ → Prop) : σ → List (ℓ × σ) → Prop
  | _, [] => True
  | s, (l, s') :: tr => C s l ∧ AllSteps C s' tr

/-- Every step of the run, with the state it leads to, satisfies `R`. -/
def AllMoves (R : σ → ℓ → σ → Prop) : σ → List (ℓ × σ) → Prop
  | _, [] => True
  | s, (l, s') :: tr => R s l s' ∧ AllMoves R s' tr

theorem allSteps_of_forall {C : σ → ℓ → Prop} (h : ∀ s l, C s l) (s : σ) (tr : List (ℓ × σ)) :
    AllSteps C s tr := by
  induction tr generalizing s with
  | nil => trivial
  | cons x tr ih => exact ⟨h s x.1, ih x.2⟩

/-- The state at the end of the run. -/
def lastState : σ → List (ℓ × σ) → σ
  | s, [] => s
  | _, (_, s') :: tr => lastState s' tr

variable {step : σ → ℓ → σ → Prop} {Inv P : σ → Prop} {C : σ → ℓ → Prop}

theorem allStates_nil {s : σ} : AllStates P s ([] : List (ℓ × σ)) ↔ P s := by
  simp [AllStates]

theorem allStates_cons {s s' : σ} {l : ℓ} {tr : List (ℓ × σ)} :
    AllStates P s ((l, s') :: tr) ↔ P s ∧ AllStates P s' tr := by
  simp [AllStates]

/-- Runs compose. -/
theorem Run.append {s : σ} {tr tr' : List (ℓ × σ)} (hrun : Run step s tr)
    (hrun' : Run step (lastState s tr) tr') : Run step s (tr ++ tr') := by
  induction hrun with
  | nil s => exact hrun'
  | cons hst _ ih => exact .cons hst (ih hrun')

theorem lastState_append (s : σ) (tr tr' : List (ℓ × σ)) :
    lastState s (tr ++ tr') = lastState (lastState s tr) tr' := by
  induction tr generalizing s with
  | nil => rfl
  | cons x tr ih => exact ih x.2

theorem AllStates.last {s : σ} {tr : List (ℓ × σ)} (h : AllStates P s tr) :
    P (lastState s tr) := by
  induction tr generalizing s with
  | nil => exact allStates_nil.mp h
  | cons x tr ih => exact ih (allStates_cons.mp h).2

/-- The run rule: what holds at the start and is kept by every step the
condition admits holds in every state of a run of such steps. -/
theorem Run.invariant
    (hstep : ∀ {s l s'}, Inv s → C s l → step s l s' → Inv s')
    {s : σ} {tr : List (ℓ × σ)} (hrun : Run step s tr) (hs : Inv s)
    (hC : AllSteps C s tr) : AllStates Inv s tr := by
  induction hrun with
  | nil s => exact allStates_nil.mpr hs
  | cons hst _ ih => exact allStates_cons.mpr ⟨hs, ih (hstep hs hC.1 hst) hC.2⟩

/-- What every step from a state with the invariant does, every step of a run does. -/
theorem Run.allMoves {R : σ → ℓ → σ → Prop}
    (hkeep : ∀ {s l s'}, Inv s → step s l s' → Inv s')
    (hmove : ∀ {s l s'}, Inv s → step s l s' → R s l s')
    {s : σ} {tr : List (ℓ × σ)} (hrun : Run step s tr) (hs : Inv s) : AllMoves R s tr := by
  induction hrun with
  | nil s => trivial
  | cons hst _ ih => exact ⟨hmove hs hst, ih (hkeep hs hst)⟩

/-- The exact form of the run rule. `Inv` strengthens `P`, steps admitted by
`C` keep `Inv`, and any other step ends in a state without `P`. Then `P` holds
in every state of a run exactly when `C` admits every one of its steps. -/
theorem Run.allStates_iff_allSteps
    (hP : ∀ {s}, Inv s → P s)
    (hkeep : ∀ {s l s'}, Inv s → C s l → step s l s' → Inv s')
    (hbreak : ∀ {s l s'}, Inv s → ¬ C s l → step s l s' → ¬ P s')
    {s : σ} {tr : List (ℓ × σ)} (hrun : Run step s tr) (hs : Inv s) :
    AllStates P s tr ↔ AllSteps C s tr := by
  induction hrun with
  | nil s => exact ⟨fun _ => trivial, fun _ => allStates_nil.mpr (hP hs)⟩
  | @cons s s' l tr hst _ ih =>
    constructor
    · intro h
      have hrest := (allStates_cons.mp h).2
      have hC : C s l := by
        by_contra hC
        exact hbreak hs hC hst hrest.1
      exact ⟨hC, (ih (hkeep hs hC hst)).mp hrest⟩
    · intro h
      exact allStates_cons.mpr ⟨hP hs, (ih (hkeep hs h.1 hst)).mpr h.2⟩

/-- The counting rule: where a ledger of at most `N` entries takes a new one at every step
that gains, a run has at most `N` such steps. -/
theorem Run.countP_le {α : Type*} (Ledger : List α → σ → Prop) (gains : ℓ → Bool) {N : ℕ}
    (hN : ∀ {L s}, Ledger L s → L.length ≤ N)
    (hstep : ∀ {L s l s'}, Ledger L s → step s l s' →
      ∃ L', Ledger L' s' ∧ L.length + (gains l).toNat ≤ L'.length)
    {s : σ} {tr : List (ℓ × σ)} (hrun : Run step s tr) {L : List α} (hs : Ledger L s) :
    L.length + tr.countP (fun x => gains x.1) ≤ N := by
  induction hrun generalizing L with
  | nil s => simpa using hN hs
  | @cons s s' l tr hst _ ih =>
    obtain ⟨L', hs', hlen⟩ := hstep hs hst
    have hrest := ih hs'
    have hgain : (gains l).toNat = if gains l then 1 else 0 := by cases gains l <;> rfl
    rw [List.countP_cons]
    dsimp only
    omega

/-- Two conditions that agree on every step from a state with `Inv` admit the same runs. -/
theorem Run.allSteps_iff {C' : σ → ℓ → Prop}
    (hkeep : ∀ {s l s'}, Inv s → step s l s' → Inv s')
    (hiff : ∀ {s l s'}, Inv s → step s l s' → (C s l ↔ C' s l))
    {s : σ} {tr : List (ℓ × σ)} (hrun : Run step s tr) (hs : Inv s) :
    AllSteps C s tr ↔ AllSteps C' s tr := by
  induction hrun with
  | nil s => exact Iff.rfl
  | cons hst _ ih => exact and_congr (hiff hs hst) (ih (hkeep hs hst))

end LabelledRun
