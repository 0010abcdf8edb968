import PlumOS.Keyboard.KeyboardQueue

/-!
# A backspace when no character is unread

`keyboard_backspace` takes a tail counter of 0 for an empty buffer. After characters were
pushed and popped again the buffer is empty at another counter: the backspace then steps the
tail behind the head, and what is pushed next is not what is popped next.

## Main definitions

- `NoneUnread` — every character that was pushed is gone
- `keyboardReturned` — what a sequence of pushes and pops returns
- `BackspaceUnseen` — what is expected of a backspace then

## Main results

- `keyboardBackspace_unseen_iff`
-/

namespace PlumOS

open StateExcept LabelledRun

/-- No cell holds a character: all that were pushed were popped or overwritten. -/
def KeyboardBuffer.NoneUnread (kb : KeyboardBuffer) : Prop :=
  ∀ i < PLUMOS_KEYBOARD_BUFFER_SIZE, kb.buffer i = 0

/-- No character is unread in the buffer of process `p`. -/
def NoneUnread (p : Nat) (k : Kernel) : Prop :=
  ∀ pr, k.objs p = some (.process pr) → pr.keyboard.NoneUnread

/-- The characters that the pops among these operations return. -/
def keyboardReturned (p : Nat) : List KeyboardOp → KM (List UInt8)
  | [] => pure []
  | .push c :: ops => do
    keyboardPush c
    keyboardReturned p ops
  | .pop :: ops => do
    let c ← keyboardPop
    let cs ← keyboardReturned p ops
    pure (c :: cs)
  | .backspace :: ops => do
    keyboardBackspace p
    keyboardReturned p ops

/-- Pushes and pops return the same characters as without the backspace. -/
def BackspaceUnseen (p : Nat) (k : Kernel) : Prop :=
  Returns (keyboardBackspace p) k fun _ k' => ∀ ops, KeyboardOp.backspace ∉ ops →
    (keyboardReturned p ops k').map Prod.fst = (keyboardReturned p ops k).map Prod.fst

/-! ### The counter of the tail -/

/-- The tail counts the characters that were pushed, as an `int`. -/
def TailInv (p : Nat) (s : TypedRun) : Prop :=
  ∃ kb : KeyboardBuffer, TypingAt p s.kernel kb ∧ kb.tail = i32 s.pushed.length

theorem TailInv.step {p : Nat} {s s' : TypedRun} {op : KeyboardOp} (h : TailInv p s)
    (hstep : TypedStep s op s') : TailInv p s' := by
  obtain ⟨kb, hk, htail⟩ := h
  cases hstep with
  | @push c k' hpush =>
    by_cases hc : c = 0
    · subst hc
      rw [keyboardPush_zero hk] at hpush
      cases hpush
      exact ⟨kb, hk, htail⟩
    · refine ⟨_, (keyboardPush_returns hk hc).ensures _ _ hpush, ?_⟩
      rw [if_neg hc, List.length_append, List.length_singleton]
      change i32 (kb.tail + 1) = _
      rw [htail, i32_add_left]
      rfl
  | @pop c k' hpop =>
    obtain ⟨-, hzero, hsome⟩ := (keyboardPop_returns hk).ensures _ _ hpop
    by_cases hc : c = 0
    · obtain rfl := hzero hc
      exact ⟨kb, hk, htail⟩
    · exact ⟨_, hsome hc, htail⟩

theorem tailInv_of_run {p : Nat} {k : Kernel} {tr : List (KeyboardOp × TypedRun)}
    (hk : TypingAt p k Process.zero.keyboard) (hrun : Run TypedStep ⟨k, [], []⟩ tr) :
    TailInv p (lastState ⟨k, [], []⟩ tr) := by
  have hinit : TailInv p ⟨k, [], []⟩ :=
    ⟨_, hk, (i32_of_range (x := 0) (by decide) (by decide)).symm⟩
  have hall := hrun.invariant (C := fun _ _ => True)
    (fun {s op s'} (h : TailInv p s) _ hstep => h.step hstep) hinit
    (allSteps_of_forall (fun _ _ => trivial) _ _)
  exact hall.last

theorem i32_natCast_eq_zero {n : Nat} : i32 (n : Int) = 0 ↔ 0x100000000 ∣ n := by
  unfold i32
  omega

/-! ### Pushes of one character -/

/-- The buffer after `n` pushes of `c`. -/
def KeyboardBuffer.filled (kb : KeyboardBuffer) (c : UInt8) : Nat → KeyboardBuffer
  | 0 => kb
  | n + 1 => (kb.pushed c).filled c n

namespace KeyboardBuffer

variable {kb : KeyboardBuffer} {c : UInt8}

/-- A cell that the pushes do not come to is as it was. -/
theorem filled_of_not_mem {n i : Nat}
    (h : ∀ j < n, (keyboardGetTailIndex kb + j) % 1024 ≠ i) :
    (kb.filled c n).buffer i = kb.buffer i := by
  induction n generalizing kb with
  | zero => rfl
  | succ n ih =>
    have hfirst : i ≠ keyboardGetTailIndex kb := by
      have := h 0 (by omega)
      rw [Nat.add_zero, Nat.mod_eq_of_lt kb.tailIndex_lt] at this
      exact Ne.symm this
    refine (ih fun j hj => ?_).trans (Function.update_of_ne hfirst _ _)
    rw [tail_pushed]
    have := h (j + 1) (by omega)
    omega

/-- The cell of the last push holds its character. -/
theorem filled_last {n : Nat} (hn : n < 1024) :
    (kb.filled c (n + 1)).buffer ((keyboardGetTailIndex kb + n) % 1024) = c := by
  induction n generalizing kb with
  | zero =>
    rw [show (keyboardGetTailIndex kb + 0) % 1024 = keyboardGetTailIndex kb from
      Nat.mod_eq_of_lt kb.tailIndex_lt]
    exact Function.update_self ..
  | succ n ih =>
    have hlast := @ih (kb.pushed c) (by omega)
    rw [tail_pushed, show ((keyboardGetTailIndex kb + 1) % 1024 + n) % 1024 =
      (keyboardGetTailIndex kb + (n + 1)) % 1024 by omega] at hlast
    exact hlast

end KeyboardBuffer

/-- `n` pushes and a pop. -/
def pushesThenPop (c : UInt8) (n : Nat) : List KeyboardOp :=
  List.replicate n (.push c) ++ [.pop]

theorem backspace_not_mem_pushesThenPop (c : UInt8) (n : Nat) :
    KeyboardOp.backspace ∉ pushesThenPop c n := by
  unfold pushesThenPop
  simp [List.mem_replicate]

/-- The pop returns what the pushes left in the cell of the head. -/
theorem keyboardReturned_pushesThenPop {p : Nat} {c : UInt8} (hc : c ≠ 0) (n : Nat) {k : Kernel}
    {kb : KeyboardBuffer} (hk : TypingAt p k kb) :
    (keyboardReturned p (pushesThenPop c n) k).map Prod.fst =
      .ok [(kb.filled c n).buffer (keyboardHeadIndex kb)] := by
  induction n generalizing k kb with
  | zero =>
    obtain ⟨d, k', hpop, hcell, -⟩ := keyboardPop_returns hk
    subst hcell
    unfold pushesThenPop
    rw [List.replicate_zero, List.nil_append]
    unfold keyboardReturned
    rw [bind_of_ok hpop]
    rfl
  | succ n ih =>
    obtain ⟨_, k', hpush, hk'⟩ := keyboardPush_returns hk hc
    change ((keyboardPush c >>= fun _ => keyboardReturned p (pushesThenPop c n)) k).map Prod.fst = _
    rw [bind_of_ok hpush, ih hk']
    rfl

/-! ### The backspace -/

theorem backspaceUnseen_of_zero {p : Nat} {k : Kernel} {kb : KeyboardBuffer}
    (hk : TypingAt p k kb) (htail : kb.tail = 0) : BackspaceUnseen p k :=
  ⟨_, _, keyboardBackspace_zero hk htail, fun _ _ => rfl⟩

/-- With the tail one cell back, some pushes and a pop tell the difference. -/
theorem not_backspaceUnseen {p : Nat} {k : Kernel} {kb : KeyboardBuffer} (hk : TypingAt p k kb)
    (hempty : kb.NoneUnread) (htail : kb.tail ≠ 0) : ¬ BackspaceUnseen p k := by
  obtain ⟨_, k', hback, hk'⟩ := keyboardBackspace_returns hk htail
  intro hunseen
  have hsame := hunseen.ensures _ _ hback
  have hc : (0x41 : UInt8) ≠ 0 := by decide
  have hhead := kb.headIndex_lt
  have htl := kb.tailIndex_lt
  have hempty' : kb.backspaced.buffer (keyboardHeadIndex kb) = 0 := by
    by_cases heq : keyboardHeadIndex kb = keyboardGetTailIndex kb.backspaced
    · rw [heq]
      exact Function.update_self ..
    · exact (Function.update_of_ne heq _ _).trans (hempty _ hhead)
  have hpops : ∀ n, (kb.backspaced.filled 0x41 n).buffer (keyboardHeadIndex kb) =
      (kb.filled 0x41 n).buffer (keyboardHeadIndex kb) := by
    intro n
    have h := hsame _ (backspace_not_mem_pushesThenPop 0x41 n)
    rw [keyboardReturned_pushesThenPop hc n hk', keyboardReturned_pushesThenPop hc n hk] at h
    exact List.singleton_injective (Except.ok.inj h)
  obtain ⟨d, hd, hlt⟩ : ∃ d, (keyboardGetTailIndex kb + d) % 1024 = keyboardHeadIndex kb ∧
      d < 1024 :=
    ⟨(keyboardHeadIndex kb + 1024 - keyboardGetTailIndex kb) % 1024, by omega, by omega⟩
  by_cases hlast : d = 1023
  · -- the tail steps back onto the head: the next push is the next pop
    have hpop := hpops 1
    have hfill : (kb.backspaced.filled 0x41 1).buffer (keyboardHeadIndex kb) = 0x41 := by
      have := kb.backspaced.filled_last (c := 0x41) (n := 0) (by omega)
      rwa [KeyboardBuffer.tail_backspaced, show
        ((keyboardGetTailIndex kb + 1023) % 1024 + 0) % 1024 = keyboardHeadIndex kb by omega]
        at this
    rw [hfill, KeyboardBuffer.filled_of_not_mem (by omega), hempty _ hhead] at hpop
    exact hc hpop
  · -- `d + 1` pushes come to the head, and end one cell before it with the tail one cell back
    have hpop := hpops (d + 1)
    have hfill := kb.filled_last (c := 0x41) hlt
    rw [hd] at hfill
    rw [hfill, KeyboardBuffer.filled_of_not_mem (by
      rw [KeyboardBuffer.tail_backspaced]
      omega), hempty'] at hpop
    exact hc hpop.symm

/-- In every state that pushes and pops lead to from a new process's buffer and in which no
character is unread, the backspace leaves the queue as it was exactly when the number of
characters pushed is a multiple of 2³². -/
theorem keyboardBackspace_unseen_iff {p : Nat} {k : Kernel} {tr : List (KeyboardOp × TypedRun)}
    (hk : TypingAt p k Process.zero.keyboard) (hrun : Run TypedStep ⟨k, [], []⟩ tr)
    (hnone : NoneUnread p (lastState ⟨k, [], []⟩ tr).kernel) :
    BackspaceUnseen p (lastState ⟨k, [], []⟩ tr).kernel ↔
      0x100000000 ∣ (lastState ⟨k, [], []⟩ tr).pushed.length := by
  obtain ⟨kb, hlast, htail⟩ := tailInv_of_run hk hrun
  obtain ⟨pr, hpr, rfl⟩ := id hlast.process
  rw [← i32_natCast_eq_zero, ← htail]
  constructor
  · intro h
    by_contra hne
    exact not_backspaceUnseen hlast (hnone pr hpr) hne h
  · exact backspaceUnseen_of_zero hlast

/-- The run: a push and its pop. -/
theorem typedRun_pushPop : ∃ (k' : Kernel) (tr : List (KeyboardOp × TypedRun))
    (kb : KeyboardBuffer), Run TypedStep ⟨Kernel.typing, [], []⟩ tr ∧
      lastState ⟨Kernel.typing, [], []⟩ tr = ⟨k', [0x41], [0x41]⟩ ∧ TypingAt 0x2000 k' kb ∧
      kb.NoneUnread ∧ kb.tail = 1 := by
  have hc : (0x41 : UInt8) ≠ 0 := by decide
  obtain ⟨_, k₁, hpush, hk₁⟩ := keyboardPush_returns typing_typingAt hc
  obtain ⟨c, k₂, hpop, hcell, -, hsome⟩ := keyboardPop_returns hk₁
  obtain rfl : c = 0x41 := by rw [hcell]; decide
  refine ⟨k₂, [(.push 0x41, ⟨k₁, [0x41], []⟩), (.pop, ⟨k₂, [0x41], [0x41]⟩)], _,
    .cons (.push hpush) (.cons (.pop (c := 0x41) hpop) (.nil _)), rfl, hsome hc, fun i _ => ?_,
    by decide⟩
  change Function.update (Function.update (fun _ => (0 : UInt8)) 0 0x41) 0 0 i = 0
  by_cases hi : i = 0
  · rw [hi, Function.update_self]
  · rw [Function.update_of_ne hi, Function.update_of_ne hi]

theorem keyboardBackspace_unseen_iff_once : ∃ s : TypedRun, s.pushed = [0x41] ∧
    (BackspaceUnseen 0x2000 s.kernel ↔ 0x100000000 ∣ s.pushed.length) := by
  obtain ⟨k', tr, kb, hrun, hlast, hk', hnone, -⟩ := typedRun_pushPop
  refine ⟨lastState ⟨Kernel.typing, [], []⟩ tr, by rw [hlast],
    keyboardBackspace_unseen_iff typing_typingAt hrun ?_⟩
  intro pr hpr
  rw [hlast] at hpr
  obtain ⟨pr', hpr', rfl⟩ := hk'.process
  rw [hpr'] at hpr
  cases hpr
  exact hnone

/-- After a push and its pop, the backspace hides the next character. -/
theorem keyboardBackspace_hides : ∃ tr, Run TypedStep ⟨Kernel.typing, [], []⟩ tr ∧
    NoneUnread 0x2000 (lastState ⟨Kernel.typing, [], []⟩ tr).kernel ∧
    ¬ BackspaceUnseen 0x2000 (lastState ⟨Kernel.typing, [], []⟩ tr).kernel := by
  obtain ⟨k', tr, kb, hrun, hlast, hk', hnone, htail⟩ := typedRun_pushPop
  refine ⟨tr, hrun, ?_, ?_⟩
  · rw [hlast]
    intro pr hpr
    obtain ⟨pr', hpr', rfl⟩ := hk'.process
    rw [hpr'] at hpr
    cases hpr
    exact hnone
  · rw [hlast]
    exact not_backspaceUnseen hk' hnone (by rw [htail]; decide)

end PlumOS
