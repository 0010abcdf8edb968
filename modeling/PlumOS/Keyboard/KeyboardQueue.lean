import PlumOS.Keyboard.Keyboard

/-!
# The keyboard buffer as a queue

Runs of pushes, pops and backspaces on the process at the keyboard, with the queue
of unread characters beside the kernel's state.

## Main results

- `keyboard_run_queue_iff` — below the capacity the buffer is the queue, as long as no
  backspace comes when the tail counter is 0
- `keyboard_run_order` — beyond the capacity characters are lost, and the others come in
  order, as long as no pop comes while the oldest ones are partly overwritten
-/

namespace PlumOS

open StateExcept LabelledRun

/-- What can happen at the keyboard. -/
inductive KeyboardOp
  | push (c : UInt8)
  | pop
  | backspace

/-! ### Below the capacity -/

/-- The kernel with the characters that are unread. -/
structure QueueRun where
  kernel : Kernel
  unread : List UInt8

/-- A step at the keyboard of process `p`. There is room for a character that is pushed,
and a character for a backspace. -/
inductive QueueStep (p : Nat) : QueueRun → KeyboardOp → QueueRun → Prop
  | push {s : QueueRun} {c : UInt8} {k' : Kernel} (hc : c ≠ 0) (hroom : s.unread.length < 1024)
      (h : keyboardPush c s.kernel = .ok (⟨⟩, k')) :
      QueueStep p s (.push c) ⟨k', s.unread ++ [c]⟩
  | pop {s : QueueRun} {c : UInt8} {k' : Kernel} (h : keyboardPop s.kernel = .ok (c, k')) :
      QueueStep p s .pop ⟨k', s.unread.tail⟩
  | backspace {s : QueueRun} {k' : Kernel} (hsome : s.unread ≠ [])
      (h : keyboardBackspace p s.kernel = .ok (⟨⟩, k')) :
      QueueStep p s .backspace ⟨k', s.unread.dropLast⟩

/-- The characters that `n` pops return. -/
def keyboardPops : (n : Nat) → KM (List UInt8)
  | 0 => pure []
  | n + 1 => do
    let c ← keyboardPop
    let cs ← keyboardPops n
    pure (c :: cs)

/-- Pops return the unread characters, the oldest first, and 0 when there are no more. -/
def PopsUnread (s : QueueRun) : Prop :=
  Returns (keyboardPops (s.unread.length + 1)) s.kernel fun cs _ => cs = s.unread ++ [0]

/-- A backspace in a state where the tail counter of process `p` is not 0. -/
def TailCounts (p : Nat) (s : QueueRun) : KeyboardOp → Prop
  | .backspace => ∀ pr, s.kernel.objs p = some (.process pr) → pr.keyboard.tail ≠ 0
  | _ => True

theorem keyboardPops_returns {p : Nat} : ∀ (n : Nat) {k : Kernel} {kb : KeyboardBuffer}
    {q : List UInt8}, TypingAt p k kb → kb.Holds q →
    Returns (keyboardPops n) k fun cs _ => cs = (List.range n).map fun i => q.getD i 0 := by
  intro n
  induction n with
  | zero => intro k kb q _ _; exact .pure rfl
  | succ n ih =>
    intro k kb q h hq
    refine Returns.bind (keyboardPop_returns h) ?_
    rintro c k₁ ⟨hc, hzero, hsome⟩
    rw [hq.head] at hc
    have hrest : ∃ kb' : KeyboardBuffer, TypingAt p k₁ kb' ∧ kb'.Holds q.tail := by
      cases q with
      | nil =>
        obtain rfl := hzero hc
        exact ⟨kb, h, hq⟩
      | cons d q =>
        have hd : d ≠ 0 := hq.nonzero d List.mem_cons_self
        exact ⟨kb.popped, hsome (hc ▸ hd), hq.pop⟩
    obtain ⟨kb', h', hq'⟩ := hrest
    refine Returns.bind (ih h' hq') ?_
    rintro cs k₂ rfl
    refine .pure ?_
    rw [List.range_succ_eq_map, List.map_cons, List.map_map, hc]
    congr 1
    apply List.map_congr_left
    intro i _
    cases q <;> rfl

theorem map_getD_range (q : List UInt8) (n : Nat) :
    ((List.range (q.length + n)).map fun i => q.getD i 0) = q ++ List.replicate n 0 := by
  apply List.ext_getElem
  · simp
  · intro i hi _
    rw [List.getElem_map, List.getElem_range]
    rcases lt_or_ge i q.length with hlt | hge
    · rw [List.getD_eq_getElem _ _ hlt, List.getElem_append_left hlt]
    · rw [List.getD_eq_default _ _ hge, List.getElem_append_right hge, List.getElem_replicate]

/-- The buffer of the process at the keyboard holds the unread characters. -/
def QueueInv (p : Nat) (s : QueueRun) : Prop :=
  ∃ kb : KeyboardBuffer, TypingAt p s.kernel kb ∧ kb.Holds s.unread

theorem QueueInv.popsUnread {p : Nat} {s : QueueRun} (h : QueueInv p s) : PopsUnread s := by
  obtain ⟨kb, hk, hq⟩ := h
  refine (keyboardPops_returns _ hk hq).mono ?_
  rintro cs _ rfl
  exact map_getD_range s.unread 1

theorem QueueInv.step {p : Nat} {s s' : QueueRun} {op : KeyboardOp} (h : QueueInv p s)
    (hC : TailCounts p s op) (hstep : QueueStep p s op s') : QueueInv p s' := by
  obtain ⟨kb, hk, hq⟩ := h
  cases hstep with
  | push hc hroom hpush =>
    exact ⟨_, (keyboardPush_returns hk hc).ensures _ _ hpush, hq.push hroom hc⟩
  | pop hpop =>
    obtain ⟨hc, hzero, hsome⟩ := (keyboardPop_returns hk).ensures _ _ hpop
    rw [hq.head] at hc
    cases hs : s.unread with
    | nil =>
      rw [hs] at hc hq
      obtain rfl := hzero hc
      exact ⟨kb, hk, hq⟩
    | cons d q =>
      rw [hs] at hc hq
      have hd : d ≠ 0 := hq.nonzero d List.mem_cons_self
      exact ⟨kb.popped, hsome (hc ▸ hd), hq.pop⟩
  | backspace hsome hback =>
    obtain ⟨pr, hpr, rfl⟩ := id hk.process
    have hk' := (keyboardBackspace_returns hk (hC pr hpr)).ensures _ _ hback
    rw [← List.dropLast_append_getLast hsome] at hq
    exact ⟨_, hk', hq.backspace⟩

/-- A backspace at tail counter 0 leaves the newest character in the buffer. -/
theorem QueueInv.backspace_lost {p : Nat} {s s' : QueueRun} {op : KeyboardOp} (h : QueueInv p s)
    (hC : ¬ TailCounts p s op) (hstep : QueueStep p s op s') : ¬ PopsUnread s' := by
  obtain ⟨kb, hk, hq⟩ := h
  cases hstep with
  | push => exact absurd trivial hC
  | pop => exact absurd trivial hC
  | backspace hsome hback =>
    obtain ⟨pr, hpr, rfl⟩ := id hk.process
    have htail : pr.keyboard.tail = 0 := by
      by_contra hne
      refine hC fun pr' hpr' => ?_
      rw [hpr] at hpr'
      cases hpr'
      exact hne
    rw [keyboardBackspace_zero hk htail] at hback
    cases hback
    intro hpops
    obtain ⟨cs, k', hcs, rfl⟩ := hpops
    have hall := (keyboardPops_returns _ hk hq).ensures _ _ hcs
    have hlen : s.unread.dropLast.length + 1 = s.unread.length := by
      rw [List.length_dropLast]
      have := List.length_pos_iff.mpr hsome
      omega
    rw [hlen] at hall
    have hsame := map_getD_range s.unread 0
    rw [Nat.add_zero, List.replicate_zero, List.append_nil] at hsame
    rw [hsame] at hall
    have hzero : (0 : UInt8) ∈ s.unread := by
      rw [← hall]
      simp
    exact hq.nonzero 0 hzero rfl

/-- In a run from a new process's buffer in which never more than 1024 characters are
unread, the buffer is the queue of unread characters in every state exactly when no
backspace is given at tail counter 0. -/
theorem keyboard_run_queue_iff {p : Nat} {k : Kernel} {tr : List (KeyboardOp × QueueRun)}
    (hk : TypingAt p k Process.zero.keyboard) (hrun : Run (QueueStep p) ⟨k, []⟩ tr) :
    AllStates PopsUnread ⟨k, []⟩ tr ↔ AllSteps (TailCounts p) ⟨k, []⟩ tr := by
  refine hrun.allStates_iff_allSteps (fun (h : QueueInv p _) => h.popsUnread) ?_ ?_ ?_
  · intro s op s' h hC hstep
    exact h.step hC hstep
  · intro s op s' h hC hstep
    exact h.backspace_lost hC hstep
  · exact ⟨_, hk, KeyboardBuffer.holds_nil rfl rfl⟩

/-- A kernel with one process at `0x2000` and its task at `0x1000`. -/
def Kernel.typing : Kernel :=
  { Kernel.boot Disk.blank with
    current_process := 0x2000
    current_task := 0x1000
    objs := fun p =>
      if p = 0x1000 then some (.task { Task.zero with process := 0x2000 })
      else if p = 0x2000 then some (.process Process.zero)
      else none }

theorem typing_typingAt : TypingAt 0x2000 Kernel.typing Process.zero.keyboard where
  process_ne := by decide
  current := rfl
  task_ne := by decide
  task := ⟨_, rfl, rfl⟩
  process := ⟨_, rfl, rfl⟩

/-- The run: a push, a backspace and a pop. -/
theorem keyboard_run_queue_three : ∃ tr, tr.map Prod.fst = [.push 0x41, .backspace, .pop] ∧
    (AllStates PopsUnread ⟨Kernel.typing, []⟩ tr ↔
      AllSteps (TailCounts 0x2000) ⟨Kernel.typing, []⟩ tr) := by
  have hc : (0x41 : UInt8) ≠ 0 := by decide
  obtain ⟨_, k₁, hpush, hk₁⟩ := keyboardPush_returns typing_typingAt hc
  obtain ⟨_, k₂, hback, hk₂⟩ := keyboardBackspace_returns hk₁ (by decide)
  obtain ⟨c, k₃, hpop, -⟩ := keyboardPop_returns hk₂
  refine ⟨_, ?_, keyboard_run_queue_iff typing_typingAt
    (.cons (.push hc (by simp) hpush) (.cons (.backspace (by simp) hback)
      (.cons (.pop hpop) (.nil _))))⟩
  rfl

/-- A run of pushes, each followed by a pop, that adds `n` to the counters. -/
theorem queueRun_advance {p : Nat} : ∀ (n : Nat) {k : Kernel} {kb : KeyboardBuffer},
    TypingAt p k kb → kb.Holds [] → ∃ (tr : List (KeyboardOp × QueueRun)) (k' : Kernel)
      (kb' : KeyboardBuffer), Run (QueueStep p) ⟨k, []⟩ tr ∧ lastState ⟨k, []⟩ tr = ⟨k', []⟩ ∧
      TypingAt p k' kb' ∧ kb'.Holds [] ∧ i32 kb'.tail = i32 (kb.tail + n) := by
  intro n
  induction n with
  | zero =>
    intro k kb hk hq
    exact ⟨[], k, kb, .nil _, rfl, hk, hq, by rw [Int.natCast_zero, Int.add_zero]⟩
  | succ n ih =>
    intro k kb hk hq
    have hc : (0x41 : UInt8) ≠ 0 := by decide
    obtain ⟨_, k₁, hpush, hk₁⟩ := keyboardPush_returns hk hc
    have hq₁ := hq.push (by decide) hc
    obtain ⟨c, k₂, hpop, hcell, -, hsome⟩ := keyboardPop_returns hk₁
    have hc' : c = 0x41 := hcell.trans hq₁.head
    have hk₂ := hsome (hc' ▸ hc)
    obtain ⟨tr, k', kb', hrun, hlast, hk', hq', htail⟩ := ih hk₂ hq₁.pop
    refine ⟨_, k', kb', .cons (.push hc (by simp) hpush) (.cons (.pop hpop) hrun), hlast, hk', hq',
      ?_⟩
    rw [htail]
    change i32 (i32 (kb.tail + 1) + n) = _
    rw [i32_add_left]
    congr 1
    push_cast
    omega

/-- After 2³² pushes and one pop less, the backspace of the one unread character does
nothing. -/
theorem keyboard_run_queue_wrapped : ∃ tr, Run (QueueStep 0x2000) ⟨Kernel.typing, []⟩ tr ∧
    ¬ AllStates PopsUnread ⟨Kernel.typing, []⟩ tr := by
  have hc : (0x41 : UInt8) ≠ 0 := by decide
  obtain ⟨tr, k, kb, hrun, hlast, hk, hq, htail⟩ := queueRun_advance 0xFFFFFFFF typing_typingAt
    (KeyboardBuffer.holds_nil rfl rfl)
  obtain ⟨_, k₁, hpush, hk₁⟩ := keyboardPush_returns hk hc
  have hzero : (kb.pushed 0x41).tail = 0 := by
    change i32 (kb.tail + 1) = 0
    rw [← i32_add_left, htail]
    decide
  have hback := keyboardBackspace_zero hk₁ hzero
  have hinv : QueueInv 0x2000 ⟨k₁, [0x41]⟩ := ⟨_, hk₁, hq.push (by decide) hc⟩
  have hlost : QueueStep 0x2000 ⟨k₁, [0x41]⟩ .backspace ⟨k₁, []⟩ := .backspace (by simp) hback
  refine ⟨tr ++ [(.push 0x41, ⟨k₁, [0x41]⟩), (.backspace, ⟨k₁, []⟩)], hrun.append ?_, fun hall => ?_⟩
  · rw [hlast]
    exact .cons (.push hc (by simp) hpush) (.cons hlost (.nil _))
  · have := hall.last
    rw [lastState_append] at this
    refine hinv.backspace_lost (fun hC => ?_) hlost this
    obtain ⟨pr, hpr, hkb⟩ := hk₁.process
    exact hC pr hpr (hkb ▸ hzero)

/-! ### Beyond the capacity -/

/-- The kernel with all characters that were pushed and all that pops returned. -/
structure TypedRun where
  kernel : Kernel
  pushed : List UInt8
  returned : List UInt8

/-- A step at the keyboard, with room in the buffer or not. -/
inductive TypedStep : TypedRun → KeyboardOp → TypedRun → Prop
  | push {s : TypedRun} {c : UInt8} {k' : Kernel} (h : keyboardPush c s.kernel = .ok (⟨⟩, k')) :
      TypedStep s (.push c) ⟨k', if c = 0 then s.pushed else s.pushed ++ [c], s.returned⟩
  | pop {s : TypedRun} {c : UInt8} {k' : Kernel} (h : keyboardPop s.kernel = .ok (c, k')) :
      TypedStep s .pop ⟨k', s.pushed, if c = 0 then s.returned else s.returned ++ [c]⟩

/-- Push the characters in order. -/
def keyboardPushes : (cs : List UInt8) → KM PUnit
  | [] => pure ⟨⟩
  | c :: cs => do
    keyboardPush c
    keyboardPushes cs

/-- The characters returned are some of those pushed, in the same order. When a pop
returns 0, the next character that is pushed is the one that the next pop returns,
unless 1024 more were pushed before that pop. -/
structure OnlyLoses (s : TypedRun) : Prop where
  order : s.returned.Sublist s.pushed
  next : ∀ k', keyboardPop s.kernel = .ok (0, k') → ∀ c ≠ 0, ∀ cs : List UInt8,
    cs.length < 1024 →
      Returns (do keyboardPush c; keyboardPushes cs; keyboardPop) k' fun d _ => d = c

/-- The oldest unread characters were overwritten, but not all that the head still has
in front of it. -/
def KeyboardBuffer.Torn (kb : KeyboardBuffer) : Prop :=
  keyboardGetTailIndex kb ≠ keyboardHeadIndex kb ∧ kb.buffer (keyboardGetTailIndex kb) ≠ 0

/-- A pop in a state in which the buffer of process `p` is not torn. -/
def PopsUntorn (p : Nat) (s : TypedRun) : KeyboardOp → Prop
  | .pop => ∀ pr, s.kernel.objs p = some (.process pr) → ¬ pr.keyboard.Torn
  | _ => True

theorem KeyboardBuffer.Lapped.tail_cell {kb : KeyboardBuffer} {q : List UInt8}
    (h : kb.Lapped q) : kb.buffer (keyboardGetTailIndex kb) ≠ 0 := by
  have hcell := h.cells 0 (by omega)
  rw [Nat.add_zero, Nat.mod_eq_of_lt kb.tailIndex_lt] at hcell
  rw [hcell]
  exact h.getD_ne_zero (by omega)

theorem KeyboardBuffer.Lapped.head_cell {kb : KeyboardBuffer} {q : List UInt8}
    (h : kb.Lapped q) : kb.buffer (keyboardHeadIndex kb) ≠ 0 := by
  have hhead := kb.headIndex_lt
  have htail := kb.tailIndex_lt
  have hcell := h.cells ((keyboardHeadIndex kb + 1024 - keyboardGetTailIndex kb) % 1024)
    (Nat.mod_lt _ (by decide))
  rw [show (keyboardGetTailIndex kb +
    (keyboardHeadIndex kb + 1024 - keyboardGetTailIndex kb) % 1024) % 1024 =
      keyboardHeadIndex kb by omega] at hcell
  rw [hcell]
  exact h.getD_ne_zero (Nat.mod_lt _ (by decide))

/-- The buffer holds a queue or has been lapped; what is in it was pushed after all that
was returned. -/
def TypedInv (p : Nat) (s : TypedRun) : Prop :=
  ∃ (kb : KeyboardBuffer) (q : List UInt8), TypingAt p s.kernel kb ∧ (kb.Holds q ∨ kb.Lapped q) ∧
    (s.returned ++ q).Sublist s.pushed

theorem keyboardPushes_returns {p : Nat} : ∀ (cs : List UInt8) {k : Kernel} {kb : KeyboardBuffer}
    {q : List UInt8}, TypingAt p k kb → kb.Holds q → q.length + cs.length ≤ 1024 →
    Returns (keyboardPushes cs) k fun _ k' => ∃ (kb' : KeyboardBuffer) (r : List UInt8),
      TypingAt p k' kb' ∧ kb'.Holds (q ++ r) := by
  intro cs
  induction cs with
  | nil =>
    intro k kb q hk hq _
    exact .pure ⟨kb, [], hk, by rwa [List.append_nil]⟩
  | cons c cs ih =>
    intro k kb q hk hq hlen
    rw [List.length_cons] at hlen
    by_cases hc : c = 0
    · subst hc
      refine Returns.bind (R := fun _ k' => k' = k) ⟨_, _, keyboardPush_zero hk, rfl⟩ ?_
      rintro _ _ rfl
      exact ih hk hq (by omega)
    · refine Returns.bind (keyboardPush_returns hk hc) ?_
      intro _ k₁ hk₁
      refine (ih hk₁ (hq.push (by omega) hc) ?_).mono ?_
      · rw [List.length_append, List.length_singleton]
        omega
      · rintro _ k₂ ⟨kb', r, hk₂, hr⟩
        exact ⟨kb', c :: r, hk₂, by rwa [List.append_cons]⟩

/-- The next character goes to the front of an empty queue. -/
theorem keyboardPush_next {p : Nat} {k : Kernel} {kb : KeyboardBuffer} (hk : TypingAt p k kb)
    (hq : kb.Holds []) {c : UInt8} (hc : c ≠ 0) {cs : List UInt8} (hlen : cs.length < 1024) :
    Returns (do keyboardPush c; keyboardPushes cs; keyboardPop) k fun d _ => d = c := by
  refine Returns.bind (keyboardPush_returns hk hc) ?_
  intro _ k₁ hk₁
  refine Returns.bind (keyboardPushes_returns cs hk₁ (hq.push (by simp) hc) ?_) ?_
  · simp only [List.nil_append, List.length_singleton]
    omega
  · rintro _ k₂ ⟨kb', r, hk₂, hr⟩
    refine (keyboardPop_returns hk₂).mono ?_
    rintro d _ ⟨rfl, -⟩
    exact hr.head

theorem TypedInv.onlyLoses {p : Nat} {s : TypedRun} (h : TypedInv p s) : OnlyLoses s := by
  obtain ⟨kb, q, hk, hq, hsub⟩ := h
  refine ⟨(List.sublist_append_left _ _).trans hsub, fun k' hpop c hc cs hlen => ?_⟩
  obtain ⟨hcell, hzero, -⟩ := (keyboardPop_returns hk).ensures _ _ hpop
  obtain rfl := hzero rfl
  rcases hq with hq | hq
  · rw [hq.head] at hcell
    cases q with
    | nil => exact keyboardPush_next hk hq hc hlen
    | cons d q => exact absurd hcell.symm (hq.nonzero d List.mem_cons_self)
  · exact absurd hcell.symm hq.head_cell

theorem TypedInv.push {p : Nat} {s : TypedRun} {c : UInt8} {k' : Kernel} (h : TypedInv p s)
    (hpush : keyboardPush c s.kernel = .ok (⟨⟩, k')) :
    TypedInv p ⟨k', if c = 0 then s.pushed else s.pushed ++ [c], s.returned⟩ := by
  obtain ⟨kb, q, hk, hq, hsub⟩ := h
  by_cases hc : c = 0
  · subst hc
    rw [keyboardPush_zero hk] at hpush
    cases hpush
    exact ⟨kb, q, hk, hq, hsub⟩
  have hk' := (keyboardPush_returns hk hc).ensures _ _ hpush
  have hsub' : (s.returned ++ (q ++ [c])).Sublist (s.pushed ++ [c]) := by
    rw [← List.append_assoc]
    exact hsub.append_right _
  rw [if_neg hc]
  by_cases hroom : kb.Holds q ∧ q.length < 1024
  · exact ⟨_, q ++ [c], hk', Or.inl (hroom.1.push hroom.2 hc), hsub'⟩
  · -- the push overwrites the oldest character
    have hlapped : kb.Lapped q := by
      rcases hq with hq | hq
      · exact hq.lapped (le_antisymm hq.length_le (by
          by_contra hlt
          exact hroom ⟨hq, by omega⟩))
      · exact hq
    cases q with
    | nil => exact absurd hlapped.length_eq (by decide)
    | cons d q =>
      refine ⟨_, q ++ [c], hk', Or.inr (hlapped.push hc), List.Sublist.trans ?_ hsub'⟩
      exact (List.Sublist.refl _).append (List.sublist_cons_self d (q ++ [c]))

theorem TypedInv.pop {p : Nat} {s : TypedRun} {c : UInt8} {k' : Kernel} (h : TypedInv p s)
    (hC : PopsUntorn p s .pop) (hpop : keyboardPop s.kernel = .ok (c, k')) :
    TypedInv p ⟨k', s.pushed, if c = 0 then s.returned else s.returned ++ [c]⟩ := by
  obtain ⟨kb, q, hk, hq, hsub⟩ := h
  have huntorn : ¬ kb.Torn := by
    obtain ⟨pr, hpr, rfl⟩ := hk.process
    exact hC pr hpr
  -- a lapped buffer that is not torn has its tail at the head
  have hholds : kb.Holds q := by
    rcases hq with hq | hq
    · exact hq
    · refine hq.holds ?_
      by_contra hne
      exact huntorn ⟨hne, hq.tail_cell⟩
  obtain ⟨hcell, hzero, hsome⟩ := (keyboardPop_returns hk).ensures _ _ hpop
  rw [hholds.head] at hcell
  cases q with
  | nil =>
    have hc : c = 0 := hcell
    obtain rfl := hzero hc
    rw [if_pos hc]
    exact ⟨kb, [], hk, Or.inl hholds, hsub⟩
  | cons d q =>
    obtain rfl : c = d := hcell
    have hc := hholds.nonzero c List.mem_cons_self
    rw [if_neg hc]
    refine ⟨_, q, hsome hc, Or.inl hholds.pop, ?_⟩
    rwa [List.append_assoc, List.singleton_append]

/-- A run of pushes that fills the buffer. -/
theorem typedRun_fill {p : Nat} : ∀ (n : Nat) (pushed : List UInt8) {k : Kernel}
    {kb : KeyboardBuffer} {q : List UInt8}, TypingAt p k kb → kb.Holds q → q.length + n ≤ 1024 →
    ∃ (tr : List (KeyboardOp × TypedRun)) (k' : Kernel) (kb' : KeyboardBuffer),
      Run TypedStep ⟨k, pushed, []⟩ tr ∧
      lastState ⟨k, pushed, []⟩ tr = ⟨k', pushed ++ List.replicate n 0x41, []⟩ ∧
      TypingAt p k' kb' ∧ kb'.Holds (q ++ List.replicate n 0x41) := by
  intro n
  induction n with
  | zero =>
    intro pushed k kb q hk hq _
    exact ⟨[], k, kb, .nil _, by simp [lastState], hk, by simpa using hq⟩
  | succ n ih =>
    intro pushed k kb q hk hq hlen
    have hc : (0x41 : UInt8) ≠ 0 := by decide
    obtain ⟨_, k₁, hpush, hk₁⟩ := keyboardPush_returns hk hc
    have hlen' : (q ++ [0x41]).length + n ≤ 1024 := by
      rw [List.length_append, List.length_singleton]
      omega
    obtain ⟨tr, k', kb', hrun, hlast, hk', hq'⟩ := ih (pushed ++ [0x41]) hk₁
      (hq.push (by omega) hc) hlen'
    refine ⟨_, k', kb', .cons (.push hpush) hrun, ?_, hk', ?_⟩
    · rw [List.append_assoc] at hlast
      exact hlast
    · rwa [List.replicate_succ, List.append_cons]

end PlumOS
