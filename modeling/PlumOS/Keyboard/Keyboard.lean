import PlumOS.Kernel.State
import PlumOS.Lib.LabelledRun

/-!
# The keyboard buffer

`keyboard/keyboard.c`: the ring of characters in every process. The `int` counters
run freely; `% sizeof(buffer)` reads them as unsigned. A cell without a character is 0.

## Main definitions

- `keyboardPush`, `keyboardPop`, `keyboardBackspace`
- `KeyboardBuffer.Holds` — the ring holds a queue of unread characters
- `KeyboardBuffer.Lapped` — every cell is unread, and the tail may have passed the head
- `TypingAt` — the process that the keyboard writes to is the one that is read from
-/

namespace PlumOS

open StateExcept

/-- `keyboard_get_tail_index`. -/
def keyboardGetTailIndex (keyboard : KeyboardBuffer) : Nat :=
  u32 keyboard.tail % PLUMOS_KEYBOARD_BUFFER_SIZE

/-- The index that `keyboard_pop` reads at. -/
def keyboardHeadIndex (keyboard : KeyboardBuffer) : Nat :=
  u32 keyboard.head % PLUMOS_KEYBOARD_BUFFER_SIZE

/-- The buffer when the last character is removed. -/
def KeyboardBuffer.backspaced (keyboard : KeyboardBuffer) : KeyboardBuffer :=
  let keyboard := { keyboard with tail := i32 (keyboard.tail - 1) }
  { keyboard with buffer := Function.update keyboard.buffer (keyboardGetTailIndex keyboard) 0x00 }

/-- The buffer when a character is put in. -/
def KeyboardBuffer.pushed (keyboard : KeyboardBuffer) (c : UInt8) : KeyboardBuffer :=
  { keyboard with
    buffer := Function.update keyboard.buffer (keyboardGetTailIndex keyboard) c
    tail := i32 (keyboard.tail + 1) }

/-- The buffer when a character is taken out. -/
def KeyboardBuffer.popped (keyboard : KeyboardBuffer) : KeyboardBuffer :=
  { keyboard with
    buffer := Function.update keyboard.buffer (keyboardHeadIndex keyboard) 0
    head := i32 (keyboard.head + 1) }

/-- `keyboard_backspace`. -/
def keyboardBackspace (process : Nat) : KM PUnit := do
  let p ← deref Obj.process? process
  if p.keyboard.tail = 0 then pure ⟨⟩
  else storeObj process (.process { p with keyboard := p.keyboard.backspaced })

/-- `keyboard_push`. -/
def keyboardPush (c : UInt8) : KM PUnit := do
  let process ← reads Kernel.current_process
  if process = 0 then pure ⟨⟩
  else if c = 0 then pure ⟨⟩
  else modifyProcess process fun p => { p with keyboard := p.keyboard.pushed c }

/-- `keyboard_pop`. -/
def keyboardPop : KM UInt8 := do
  let current_task ← reads Kernel.current_task
  if current_task = 0 then pure 0
  else do
    let t ← deref Obj.task? current_task
    let p ← deref Obj.process? t.process
    let c := p.keyboard.buffer (keyboardHeadIndex p.keyboard)
    if c = 0x00 then pure 0
    else do
      storeObj t.process (.process { p with keyboard := p.keyboard.popped })
      pure c

/-! ### The ring -/

theorem u32_i32 (x : Int) : u32 (i32 x) = u32 x := by
  unfold u32 i32
  omega

theorem u32_add_one_mod (x : Int) : u32 (i32 (x + 1)) % 1024 = (u32 x + 1) % 1024 := by
  rw [u32_i32]
  unfold u32
  omega

theorem u32_sub_one_mod (x : Int) : u32 (i32 (x - 1)) % 1024 = (u32 x + 1023) % 1024 := by
  rw [u32_i32]
  unfold u32
  omega

/-- The cells from the head on hold the unread characters `q`, and the others none. -/
structure KeyboardBuffer.Holds (kb : KeyboardBuffer) (q : List UInt8) : Prop where
  length_le : q.length ≤ 1024
  nonzero : ∀ c ∈ q, c ≠ 0
  tail_eq : keyboardGetTailIndex kb = (keyboardHeadIndex kb + q.length) % 1024
  cells : ∀ i < 1024, kb.buffer ((keyboardHeadIndex kb + i) % 1024) = q.getD i 0

/-- All 1024 cells hold unread characters, `q` in the order of their pushes. The
oldest is where the next push goes; the head may be elsewhere. -/
structure KeyboardBuffer.Lapped (kb : KeyboardBuffer) (q : List UInt8) : Prop where
  length_eq : q.length = 1024
  nonzero : ∀ c ∈ q, c ≠ 0
  cells : ∀ i < 1024, kb.buffer ((keyboardGetTailIndex kb + i) % 1024) = q.getD i 0

namespace KeyboardBuffer

variable {kb : KeyboardBuffer} {q : List UInt8} {c : UInt8}

theorem head_pushed : keyboardHeadIndex (kb.pushed c) = keyboardHeadIndex kb := rfl

theorem tail_pushed : keyboardGetTailIndex (kb.pushed c) = (keyboardGetTailIndex kb + 1) % 1024 := by
  unfold keyboardGetTailIndex pushed
  simp only [PLUMOS_KEYBOARD_BUFFER_SIZE]
  rw [u32_add_one_mod]
  omega

theorem head_popped : keyboardHeadIndex kb.popped = (keyboardHeadIndex kb + 1) % 1024 := by
  unfold keyboardHeadIndex popped
  simp only [PLUMOS_KEYBOARD_BUFFER_SIZE]
  rw [u32_add_one_mod]
  omega

theorem tail_popped : keyboardGetTailIndex kb.popped = keyboardGetTailIndex kb := rfl

theorem head_backspaced : keyboardHeadIndex kb.backspaced = keyboardHeadIndex kb := rfl

theorem tail_backspaced :
    keyboardGetTailIndex kb.backspaced = (keyboardGetTailIndex kb + 1023) % 1024 := by
  unfold keyboardGetTailIndex backspaced
  simp only [PLUMOS_KEYBOARD_BUFFER_SIZE]
  rw [u32_sub_one_mod]
  omega

theorem headIndex_lt (kb : KeyboardBuffer) : keyboardHeadIndex kb < 1024 :=
  Nat.mod_lt _ (by decide)

theorem tailIndex_lt (kb : KeyboardBuffer) : keyboardGetTailIndex kb < 1024 :=
  Nat.mod_lt _ (by decide)

theorem getD_of_length_le {l : List UInt8} {i : Nat} (h : l.length ≤ i) : l.getD i 0 = 0 :=
  List.getD_eq_default _ _ h

theorem holds_nil (h : kb.buffer = fun _ => 0) (hc : kb.tail = kb.head) : kb.Holds [] where
  length_le := by simp
  nonzero := by simp
  tail_eq := by
    have := headIndex_lt kb
    unfold keyboardGetTailIndex
    rw [hc]
    exact (Nat.mod_eq_of_lt this).symm
  cells := fun i _ => by rw [h]; rfl

/-- A push puts the character at the end of the queue. -/
theorem Holds.push (h : kb.Holds q) (hlen : q.length < 1024) (hc : c ≠ 0) :
    (kb.pushed c).Holds (q ++ [c]) where
  length_le := by
    rw [List.length_append]
    exact hlen
  nonzero := by
    intro d hd
    rcases List.mem_append.mp hd with hd | hd
    · exact h.nonzero d hd
    · rwa [List.mem_singleton.mp hd]
  tail_eq := by
    rw [tail_pushed, head_pushed, h.tail_eq, List.length_append, List.length_singleton]
    omega
  cells := fun i hi => by
    rw [head_pushed]
    change Function.update kb.buffer (keyboardGetTailIndex kb) c _ = _
    by_cases heq : i = q.length
    · subst heq
      rw [← h.tail_eq, Function.update_self, List.getD_append_right _ _ _ _ le_rfl, Nat.sub_self]
      rfl
    · rw [Function.update_of_ne (by rw [h.tail_eq]; omega), h.cells i hi]
      rcases lt_or_ge i q.length with hlt | hge
      · rw [List.getD_append _ _ _ _ hlt]
      · have hlast : (q ++ [c]).length ≤ i := by
          rw [List.length_append, List.length_singleton]
          omega
        rw [getD_of_length_le hge, getD_of_length_le hlast]

/-- A pop finds the oldest character. -/
theorem Holds.head (h : kb.Holds q) : kb.buffer (keyboardHeadIndex kb) = q.getD 0 0 := by
  have := h.cells 0 (by omega)
  rwa [Nat.add_zero, Nat.mod_eq_of_lt (headIndex_lt kb)] at this

theorem Holds.pop (h : kb.Holds (c :: q)) : kb.popped.Holds q where
  length_le := by
    have := h.length_le
    rw [List.length_cons] at this
    omega
  nonzero := fun d hd => h.nonzero d (List.mem_cons_of_mem c hd)
  tail_eq := by
    rw [tail_popped, head_popped, h.tail_eq, List.length_cons]
    omega
  cells := fun i hi => by
    have hlen := h.length_le
    rw [List.length_cons] at hlen
    have hhead := headIndex_lt kb
    rw [head_popped]
    change Function.update kb.buffer (keyboardHeadIndex kb) 0 _ = _
    by_cases heq : i = 1023
    · -- the cell that was emptied is now the last one
      have : ((keyboardHeadIndex kb + 1) % 1024 + i) % 1024 = keyboardHeadIndex kb := by omega
      rw [this, Function.update_self, getD_of_length_le (by omega)]
    · rw [Function.update_of_ne (by omega),
        show ((keyboardHeadIndex kb + 1) % 1024 + i) % 1024 =
          (keyboardHeadIndex kb + (i + 1)) % 1024 by omega, h.cells (i + 1) (by omega)]
      rfl

/-- A backspace removes the newest character. -/
theorem Holds.backspace (h : kb.Holds (q ++ [c])) : kb.backspaced.Holds q where
  length_le := by
    have := h.length_le
    rw [List.length_append, List.length_singleton] at this
    omega
  nonzero := fun d hd => h.nonzero d (List.mem_append_left _ hd)
  tail_eq := by
    rw [tail_backspaced, head_backspaced, h.tail_eq, List.length_append, List.length_singleton]
    omega
  cells := fun i hi => by
    have hlen := h.length_le
    rw [List.length_append, List.length_singleton] at hlen
    have htail : keyboardGetTailIndex kb.backspaced = (keyboardHeadIndex kb + q.length) % 1024 := by
      rw [tail_backspaced, h.tail_eq, List.length_append, List.length_singleton]
      omega
    rw [head_backspaced]
    change Function.update kb.buffer (keyboardGetTailIndex kb.backspaced) 0 _ = _
    by_cases heq : i = q.length
    · subst heq
      rw [htail, Function.update_self, getD_of_length_le le_rfl]
    · rw [Function.update_of_ne (by rw [htail]; omega), h.cells i hi]
      rcases lt_or_ge i q.length with hlt | hge
      · rw [List.getD_append _ _ _ _ hlt]
      · have hlast : (q ++ [c]).length ≤ i := by
          rw [List.length_append, List.length_singleton]
          omega
        rw [getD_of_length_le hge, getD_of_length_le hlast]

/-! ### The full ring -/

theorem Holds.lapped (h : kb.Holds q) (hlen : q.length = 1024) : kb.Lapped q where
  length_eq := hlen
  nonzero := h.nonzero
  cells := fun i hi => by
    rw [h.tail_eq, hlen, show ((keyboardHeadIndex kb + 1024) % 1024 + i) % 1024 =
      (keyboardHeadIndex kb + i) % 1024 by omega]
    exact h.cells i hi

/-- The full ring is a queue when the tail is at the head. -/
theorem Lapped.holds (h : kb.Lapped q) (heq : keyboardGetTailIndex kb = keyboardHeadIndex kb) :
    kb.Holds q where
  length_le := le_of_eq h.length_eq
  nonzero := h.nonzero
  tail_eq := by
    rw [heq, h.length_eq]
    have := headIndex_lt kb
    omega
  cells := fun i hi => by
    rw [← heq]
    exact h.cells i hi

theorem Lapped.getD_ne_zero (h : kb.Lapped q) {i : Nat} (hi : i < 1024) : q.getD i 0 ≠ 0 := by
  have hlt : i < q.length := h.length_eq ▸ hi
  rw [List.getD_eq_getElem _ _ hlt]
  exact h.nonzero _ (List.getElem_mem hlt)

/-- A push into the full ring drops the oldest character. -/
theorem Lapped.push {d : UInt8} (h : kb.Lapped (d :: q)) (hc : c ≠ 0) :
    (kb.pushed c).Lapped (q ++ [c]) where
  length_eq := by
    have := h.length_eq
    rw [List.length_append, List.length_singleton]
    exact this
  nonzero := by
    intro e he
    rcases List.mem_append.mp he with he | he
    · exact h.nonzero e (List.mem_cons_of_mem d he)
    · rwa [List.mem_singleton.mp he]
  cells := fun i hi => by
    have hlen : q.length = 1023 := Nat.succ_injective h.length_eq
    have htail := tailIndex_lt kb
    rw [tail_pushed]
    change Function.update kb.buffer (keyboardGetTailIndex kb) c _ = _
    by_cases heq : i = 1023
    · have : ((keyboardGetTailIndex kb + 1) % 1024 + i) % 1024 = keyboardGetTailIndex kb := by omega
      rw [this, Function.update_self, List.getD_append_right _ _ _ _ (by omega),
        show i - q.length = 0 by omega]
      rfl
    · rw [Function.update_of_ne (by omega), List.getD_append _ _ _ _ (by omega),
        show ((keyboardGetTailIndex kb + 1) % 1024 + i) % 1024 =
          (keyboardGetTailIndex kb + (i + 1)) % 1024 by omega, h.cells (i + 1) (by omega)]
      rfl

end KeyboardBuffer

/-! ### The process at the keyboard -/

/-- The process at `p` is the current one, the current task is one of its tasks, and
`kb` is its keyboard buffer. -/
structure TypingAt (p : Nat) (k : Kernel) (kb : KeyboardBuffer) : Prop where
  process_ne : p ≠ 0
  current : k.current_process = p
  task_ne : k.current_task ≠ 0
  task : ∃ t, k.objs k.current_task = some (.task t) ∧ t.process = p
  process : ∃ pr, k.objs p = some (.process pr) ∧ pr.keyboard = kb

variable {p : Nat} {k : Kernel} {kb : KeyboardBuffer}

/-- The process is stored with another keyboard buffer. -/
theorem TypingAt.stored (h : TypingAt p k kb) (pr : Process) :
    TypingAt p { k with objs := Function.update k.objs p (some (.process pr)) } pr.keyboard where
  process_ne := h.process_ne
  current := h.current
  task_ne := h.task_ne
  task := by
    obtain ⟨t, ht, htp⟩ := h.task
    obtain ⟨pr', hpr, -⟩ := h.process
    refine ⟨t, ?_, htp⟩
    have hne : k.current_task ≠ p := by
      intro heq
      rw [heq, hpr] at ht
      cases ht
    exact (Function.update_of_ne hne _ _).trans ht
  process := ⟨pr, Function.update_self .., rfl⟩

theorem keyboardPush_returns (h : TypingAt p k kb) {c : UInt8} (hc : c ≠ 0) :
    Returns (keyboardPush c) k fun _ k' => TypingAt p k' (kb.pushed c) := by
  obtain ⟨pr, hpr, rfl⟩ := h.process
  refine Returns.bind (R := fun process k' => process = p ∧ k' = k) (.reads ⟨h.current, rfl⟩) ?_
  rintro _ _ ⟨rfl, rfl⟩
  rw [if_neg h.process_ne, if_neg hc]
  refine Returns.bind (deref_returns h.process_ne hpr rfl) ?_
  rintro _ _ ⟨rfl, rfl⟩
  exact .modifies (h.stored _)

theorem keyboardPush_zero (h : TypingAt p k kb) : keyboardPush 0 k = .ok (⟨⟩, k) := by
  unfold keyboardPush
  rw [bind_of_ok (m := reads Kernel.current_process) (t := k) rfl, h.current,
    if_neg h.process_ne, if_pos rfl]
  rfl

theorem keyboardBackspace_returns (h : TypingAt p k kb) (htail : kb.tail ≠ 0) :
    Returns (keyboardBackspace p) k fun _ k' => TypingAt p k' kb.backspaced := by
  obtain ⟨pr, hpr, rfl⟩ := h.process
  refine Returns.bind (deref_returns h.process_ne hpr rfl) ?_
  rintro _ _ ⟨rfl, rfl⟩
  rw [if_neg htail]
  exact .modifies (h.stored _)

/-- At counter 0 a backspace does nothing. -/
theorem keyboardBackspace_zero (h : TypingAt p k kb) (htail : kb.tail = 0) :
    keyboardBackspace p k = .ok (⟨⟩, k) := by
  obtain ⟨pr, hpr, rfl⟩ := h.process
  have hread : deref Obj.process? p k = .ok (pr, k) := deref_ok h.process_ne hpr rfl
  unfold keyboardBackspace
  rw [bind_of_ok hread, if_pos htail]
  rfl

theorem keyboardPop_returns (h : TypingAt p k kb) :
    Returns keyboardPop k fun c k' => c = kb.buffer (keyboardHeadIndex kb) ∧
      (c = 0 → k' = k) ∧ (c ≠ 0 → TypingAt p k' kb.popped) := by
  obtain ⟨pr, hpr, rfl⟩ := h.process
  obtain ⟨t, ht, rfl⟩ := h.task
  refine Returns.bind (R := fun task k' => task = k.current_task ∧ k' = k) (.reads ⟨rfl, rfl⟩) ?_
  rintro _ _ ⟨rfl, rfl⟩
  rw [if_neg h.task_ne]
  refine Returns.bind (deref_returns h.task_ne ht rfl) ?_
  rintro _ _ ⟨rfl, rfl⟩
  refine Returns.bind (deref_returns h.process_ne hpr rfl) ?_
  rintro _ _ ⟨rfl, rfl⟩
  dsimp only
  split
  · next hc => exact .pure ⟨hc.symm, fun _ => rfl, fun hne => absurd rfl hne⟩
  · next hc =>
    refine Returns.bind (R := fun _ k' => TypingAt t.process k' pr.keyboard.popped)
      (.modifies (h.stored _)) ?_
    intro _ k' hk'
    exact .pure ⟨rfl, fun h0 => absurd h0 hc, fun _ => hk'⟩

end PlumOS
