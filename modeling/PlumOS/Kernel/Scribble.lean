import PlumOS.Idt.Resume

/-!
# What the terminal can do to `current_task`

The rows of the terminal are not bounded, so a character may be stored on top of
`current_task`. A cell starts at an even address and its second byte ends in `f`, while
the blocks of the heap start at page boundaries below 116 MB: what is in `current_task`
then is no block of the heap.

## Main definitions

- `IsBlock` — a block of the heap may start here
- `Scribbled` — `current_task` is as it was, or no block

## Main results

- `terminalWritechar_within`, `print_within`
-/

namespace PlumOS

open StateExcept

/-- The variable `current_task` in memory. -/
theorem Layout.readWord_memory (L : Layout) {k : Kernel} (h : k.current_task < 0x100000000) :
    readWord (L.memory k) L.current_task = k.current_task := readWord_wordBytes _ _ h

/-! ### Cells -/

/-- A block of the kernel heap may start at `p`. -/
def IsBlock (p : Nat) : Prop := p % 4096 = 0 ∧ p < 0x7400000

/-- The structures are as they were; so is `current_task`, or no block starts there. -/
structure Scribbled (k k' : Kernel) : Prop where
  objs : k'.objs = k.objs
  current_task : k.current_task < 0x100000000 → k'.current_task < 0x100000000 ∧
    (k'.current_task = k.current_task ∨ ¬ IsBlock k'.current_task)

instance : Std.Refl Scribbled := ⟨fun _ => ⟨rfl, fun h => ⟨h, Or.inl rfl⟩⟩⟩

instance : IsTrans Kernel Scribbled where
  trans k₁ k₂ k₃ h h' := by
    refine ⟨h'.objs.trans h.objs, fun hlt => ?_⟩
    obtain ⟨hlt₂, h₂⟩ := h.current_task hlt
    obtain ⟨hlt₃, h₃⟩ := h'.current_task hlt₂
    refine ⟨hlt₃, ?_⟩
    rcases h₃ with heq | hno
    · rw [heq]
      exact h₂
    · exact Or.inr hno

/-- A store leaves `current_task` alone when it is beside it. -/
theorem Layout.store_current_task (L : Layout) {k : Kernel} {p : Nat} {bytes : List UInt8}
    (hlt : k.current_task < 0x100000000)
    (h : p + bytes.length ≤ L.current_task ∨ L.current_task + 4 ≤ p) :
    (L.store k p bytes).current_task = k.current_task := by
  change readWord (writeBytes (L.memory k) p bytes) L.current_task = _
  rw [readWord_writeBytes_of_disjoint _ h, L.readWord_memory hlt]

theorem storeRaw_spec (L : Layout) (k : Kernel) (p : Nat) (bytes : List UInt8) :
    Ensures (storeRaw L p bytes) k fun _ k' => k' = L.store k p bytes ∧
      L.forbids k p bytes.length = false := by
  intro _ k' h
  unfold storeRaw at h
  split at h
  · cases h
  · next hf =>
    cases h
    exact ⟨rfl, by simpa using hf⟩

/-- The colours 15 and, with the sign of a `char` over it, 255. -/
theorem terminalMakeChar_eq (c : UInt8) :
    ∃ color : UInt8, terminalMakeChar c 15 = [c, color] ∧
      (color.toNat = 0x0f ∨ color.toNat = 0xff) := by
  unfold terminalMakeChar
  split
  · exact ⟨_, rfl, Or.inr (by decide)⟩
  · exact ⟨_, rfl, Or.inl (by decide)⟩

instance terminalPutchar_within (L : Layout) (x y : Nat) (c : UInt8) :
    Within Scribbled (terminalPutchar L x y c 15) where
  within k := by
    refine (storeRaw_spec L k _ _).mono ?_
    rintro _ k' ⟨rfl, -⟩
    refine ⟨rfl, fun hlt => ⟨readWord_lt _ _, ?_⟩⟩
    obtain ⟨color, hcell, hcolor⟩ := terminalMakeChar_eq c
    rw [hcell]
    obtain ⟨p, hp⟩ : ∃ p, p = videoMemory + 2 * (y * VGA_WIDTH + x) := ⟨_, rfl⟩
    have heven : p % 2 = 0 := by
      rw [hp]
      unfold videoMemory
      omega
    rw [← hp]
    have haligned := L.aligned
    by_cases hdis : p + [c, color].length ≤ L.current_task ∨ L.current_task + 4 ≤ p
    · exact Or.inl (L.store_current_task hlt hdis)
    right
    rw [List.length_cons, List.length_cons, List.length_nil] at hdis
    change ¬ IsBlock (readWord (writeBytes (L.memory k) p [c, color]) L.current_task)
    have hsecond : writeBytes (L.memory k) p [c, color] (p + 1) = color := by
      unfold writeBytes
      rw [if_pos ⟨by omega, by simp⟩, show p + 1 - p = 1 by omega]
      rfl
    rw [readWord_eq]
    rintro ⟨hpage, hheap⟩
    -- the colour is in the second or in the last byte of `current_task`
    rcases (show p = L.current_task ∨ p = L.current_task + 2 by omega) with heq | heq
    · rw [heq] at hsecond hpage hheap
      rw [hsecond] at hpage hheap
      have := (writeBytes (L.memory k) L.current_task [c, color] L.current_task).toNat_lt
      omega
    · rw [heq] at hsecond hpage hheap
      rw [hsecond] at hpage hheap
      omega

/-! ### The terminal -/

/-- The cursor moves. -/
private theorem cursor_within {f : System → System} (h : ∀ s, (f s).kernel = s.kernel) :
    Within (OnKernel Scribbled) (modifies f : SM PUnit) :=
  .modifies fun s => by
    unfold OnKernel
    rw [h]
    exact Std.Refl.refl _

instance terminalPut_within (L : Layout) (c : UInt8) :
    Within (OnKernel Scribbled) (terminalPut L c 15) := by
  have h₁ := cursor_within (f := fun s => { s with terminal_col := s.terminal_col + 1 }) fun _ => rfl
  have h₂ := cursor_within
    (f := fun s => { s with terminal_col := 0, terminal_row := s.terminal_row + 1 }) fun _ => rfl
  unfold terminalPut
  infer_instance

instance terminalBackspace_within (L : Layout) :
    Within (OnKernel Scribbled) (terminalBackspace L) := by
  have h₁ := cursor_within (f := fun s => { s with terminal_col := s.terminal_col - 1 }) fun _ => rfl
  have h₂ := cursor_within (f := fun s => { s with
    terminal_row := s.terminal_row - 1, terminal_col := UInt16.ofNat VGA_WIDTH }) fun _ => rfl
  unfold terminalBackspace
  infer_instance

instance terminalWritechar_within (L : Layout) (c : UInt8) :
    Within (OnKernel Scribbled) (terminalWritechar L c 15) := by
  have h := cursor_within
    (f := fun s => { s with terminal_row := s.terminal_row + 1, terminal_col := 0 }) fun _ => rfl
  unfold terminalWritechar
  infer_instance

instance print_within (L : Layout) (str : List UInt8) :
    Within (OnKernel Scribbled) (print L str) := by
  unfold print
  induction str.take (strlen str) with
  | nil => exact inferInstanceAs (Within _ (pure PUnit.unit))
  | cons c str ih =>
    unfold printLoop
    infer_instance

end PlumOS
