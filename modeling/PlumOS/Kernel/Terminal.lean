import PlumOS.Kernel.Scribble

/-!
# The screen

What is written to the terminal from its initialisation on, and the same program with every
call of `terminal_putchar` watched. A call for a cell of the screen stores there and nowhere
else.

## Main definitions

- `terminalInitialize`, `TerminalOp`, `terminalRun` — what is written to the terminal
- `terminalRunWatched` — the same, left at a call of `terminal_putchar` outside the screen
- `ScreenFree` — nothing else is where the screen is

## Main results

- `terminalRunWatched_watches`, `terminalRunWatched_keeping`
-/

namespace PlumOS

open StateExcept

def VGA_HEIGHT : Nat := 20

/-- `terminal_initialize`. -/
def terminalInitialize (L : Layout) : SM PUnit :=
  (List.range VGA_HEIGHT).forM fun y => (List.range VGA_WIDTH).forM fun x =>
    onKernel (terminalPutchar L x y 0x20 0)

/-- A call of `terminal_writechar` or of `print`. -/
inductive TerminalOp
  | writechar (c color : UInt8)
  | print (str : List UInt8)

/-- The characters that are written. -/
def TerminalOp.text : TerminalOp → List UInt8
  | writechar c _ => [c]
  | print str => str.take (strlen str)

/-- The calls in turn. -/
def terminalRun (L : Layout) : List TerminalOp → SM PUnit
  | [] => pure ⟨⟩
  | .writechar c color :: ops => do
    terminalWritechar L c color
    terminalRun L ops
  | .print str :: ops => do
    print L str
    terminalRun L ops

/-! ### The calls of `terminal_putchar` -/

/-- Programs that may leave with the coordinates of a call. -/
abbrev WM := Leaving (Nat × Nat) System Fault

/-- `terminalPutchar`, left when the cell is not on the screen. -/
def terminalPutcharWatched (L : Layout) (x y : Nat) (c color : UInt8) : WM PUnit := do
  expects (fun _ => x < VGA_WIDTH ∧ y < VGA_HEIGHT) (x, y)
  stays (onKernel (terminalPutchar L x y c color))

def terminalInitializeWatched (L : Layout) : WM PUnit :=
  (List.range VGA_HEIGHT).forM fun y => (List.range VGA_WIDTH).forM fun x =>
    terminalPutcharWatched L x y 0x20 0

def terminalPutWatched (L : Layout) (c color : UInt8) : WM PUnit := do
  let s ← stays (reads id)
  terminalPutcharWatched L s.terminal_col.toNat s.terminal_row.toNat c color
  stays (modifies fun s => { s with terminal_col := s.terminal_col + 1 })
  let s ← stays (reads id)
  leavingIf (VGA_WIDTH ≤ s.terminal_col.toNat) do
    stays (modifies fun s => { s with terminal_col := 0, terminal_row := s.terminal_row + 1 })

def terminalBackspaceWatched (L : Layout) : WM PUnit := do
  let s ← stays (reads id)
  if s.terminal_row = 0 ∧ s.terminal_col = 0 then pure ⟨⟩
  else do
    leavingIf (s.terminal_col = 0) do
      stays (modifies fun s => { s with
        terminal_row := s.terminal_row - 1, terminal_col := UInt16.ofNat VGA_WIDTH })
    stays (modifies fun s => { s with terminal_col := s.terminal_col - 1 })
    terminalPutWatched L 0x20 15
    stays (modifies fun s => { s with terminal_col := s.terminal_col - 1 })

def terminalWritecharWatched (L : Layout) (c color : UInt8) : WM PUnit :=
  if c = 0x0a then
    stays (modifies fun s => { s with terminal_row := s.terminal_row + 1, terminal_col := 0 })
  else if c = 0x08 then terminalBackspaceWatched L
  else terminalPutWatched L c color

def printLoopWatched (L : Layout) : (str : List UInt8) → WM PUnit
  | [] => pure ⟨⟩
  | c :: str => do
    terminalWritecharWatched L c 15
    printLoopWatched L str

def terminalRunWatched (L : Layout) : List TerminalOp → WM PUnit
  | [] => pure ⟨⟩
  | .writechar c color :: ops => do
    terminalWritecharWatched L c color
    terminalRunWatched L ops
  | .print str :: ops => do
    printLoopWatched L (str.take (strlen str))
    terminalRunWatched L ops

theorem terminalPutcharWatched_watches (L : Layout) (x y : Nat) (c color : UInt8) :
    Watches (terminalPutcharWatched L x y c color) (onKernel (terminalPutchar L x y c color)) :=
  .expects (.stays _)

theorem terminalPutWatched_watches (L : Layout) (c color : UInt8) :
    Watches (terminalPutWatched L c color) (terminalPut L c color) := by
  apply Watches.bind (.stays _)
  intro s
  apply Watches.bind (terminalPutcharWatched_watches L _ _ c color)
  intro _
  apply Watches.bind (.stays _)
  intro _
  apply Watches.bind (.stays _)
  intro s
  exact .onlyIf (.stays _)

theorem terminalBackspaceWatched_watches (L : Layout) :
    Watches (terminalBackspaceWatched L) (terminalBackspace L) := by
  apply Watches.bind (.stays _)
  intro s
  apply Watches.ite (.pure _)
  apply Watches.bind (.onlyIf (.stays _))
  intro _
  apply Watches.bind (.stays _)
  intro _
  apply Watches.bind (terminalPutWatched_watches L _ _)
  intro _
  exact .stays _

theorem terminalWritecharWatched_watches (L : Layout) (c color : UInt8) :
    Watches (terminalWritecharWatched L c color) (terminalWritechar L c color) :=
  .ite (.stays _) (.ite (terminalBackspaceWatched_watches L) (terminalPutWatched_watches L c color))

theorem printLoopWatched_watches (L : Layout) (str : List UInt8) :
    Watches (printLoopWatched L str) (printLoop L str) := by
  induction str with
  | nil => exact .pure _
  | cons c str ih => exact .bind (terminalWritecharWatched_watches L c 15) fun _ => ih

theorem terminalInitializeWatched_watches (L : Layout) :
    Watches (terminalInitializeWatched L) (terminalInitialize L) :=
  Watches.forM _ fun _ => Watches.forM _ fun _ => terminalPutcharWatched_watches L _ _ _ _

theorem terminalRunWatched_watches (L : Layout) (ops : List TerminalOp) :
    Watches (terminalRunWatched L ops) (terminalRun L ops) := by
  induction ops with
  | nil => exact .pure _
  | cons op ops ih =>
    cases op with
    | writechar c color => exact .bind (terminalWritecharWatched_watches L c color) fun _ => ih
    | print str => exact .bind (printLoopWatched_watches L _) fun _ => ih

/-! ### Cells of the screen -/

/-- Where the cell in column `x` of row `y` is. -/
def cellAddress (x y : Nat) : Nat := videoMemory + 2 * (y * VGA_WIDTH + x)

/-- The byte at `a` belongs to the screen. -/
def OnScreen (a : Nat) : Prop :=
  videoMemory ≤ a ∧ a < videoMemory + 2 * (VGA_WIDTH * VGA_HEIGHT)

theorem onScreen_cell {x y i : Nat} (hx : x < VGA_WIDTH) (hy : y < VGA_HEIGHT) (hi : i < 2) :
    OnScreen (cellAddress x y + i) := by
  unfold VGA_WIDTH at hx
  unfold VGA_HEIGHT at hy
  unfold OnScreen cellAddress VGA_WIDTH VGA_HEIGHT
  omega

/-- The kernel's code, its stack and its structures are elsewhere. -/
def ScreenFree (L : Layout) (k : Kernel) : Prop :=
  ∀ a, OnScreen a → L.reserved a = false ∧ k.structureAt a = false

theorem ScreenFree.store {L : Layout} {k : Kernel} (h : ScreenFree L k) (p : Nat)
    (bytes : List UInt8) : ScreenFree L (L.store k p bytes) := h

theorem terminalMakeChar_length (c color : UInt8) : (terminalMakeChar c color).length = 2 := rfl

theorem terminalPutchar_onScreen {L : Layout} {k : Kernel} (h : ScreenFree L k) {x y : Nat}
    (hx : x < VGA_WIDTH) (hy : y < VGA_HEIGHT) (c color : UInt8) :
    terminalPutchar L x y c color k =
      .ok (⟨⟩, L.store k (cellAddress x y) (terminalMakeChar c color)) := by
  have hallowed : L.forbids k (cellAddress x y) (terminalMakeChar c color).length = false := by
    unfold Layout.forbids
    rw [List.any_eq_false]
    intro i hi
    obtain ⟨hreserved, hstructure⟩ := h _ (onScreen_cell hx hy (List.mem_range.mp hi))
    simp [hreserved, hstructure]
  exact if_neg (ne_true_of_eq_false hallowed)

theorem terminalPutcharWatched_passes {L : Layout} {s : System} (h : ScreenFree L s.kernel)
    {x y : Nat} (hx : x < VGA_WIDTH) (hy : y < VGA_HEIGHT) (c color : UInt8) :
    (terminalPutcharWatched L x y c color).run s = .ok (.ok ⟨⟩, { s with
      kernel := L.store s.kernel (cellAddress x y) (terminalMakeChar c color) }) := by
  unfold terminalPutcharWatched
  rw [run_bind, run_expects_of_pos (c := fun _ => x < VGA_WIDTH ∧ y < VGA_HEIGHT) ⟨hx, hy⟩]
  change ExceptT.run (stays (onKernel (terminalPutchar L x y c color))) s = _
  rw [run_stays, onKernel_of_ok (terminalPutchar_onScreen h hx hy c color)]

theorem terminalPutcharWatched_leaves {L : Layout} {x y : Nat}
    (h : ¬ (x < VGA_WIDTH ∧ y < VGA_HEIGHT)) (c color : UInt8) (s : System) :
    (terminalPutcharWatched L x y c color).run s = .ok (.error (x, y), s) := by
  unfold terminalPutcharWatched
  rw [run_bind, run_expects_of_neg (c := fun _ => x < VGA_WIDTH ∧ y < VGA_HEIGHT) h]

/-! ### What is stored outside the screen -/

/-- The bytes outside the screen are as they were. -/
def SameOffScreen (s s' : System) : Prop :=
  ∀ a, ¬ OnScreen a → s'.kernel.mem a = s.kernel.mem a

instance : Std.Refl SameOffScreen := ⟨fun _ _ _ => rfl⟩

instance : IsTrans System SameOffScreen where
  trans _ _ _ h h' a ha := (h' a ha).trans (h a ha)

/-- What holds of every call. -/
abbrev Watched (w : WM PUnit) : Prop := Keeping (fun _ _ => True) SameOffScreen w

instance terminalPutcharWatched_keeping (L : Layout) (x y : Nat) (c color : UInt8) :
    Watched (terminalPutcharWatched L x y c color) where
  keeping s := by
    unfold terminalPutcharWatched
    by_cases h : x < VGA_WIDTH ∧ y < VGA_HEIGHT
    · rw [Ends.expects_bind_of_pos (c := fun _ => x < VGA_WIDTH ∧ y < VGA_HEIGHT) h]
      refine Ends.stays ((onKernel_ensures (storeRaw_spec L s.kernel _ _)).mono ?_)
      rintro _ s' ⟨-, hk, -⟩ a ha
      rw [hk]
      refine writeBytes_of_not_mem (p := cellAddress x y) ?_
      rw [terminalMakeChar_length]
      by_contra hcell
      have hon := onScreen_cell (i := a - cellAddress x y) h.1 h.2 (by omega)
      rw [show cellAddress x y + (a - cellAddress x y) = a by omega] at hon
      exact ha hon
    · rw [Ends.expects_bind_of_neg (c := fun _ => x < VGA_WIDTH ∧ y < VGA_HEIGHT) h]
      trivial

private theorem cursor_same {f : System → System} (h : ∀ s, (f s).kernel = s.kernel) :
    Watched (stays (modifies f)) :=
  have : Within SameOffScreen (modifies f : SM PUnit) := Within.modifies fun s a _ => by rw [h]
  inferInstance

instance leavingIf_keeping {c : Prop} [Decidable c] (w : WM PUnit) [h : Watched w] :
    Watched (leavingIf c w) := by
  unfold leavingIf
  infer_instance

instance terminalPutWatched_keeping (L : Layout) (c color : UInt8) :
    Watched (terminalPutWatched L c color) := by
  have h₁ := cursor_same (f := fun s => { s with terminal_col := s.terminal_col + 1 }) fun _ => rfl
  have h₂ := cursor_same
    (f := fun s => { s with terminal_col := 0, terminal_row := s.terminal_row + 1 }) fun _ => rfl
  unfold terminalPutWatched
  infer_instance

instance terminalBackspaceWatched_keeping (L : Layout) :
    Watched (terminalBackspaceWatched L) := by
  have h₁ := cursor_same (f := fun s => { s with terminal_col := s.terminal_col - 1 }) fun _ => rfl
  have h₂ := cursor_same (f := fun s => { s with
    terminal_row := s.terminal_row - 1, terminal_col := UInt16.ofNat VGA_WIDTH }) fun _ => rfl
  unfold terminalBackspaceWatched
  infer_instance

instance terminalWritecharWatched_keeping (L : Layout) (c color : UInt8) :
    Watched (terminalWritecharWatched L c color) := by
  have h := cursor_same
    (f := fun s => { s with terminal_row := s.terminal_row + 1, terminal_col := 0 }) fun _ => rfl
  unfold terminalWritecharWatched
  infer_instance

instance printLoopWatched_keeping (L : Layout) (str : List UInt8) :
    Watched (printLoopWatched L str) := by
  induction str with
  | nil => exact inferInstanceAs (Watched (pure PUnit.unit))
  | cons c str ih =>
    unfold printLoopWatched
    infer_instance

instance terminalRunWatched_keeping (L : Layout) (ops : List TerminalOp) :
    Watched (terminalRunWatched L ops) := by
  induction ops with
  | nil => exact inferInstanceAs (Watched (pure PUnit.unit))
  | cons op ops ih =>
    cases op with
    | writechar c color =>
      unfold terminalRunWatched
      infer_instance
    | print str =>
      unfold terminalRunWatched
      infer_instance

end PlumOS
