import PlumOS.Fs.File
import PlumOS.Lib.EarlyExit
import PlumOS.Task.Process
import PlumOS.Task.TaskReturn

/-!
# The system

The kernel with its terminal (`kernel.c`) and the state of the keyboard driver, entered
by an interrupt and left for user mode. A store through a pointer that nothing checks
may go anywhere in memory: where the linker puts `current_task`, and which bytes hold
the kernel's code and stack, is a parameter.

## Main definitions

- `System`, `HM` — the state, and functions that may leave for user mode
- `Entry`, `UserReturn` — what the kernel is entered with, and what it leaves with
- `Layout`, `storeRaw` — a store anywhere in memory
- `terminalWritechar`, `print`
-/

namespace PlumOS

open StateExcept

/-! ### Entering and leaving the kernel -/

/-- The kernel, the cursor of the terminal, and whether caps lock is on. -/
structure System where
  kernel : Kernel
  terminal_row : UInt16
  terminal_col : UInt16
  capslock_state : Bool

/-- What an interrupt brings into the kernel besides its vector: the frame that the
processor and `pushad` push, and what the source does not determine. That is the
processor when `task_return` is entered, the byte in the keyboard's port, the frame
when a page fault interrupts the kernel, and what a local buffer holds at first. -/
structure Entry where
  frame : InterruptFrame
  cpu : Cpu
  scancode : UInt8
  fault_frame : InterruptFrame
  buffer : List UInt8

/-- The frame whose registers user mode gets. -/
inductive PoppedFrame
  /-- The frame on the kernel's stack, of the task that was interrupted. -/
  | stacked (interrupted : Nat)
  /-- The `struct registers` at this address, given to `task_return`. -/
  | saved (regs : Nat)
  deriving DecidableEq

/-- The kernel goes back to user mode. -/
structure UserReturn where
  frame : PoppedFrame
  registers : Registers
  deriving DecidableEq

/-- Functions that run on the system. -/
abbrev SM := StateT System (Except Fault)

/-- Functions that may leave for user mode, as `task_return` does. -/
abbrev HM := Leaving UserReturn System Fault

/-- A function of the kernel. -/
def onKernel {α : Type} (m : KM α) : SM α := fun s =>
  match m s.kernel with
  | .ok (a, k) => .ok (a, { s with kernel := k })
  | .error e => .error e

/-- A function of the kernel, which comes back. -/
def inKernel {α : Type} (m : KM α) : HM α := stays (onKernel m)

theorem onKernel_of_ok {α : Type} {m : KM α} {s : System} {a : α} {k : Kernel}
    (h : m s.kernel = .ok (a, k)) : onKernel m s = .ok (a, { s with kernel := k }) := by
  unfold onKernel
  rw [h]

theorem onKernel_ensures {α : Type} {m : KM α} {s : System} {Q : α → Kernel → Prop}
    (h : Ensures m s.kernel Q) :
    Ensures (onKernel m) s fun a s' => s' = { s with kernel := s'.kernel } ∧ Q a s'.kernel := by
  intro a s' ha
  unfold onKernel at ha
  cases hm : m s.kernel with
  | error e =>
    rw [hm] at ha
    cases ha
  | ok p =>
    rw [hm] at ha
    cases ha
    exact ⟨rfl, h _ _ hm⟩

theorem onKernel_returns {α : Type} {m : KM α} {s : System} {Q : α → Kernel → Prop}
    (h : Returns m s.kernel Q) :
    Returns (onKernel m) s fun a s' => s' = { s with kernel := s'.kernel } ∧ Q a s'.kernel := by
  obtain ⟨a, k, hm, hQ⟩ := h
  exact ⟨a, { s with kernel := k }, onKernel_of_ok hm, rfl, hQ⟩

/-! ### Stores anywhere in memory -/

/-- The address of the variable `current_task`, and the bytes of the kernel's code and
of the part of its stack that is in use. The kernel is linked to start at 1 MB
(`linker.ld`), and its heap is behind it. -/
structure Layout where
  current_task : Nat
  reserved : Nat → Bool
  aligned : current_task % 4 = 0
  load_le : 0x100000 ≤ current_task
  lt_heap : current_task + 4 ≤ PLUMOS_HEAP_ADDRESS

/-- A kernel of half a megabyte, with `current_task` at 2 MB. -/
def Layout.small : Layout where
  current_task := 0x200000
  reserved := fun a => 0x100000 ≤ a && a < 0x180000
  aligned := by decide
  load_le := by decide
  lt_heap := by decide

/-- `sizeof` of a structure. -/
def Obj.size : Obj → Nat
  | .process _ => sizeofProcess
  | .task _ => sizeofTask
  | .chunk _ => 4
  | .words _ => 4096
  | .elfFile _ => sizeofElfFile
  | .pathRoot _ => sizeofPathRoot
  | .pathPart _ => sizeofPathPart
  | .fileDescriptor _ => sizeofFileDescriptor
  | .fatFileDescriptor _ => sizeofFatFileDescriptor
  | .fatItem _ => sizeofFatItem
  | .fatDirectory _ => sizeofFatDirectory

/-- The byte at `a` is in a structure that starts at block address `q`. -/
def Kernel.structureCovers (k : Kernel) (q a : Nat) : Bool :=
  match k.objs q with
  | some o => a < q + o.size
  | none => false

/-- The byte at `a` is in a structure. The largest, `struct process`, has three blocks. -/
def Kernel.structureAt (k : Kernel) (a : Nat) : Bool :=
  let block := a / PLUMOS_HEAP_BLOCK_SIZE * PLUMOS_HEAP_BLOCK_SIZE
  k.structureCovers block a || k.structureCovers (block - PLUMOS_HEAP_BLOCK_SIZE) a ||
    k.structureCovers (block - 2 * PLUMOS_HEAP_BLOCK_SIZE) a

/-- What the source does not determine after a store of `n` bytes at `p`: the kernel's
code, its stack or a structure is overwritten. -/
def Layout.forbids (L : Layout) (k : Kernel) (p n : Nat) : Bool :=
  (List.range n).any fun i => L.reserved (p + i) || k.structureAt (p + i)

/-- Memory with the variable `current_task` in it. -/
def Layout.memory (L : Layout) (k : Kernel) : Nat → UInt8 :=
  writeBytes k.mem L.current_task (wordBytes k.current_task)

/-- The kernel when `bytes` are stored at `p`. Of its variables only `current_task`
is read on the way back to user mode. -/
def Layout.store (L : Layout) (k : Kernel) (p : Nat) (bytes : List UInt8) : Kernel :=
  { k with
    mem := writeBytes k.mem p bytes
    current_task := readWord (writeBytes (L.memory k) p bytes) L.current_task }

/-- A store through a pointer that may point anywhere. -/
def storeRaw (L : Layout) (p : Nat) (bytes : List UInt8) : KM PUnit := fun k =>
  if L.forbids k p bytes.length then .error .wildWrite else .ok (⟨⟩, L.store k p bytes)

/-! ### The terminal -/

def VGA_WIDTH : Nat := 80

/-- Where `video_mem` points to. -/
def videoMemory : Nat := 0xb8000

/-- `terminal_make_char`: the two bytes of a cell. `char` is signed, so its sign covers
the colour. -/
def terminalMakeChar (c color : UInt8) : List UInt8 :=
  [c, if 0x80 ≤ c then color ||| 0xff else color]

/-- `terminal_putchar`. Nothing keeps `x` and `y` on the screen. -/
def terminalPutchar (L : Layout) (x y : Nat) (c color : UInt8) : KM PUnit :=
  storeRaw L (videoMemory + 2 * (y * VGA_WIDTH + x)) (terminalMakeChar c color)

/-- The part of `terminal_writechar` behind its two tests. -/
def terminalPut (L : Layout) (c color : UInt8) : SM PUnit := do
  let s ← reads id
  onKernel (terminalPutchar L s.terminal_col.toNat s.terminal_row.toNat c color)
  modifies fun s => { s with terminal_col := s.terminal_col + 1 }
  let s ← reads id
  onlyIf (VGA_WIDTH ≤ s.terminal_col.toNat) do
    modifies fun s => { s with terminal_col := 0, terminal_row := s.terminal_row + 1 }

/-- `terminal_backspace`. -/
def terminalBackspace (L : Layout) : SM PUnit := do
  let s ← reads id
  if s.terminal_row = 0 ∧ s.terminal_col = 0 then pure ⟨⟩
  else do
    onlyIf (s.terminal_col = 0) do
      modifies fun s => { s with
        terminal_row := s.terminal_row - 1, terminal_col := UInt16.ofNat VGA_WIDTH }
    modifies fun s => { s with terminal_col := s.terminal_col - 1 }
    -- `terminal_writechar(' ', 15)`: a blank passes both tests
    terminalPut L 0x20 15
    modifies fun s => { s with terminal_col := s.terminal_col - 1 }

/-- `terminal_writechar`. -/
def terminalWritechar (L : Layout) (c color : UInt8) : SM PUnit :=
  if c = 0x0a then
    modifies fun s => { s with terminal_row := s.terminal_row + 1, terminal_col := 0 }
  else if c = 0x08 then terminalBackspace L
  else terminalPut L c color

/-- The loop of `print`. -/
def printLoop (L : Layout) : (str : List UInt8) → SM PUnit
  | [] => pure ⟨⟩
  | c :: str => do
    terminalWritechar L c 15
    printLoop L str

/-- `print`. -/
def print (L : Layout) (str : List UInt8) : SM PUnit := printLoop L (str.take (strlen str))

end PlumOS
