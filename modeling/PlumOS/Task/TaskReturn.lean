import PlumOS.Task.Task

/-!
# Leaving the kernel

`task/task.asm`: `task_return` and `restore_general_purpose_registers`, one line
for each instruction that moves data, and the way from the clock interrupt to them
(`interrupt_handler` and `idt_clock` of `idt/idt.c`, `task_next` of `task/task.c`).

## Main definitions

- `restoreGeneralPurposeRegisters`, `taskReturn` — the assembly routines
- `interruptHandlerClock` — interrupt 0x20, from the saved frame to user space
-/

namespace PlumOS

open StateExcept

/-- The word at byte `offset` of a `struct registers`. -/
def Registers.word (r : Registers) : (offset : Nat) → UInt32
  | 0 => r.edi
  | 4 => r.esi
  | 8 => r.ebp
  | 12 => r.ebx
  | 16 => r.edx
  | 20 => r.ecx
  | 24 => r.eax
  | 28 => r.ip
  | 32 => r.cs
  | 36 => r.flags
  | 40 => r.esp
  | 44 => r.ss
  | _ => 0

/-- The processor in kernel mode: the registers the routines write, the flags, and
the kernel stack with its top first. -/
structure Cpu where
  edi : UInt32
  esi : UInt32
  ebp : UInt32
  ebx : UInt32
  edx : UInt32
  ecx : UInt32
  eax : UInt32
  eflags : UInt32
  stack : List UInt32

def Cpu.push (c : Cpu) (v : UInt32) : Cpu := { c with stack := v :: c.stack }

/-- `pop eax`. -/
def Cpu.popEax (c : Cpu) : Cpu := { c with eax := c.stack.headD 0, stack := c.stack.tail }

/-- `add esp, 4`. -/
def Cpu.drop (c : Cpu) : Cpu := { c with stack := c.stack.tail }

/-- `restore_general_purpose_registers`. `ebx` holds the pointer to `regs` until the
last load. -/
def restoreGeneralPurposeRegisters (regs : Registers) (c : Cpu) : Cpu :=
  let c := c.push c.ebp
  let c := { c with edi := regs.word 0 }
  let c := { c with esi := regs.word 4 }
  let c := { c with ebp := regs.word 8 }
  let c := { c with edx := regs.word 16 }
  let c := { c with ecx := regs.word 12 }
  let c := { c with eax := regs.word 20 }
  let c := { c with eax := regs.word 24 }
  let c := { c with ebx := regs.word 12 }
  c.drop

/-- `iretd`: the user's registers. -/
def Cpu.iretd (c : Cpu) : Registers :=
  { edi := c.edi, esi := c.esi, ebp := c.ebp, ebx := c.ebx, edx := c.edx, ecx := c.ecx
    eax := c.eax
    ip := c.stack.getD 0 0
    cs := c.stack.getD 1 0
    flags := c.stack.getD 2 0
    esp := c.stack.getD 3 0
    ss := c.stack.getD 4 0 }

/-- `task_return(regs)`, with `ptr` the pointer to `regs`: the registers of the
task that runs. -/
def taskReturn (ptr : UInt32) (regs : Registers) (c : Cpu) : Registers :=
  let c := { c with ebx := ptr }
  let c := c.push (regs.word 44)
  let c := c.push (regs.word 40)
  let c := c.push c.eflags
  let c := c.popEax
  let c := { c with eax := c.eax ||| 0x200 }
  let c := c.push c.eax
  let c := c.push (regs.word 32)
  let c := c.push (regs.word 28)
  let c := c.push ptr
  let c := restoreGeneralPurposeRegisters regs c
  let c := c.drop
  c.iretd

/-- `task_next`. -/
def taskNext (c : Cpu) : KM Registers := do
  let next_task ← taskGetNext
  if next_task = 0 then fails .panic
  else do
    let _ ← taskSwitch next_task
    let t ← deref Obj.task? next_task
    pure (taskReturn (UInt32.ofNat (next_task + 4)) t.registers c)

/-- `kernel_page`. -/
def kernelPage : KM PUnit := do
  let kernel_chunk ← reads Kernel.kernel_chunk
  pagingSwitch kernel_chunk

/-- `interrupt_handler(0x20, frame)`. The callback `idt_clock` runs `task_next` and
does not come back; `c` is the processor when `task_return` is entered. -/
def interruptHandlerClock (frame : InterruptFrame) (c : Cpu) : KM Registers := do
  kernelPage
  taskCurrentSaveState frame
  taskNext c

/-- What a task receives when it is resumed: its saved registers, but `ecx` from
the slot of `ebx`, and the flags of the kernel. -/
theorem taskReturn_eq (ptr : UInt32) (regs : Registers) (c : Cpu) :
    taskReturn ptr regs c =
      { regs with ecx := regs.ebx, flags := c.eflags ||| 0x200 } := rfl

end PlumOS
