import PlumOS.Kernel.System

/-!
# Leaving the kernel by a task switch

The functions that do not come back: `task_next` of `task/task.c` and
`idt_handle_exception` of `idt/idt.c`, and what they do when the kernel itself runs
into a page that is not present.

## Main definitions

- `returnTo`, `switchNext` — `task_return` of a task's registers, and `task_next`
- `idtHandleException`, `pageFault`
-/

namespace PlumOS

open StateExcept

/-- `&task->registers`. -/
def taskRegisters (task : Nat) : Nat := task + 4

/-- `task_return(&task->registers)`. -/
def returnTo {α : Type} (e : Entry) (task : Nat) : HM α := do
  let t ← inKernel (deref Obj.task? task)
  let regs := taskRegisters task
  leaves ⟨.saved regs, taskReturn (UInt32.ofNat regs) t.registers e.cpu⟩

/-- `task_next`, with its way out of the kernel. -/
def switchNext {α : Type} (e : Entry) : HM α := do
  let next_task ← inKernel taskGetNext
  if next_task = 0 then inKernel (fails .panic)
  else do
    let _ ← inKernel (taskSwitch next_task)
    returnTo e next_task

/-- `process_terminate(task_current()->process)`. -/
def terminateCurrent : KM Int := do
  let current_task ← reads Kernel.current_task
  let t ← deref Obj.task? current_task
  processTerminate t.process

/-- `idt_handle_exception`. -/
def idtHandleException {α : Type} (e : Entry) : HM α := do
  let _ ← inKernel terminateCurrent
  switchNext e

/-- `interrupt_handler(14, frame)`, when the kernel reads a page that is not present. -/
def pageFault {α : Type} (e : Entry) : HM α := do
  inKernel kernelPage
  inKernel (taskCurrentSaveState e.fault_frame)
  idtHandleException e

end PlumOS
