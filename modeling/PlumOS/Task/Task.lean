import PlumOS.Loader.Elf
import PlumOS.Memory.AddressSpace

/-!
# Tasks

`task/task.c`: creating and releasing tasks and the doubly linked list of all tasks.

## Main definitions

- `taskNew`, `taskInit` — a new task at the end of the list
- `taskListRemove`, `taskFree` — removal
- `taskGetNext`, `taskSwitch` — the scheduler's choice
-/

namespace PlumOS

open StateExcept

def sizeofTask : Nat := 64

/-- `task_get_next`. -/
def taskGetNext : KM Nat := do
  let current_task ← reads Kernel.current_task
  let t ← deref Obj.task? current_task
  if t.next = 0 then reads Kernel.task_head
  else pure t.next

/-- `task_list_remove`. The successor's `prev` is left as it is. -/
def taskListRemove (task : Nat) : KM PUnit :=
  if task = 0 then pure ⟨⟩
  else do
    let t ← deref Obj.task? task
    onlyIf (t.prev ≠ 0) do
      modifyTask t.prev fun p => { p with next := t.next }
    let task_head ← reads Kernel.task_head
    onlyIf (task = task_head) do
      let t ← deref Obj.task? task
      modifies fun k => { k with task_head := t.next }
    let task_tail ← reads Kernel.task_tail
    onlyIf (task = task_tail) do
      let t ← deref Obj.task? task
      modifies fun k => { k with task_tail := t.prev }
    let current_task ← reads Kernel.current_task
    onlyIf (task = current_task) do
      let next ← taskGetNext
      modifies fun k => { k with current_task := next }

/-- `task_free`. -/
def taskFree (task : Nat) : KM Int := do
  let t ← deref Obj.task? task
  pagingFree4gb t.page_directory
  taskListRemove task
  kfree task
  pure 0

/-- The address `task_init` starts the program at. -/
def taskEntry (p : Process) : KM Nat :=
  if p.filetype = PROCESS_FILETYPE_ELF then do
    let header ← elfHeader p.elf_file
    pure header.e_entry
  else pure PLUMOS_PROGRAM_VIRTUAL_ADDRESS

/-- `task_init`. -/
def taskInit (task process : Nat) : KM Int := do
  storeObj task (.task Task.zero)
  let page_directory ← pagingNew4gb (PAGING_IS_PRESENT ||| PAGING_ACCESS_FROM_ALL)
  modifyTask task fun t => { t with page_directory := page_directory }
  if page_directory = 0 then pure (- EIO)
  else do
    let p ← deref Obj.process? process
    let ip ← taskEntry p
    modifyTask task fun t => { t with
      registers := { t.registers with
        ip := UInt32.ofNat ip
        ss := UInt32.ofNat USER_DATA_SEGMENT
        cs := UInt32.ofNat USER_CODE_SEGMENT
        esp := UInt32.ofNat PLUMOS_PROGRAM_VIRTUAL_STACK_ADDRESS_START }
      process := process }
    pure 0

/-- The part of `task_new` after `task_init`: the task goes to the end of the list. -/
def taskAppend (task : Nat) : KM PUnit := do
  let k ← reads id
  if k.task_head = 0 then
    modifies fun k => { k with task_head := task, task_tail := task, current_task := task }
  else do
    modifyTask k.task_tail fun t => { t with next := task }
    modifyTask task fun t => { t with prev := k.task_tail }
    modifies fun k => { k with task_tail := task }

/-- The exit of `task_new` on an error. -/
def taskNewFail (task : Nat) (res : Int) : KM Nat := do
  let _ ← taskFree task
  pure (ERROR res)

/-- `task_new`. -/
def taskNew (process : Nat) : KM Nat := do
  let task ← kzallocObj sizeofTask (.task Task.zero)
  if task = 0 then taskNewFail task (-ENOMEM)
  else do
    let res ← taskInit task process
    if res ≠ PLUMOS_ALL_OK then taskNewFail task res
    else do
      taskAppend task
      pure task

/-- `task_switch`. -/
def taskSwitch (task : Nat) : KM Int := do
  modifies fun k => { k with current_task := task }
  let t ← deref Obj.task? task
  pagingSwitch t.page_directory
  pure 0

/-- `task_save_state`. -/
def taskSaveState (registers : Registers) (frame : InterruptFrame) : Registers :=
  { registers with
    ip := frame.ip
    cs := frame.cs
    flags := frame.flags
    esp := frame.esp
    ss := frame.ss
    eax := frame.eax
    ebp := frame.ebp
    ebx := frame.ebx
    ecx := frame.ecx
    edi := frame.edi
    edx := frame.edx
    esi := frame.esi }

/-- `task_current_save_state`. -/
def taskCurrentSaveState (frame : InterruptFrame) : KM PUnit := do
  let task ← reads Kernel.current_task
  if task = 0 then fails .panic
  else modifyTask task fun t => { t with registers := taskSaveState t.registers frame }

end PlumOS
