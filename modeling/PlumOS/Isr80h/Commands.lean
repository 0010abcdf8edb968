import PlumOS.Keyboard.Keyboard
import PlumOS.Task.UserMemory

/-!
# The kernel's commands

`isr80h/`: the ten commands of interrupt 0x80, with `process_inject_arguments` and
`process_get_arguments` of `task/process.c`. A command's arguments are on the stack of
the task that asks; its result is a word.

## Main definitions

- `processInjectArguments`, `processGetArguments`
- `isr80hCommand0Sum` … `isr80hCommand9Exit`
- `isr80hHandleCommand` — the table of the commands
-/

namespace PlumOS

open StateExcept

/-! ### Arguments of a process -/

/-- The offset of `next` in `struct command_argument`, the size of `argument`. -/
def commandArgumentSize : Nat := 512

/-- `current->next`. -/
def commandArgumentNext (current : Nat) : KM Nat :=
  reads fun k => readWord k.mem (u32 ((current + commandArgumentSize : Nat) : Int))

/-- `process_count_command_arguments`, for a list of fewer than `fuel` nodes. -/
def processCountCommandArguments : (fuel current : Nat) → KM Nat
  | 0, _ => fails .divergence
  | fuel + 1, current =>
    if current = 0 then pure 0
    else do
      let next ← commandArgumentNext current
      let n ← processCountCommandArguments fuel next
      pure (n + 1)

/-- The loop of `strncpy` in the kernel's address space from byte `i` on. -/
def strncpyKernel (dest src : Nat) : (fuel i : Nat) → KM PUnit
  | 0, i => storeBytes (dest + i) [0x00]
  | fuel + 1, i => do
    let c ← reads fun k => k.mem (src + i)
    if c = 0x00 then storeBytes (dest + i) [0x00]
    else do
      storeBytes (dest + i) [c]
      strncpyKernel dest src fuel (i + 1)

/-- The loop of `process_inject_arguments` from node `current` on: whether it gets to
the end of the list. `argv` may be NULL; a process has 1024 allocations at most, so
`argv[i]` is in the first page then. -/
def processInjectLoop (process argv : Nat) : (fuel current i : Nat) → KM Bool
  | 0, _, _ => fails .divergence
  | fuel + 1, current, i =>
    if current = 0 then pure true
    else do
      let argument_str ← processMalloc process commandArgumentSize
      if argument_str = 0 then pure false
      else do
        strncpyKernel argument_str current (commandArgumentSize - 1) 0
        storeBytes (argv + 4 * i) (wordBytes argument_str)
        let next ← commandArgumentNext current
        processInjectLoop process argv fuel next (i + 1)

/-- No list has more nodes than there are addresses. -/
def commandArgumentFuel : Nat := 0x100000001

/-- `process_inject_arguments`. When there is no memory for `argv` it goes on. -/
def processInjectArguments (process root_argument : Nat) : KM Int := do
  let argc ← processCountCommandArguments commandArgumentFuel root_argument
  if argc = 0 then pure (- EIO)
  else do
    let argv ← processMalloc process (u32 ((4 * argc : Nat) : Int))
    let res := if argv = 0 then -ENOMEM else 0
    let complete ← processInjectLoop process argv commandArgumentFuel root_argument 0
    if !complete then pure (res - ENOMEM)
    else do
      modifyProcess process fun p => { p with arguments := ⟨i32 argc, argv⟩ }
      pure res

/-- `process_get_arguments(process, &arguments->argc, &arguments->argv)`. -/
def processGetArguments (L : Layout) (process arguments : Nat) : KM PUnit := do
  let p ← deref Obj.process? process
  storeRaw L arguments (wordBytes (u32 p.arguments.argc))
  let p ← deref Obj.process? process
  storeRaw L (arguments + 4) (wordBytes p.arguments.argv)

/-! ### The commands -/

/-- `task_current()`. -/
def taskCurrent : KM Nat := reads Kernel.current_task

/-- `task_get_stack_item(task_current(), index)`. -/
def stackItem (e : Entry) (index : Nat) : HM Nat := do
  let task ← inKernel taskCurrent
  taskGetStackItem e task index

/-- `task_current()->process`. -/
def currentProcess : KM Nat := do
  let task ← taskCurrent
  let t ← deref Obj.task? task
  pure t.process

/-- `isr80h_command0_sum`. -/
def isr80hCommand0Sum (e : Entry) : HM Nat := do
  let v2 ← stackItem e 1
  let v1 ← stackItem e 0
  pure (u32 ((v1 + v2 : Nat) : Int))

/-- `isr80h_command1_print`. The status of the copy is dropped. -/
def isr80hCommand1Print (L : Layout) (e : Entry) : HM Nat := do
  let user_space_msg_buffer ← stackItem e 0
  let task ← inKernel taskCurrent
  let r ← copyStringFromTask e task user_space_msg_buffer 1024
  stays (print L r.2)
  pure 0

/-- `(int)c` of a signed `char`, as a word. -/
def charWord (c : UInt8) : Nat := if 0x80 ≤ c then 0xffffff00 + c.toNat else c.toNat

/-- `isr80h_command2_getkey`. -/
def isr80hCommand2Getkey : HM Nat := do
  let c ← inKernel keyboardPop
  pure (charWord c)

/-- `isr80h_command3_putchar`. -/
def isr80hCommand3Putchar (L : Layout) (e : Entry) : HM Nat := do
  let c ← stackItem e 0
  stays (terminalWritechar L (UInt8.ofNat c) 15)
  pure 0

/-- `isr80h_command4_malloc`. -/
def isr80hCommand4Malloc (e : Entry) : HM Nat := do
  let size ← stackItem e 0
  let process ← inKernel currentProcess
  inKernel (processMalloc process size)

/-- `isr80h_command5_free`. -/
def isr80hCommand5Free (e : Entry) : HM Nat := do
  let ptr_to_free ← stackItem e 0
  let process ← inKernel currentProcess
  inKernel (processFree process ptr_to_free)
  pure 0

/-- `"0:/"` and the name, in an array of `PLUMOS_MAX_PATH` bytes. -/
def programPath (name : List UInt8) : KM (List UInt8) :=
  if PLUMOS_MAX_PATH < 3 + name.length + 1 then fails .outOfBounds
  else pure ([0x30, 0x3a, 0x2f] ++ name)

/-- `task_switch(process->task); task_return(&process->task->registers);`. -/
def startProcess {α : Type} (e : Entry) (process : Nat) : HM α := do
  let p ← inKernel (deref Obj.process? process)
  let _ ← inKernel (taskSwitch p.task)
  let p ← inKernel (deref Obj.process? process)
  returnTo e p.task

/-- `isr80h_command6_process_load_start`. -/
def isr80hCommand6ProcessLoadStart (e : Entry) : HM Nat := do
  let filename_user_ptr ← stackItem e 0
  let task ← inKernel taskCurrent
  let r ← copyStringFromTask e task filename_user_ptr PLUMOS_MAX_PATH
  if r.1 < 0 then pure 0
  else do
    let path ← inKernel (programPath (r.2.take (strlen r.2)))
    let r ← inKernel (processLoadSwitch path)
    if r.1 < 0 then pure 0
    else startProcess e r.2

/-- `isr80h_command7_invoke_system_command`. -/
def isr80hCommand7InvokeSystemCommand (e : Entry) : HM Nat := do
  let argument ← stackItem e 0
  let task ← inKernel taskCurrent
  let arguments ← inKernel (taskVirtualAddressToPhysical task argument)
  let k ← inKernel (reads id)
  -- the length of a string is 0 when its first byte is
  if arguments = 0 ∨ k.mem arguments = 0x00 then pure (ERROR (-EINVARG))
  else do
    let path ← inKernel (programPath (readString k.mem arguments (PLUMOS_MAX_PATH - 1)))
    let r ← inKernel (processLoadSwitch path)
    if r.1 < 0 then pure (ERROR r.1)
    else do
      let res ← inKernel (processInjectArguments r.2 arguments)
      if res < 0 then pure (ERROR res)
      else startProcess e r.2

/-- `isr80h_command8_get_program_arguments`. Nothing checks where the pointer leads. -/
def isr80hCommand8GetProgramArguments (L : Layout) (e : Entry) : HM Nat := do
  let process ← inKernel currentProcess
  let argument ← stackItem e 0
  let task ← inKernel taskCurrent
  let arguments ← inKernel (taskVirtualAddressToPhysical task argument)
  inKernel (processGetArguments L process arguments)
  pure 0

/-- `isr80h_command9_exit`. -/
def isr80hCommand9Exit (e : Entry) : HM Nat := do
  let _ ← inKernel terminateCurrent
  switchNext e

/-! ### The table -/

/-- `isr80h_commands[command]`, as `isr80h_register_commands` fills it. -/
def isr80hCommands (L : Layout) (e : Entry) : Nat → Option (HM Nat)
  | 0 => some (isr80hCommand0Sum e)
  | 1 => some (isr80hCommand1Print L e)
  | 2 => some isr80hCommand2Getkey
  | 3 => some (isr80hCommand3Putchar L e)
  | 4 => some (isr80hCommand4Malloc e)
  | 5 => some (isr80hCommand5Free e)
  | 6 => some (isr80hCommand6ProcessLoadStart e)
  | 7 => some (isr80hCommand7InvokeSystemCommand e)
  | 8 => some (isr80hCommand8GetProgramArguments L e)
  | 9 => some (isr80hCommand9Exit e)
  | _ => none

/-- `isr80h_handle_command`. -/
def isr80hHandleCommand (L : Layout) (e : Entry) (command : Int) : HM Nat :=
  if command < 0 ∨ PLUMOS_MAX_ISR80H_COMMANDS ≤ command then pure 0
  else match isr80hCommands L e command.toNat with
    | none => pure 0
    | some command_func => command_func

end PlumOS
