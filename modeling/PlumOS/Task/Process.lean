import PlumOS.Loader.ElfLoader
import PlumOS.Task.Task

/-!
# Processes

`task/process.c`: loading a program from a file, its memory requests, and its end.

## Main definitions

- `processMalloc`, `processFree` — the memory requests
- `processLoad`, `processLoadSwitch` — from a file to a process with a task
- `processTerminate`
-/

namespace PlumOS

open StateExcept

def sizeofProcess : Nat := 9364

/-- `process_get`. -/
def processGet (process_id : Int) : KM Nat :=
  if process_id < 0 ∨ PLUMOS_MAX_PROCESSES ≤ process_id then pure 0
  else reads fun k => k.processes process_id.toNat

/-- `process_switch`. -/
def processSwitch (process : Nat) : KM PUnit :=
  modifies fun k => { k with current_process := process }

/-! ### Memory requests -/

/-- `process_find_free_allocation_index`. -/
def processFindFreeAllocationIndex (allocations : Nat → ProcessAllocation) : Option Nat :=
  (List.range PLUMOS_MAX_PROGRAM_ALLOCATIONS).find? fun i => (allocations i).ptr == 0

/-- `process_get_allocation_by_address`: the index of the allocation. -/
def processGetAllocationByAddress (allocations : Nat → ProcessAllocation) (addr : Nat) : Option Nat :=
  (List.range PLUMOS_MAX_PROGRAM_ALLOCATIONS).find? fun i => (allocations i).ptr == addr

/-- `process_allocation_unjoin`. -/
def processAllocationUnjoin (allocations : Nat → ProcessAllocation) (ptr : Nat) :
    Nat → ProcessAllocation := fun i =>
  if i < PLUMOS_MAX_PROGRAM_ALLOCATIONS ∧ (allocations i).ptr = ptr then ⟨0, 0⟩ else allocations i

/-- `PAGING_IS_WRITEABLE | PAGING_IS_PRESENT | PAGING_ACCESS_FROM_ALL`. -/
def userWriteable : Nat := PAGING_IS_WRITEABLE ||| PAGING_IS_PRESENT ||| PAGING_ACCESS_FROM_ALL

/-- `process_malloc`. Its error exit releases nothing. -/
def processMalloc (process size : Nat) : KM Nat := do
  let ptr ← kzalloc size
  if ptr = 0 then pure 0
  else do
    let p ← deref Obj.process? process
    match processFindFreeAllocationIndex p.allocations with
    | none => pure 0
    | some index => do
      let t ← deref Obj.task? p.task
      let res ← pagingMapTo t.page_directory ptr ptr
        (pagingAlignAddress (u32 ((ptr + size : Nat) : Int))) userWriteable
      if res < 0 then pure 0
      else do
        modifyProcess process fun p =>
          { p with allocations := Function.update p.allocations index ⟨ptr, size⟩ }
        pure ptr

/-- `process_free`. -/
def processFree (process ptr : Nat) : KM PUnit := do
  let p ← deref Obj.process? process
  match processGetAllocationByAddress p.allocations ptr with
  | none => pure ⟨⟩
  | some index => do
    let allocation := p.allocations index
    let t ← deref Obj.task? p.task
    let res ← pagingMapTo t.page_directory allocation.ptr allocation.ptr
      (pagingAlignAddress (u32 ((allocation.ptr + allocation.size : Nat) : Int))) 0x00
    if res < 0 then pure ⟨⟩
    else do
      modifyProcess process fun p =>
        { p with allocations := processAllocationUnjoin p.allocations ptr }
      kfree ptr

/-! ### Loading -/

/-- `process_load_binary` up to its label `out`, with the file open: `res` and
`program_data_ptr`. -/
def processLoadBinaryOpened (process : Nat) (fd : Int) : KM (Int × Nat) := do
  let r ← fstat fd
  if r.1 ≠ PLUMOS_ALL_OK then pure (r.1, 0)
  else match r.2 with
    | none => fails .uninitialised
    | some stat => do
      let program_data_ptr ← kzalloc stat.filesize
      if program_data_ptr = 0 then pure (-ENOMEM, 0)
      else do
        let read ← fread program_data_ptr stat.filesize 1 fd
        if read ≠ 1 then pure (- EIO, program_data_ptr)
        else do
          modifyProcess process fun p => { p with
            filetype := PROCESS_FILETYPE_BINARY, ptr := program_data_ptr, size := stat.filesize }
          pure (0, program_data_ptr)

/-- `process_load_binary`. -/
def processLoadBinary (filename : List UInt8) (process : Nat) : KM Int := do
  let fd ← fopen filename [0x72]
  if fd = 0 then do
    let _ ← fclose fd
    pure (- EIO)
  else do
    let r ← processLoadBinaryOpened process fd
    onlyIf (r.1 < 0 ∧ r.2 ≠ 0) (kfree r.2)
    let _ ← fclose fd
    pure r.1

/-- `process_load_elf`. -/
def processLoadElf (filename : List UInt8) (process : Nat) : KM Int := do
  let r ← elfLoad filename
  if r.1 < 0 then pure r.1
  else do
    modifyProcess process fun p => { p with filetype := PROCESS_FILETYPE_ELF, ptr := r.2 }
    pure r.1

/-- `process_load_data`. -/
def processLoadData (filename : List UInt8) (process : Nat) : KM Int := do
  let res ← processLoadElf filename process
  if res = -EINVFORMAT then processLoadBinary filename process
  else pure res

/-- `process_map_binary`. What `paging_map_to` returns is dropped. -/
def processMapBinary (process : Nat) : KM Int := do
  let p ← deref Obj.process? process
  let t ← deref Obj.task? p.task
  let _ ← pagingMapTo t.page_directory PLUMOS_PROGRAM_VIRTUAL_ADDRESS p.ptr
    (pagingAlignAddress (u32 ((p.ptr + p.size : Nat) : Int))) userWriteable
  pure 0

/-- The flags of a segment's pages. -/
def segmentFlags (phdr : Elf32Phdr) : Nat :=
  if phdr.p_flags &&& PF_W ≠ 0 then
    PAGING_IS_PRESENT ||| PAGING_ACCESS_FROM_ALL ||| PAGING_IS_WRITEABLE
  else PAGING_IS_PRESENT ||| PAGING_ACCESS_FROM_ALL

/-- The loop of `process_map_elf` from program header `i` on. -/
def processMapElfLoop (process phdrs : Nat) (file : ElfFile) : (fuel i : Nat) → KM Int
  | 0, _ => pure 0
  | fuel + 1, i => do
    let phdr ← derefMem readElf32Phdr (elfPhdrAddress phdrs i)
    let phys := elfPhdrPhysAddress file phdr
    let p ← deref Obj.process? process
    let t ← deref Obj.task? p.task
    let res ← pagingMapTo t.page_directory (pagingAlignToLowerPage phdr.p_vaddr)
      (pagingAlignToLowerPage phys)
      (pagingAlignAddress (u32 ((phys + phdr.p_memsz : Nat) : Int))) (segmentFlags phdr)
    if res < 0 then pure res
    else processMapElfLoop process phdrs file fuel (i + 1)

/-- `process_map_elf`. Every program header is mapped, of whatever type. -/
def processMapElf (process : Nat) : KM Int := do
  let p ← deref Obj.process? process
  let header ← elfHeader p.elf_file
  let file ← deref Obj.elfFile? p.elf_file
  processMapElfLoop process (elfPheader file.elf_memory header) file header.e_phnum 0

/-- `process_map_memory`. -/
def processMapMemory (process : Nat) : KM Int := do
  let p ← deref Obj.process? process
  let res ←
    if p.filetype = PROCESS_FILETYPE_ELF then processMapElf process
    else if p.filetype = PROCESS_FILETYPE_BINARY then processMapBinary process
    else fails .panic
  if res < 0 then pure res
  else do
    let p ← deref Obj.process? process
    let t ← deref Obj.task? p.task
    let _ ← pagingMapTo t.page_directory PLUMOS_PROGRAM_VIRTUAL_STACK_ADDRESS_END p.stack
      (pagingAlignAddress (u32 ((p.stack + PLUMOS_USER_PROGRAM_STACK_SIZE : Nat) : Int)))
      userWriteable
    pure res

/-- `process_get_free_slot`. The error is not negated. -/
def processGetFreeSlot (processes : Nat → Nat) : Int :=
  match (List.range PLUMOS_MAX_PROCESSES).find? fun i => processes i == 0 with
  | some i => i
  | none => EISTKN

/-- `strncpy(dest, src, count)`: the bytes of `dest`. -/
def strncpy (dest : Nat → UInt8) (src : List UInt8) (count : Nat) : Nat → UInt8 :=
  let n := min (strlen src) (count - 1)
  fun i => if i < n then charAt src i else if i = n then 0x00 else dest i

/-- The exit of `process_load_for_slot` with an error, when `_process` is set. -/
def processLoadFail (process : Nat) (res : Int) : KM (Int × Nat) := do
  if process = 0 then pure (res, 0)
  else do
    let p ← deref Obj.process? process
    if p.task = 0 then pure (res, 0)
    else do
      let _ ← taskFree p.task
      pure (res, 0)

/-- `process_load_for_slot` from where it has the program's stack. The test behind
`task_new` holds for a NULL task only. -/
def processLoadTask (filename : List UInt8) (process program_stack_ptr : Nat) (process_slot : Nat) :
    KM (Int × Nat) := do
  modifyProcess process fun p => { p with
    filename := strncpy p.filename filename PLUMOS_MAX_PATH
    stack := program_stack_ptr
    id := process_slot }
  let task ← taskNew process
  if ERROR_I task = 0 then pure (ERROR_I task, 0)
  else do
    modifyProcess process fun p => { p with task := task }
    let res ← processMapMemory process
    if res < 0 then processLoadFail process res
    else do
      modifies fun k => { k with processes := Function.update k.processes process_slot process }
      pure (res, process)

/-- `process_load_for_slot`: the status, and `*process` if it is written. When the slot
is taken, the exit looks at `_process`, which is not set. -/
def processLoadForSlot (filename : List UInt8) (process_slot : Int) : KM (Int × Nat) := do
  let taken ← processGet process_slot
  if taken ≠ 0 then fails .uninitialised
  else do
    let process ← kzallocObj sizeofProcess (.process Process.zero)
    if process = 0 then processLoadFail 0 (-ENOMEM)
    else do
      let res ← processLoadData filename process
      if res < 0 then processLoadFail process res
      else do
        let program_stack_ptr ← kzalloc PLUMOS_USER_PROGRAM_STACK_SIZE
        if program_stack_ptr = 0 then processLoadFail process (-ENOMEM)
        else processLoadTask filename process program_stack_ptr process_slot.toNat

/-- `process_load`. -/
def processLoad (filename : List UInt8) : KM (Int × Nat) := do
  let processes ← reads Kernel.processes
  let process_slot := processGetFreeSlot processes
  if process_slot < 0 then pure (-ENOMEM, 0)
  else processLoadForSlot filename process_slot

/-- `process_load_switch`. -/
def processLoadSwitch (filename : List UInt8) : KM (Int × Nat) := do
  let r ← processLoad filename
  onlyIf (r.1 = 0) (processSwitch r.2)
  pure r

/-! ### The end -/

/-- `process_terminate_allocations` from slot `i` on. -/
def processTerminateAllocationsLoop (process : Nat) : (fuel i : Nat) → KM PUnit
  | 0, _ => pure ⟨⟩
  | fuel + 1, i => do
    let p ← deref Obj.process? process
    processFree process (p.allocations i).ptr
    processTerminateAllocationsLoop process fuel (i + 1)

/-- `process_terminate_allocations`. -/
def processTerminateAllocations (process : Nat) : KM PUnit :=
  processTerminateAllocationsLoop process PLUMOS_MAX_PROGRAM_ALLOCATIONS 0

/-- `process_free_program_data`. -/
def processFreeProgramData (process : Nat) : KM Int := do
  let p ← deref Obj.process? process
  if p.filetype = PROCESS_FILETYPE_BINARY then do
    kfree p.ptr
    pure 0
  else if p.filetype = PROCESS_FILETYPE_ELF then do
    elfClose p.elf_file
    pure 0
  else pure (-EINVARG)

/-- `process_swtich_to_any` (the source's spelling). -/
def processSwtichToAny : KM PUnit := do
  let processes ← reads Kernel.processes
  match (List.range PLUMOS_MAX_PROCESSES).find? fun i => processes i != 0 with
  | some i => processSwitch (processes i)
  | none => fails .panic

/-- `process_unlink`. -/
def processUnlink (process : Nat) : KM PUnit := do
  let p ← deref Obj.process? process
  if PLUMOS_MAX_PROCESSES ≤ p.id then fails .outOfBounds
  else do
    modifies fun k => { k with processes := Function.update k.processes p.id 0x00 }
    let current_process ← reads Kernel.current_process
    onlyIf (current_process = process) processSwtichToAny

/-- `process_terminate`. The process itself is not released. -/
def processTerminate (process : Nat) : KM Int := do
  processTerminateAllocations process
  let res ← processFreeProgramData process
  if res < 0 then pure res
  else do
    let p ← deref Obj.process? process
    kfree p.stack
    let _ ← taskFree p.task
    processUnlink process
    pure res

end PlumOS
