import PlumOS.Idt.Exception

/-!
# The memory of a task

How the kernel reads what a task has in its address space (`task/task.c`): it loads
the task's page directory, reads, and loads its own again. The reads go through the
directory that is loaded; a page that is not present is a page fault.

## Main definitions

- `Kernel.walk`, `translate`, `loadByte`, `loadWord` — the processor's reads
- `taskGetStackItem`, `copyStringFromTask`, `taskVirtualAddressToPhysical`
-/

namespace PlumOS

open StateExcept

/-- The entries of the page directory and of the page table for the address `virt`. -/
def Kernel.walk (k : Kernel) (directory virt : Nat) : Option (Nat × Nat) :=
  match (k.objs directory).bind Obj.words? with
  | none => none
  | some dir =>
    let entry := dir (virt / (PAGING_TOTAL_ENTRIES_PER_TABLE * PAGING_PAGE_SIZE))
    match (k.objs (pageMask entry)).bind Obj.words? with
    | none => none
    | some table => some (entry,
        table (virt % (PAGING_TOTAL_ENTRIES_PER_TABLE * PAGING_PAGE_SIZE) / PAGING_PAGE_SIZE))

/-- The page is present. -/
def isPresent (entry : Nat) : Bool := entry &&& PAGING_IS_PRESENT != 0

/-- The physical address of `virt`, if its page is present. -/
def translate (virt : Nat) : KM (Option Nat) := fun k =>
  match k.walk k.current_directory virt with
  | none => .error .stalePointer
  | some (entry, page) => .ok (
      if isPresent entry && isPresent page then
        some (pageMask page + virt % PAGING_PAGE_SIZE)
      else none, k)

/-- A byte, read through the directory that is loaded. -/
def loadByte (e : Entry) (virt : Nat) : HM UInt8 := do
  match ← inKernel (translate (u32 virt)) with
  | none => pageFault e
  | some phys => inKernel (reads fun k => k.mem phys)

/-- A word, read through the directory that is loaded. -/
def loadWord (e : Entry) (virt : Nat) : HM Nat := do
  let b0 ← loadByte e virt
  let b1 ← loadByte e (virt + 1)
  let b2 ← loadByte e (virt + 2)
  let b3 ← loadByte e (virt + 3)
  pure (b0.toNat + 0x100 * b1.toNat + 0x10000 * b2.toNat + 0x1000000 * b3.toNat)

/-- `task_page_task`. -/
def taskPageTask (task : Nat) : KM PUnit := do
  let t ← deref Obj.task? task
  pagingSwitch t.page_directory

/-- `task_get_stack_item`. -/
def taskGetStackItem (e : Entry) (task index : Nat) : HM Nat := do
  let t ← inKernel (deref Obj.task? task)
  let sp_ptr := t.registers.esp.toNat
  inKernel (taskPageTask task)
  let result ← loadWord e (sp_ptr + 4 * index)
  inKernel kernelPage
  pure result

/-- The loop of `strncpy(tmp, virtual, max)` from byte `i` on, with the task's directory
loaded; `fuel` bytes may still be copied. `tmp` is mapped to itself there. -/
def strncpyLoop (e : Entry) (tmp virt : Nat) : (fuel i : Nat) → HM PUnit
  | 0, i => inKernel (storeBytes (tmp + i) [0x00])
  | fuel + 1, i => do
    let c ← loadByte e (virt + i)
    if c = 0x00 then inKernel (storeBytes (tmp + i) [0x00])
    else do
      inKernel (storeBytes (tmp + i) [c])
      strncpyLoop e tmp virt fuel (i + 1)

/-- The part of `copy_string_from_task` between the two switches: `tmp` is mapped in
the task's address space, and the task's directory loaded. -/
def mapScratch (task tmp : Nat) : KM (Nat × Nat) := do
  let t ← deref Obj.task? task
  let task_directory ← deref Obj.chunk? t.page_directory
  let old_entry ← pagingGet task_directory tmp
  let _ ← pagingMap t.page_directory tmp tmp userWriteable
  pagingSwitch t.page_directory
  pure (task_directory, old_entry)

/-- The string in the `n` bytes from `p` on. -/
def readString (mem : Nat → UInt8) (p n : Nat) : List UInt8 :=
  (readBytes mem p n).takeWhile fun c => c ≠ 0x00

/-- The part of `copy_string_from_task` behind the copy: the status and, if it is not
an error, what is in `tmp`. -/
def takeScratch (task_directory tmp old_entry max : Nat) : KM (Int × Option (List UInt8)) := do
  kernelPage
  let res ← pagingSet task_directory tmp old_entry
  if res < 0 then do
    kfree tmp
    pure (- EIO, none)
  else do
    let k ← reads id
    kfree tmp
    pure (res, some (readString k.mem tmp (max - 1)))

/-- `copy_string_from_task`: the status, and what is in `phys` then; `phys` is a local
buffer of the caller, which holds `e.buffer` at first. -/
def copyStringFromTask (e : Entry) (task virt max : Nat) : HM (Int × List UInt8) :=
  if PAGING_PAGE_SIZE ≤ max then pure (-EINVARG, e.buffer)
  else do
    let tmp ← inKernel (kzalloc max)
    if tmp = 0 then pure (-ENOMEM, e.buffer)
    else do
      let r ← inKernel (mapScratch task tmp)
      strncpyLoop e tmp virt (max - 1) 0
      let r ← inKernel (takeScratch r.1 tmp r.2 max)
      pure (r.1, r.2.getD e.buffer)

/-- `task_virtual_address_to_physical`. -/
def taskVirtualAddressToPhysical (task virtual_address : Nat) : KM Nat := do
  let t ← deref Obj.task? task
  let directory ← deref Obj.chunk? t.page_directory
  pagingGetPhyiscalAddress directory virtual_address

end PlumOS
