import PlumOS.Memory.KHeap

/-!
# Paging

`memory/paging/paging.c`: page directories and page tables, each an array of 1024
words in one heap block. An entry is a page-aligned address with flags in its low
12 bits.

## Main definitions

- `pagingNew4gb`, `pagingFree4gb` — an address space and its 1026 blocks
- `pagingSet`, `pagingGet`, `pagingMapTo` — entries and ranges of entries
- `pagingGetPhyiscalAddress` — translation
-/

namespace PlumOS

open StateExcept

/-- `entry & 0xfffff000`: the address without the flags. -/
def pageMask (entry : Nat) : Nat := entry &&& 0xfffff000

def pagingIsAligned (addr : Nat) : Bool := addr % PAGING_PAGE_SIZE == 0

/-- The loop of `paging_new_4gb` from page table `i` on. -/
def pagingNew4gbLoop (flags directory : Nat) : (fuel i offset : Nat) → KM PUnit
  | 0, _, _ => pure ⟨⟩
  | fuel + 1, i, offset => do
    let entry ← kzallocObj 4096 (.words fun _ => 0)
    let _ ← deref Obj.words? entry
    storeObj entry (.words fun b => (offset + b * PAGING_PAGE_SIZE) ||| flags)
    let dir ← deref Obj.words? directory
    storeObj directory (.words
      (Function.update dir i (entry ||| flags ||| PAGING_IS_WRITEABLE)))
    pagingNew4gbLoop flags directory fuel (i + 1)
      (offset + PAGING_TOTAL_ENTRIES_PER_TABLE * PAGING_PAGE_SIZE)

/-- `paging_new_4gb`. -/
def pagingNew4gb (flags : Nat) : KM Nat := do
  let directory ← kzallocObj 4096 (.words fun _ => 0)
  pagingNew4gbLoop flags directory PAGING_TOTAL_ENTRIES_PER_TABLE 0 0
  let chunk_4gb ← kzallocObj 4 (.chunk 0)
  let _ ← deref Obj.chunk? chunk_4gb
  storeObj chunk_4gb (.chunk directory)
  pure chunk_4gb

/-- `paging_switch`. -/
def pagingSwitch (chunk : Nat) : KM PUnit := do
  let directory ← deref Obj.chunk? chunk
  modifies fun k => { k with current_directory := directory }

/-- `paging_get_indexes`: the status, and what it stores when that is 0. -/
def pagingGetIndexes (virtual_address : Nat) : Int × Nat × Nat :=
  if !pagingIsAligned virtual_address then (-EINVARG, 0, 0)
  else
    (0, virtual_address / (PAGING_TOTAL_ENTRIES_PER_TABLE * PAGING_PAGE_SIZE),
      virtual_address % (PAGING_TOTAL_ENTRIES_PER_TABLE * PAGING_PAGE_SIZE) / PAGING_PAGE_SIZE)

/-- `paging_set`. -/
def pagingSet (directory virt val : Nat) : KM Int := do
  if !pagingIsAligned virt then pure (-EINVARG)
  else
    let (res, directory_index, table_index) := pagingGetIndexes virt
    if res < 0 then pure res
    else do
      let dir ← deref Obj.words? directory
      let table := pageMask (dir directory_index)
      let entries ← deref Obj.words? table
      storeObj table (.words (Function.update entries table_index val))
      pure res

/-- The loop of `paging_free_4gb` from page table `i` on. -/
def pagingFree4gbLoop (chunk : Nat) : (fuel i : Nat) → KM PUnit
  | 0, _ => pure ⟨⟩
  | fuel + 1, i => do
    let directory ← deref Obj.chunk? chunk
    let dir ← deref Obj.words? directory
    kfree (pageMask (dir i))
    pagingFree4gbLoop chunk fuel (i + 1)

/-- `paging_free_4gb`. -/
def pagingFree4gb (chunk : Nat) : KM PUnit := do
  pagingFree4gbLoop chunk PAGING_TOTAL_ENTRIES_PER_TABLE 0
  let directory ← deref Obj.chunk? chunk
  kfree directory
  kfree chunk

/-- `paging_align_address`. -/
def pagingAlignAddress (ptr : Nat) : Nat :=
  if ptr % PAGING_PAGE_SIZE ≠ 0 then
    u32 ((ptr + PAGING_PAGE_SIZE - ptr % PAGING_PAGE_SIZE : Nat) : Int)
  else ptr

/-- `paging_align_to_lower_page`. -/
def pagingAlignToLowerPage (addr : Nat) : Nat := addr - addr % PAGING_PAGE_SIZE

/-- `paging_map`. -/
def pagingMap (chunk virt phys flags : Nat) : KM Int := do
  if virt % PAGING_PAGE_SIZE ≠ 0 ∨ phys % PAGING_PAGE_SIZE ≠ 0 then pure (-EINVARG)
  else do
    let directory ← deref Obj.chunk? chunk
    pagingSet directory virt (phys ||| flags)

/-- `paging_map_range`; `fuel` is the number of pages left. -/
def pagingMapRange (chunk flags : Nat) : (fuel virt phys : Nat) → KM Int
  | 0, _, _ => pure 0
  | fuel + 1, virt, phys => do
    let res ← pagingMap chunk virt phys flags
    if res < 0 then pure res
    else
      let virt := u32 ((virt + PAGING_PAGE_SIZE : Nat) : Int)
      let phys := u32 ((phys + PAGING_PAGE_SIZE : Nat) : Int)
      pagingMapRange chunk flags fuel virt phys

/-- `paging_map_to`. -/
def pagingMapTo (chunk virt phys phys_end flags : Nat) : KM Int :=
  if virt % PAGING_PAGE_SIZE ≠ 0 then pure (-EINVARG)
  else if phys % PAGING_PAGE_SIZE ≠ 0 then pure (-EINVARG)
  else if phys_end % PAGING_PAGE_SIZE ≠ 0 then pure (-EINVARG)
  else if phys_end < phys then pure (-EINVARG)
  else
    let total_bytes := phys_end - phys
    let total_pages := total_bytes / PAGING_PAGE_SIZE
    pagingMapRange chunk flags total_pages virt phys

/-- `paging_get`. On an unaligned address the indexes stay 0. -/
def pagingGet (directory virt : Nat) : KM Nat := do
  let (_, directory_index, table_index) := pagingGetIndexes virt
  let dir ← deref Obj.words? directory
  let entries ← deref Obj.words? (pageMask (dir directory_index))
  pure (entries table_index)

/-- `paging_get_phyiscal_address` (the source's spelling). -/
def pagingGetPhyiscalAddress (directory virt : Nat) : KM Nat := do
  let virt_addr_new := pagingAlignToLowerPage virt
  let offset := virt - virt_addr_new
  let entry ← pagingGet directory virt_addr_new
  pure (pageMask entry + offset)

/-! ### Entries -/

theorem pageMask_eq {e : Nat} (he : e < 0x100000000) : pageMask e = e / 4096 * 4096 := by
  have hmask : (0xfffff000 : Nat) = (2 ^ 20 - 1) <<< 12 := by decide
  have hright : e / 4096 * 4096 = (e >>> 12) <<< 12 := by
    rw [Nat.shiftLeft_eq, Nat.shiftRight_eq_div_pow]
  unfold pageMask
  rw [hmask, hright]
  refine Nat.eq_of_testBit_eq fun i => ?_
  rw [Nat.testBit_and, Nat.testBit_shiftLeft, Nat.testBit_shiftLeft, Nat.testBit_two_pow_sub_one,
    Nat.testBit_shiftRight]
  by_cases hi : 12 ≤ i
  · rw [show 12 + (i - 12) = i by omega]
    by_cases h32 : i < 32
    · simp [hi, show i - 12 < 20 by omega]
    · have hbit : e.testBit i = false :=
        Nat.testBit_lt_two_pow (lt_of_lt_of_le he (Nat.pow_le_pow_right (by omega) (by omega) :
          2 ^ 32 ≤ 2 ^ i))
      simp [hbit]
  · simp [hi]

/-- An aligned address with flags is their sum. -/
theorem or_flags {a f : Nat} (ha : a % 4096 = 0) (hf : f < 4096) : a ||| f = a + f := by
  have h := Nat.two_pow_add_eq_or_of_lt (i := 12) hf (a / 4096)
  have ha' : 2 ^ 12 * (a / 4096) = a := by omega
  rw [ha'] at h
  exact h.symm

/-- The address of an entry. -/
theorem pageMask_or_flags {a f : Nat} (ha : a % 4096 = 0) (hlt : a < 0x100000000)
    (hf : f < 4096) : pageMask (a ||| f) = a := by
  rw [or_flags ha hf, pageMask_eq (by omega)]
  omega

theorem blockAddress_aligned (b : Nat) : blockAddress b % 4096 = 0 := by
  unfold blockAddress
  omega

theorem Kernel.Alive.aligned {k : Kernel} {p n : Nat} (h : k.Alive p n) :
    p % 4096 = 0 ∧ p < 0x7400000 := by
  obtain ⟨b, rfl, hn, hin, _⟩ := h
  refine ⟨blockAddress_aligned b, ?_⟩
  unfold blockAddress
  omega

/-- The address in a directory entry. -/
theorem pageMask_directory_entry {a flags : Nat} (ha : a % 4096 = 0) (hlt : a < 0x100000000)
    (hf : flags < 4096) : pageMask (a ||| flags ||| PAGING_IS_WRITEABLE) = a := by
  rw [Nat.or_assoc]
  refine pageMask_or_flags ha hlt ?_
  exact Nat.or_lt_two_pow (n := 12) hf (by decide)

end PlumOS
