import Mathlib.Logic.Function.Basic
import PlumOS.Config

/-!
# The block heap

`memory/heap/heap.c`: a pool of 4096-byte blocks and a table with one entry for
each block. The table is an array in plain memory, so an entry is read and
written at any integer index: the bytes below index 0 and from `total` on are
the memory around the table.

## Main definitions

- `HeapTable`, `Heap` — the table and the pool
- `heapGetStartBlock`, `heapMarkBlocksTaken`, `heapMarkBlocksFree` — the three loops
- `heapMalloc`, `heapFree` — allocation and release
-/

namespace PlumOS

def HEAP_BLOCK_TABLE_ENTRY_TAKEN : UInt8 := 0x01
def HEAP_BLOCK_TABLE_ENTRY_FREE : UInt8 := 0x00
def HEAP_BLOCK_HAS_NEXT : UInt8 := 0x80
def HEAP_BLOCK_IS_FIRST : UInt8 := 0x40

/-- The entry table. A 32-bit address space has `2^20` blocks, so `total` is at
most that and the `size_t` and `int` counters of the loops never wrap. -/
structure HeapTable where
  entries : Int → UInt8
  total : Nat
  total_le : total ≤ 0x100000

structure Heap where
  table : HeapTable
  saddr : Nat

def heapValidateTable (ptr end_ : Nat) (table : HeapTable) : Int :=
  let table_size := u32 ((end_ : Int) - ptr)
  let total_blocks := table_size / PLUMOS_HEAP_BLOCK_SIZE
  if table.total ≠ total_blocks then -EINVARG else 0

def heapValidateAlignment (ptr : Nat) : Bool :=
  ptr % PLUMOS_HEAP_BLOCK_SIZE == 0

/-- `heap_create`: the status and the heap it leaves in `*heap`. -/
def heapCreate (heap : Heap) (ptr end_ : Nat) (table : HeapTable) : Int × Heap :=
  if !heapValidateAlignment ptr || !heapValidateAlignment end_ then
    (-EINVARG, heap)
  else
    let heap : Heap := { saddr := ptr, table := table }
    let res := heapValidateTable ptr end_ table
    if res < 0 then
      (res, heap)
    else
      let entries := fun i =>
        if 0 ≤ i ∧ i < (table.total : Int) then HEAP_BLOCK_TABLE_ENTRY_FREE else table.entries i
      (res, { heap with table := { table with entries := entries } })

/-- `heap_align_value_to_upper`. The parameter is an `int`, so `%` truncates
towards zero; the result is read back as a `uint32_t`. -/
def heapAlignValueToUpper (val : Int) : Nat :=
  if val.tmod PLUMOS_HEAP_BLOCK_SIZE = 0 then
    u32 val
  else
    u32 (val - val.tmod PLUMOS_HEAP_BLOCK_SIZE + PLUMOS_HEAP_BLOCK_SIZE)

def heapGetEntryType (entry : UInt8) : UInt8 := entry &&& 0x0f

/-- The loop of `heap_get_start_block` from index `i` on, `fuel` entries before
the end of the table; `bs` and `bc` are the run of free entries it is in. -/
def heapGetStartBlockLoop (table : HeapTable) (total_blocks : Nat) :
    (fuel i : Nat) → (bs : Int) → (bc : Nat) → Int
  | 0, _, bs, _ => bs
  | fuel + 1, i, bs, bc =>
    if heapGetEntryType (table.entries i) ≠ HEAP_BLOCK_TABLE_ENTRY_FREE then
      heapGetStartBlockLoop table total_blocks fuel (i + 1) (-1) 0
    else
      let bs := if bs = -1 then (i : Int) else bs
      if bc + 1 = total_blocks then bs
      else heapGetStartBlockLoop table total_blocks fuel (i + 1) bs (bc + 1)

/-- `heap_get_start_block`. The test after the loop only looks at `bs`, so a run
of free entries that reaches the end of the table is returned at any length. -/
def heapGetStartBlock (heap : Heap) (total_blocks : Nat) : Int :=
  let bs := heapGetStartBlockLoop heap.table total_blocks heap.table.total 0 (-1) 0
  if bs = -1 then -ENOMEM else bs

def heapBlockToAddress (heap : Heap) (block : Int) : Nat :=
  u32 (heap.saddr + block * PLUMOS_HEAP_BLOCK_SIZE)

def heapMarkBlocksTakenLoop (end_block : Int) :
    (fuel : Nat) → (i : Int) → (entry : UInt8) → (Int → UInt8) → (Int → UInt8)
  | 0, _, _, entries => entries
  | fuel + 1, i, entry, entries =>
    let next :=
      if i ≠ end_block - 1 then HEAP_BLOCK_TABLE_ENTRY_TAKEN ||| HEAP_BLOCK_HAS_NEXT
      else HEAP_BLOCK_TABLE_ENTRY_TAKEN
    heapMarkBlocksTakenLoop end_block fuel (i + 1) next (Function.update entries i entry)

/-- `heap_mark_blocks_taken`. The loop compares a `size_t` with `end_block`, so
with `end_block = -1` (no blocks from block 0) it never ends. -/
def heapMarkBlocksTaken (table : HeapTable) (start_block : Int) (total_blocks : Nat) :
    Except Fault HeapTable :=
  let end_block := start_block + total_blocks - 1
  let entry :=
    if total_blocks > 1 then
      HEAP_BLOCK_TABLE_ENTRY_TAKEN ||| HEAP_BLOCK_IS_FIRST ||| HEAP_BLOCK_HAS_NEXT
    else HEAP_BLOCK_TABLE_ENTRY_TAKEN ||| HEAP_BLOCK_IS_FIRST
  if end_block < 0 then
    .error .divergence
  else
    .ok { table with
      entries := heapMarkBlocksTakenLoop end_block (end_block - start_block + 1).toNat
        start_block entry table.entries }

/-- `heap_address_to_block`: the difference is an `int`. -/
def heapAddressToBlock (heap : Heap) (address : Nat) : Int :=
  (i32 ((address : Int) - heap.saddr)).tdiv PLUMOS_HEAP_BLOCK_SIZE

def heapMarkBlocksFreeLoop : (fuel : Nat) → (i : Int) → (Int → UInt8) → (Int → UInt8)
  | 0, _, entries => entries
  | fuel + 1, i, entries =>
    let entry := entries i
    let entries := Function.update entries i HEAP_BLOCK_TABLE_ENTRY_FREE
    if entry &&& HEAP_BLOCK_HAS_NEXT = 0 then entries
    else heapMarkBlocksFreeLoop fuel (i + 1) entries

def heapMarkBlocksFree (table : HeapTable) (starting_block : Int) : HeapTable :=
  { table with
    entries := heapMarkBlocksFreeLoop ((table.total : Int) - starting_block).toNat starting_block
      table.entries }

/-- `heap_malloc_blcoks` (the source's spelling). -/
def heapMallocBlcoks (heap : Heap) (total_blocks : Nat) : Except Fault (Nat × Heap) :=
  let start_block := heapGetStartBlock heap total_blocks
  if start_block < 0 then
    .ok (0, heap)
  else
    let address := heapBlockToAddress heap start_block
    match heapMarkBlocksTaken heap.table start_block total_blocks with
    | .error e => .error e
    | .ok table => .ok (address, { heap with table := table })

/-- The number of blocks `heap_malloc` asks for. -/
def heapTotalBlocks (size : Nat) : Nat :=
  heapAlignValueToUpper (i32 size) / PLUMOS_HEAP_BLOCK_SIZE

def heapMalloc (heap : Heap) (size : Nat) : Except Fault (Nat × Heap) :=
  heapMallocBlcoks heap (heapTotalBlocks size)

def heapFree (heap : Heap) (ptr : Nat) : Heap :=
  { heap with table := heapMarkBlocksFree heap.table (heapAddressToBlock heap ptr) }

/-! ### Runs of free entries -/

/-- The entry describes a free block. -/
def HeapTable.IsFree (t : HeapTable) (i : Int) : Prop :=
  heapGetEntryType (t.entries i) = HEAP_BLOCK_TABLE_ENTRY_FREE

instance (t : HeapTable) (i : Int) : Decidable (t.IsFree i) :=
  inferInstanceAs (Decidable (_ = _))

/-- The `n` entries from block `b` on are free. -/
def HeapTable.FreeRun (t : HeapTable) (b n : Nat) : Prop :=
  ∀ j, b ≤ j → j < b + n → t.IsFree (j : Int)

/-- Some `n` consecutive entries of the table are free. -/
def HeapTable.HasRun (t : HeapTable) (n : Nat) : Prop :=
  ∃ b, b + n ≤ t.total ∧ t.FreeRun b n

/-- The last entry of the table is free. -/
def HeapTable.LastFree (t : HeapTable) : Prop :=
  0 < t.total ∧ t.IsFree ((t.total : Int) - 1)

/-- What `heap_get_start_block` can answer: the lowest run that is long enough;
with no such run, the run at the end of the table if there is one; else an error. -/
inductive StartBlock (t : HeapTable) (n : Nat) : Int → Prop
  | found (b : Nat) : 0 < n → b + n ≤ t.total → t.FreeRun b n →
      (∀ b', b' < b → ¬ t.FreeRun b' n) → StartBlock t n b
  | tail (b : Nat) : b < t.total → t.FreeRun b (t.total - b) → (n = 0 ∨ t.total < b + n) →
      (n = 0 ∨ ¬ t.HasRun n) → StartBlock t n b
  | none : ¬ t.LastFree → (n = 0 ∨ ¬ t.HasRun n) → StartBlock t n (-ENOMEM)

/-- A run of free entries up to the end of the table ends in its last entry. -/
theorem HeapTable.FreeRun.lastFree {t : HeapTable} {b : Nat} (hb : b < t.total)
    (h : t.FreeRun b (t.total - b)) : t.LastFree := by
  refine ⟨by omega, ?_⟩
  have hlast := h (t.total - 1) (by omega) (by omega)
  rwa [show ((t.total - 1 : Nat) : Int) = (t.total : Int) - 1 by omega] at hlast

/-- A start block has room for the request when the table has a run for it, or
no free entry at its end. -/
theorem StartBlock.inside {t : HeapTable} {n b : Nat} (h : StartBlock t n b) (hn : 0 < n)
    (hroom : t.HasRun n ∨ ¬ t.LastFree) : b + n ≤ t.total := by
  generalize hr : (b : Int) = r at h
  cases h with
  | found c _ hc => omega
  | tail c hc hf _ hno =>
    rcases hroom with hrun | hlast
    · exact absurd hrun (hno.resolve_left (by omega))
    · exact absurd (hf.lastFree hc) hlast
  | none => simp only [ENOMEM] at hr; omega

/-- Without such a run, and with a free entry at the end, it has no room. -/
theorem StartBlock.overruns {t : HeapTable} {n : Nat} {r : Int} (h : StartBlock t n r)
    (hn : 0 < n) (hrun : ¬ t.HasRun n) (hlast : t.LastFree) :
    0 ≤ r ∧ r < t.total ∧ (t.total : Int) < r + n := by
  cases h with
  | found b _ hb hf => exact absurd ⟨b, hb, hf⟩ hrun
  | tail b hb _ hlong => omega
  | none hno => exact absurd hlast hno

/-- The invariant of the search at index `i`: `bc` entries from `c` up to `i` are
free, the one before is not, and no run of `n` entries ends at `i` or before. -/
private structure ScanInv (t : HeapTable) (n i : Nat) (bs : Int) (bc c : Nat) : Prop where
  start : c + bc = i
  bs_eq : bs = if bc = 0 then -1 else (c : Int)
  free : t.FreeRun c bc
  before : c = 0 ∨ ¬ t.IsFree ((c : Int) - 1)
  short : n = 0 ∨ bc < n
  norun : n = 0 ∨ ∀ b, b + n ≤ i → ¬ t.FreeRun b n

private theorem scan_taken {t : HeapTable} {n i : Nat} {bs : Int} {bc c : Nat}
    (h : ScanInv t n i bs bc c) (hi : ¬ t.IsFree (i : Int)) :
    ScanInv t n (i + 1) (-1) 0 (i + 1) where
  start := rfl
  bs_eq := rfl
  free := fun j h₁ h₂ => by omega
  before := Or.inr (by simpa using hi)
  short := by
    rcases h.short with h₀ | h₀
    · exact Or.inl h₀
    · exact Or.inr (by omega)
  norun := by
    rcases Nat.eq_zero_or_pos n with hn | hn
    · exact Or.inl hn
    · refine Or.inr fun b hb hrun => ?_
      rcases Nat.lt_or_ge (b + n) (i + 1) with hlt | hge
      · exact (h.norun.resolve_left (by omega)) b (by omega) hrun
      · exact hi (hrun i (by omega) (by omega))

private theorem scan_free {t : HeapTable} {n i : Nat} {bs : Int} {bc c : Nat}
    (h : ScanInv t n i bs bc c) (hi : t.IsFree (i : Int)) (hne : bc + 1 ≠ n) :
    ScanInv t n (i + 1) (if bs = -1 then (i : Int) else bs) (bc + 1) c where
  start := by have := h.start; omega
  bs_eq := by
    have h₁ := h.bs_eq
    have h₂ := h.start
    by_cases hbc : bc = 0
    · simp only [hbc, if_true] at h₁ h₂
      simp [h₁, ← h₂]
    · simp only [hbc, if_false] at h₁
      have : bs ≠ -1 := by omega
      rw [if_neg this, h₁]
      simp
  free := by
    intro j h₁ h₂
    have := h.start
    rcases Nat.lt_or_ge j i with hlt | hge
    · exact h.free j h₁ (by omega)
    · have : j = i := by omega
      rw [this]
      exact hi
  before := h.before
  short := by
    rcases h.short with h₀ | h₀
    · exact Or.inl h₀
    · exact Or.inr (by omega)
  norun := by
    rcases Nat.eq_zero_or_pos n with hn | hn
    · exact Or.inl hn
    · refine Or.inr fun b hb hrun => ?_
      rcases Nat.lt_or_ge (b + n) (i + 1) with hlt | hge
      · exact (h.norun.resolve_left (by omega)) b (by omega) hrun
      · -- the run ends at `i`; it is longer than the run from `c`, so it holds `c - 1`
        have hs := h.start
        have hshort := h.short.resolve_left (by omega)
        rcases h.before with hc | hc
        · omega
        · have := hrun (c - 1) (by omega) (by omega)
          rw [show ((c - 1 : Nat) : Int) = (c : Int) - 1 by omega] at this
          exact hc this

private theorem scan_found {t : HeapTable} {n i : Nat} {bs : Int} {bc c : Nat}
    (h : ScanInv t n i bs bc c) (hi : t.IsFree (i : Int)) (hn : bc + 1 = n) (hlt : i < t.total) :
    StartBlock t n (if bs = -1 then (i : Int) else bs) := by
  have hs := h.start
  have hbs : (if bs = -1 then (i : Int) else bs) = (c : Int) := by
    have h₁ := h.bs_eq
    by_cases hbc : bc = 0
    · simp only [hbc, if_true] at h₁
      simp only [h₁, if_true]
      omega
    · simp only [hbc, if_false] at h₁
      have : bs ≠ -1 := by omega
      rw [if_neg this, h₁]
  rw [hbs]
  refine .found c (by omega) (by omega) ?_ ?_
  · intro j h₁ h₂
    rcases Nat.lt_or_ge j i with hj | hj
    · exact h.free j h₁ (by omega)
    · rw [show j = i by omega]
      exact hi
  · intro b hb hrun
    rcases h.norun with h₀ | h₀
    · omega
    · rcases Nat.lt_or_ge i (b + n) with hlt' | hge
      · rcases h.before with hc | hc
        · omega
        · have := hrun (c - 1) (by omega) (by omega)
          rw [show ((c - 1 : Nat) : Int) = (c : Int) - 1 by omega] at this
          exact hc this
      · exact h₀ b hge hrun

private theorem scan_end {t : HeapTable} {n : Nat} {bs : Int} {bc c : Nat}
    (h : ScanInv t n t.total bs bc c) : StartBlock t n (if bs = -1 then -ENOMEM else bs) := by
  have hs := h.start
  have hno : n = 0 ∨ ¬ t.HasRun n := by
    rcases h.norun with h₀ | h₀
    · exact Or.inl h₀
    · exact Or.inr fun ⟨b, hb, hrun⟩ => h₀ b hb hrun
  have h₁ := h.bs_eq
  by_cases hbc : bc = 0
  · simp only [hbc, if_true] at h₁
    simp only [h₁, if_true]
    refine .none ?_ hno
    rintro ⟨hpos, hlast⟩
    rcases h.before with hc | hc
    · omega
    · rw [show (c : Int) = (t.total : Int) by omega] at hc
      exact hc hlast
  · simp only [hbc, if_false] at h₁
    have hne : bs ≠ -1 := by omega
    rw [if_neg hne, h₁]
    have hbc' : bc = t.total - c := by omega
    refine .tail c (by omega) (hbc' ▸ h.free) ?_ hno
    rcases h.short with h₀ | h₀
    · exact Or.inl h₀
    · exact Or.inr (by omega)

private theorem heapGetStartBlockLoop_spec {t : HeapTable} {n : Nat} :
    ∀ (fuel i : Nat) (bs : Int) (bc c : Nat), fuel + i = t.total → ScanInv t n i bs bc c →
      StartBlock t n (if heapGetStartBlockLoop t n fuel i bs bc = -1 then -ENOMEM
        else heapGetStartBlockLoop t n fuel i bs bc) := by
  intro fuel
  induction fuel with
  | zero =>
    intro i bs bc c hi h
    obtain rfl : i = t.total := by omega
    exact scan_end h
  | succ fuel ih =>
    intro i bs bc c hi h
    by_cases hfree : t.IsFree (i : Int)
    · have hcond : ¬ heapGetEntryType (t.entries i) ≠ HEAP_BLOCK_TABLE_ENTRY_FREE :=
        not_not.mpr hfree
      by_cases hn : bc + 1 = n
      · have hfound := scan_found h hfree hn (by omega)
        have hloop : heapGetStartBlockLoop t n (fuel + 1) i bs bc =
            if bs = -1 then (i : Int) else bs := by
          simp only [heapGetStartBlockLoop, if_neg hcond, if_pos hn]
        rw [hloop]
        have hne : (if bs = -1 then (i : Int) else bs) ≠ -1 := by
          split
          · omega
          · assumption
        rw [if_neg hne]
        exact hfound
      · have hloop : heapGetStartBlockLoop t n (fuel + 1) i bs bc =
            heapGetStartBlockLoop t n fuel (i + 1) (if bs = -1 then (i : Int) else bs) (bc + 1) := by
          simp only [heapGetStartBlockLoop, if_neg hcond, if_neg hn]
        rw [hloop]
        exact ih (i + 1) _ _ c (by omega) (scan_free h hfree hn)
    · have hloop : heapGetStartBlockLoop t n (fuel + 1) i bs bc =
          heapGetStartBlockLoop t n fuel (i + 1) (-1) 0 := by
        simp only [heapGetStartBlockLoop]
        exact if_pos hfree
      rw [hloop]
      exact ih (i + 1) _ _ _ (by omega) (scan_taken h hfree)

/-- The search of `heap_get_start_block`, for every table and every request. -/
theorem heapGetStartBlock_spec (heap : Heap) (n : Nat) :
    StartBlock heap.table n (heapGetStartBlock heap n) :=
  heapGetStartBlockLoop_spec heap.table.total 0 (-1) 0 0 rfl
    { start := rfl
      bs_eq := rfl
      free := fun j h₁ h₂ => by omega
      before := Or.inl rfl
      short := by omega
      norun := by
        rcases Nat.eq_zero_or_pos n with h | h
        · exact Or.inl h
        · exact Or.inr fun b hb => by omega }

end PlumOS
