import PlumOS.Memory.HeapRuns

/-!
# One heap_malloc

What a request for `size` bytes asks for and what it gets: how `heap_malloc` rounds
the size to blocks, which run it hands out when there is one that is long enough,
and when the block it returns was free and is taken afterwards.

## Main definitions

- `HeapTable.LowestRun` — the first run of free entries of a length
- `CoversBytes` — the pool has a new allocation of at least so many bytes at a pointer
- `TakesBlock` — the block at a pointer was free and is taken now
- `NullTail` — the pool's last run of free blocks is at address 0
-/

namespace PlumOS

/-! ### heap_align_value_to_upper -/

/-- From 2 GiB on the `int` is negative: `%` rounds a size that is no multiple of the
block size up, and one block more is added to it. -/
theorem heapTotalBlocks_of_ge {size : Nat} (h₁ : 0x80000000 ≤ size) (h₂ : size < 0x100000000)
    (h : size % 4096 ≠ 0) : heapTotalBlocks size = (blocksOf size + 1) % 0x100000 := by
  have hval : i32 (size : Int) = -((0x100000000 - size : Nat) : Int) := by
    unfold i32
    omega
  have htmod : (i32 (size : Int)).tmod (PLUMOS_HEAP_BLOCK_SIZE : Nat) =
      -(((0x100000000 - size) % 4096 : Nat) : Int) := by
    rw [hval, Int.neg_tmod, Int.tmod_eq_emod_of_nonneg (by omega)]
    simp [PLUMOS_HEAP_BLOCK_SIZE]
  unfold heapTotalBlocks heapAlignValueToUpper blocksOf u32
  rw [htmod, if_neg (by omega), hval]
  simp only [PLUMOS_HEAP_BLOCK_SIZE]
  omega

/-- A multiple of the block size is kept as it is. -/
theorem heapTotalBlocks_of_mod_eq_zero {size : Nat} (h₁ : size < 0x100000000)
    (h : size % 4096 = 0) : heapTotalBlocks size = blocksOf size := by
  have hdvd : ((PLUMOS_HEAP_BLOCK_SIZE : Nat) : Int) ∣ i32 (size : Int) := by
    simp only [PLUMOS_HEAP_BLOCK_SIZE]
    unfold i32
    omega
  unfold heapTotalBlocks heapAlignValueToUpper blocksOf
  rw [if_pos (Int.tmod_eq_zero_of_dvd hdvd)]
  simp only [PLUMOS_HEAP_BLOCK_SIZE]
  unfold u32 i32
  omega

/-- Below 2 GiB the rounding is right, also where the `int` goes over its end. -/
theorem heapTotalBlocks_of_lt {size : Nat} (h : size < 0x80000000) :
    heapTotalBlocks size = blocksOf size := by
  rcases Nat.lt_or_ge 0x7FFFF000 size with hlt | hge
  · have htmod : (i32 (size : Int)).tmod (PLUMOS_HEAP_BLOCK_SIZE : Nat) =
        ((size % 4096 : Nat) : Int) := by
      rw [i32_of_range (by omega) (by omega), Int.tmod_eq_emod_of_nonneg (by omega)]
      simp [PLUMOS_HEAP_BLOCK_SIZE]
    unfold heapTotalBlocks heapAlignValueToUpper blocksOf u32
    rw [htmod, if_neg (by omega), i32_of_range (by omega) (by omega)]
    simp only [PLUMOS_HEAP_BLOCK_SIZE]
    omega
  · exact heapTotalBlocks_eq hge

/-- A request asks for no block at all when it is for no byte, or for a size in the last
page but one of the address space. -/
theorem heapTotalBlocks_eq_zero_iff {size : Nat} (h : size < 0x100000000) :
    heapTotalBlocks size = 0 ↔ size = 0 ∨ (0xFFFFE000 < size ∧ size < 0xFFFFF000) := by
  by_cases hlt : size < 0x80000000
  · rw [heapTotalBlocks_of_lt hlt]
    unfold blocksOf
    omega
  · by_cases hmod : size % 4096 = 0
    · rw [heapTotalBlocks_of_mod_eq_zero h hmod]
      unfold blocksOf
      omega
    · rw [heapTotalBlocks_of_ge (by omega) h hmod]
      unfold blocksOf
      omega

/-- The new table has an allocation of at least `size` bytes at the block `p` points to. -/
def CoversBytes (heap heap' : Heap) (p size : Nat) : Prop :=
  ∃ b n : Nat, p = heapBlockToAddress heap b ∧ Allocated heap.table heap'.table b n ∧
    size ≤ 4096 * n

/-- The first `n` consecutive free entries of the table start at block `b`. -/
structure HeapTable.LowestRun (t : HeapTable) (n b : Nat) : Prop where
  inside : b + n ≤ t.total
  free : t.FreeRun b n
  lowest : ∀ b', b' < b → ¬ t.FreeRun b' n

theorem HeapTable.LowestRun.unique {t : HeapTable} {n b b' : Nat} (h : t.LowestRun n b)
    (h' : t.LowestRun n b') : b = b' := by
  rcases Nat.lt_trichotomy b b' with hlt | heq | hgt
  · exact absurd h.free (h'.lowest b hlt)
  · exact heq
  · exact absurd h'.free (h.lowest b' hgt)

/-- When the table has a run that is long enough, the search finds the first one. -/
theorem heapGetStartBlock_lowest {heap : Heap} {n : Nat} (hn : 0 < n)
    (hrun : heap.table.HasRun n) :
    ∃ b : Nat, heapGetStartBlock heap n = b ∧ heap.table.LowestRun n b := by
  have hspec := heapGetStartBlock_spec heap n
  generalize heapGetStartBlock heap n = r at hspec ⊢
  cases hspec with
  | found b _ hin hfree hlow => exact ⟨b, rfl, hin, hfree, hlow⟩
  | tail b _ _ _ hno => exact absurd hrun (hno.resolve_left (by omega))
  | none _ hno => exact absurd hrun (hno.resolve_left (by omega))

/-- The blocks of the first run are marked, and their address is returned. -/
theorem heapMallocBlcoks_lowest {heap : Heap} {n : Nat} (hn : 0 < n)
    (hrun : heap.table.HasRun n) :
    ∃ (b : Nat) (heap' : Heap), heap.table.LowestRun n b ∧
      heapMallocBlcoks heap n = .ok (heapBlockToAddress heap b, heap') ∧
      heap'.saddr = heap.saddr ∧ Allocated heap.table heap'.table b n := by
  obtain ⟨b, hb, hlow⟩ := heapGetStartBlock_lowest hn hrun
  obtain ⟨p, heap', hm⟩ := heapMallocBlcoks_isOk heap hn
  rcases heapMallocBlcoks_cases hm with ⟨hneg, _, _⟩ | ⟨c, hc, rfl, hsaddr, ha⟩
  · omega
  · obtain rfl : b = c := by omega
    exact ⟨b, heap', hlow, hm, hsaddr, ha⟩

/-- Two blocks of a pool have different addresses. -/
theorem heapBlockToAddress_inj {heap : Heap} {b b' : Nat} (hb : b < heap.table.total)
    (hb' : b' < heap.table.total)
    (h : heapBlockToAddress heap b = heapBlockToAddress heap b') : b = b' := by
  have := heap.table.total_le
  simp only [heapBlockToAddress, PLUMOS_HEAP_BLOCK_SIZE, u32] at h
  omega

/-- The block at address `p` was free in `heap` and is taken in `heap'`. -/
def TakesBlock (heap heap' : Heap) (p : Nat) : Prop :=
  ∃ b : Nat, b < heap.table.total ∧ p = heapBlockToAddress heap b ∧ heap.table.IsFree b ∧
    ¬ heap'.table.IsFree b

/-- The free blocks at the end of the pool are a whole run from a block behind the
first one on, and the address of that block comes out as 0. -/
def NullTail (heap : Heap) : Prop :=
  ∃ b : Nat, 0 < b ∧ b < heap.table.total ∧ heap.table.FreeRun b (heap.table.total - b) ∧
    ¬ heap.table.IsFree ((b : Int) - 1) ∧ heapBlockToAddress heap b = 0

/-- The entry before the start block that the search carries is taken. -/
private theorem heapGetStartBlockLoop_before {t : HeapTable} {n : Nat} :
    ∀ (fuel i : Nat) (bs : Int) (bc : Nat),
      (if bs = -1 then i = 0 ∨ ¬ t.IsFree ((i : Int) - 1) else bs = 0 ∨ ¬ t.IsFree (bs - 1)) →
      heapGetStartBlockLoop t n fuel i bs bc = -1 ∨ heapGetStartBlockLoop t n fuel i bs bc = 0 ∨
        ¬ t.IsFree (heapGetStartBlockLoop t n fuel i bs bc - 1) := by
  intro fuel
  induction fuel with
  | zero =>
    intro i bs bc h
    simp only [heapGetStartBlockLoop]
    split at h
    · exact Or.inl ‹_›
    · exact Or.inr h
  | succ fuel ih =>
    intro i bs bc h
    by_cases hfree : t.IsFree (i : Int)
    · have hcond : ¬ heapGetEntryType (t.entries i) ≠ HEAP_BLOCK_TABLE_ENTRY_FREE :=
        not_not.mpr hfree
      -- the new start block: `i` when there was none
      have hstart : (if bs = -1 then (i : Int) else bs) ≠ -1 ∧
          ((if bs = -1 then (i : Int) else bs) = 0 ∨
            ¬ t.IsFree ((if bs = -1 then (i : Int) else bs) - 1)) := by
        by_cases hbs : bs = -1
        · rw [if_pos hbs] at h ⊢
          exact ⟨by omega, h.imp (fun h => by omega) id⟩
        · rw [if_neg hbs] at h ⊢
          exact ⟨hbs, h⟩
      simp only [heapGetStartBlockLoop, if_neg hcond]
      by_cases hn : bc + 1 = n
      · rw [if_pos hn]
        exact Or.inr hstart.2
      · rw [if_neg hn]
        refine ih (i + 1) _ _ ?_
        rw [if_neg hstart.1]
        exact hstart.2
    · have hloop : heapGetStartBlockLoop t n (fuel + 1) i bs bc =
          heapGetStartBlockLoop t n fuel (i + 1) (-1) 0 := by
        simp only [heapGetStartBlockLoop]
        exact if_pos hfree
      rw [hloop]
      refine ih (i + 1) _ _ ?_
      rw [if_pos rfl]
      refine Or.inr ?_
      rwa [show ((i + 1 : Nat) : Int) - 1 = (i : Int) by omega]

/-- The start block is the first of the table, or the entry before it is taken. -/
theorem heapGetStartBlock_before {heap : Heap} {n b : Nat} (h : heapGetStartBlock heap n = b) :
    b = 0 ∨ ¬ heap.table.IsFree ((b : Int) - 1) := by
  have hloop := heapGetStartBlockLoop_before (t := heap.table) (n := n) heap.table.total 0 (-1) 0
    (by simp)
  simp only [heapGetStartBlock] at h
  split at h
  · simp only [ENOMEM] at h
    omega
  · next hne =>
    rw [h] at hloop hne
    exact (hloop.resolve_left hne).imp (fun h₀ => by omega) id

/-- Marking no blocks writes nothing. -/
theorem heapMarkBlocksTaken_zero {t t' : HeapTable} {b : Nat}
    (h : heapMarkBlocksTaken t b 0 = .ok t') : t'.entries = t.entries := by
  funext k
  rw [(heapMarkBlocksTaken_eq h).2 k, if_neg (by omega)]

/-- A request for some blocks comes back, and the block it returns was free and is taken. -/
theorem heapMallocBlcoks_takesBlock (heap : Heap) {n : Nat} (hn : 0 < n) :
    ∃ p heap', heapMallocBlcoks heap n = .ok (p, heap') ∧ (p ≠ 0 → TakesBlock heap heap' p) := by
  obtain ⟨p, heap', hm⟩ := heapMallocBlcoks_isOk heap hn
  refine ⟨p, heap', hm, fun hp => ?_⟩
  rcases heapMallocBlcoks_cases hm with ⟨_, rfl, _⟩ | ⟨b, _, rfl, _, ha⟩
  · exact absurd rfl hp
  · exact ⟨b, ha.start_lt, rfl, ha.free b le_rfl (Or.inl rfl) ha.start_lt,
      ha.markedRun.not_free le_rfl (by omega)⟩

/-- A request for no block: nothing happens when the last entry is taken; else the
table stays as it is and the start of its last run is returned, unless that run is the
whole table, where the marking loop never ends. -/
theorem heapMallocBlcoks_zero (heap : Heap) :
    (¬ heap.table.LastFree ∧ heapMallocBlcoks heap 0 = .ok (0, heap)) ∨
    ∃ b : Nat, heap.table.LastFree ∧ b < heap.table.total ∧
      heap.table.FreeRun b (heap.table.total - b) ∧
      (b = 0 ∨ ¬ heap.table.IsFree ((b : Int) - 1)) ∧
      ((b = 0 ∧ heapMallocBlcoks heap 0 = .error .divergence) ∨
        ∃ heap', 0 < b ∧ heap'.table.entries = heap.table.entries ∧
          heapMallocBlcoks heap 0 = .ok (heapBlockToAddress heap b, heap')) := by
  have hspec := heapGetStartBlock_spec heap 0
  generalize hr : heapGetStartBlock heap 0 = r at hspec
  cases hspec with
  | found b hpos => omega
  | tail b hb hrun _ _ =>
    refine Or.inr ⟨b, hrun.lastFree hb, hb, hrun, heapGetStartBlock_before hr, ?_⟩
    simp only [heapMallocBlcoks, hr]
    rw [if_neg (by omega)]
    rcases Nat.eq_zero_or_pos b with rfl | hpos
    · exact Or.inl ⟨rfl, rfl⟩
    · obtain ⟨t', ht'⟩ := heapMarkBlocksTaken_isOk (t := heap.table) (b := b) (n := 0) (by omega)
      rw [ht']
      exact Or.inr ⟨_, hpos, heapMarkBlocksTaken_zero ht', rfl⟩
  | none hlast _ =>
    refine Or.inl ⟨hlast, ?_⟩
    simp only [heapMallocBlcoks, hr]
    exact if_pos (by decide)

/-- `heap_malloc` comes back, with NULL or with a block that was free and is taken now,
if and only if the size asks for at least one block, or the table's last entry is not
free, or the run at its end happens to be at address 0. -/
theorem heapMalloc_takesBlock_iff {heap : Heap} {size : Nat} (h : size < 0x100000000) :
    (∃ p heap', heapMalloc heap size = .ok (p, heap') ∧ (p ≠ 0 → TakesBlock heap heap' p)) ↔
      (size ≠ 0 ∧ ¬ (0xFFFFE000 < size ∧ size < 0xFFFFF000)) ∨ ¬ heap.table.LastFree ∨
        NullTail heap := by
  have hzero := heapTotalBlocks_eq_zero_iff h
  by_cases hn : heapTotalBlocks size = 0
  · have hsize : ¬ (size ≠ 0 ∧ ¬ (0xFFFFE000 < size ∧ size < 0xFFFFF000)) := by
      have := hzero.mp hn
      omega
    unfold heapMalloc
    rw [hn]
    rcases heapMallocBlcoks_zero heap with ⟨hlast, hm⟩ | ⟨b, hlast, hb, hrun, hbefore, hm⟩
    · exact iff_of_true ⟨0, heap, hm, fun hp => absurd rfl hp⟩ (Or.inr (Or.inl hlast))
    · constructor
      · rintro ⟨p, heap', hm', htakes⟩
        rcases hm with ⟨_, hm⟩ | ⟨heap'', hpos, hent, hm⟩
        · rw [hm] at hm'
          cases hm'
        · rw [hm] at hm'
          cases hm'
          refine Or.inr (Or.inr ⟨b, hpos, hb, hrun, hbefore.resolve_left (by omega), ?_⟩)
          by_contra hp
          obtain ⟨c, _, _, hfree, htaken⟩ := htakes hp
          unfold HeapTable.IsFree at htaken
          rw [hent] at htaken
          exact htaken hfree
      · rintro (hno | hno | ⟨c, hpos, hc, hcrun, hcbefore, hnull⟩)
        · exact absurd hno hsize
        · exact absurd hlast hno
        · -- the run at the end of the table has one start
          have hbc : b = c := by
            rcases Nat.lt_trichotomy b c with hlt | heq | hgt
            · have := hrun (c - 1) (by omega) (by omega)
              rw [show ((c - 1 : Nat) : Int) = (c : Int) - 1 by omega] at this
              exact absurd this hcbefore
            · exact heq
            · have := hcrun (b - 1) (by omega) (by omega)
              rw [show ((b - 1 : Nat) : Int) = (b : Int) - 1 by omega] at this
              exact absurd this (hbefore.resolve_left (by omega))
          subst hbc
          rcases hm with ⟨h₀, _⟩ | ⟨heap'', _, _, hm⟩
          · omega
          · exact ⟨_, heap'', hm, fun hp => absurd hnull hp⟩
  · refine iff_of_true (heapMallocBlcoks_takesBlock heap (by omega)) (Or.inl ?_)
    have := hzero.not.mp hn
    omega

/-- A pool of two blocks at 16 MiB, the second one free. -/
def secondFreeHeap : Heap :=
  { table := ⟨fun i => if i = 0 then runEntry 1 0 else HEAP_BLOCK_TABLE_ENTRY_FREE, 2, by decide⟩
    saddr := 0x1000000 }

/-- `heap_malloc(0)` never comes back from an empty pool; with the last block free, it
returns that block and leaves it free. -/
theorem heapMalloc_takesBlock_zero :
    heapMalloc oneBlockHeap 0 = .error .divergence ∧
      ∃ heap', heapMalloc secondFreeHeap 0 = .ok (0x1001000, heap') ∧
        ¬ TakesBlock secondFreeHeap heap' 0x1001000 := by
  refine ⟨rfl, _, rfl, ?_⟩
  rintro ⟨b, hb, hp, _, htaken⟩
  obtain rfl : 1 = b := heapBlockToAddress_inj (show 1 < secondFreeHeap.table.total by decide) hb hp
  exact htaken (by decide)

/-- One byte of a pool with a free block. -/
theorem heapMalloc_takesBlock_one_byte :
    ∃ p heap', heapMalloc secondFreeHeap 1 = .ok (p, heap') ∧
      (p ≠ 0 → TakesBlock secondFreeHeap heap' p) :=
  (heapMalloc_takesBlock_iff (show 1 < 0x100000000 by decide)).mpr
    (Or.inl ⟨by decide, by decide⟩)

end PlumOS
