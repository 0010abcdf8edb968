import PlumOS.Memory.HeapRequest

/-!
# One heap_free

A table that encodes a set of allocations, and what the release of one of them does
to it. Below the 2 GiB mark of the pool a release frees the entries of its allocation
and no others, so releases may come in any order and a release undoes the request
before it. From the mark on `heap_address_to_block` gives a negative block number.

## Main definitions

- `InAllocation` — a table index belongs to an allocation
- `Encodes` — the marked runs of the table are exactly these allocations
- `FreesExactly`, `FreesInAnyOrder`, `Restores` — what a caller expects of a release
-/

namespace PlumOS

/-! ### Addresses of blocks -/

/-- An address counts from the pool's start, also where it went over the end of the
address space. -/
theorem heapAddressToBlock_heapBlockToAddress (heap : Heap) (b : Nat) :
    heapAddressToBlock heap (heapBlockToAddress heap b) =
      heapAddressToBlock heap (heap.saddr + 4096 * b) := by
  have hsame : i32 ((heapBlockToAddress heap b : Int) - heap.saddr) =
      i32 (((heap.saddr + 4096 * b : Nat) : Int) - heap.saddr) := by
    simp only [heapBlockToAddress, PLUMOS_HEAP_BLOCK_SIZE, u32, i32]
    omega
  unfold heapAddressToBlock
  rw [hsame]

/-- A release of a block at the 2 GiB mark or behind it frees that block only if it
clears an entry before the table on its way. -/
theorem heapFree_wild {heap : Heap} {b : Nat} (h₁ : 0x80000 ≤ b) (h₂ : b < 0x100000)
    (hb : (heapFree heap (heapBlockToAddress heap b)).table.entries b ≠ heap.table.entries b) :
    ∃ k : Int, k < 0 ∧
      (heapFree heap (heapBlockToAddress heap b)).table.entries k ≠ heap.table.entries k := by
  have hneg := heapAddressToBlock_of_ge heap h₁ h₂
  rw [← heapAddressToBlock_heapBlockToAddress] at hneg
  unfold heapFree at hb ⊢
  dsimp only at hb ⊢
  generalize heapAddressToBlock heap (heapBlockToAddress heap b) = start at hneg hb ⊢
  have hchain : Chain heap.table.entries start b := by
    by_contra hno
    exact hb (heapMarkBlocksFree_other fun hc => absurd hc hno)
  have hnext : HasNext (heap.table.entries start) := hchain.2 start le_rfl (by omega)
  have hfreed : (heapMarkBlocksFree heap.table start).entries start = HEAP_BLOCK_TABLE_ENTRY_FREE :=
    heapMarkBlocksFree_chain ⟨le_rfl, fun j h₁ h₂ => by omega⟩ (by omega)
  refine ⟨start, hneg, fun heq => ?_⟩
  rw [← heq, hfreed] at hnext
  exact not_hasNext_free hnext

/-! ### Tables and their allocations -/

/-- Entry `k` belongs to the allocation `a`, a start block and a number of blocks. -/
def InAllocation (a : Nat × Nat) (k : Int) : Prop := (a.1 : Int) ≤ k ∧ k < (a.1 : Int) + a.2

instance (a : Nat × Nat) (k : Int) : Decidable (InAllocation a k) := inferInstanceAs (Decidable (_ ∧ _))

/-- The table encodes the allocations of `live`: each is a marked run inside the table,
and every entry of none is zero. -/
structure Encodes (t : HeapTable) (live : List (Nat × Nat)) : Prop where
  run : ∀ a ∈ live, 0 < a.2 ∧ a.1 + a.2 ≤ t.total ∧ t.MarkedRun a.1 a.2
  rest : ∀ i : Nat, i < t.total → (∀ a ∈ live, ¬ InAllocation a i) →
    t.entries i = HEAP_BLOCK_TABLE_ENTRY_FREE

/-- Two of the allocations share no block. -/
theorem Encodes.disjoint {t : HeapTable} {live : List (Nat × Nat)} (h : Encodes t live)
    {a a' : Nat × Nat} (ha : a ∈ live) (ha' : a' ∈ live) (hne : a ≠ a') :
    a.1 + a.2 ≤ a'.1 ∨ a'.1 + a'.2 ≤ a.1 := by
  obtain ⟨hn, _, hm⟩ := h.run a ha
  obtain ⟨hn', _, hm'⟩ := h.run a' ha'
  refine hm.disjoint hm' hn hn' fun hstart => hne ?_
  obtain ⟨b, n⟩ := a
  obtain ⟨b', n'⟩ := a'
  dsimp only at hstart hm hm' hn hn'
  subst hstart
  rw [hm.length_eq hm' hn hn']

/-- An entry that reads as free is zero. -/
theorem Encodes.entry_of_isFree {t : HeapTable} {live : List (Nat × Nat)} (h : Encodes t live)
    {i : Nat} (hi : i < t.total) (hfree : t.IsFree i) :
    t.entries i = HEAP_BLOCK_TABLE_ENTRY_FREE := by
  refine h.rest i hi fun a ha hin => ?_
  unfold InAllocation at hin
  exact (h.run a ha).2.2.not_free (k := i) (by omega) (by omega) hfree

/-- Heaps with the same pool and the same entries are the same. -/
theorem heap_ext {heap heap' : Heap} (hs : heap.saddr = heap'.saddr)
    (ht : heap.table.total = heap'.table.total)
    (he : ∀ k, heap.table.entries k = heap'.table.entries k) : heap = heap' := by
  obtain ⟨⟨entries, total, _⟩, saddr⟩ := heap
  obtain ⟨⟨entries', total', _⟩, saddr'⟩ := heap'
  obtain rfl : entries = entries' := funext he
  cases hs
  cases ht
  rfl

/-! ### What a caller expects of a release -/

/-- `heap_free` of the start of allocation `a` frees its entries and changes no other. -/
def FreesExactly (heap : Heap) (a : Nat × Nat) : Prop :=
  ∀ k : Int, (heapFree heap (heapBlockToAddress heap a.1)).table.entries k =
    if InAllocation a k then HEAP_BLOCK_TABLE_ENTRY_FREE else heap.table.entries k

/-- `heap_free` of the start of every allocation of the list, from its head on. -/
def freeAll (heap : Heap) : List (Nat × Nat) → Heap
  | [] => heap
  | a :: l => freeAll (heapFree heap (heapBlockToAddress heap a.1)) l

/-- Releasing some of the allocations gives the same heap in every order. -/
def FreesInAnyOrder (heap : Heap) (live : List (Nat × Nat)) : Prop :=
  ∀ l l' : List (Nat × Nat), l ⊆ live → l.Nodup → l.Perm l' → freeAll heap l = freeAll heap l'

/-- The table has a run for the blocks that `heap_malloc(size)` asks for. -/
def Fits (heap : Heap) (size : Nat) : Prop :=
  0 < heapTotalBlocks size ∧ heap.table.HasRun (heapTotalBlocks size)

/-- `heap_free(heap_malloc(size))` gives the same heap again. -/
def Restores (heap : Heap) (size : Nat) : Prop :=
  ∃ p heap', heapMalloc heap size = .ok (p, heap') ∧ heapFree heap' p = heap

/-! ### Below the 2 GiB mark -/

/-- The release of a marked run below the mark. -/
theorem HeapTable.MarkedRun.freesExactly {heap : Heap} {a : Nat × Nat}
    (h : heap.table.MarkedRun a.1 a.2) (hn : 0 < a.2) (hin : a.1 + a.2 ≤ heap.table.total)
    (hlow : a.1 < 0x80000) : FreesExactly heap a := by
  intro k
  have hblock : heapAddressToBlock heap (heapBlockToAddress heap a.1) = a.1 := by
    rw [heapAddressToBlock_heapBlockToAddress]
    exact heapAddressToBlock_of_lt heap hlow
  unfold heapFree
  rw [hblock]
  exact h.free_entries hn hin k

/-- What is left after one allocation is released is encoded again. -/
theorem Encodes.freed {heap : Heap} {live : List (Nat × Nat)} (h : Encodes heap.table live)
    {a : Nat × Nat} (ha : a ∈ live) (hfree : FreesExactly heap a) :
    Encodes (heapFree heap (heapBlockToAddress heap a.1)).table (live.filter (· ≠ a)) where
  run := fun c hc => by
    simp only [List.mem_filter, decide_eq_true_eq] at hc
    obtain ⟨hn, hin, hm⟩ := h.run c hc.1
    refine ⟨hn, hin, fun j hj => ?_⟩
    have hdis := h.disjoint hc.1 ha hc.2
    rw [hfree, if_neg (by unfold InAllocation; omega)]
    exact hm j hj
  rest := fun i hi hno => by
    rw [hfree]
    split
    · rfl
    · next hout =>
      refine h.rest i hi fun c hc hin => ?_
      rcases eq_or_ne c a with rfl | hne
      · exact hout hin
      · exact hno c (by simp [hc, hne]) hin

/-- Releasing allocations below the mark frees their entries and changes no other. -/
theorem freeAll_entries :
    ∀ (l : List (Nat × Nat)) {heap : Heap} {live : List (Nat × Nat)}, Encodes heap.table live →
      (∀ a ∈ live, a.1 < 0x80000) → l ⊆ live → l.Nodup → ∀ k : Int,
      (freeAll heap l).table.entries k =
        if ∃ a ∈ l, InAllocation a k then HEAP_BLOCK_TABLE_ENTRY_FREE else heap.table.entries k := by
  intro l
  induction l with
  | nil =>
    intro heap live _ _ _ _ k
    simp [freeAll]
  | cons a l ih =>
    intro heap live henc hlow hsub hnodup k
    obtain ⟨ha, hsub⟩ := List.cons_subset.mp hsub
    obtain ⟨hnew, hnodup⟩ := List.nodup_cons.mp hnodup
    obtain ⟨hn, hin, hm⟩ := henc.run a ha
    have hfree : FreesExactly heap a := hm.freesExactly hn hin (hlow a ha)
    have hrest : l ⊆ live.filter (· ≠ a) := by
      intro c hc
      have hne : c ≠ a := by
        rintro rfl
        exact hnew hc
      simp [hsub hc, hne]
    simp only [freeAll]
    rw [ih (henc.freed ha hfree) (fun c hc => hlow c (List.mem_of_mem_filter hc)) hrest hnodup k,
      hfree]
    by_cases hl : ∃ c ∈ l, InAllocation c k
    · rw [if_pos hl, if_pos ⟨hl.choose, List.mem_cons_of_mem a hl.choose_spec.1, hl.choose_spec.2⟩]
    · rw [if_neg hl]
      by_cases hak : InAllocation a k
      · rw [if_pos hak, if_pos ⟨a, List.mem_cons_self, hak⟩]
      · rw [if_neg hak, if_neg]
        rintro ⟨c, hc, hck⟩
        rcases List.mem_cons.mp hc with rfl | hc
        · exact hak hck
        · exact hl ⟨c, hc, hck⟩

@[simp] theorem freeAll_saddr (l : List (Nat × Nat)) :
    ∀ heap : Heap, (freeAll heap l).saddr = heap.saddr := by
  induction l with
  | nil => exact fun _ => rfl
  | cons a l ih => exact fun heap => ih _

@[simp] theorem freeAll_total (l : List (Nat × Nat)) :
    ∀ heap : Heap, (freeAll heap l).table.total = heap.table.total := by
  induction l with
  | nil => exact fun _ => rfl
  | cons a l ih => exact fun heap => ih _

theorem Encodes.freesInAnyOrder {heap : Heap} {live : List (Nat × Nat)}
    (h : Encodes heap.table live) (hlow : ∀ a ∈ live, a.1 < 0x80000) :
    FreesInAnyOrder heap live := by
  intro l l' hsub hnodup hperm
  have hsub' : l' ⊆ live := fun a ha => hsub (hperm.mem_iff.mpr ha)
  apply heap_ext
  · simp
  · simp
  · intro k
    rw [freeAll_entries l h hlow hsub hnodup, freeAll_entries l' h hlow hsub'
      (hperm.nodup_iff.mp hnodup)]
    simp only [hperm.mem_iff]

/-- A request whose run starts below the mark is undone by its release. -/
theorem Encodes.restores {heap : Heap} {live : List (Nat × Nat)} (h : Encodes heap.table live)
    {size b : Nat} (hn : 0 < heapTotalBlocks size)
    (hb : heap.table.LowestRun (heapTotalBlocks size) b) (hlow : b < 0x80000) :
    Restores heap size := by
  obtain ⟨c, heap', hc, hm, hsaddr, ha⟩ :=
    heapMallocBlcoks_lowest hn ⟨b, hb.inside, hb.free⟩
  obtain rfl := hb.unique hc
  refine ⟨_, heap', hm, ?_⟩
  have haddr : heapBlockToAddress heap b = heapBlockToAddress heap' b := by
    unfold heapBlockToAddress
    rw [hsaddr]
  have hfree : FreesExactly heap' (b, heapTotalBlocks size) :=
    ha.markedRun.freesExactly hn (by rw [ha.total]; exact hb.inside) hlow
  rw [haddr]
  apply heap_ext
  · exact hsaddr
  · exact ha.total
  · intro k
    rw [hfree k]
    by_cases hk : InAllocation (b, heapTotalBlocks size) k
    · rw [if_pos hk]
      -- the entries of the run were zero before
      unfold InAllocation at hk
      have hinside := hb.inside
      have := h.entry_of_isFree (i := k.toNat) (by omega) (hb.free k.toNat (by omega) (by omega))
      rw [show ((k.toNat : Nat) : Int) = k by omega] at this
      exact this.symm
    · rw [if_neg hk, ha.entries]
      exact if_neg hk

/-! ### From the 2 GiB mark on -/

theorem FreesExactly.below {heap : Heap} {a : Nat × Nat} (h : FreesExactly heap a) (hn : 0 < a.2)
    (hin : a.1 + a.2 ≤ heap.table.total) (hm : heap.table.MarkedRun a.1 a.2) : a.1 < 0x80000 := by
  by_contra hge
  have htotal := heap.table.total_le
  have htaken := hm.not_free le_rfl (show a.1 < a.1 + a.2 by omega)
  obtain ⟨k, hk, hne⟩ := @heapFree_wild heap a.1 (by omega) (by omega) (by
    rw [h, if_pos (by unfold InAllocation; omega)]
    intro heq
    exact htaken (by unfold HeapTable.IsFree; rw [← heq]; rfl))
  refine hne ?_
  rw [h, if_neg (by unfold InAllocation; omega)]

theorem Restores.below {heap : Heap} {size b : Nat} (h : Restores heap size)
    (hn : 0 < heapTotalBlocks size) (hb : heap.table.LowestRun (heapTotalBlocks size) b) :
    b < 0x80000 := by
  by_contra hge
  have htotal := heap.table.total_le
  have hinside := hb.inside
  obtain ⟨c, heap', hc, hm, hsaddr, ha⟩ :=
    heapMallocBlcoks_lowest hn ⟨b, hb.inside, hb.free⟩
  obtain rfl := hb.unique hc
  obtain ⟨p, heap'', hm', hrestored⟩ := h
  unfold heapMalloc at hm'
  rw [hm] at hm'
  cases hm'
  have haddr : heapBlockToAddress heap b = heapBlockToAddress heap' b := by
    unfold heapBlockToAddress
    rw [hsaddr]
  rw [haddr] at hrestored
  obtain ⟨k, hk, hne⟩ := @heapFree_wild heap' b (by omega) (by omega) (by
    rw [hrestored]
    intro heq
    have hfree := ha.free b le_rfl (Or.inl rfl) ha.start_lt
    unfold HeapTable.IsFree at hfree
    rw [heq] at hfree
    exact ha.markedRun.not_free le_rfl (by omega) hfree)
  refine hne ?_
  rw [hrestored, ha.entries, if_neg (by omega)]

/-- In a table that encodes some allocations, every release of one of them frees exactly
its entries, releases give the same heap in every order, and every request that fits is
undone by its release, if and only if the allocations and the runs for fitting requests
start below the 2 GiB mark of the pool. -/
theorem heapFree_exact_iff {heap : Heap} {live : List (Nat × Nat)} (h : Encodes heap.table live) :
    ((∀ a ∈ live, FreesExactly heap a) ∧ FreesInAnyOrder heap live ∧
        ∀ size, Fits heap size → Restores heap size) ↔
      (∀ a ∈ live, a.1 < 0x80000) ∧
        ∀ size b, Fits heap size → heap.table.LowestRun (heapTotalBlocks size) b → b < 0x80000 := by
  constructor
  · rintro ⟨hexact, _, hrestores⟩
    refine ⟨fun a ha => ?_, fun size b hfits hb => ?_⟩
    · obtain ⟨hn, hin, hm⟩ := h.run a ha
      exact (hexact a ha).below hn hin hm
    · exact (hrestores size hfits).below hfits.1 hb
  · rintro ⟨hlow, hruns⟩
    refine ⟨fun a ha => ?_, h.freesInAnyOrder hlow, fun size hfits => ?_⟩
    · obtain ⟨hn, hin, hm⟩ := h.run a ha
      exact hm.freesExactly hn hin (hlow a ha)
    · obtain ⟨b, _, hb⟩ := heapGetStartBlock_lowest hfits.1 hfits.2
      exact h.restores hfits.1 hb (hruns size b hfits hb)

/-- A pool of `2^19 + 1` blocks at 16 MiB whose last block is allocated. -/
def lastBlockHeap : Heap :=
  { table :=
      { entries := fun i => if i = 0x80000 then runEntry 1 0 else HEAP_BLOCK_TABLE_ENTRY_FREE
        total := 0x80001
        total_le := by decide }
    saddr := 0x1000000 }

/-- The block at the 2 GiB mark of a pool is not released by its `heap_free`. -/
theorem heapFree_exact_last_block :
    Encodes lastBlockHeap.table [(0x80000, 1)] ∧ ¬ FreesExactly lastBlockHeap (0x80000, 1) := by
  have hmarked : lastBlockHeap.table.MarkedRun 0x80000 1 := by
    intro j hj
    obtain rfl : j = 0 := by omega
    rfl
  refine ⟨⟨List.forall_mem_singleton.mpr ⟨by decide, by decide, hmarked⟩, fun i _ hno => ?_⟩,
    fun h => absurd (h.below (by decide) (by decide) hmarked) (by decide)⟩
  refine if_neg fun heq => hno _ List.mem_cons_self ?_
  unfold InAllocation
  dsimp only
  omega

/-- The pool with one allocated block and one free one. -/
theorem heapFree_exact_second_free :
    (∀ a ∈ [(0, 1)], FreesExactly secondFreeHeap a) ∧ FreesInAnyOrder secondFreeHeap [(0, 1)] ∧
      ∀ size, Fits secondFreeHeap size → Restores secondFreeHeap size := by
  refine (heapFree_exact_iff ?_).mpr ⟨List.forall_mem_singleton.mpr (by decide), ?_⟩
  · refine ⟨List.forall_mem_singleton.mpr ⟨by decide, by decide, fun j hj => ?_⟩, fun i hi hno => ?_⟩
    · obtain rfl : j = 0 := by omega
      rfl
    · refine if_neg fun heq => hno _ List.mem_cons_self ?_
      unfold InAllocation
      dsimp only
      omega
  · intro size b _ hb
    have hin : b + heapTotalBlocks size ≤ 2 := hb.inside
    omega

end PlumOS
