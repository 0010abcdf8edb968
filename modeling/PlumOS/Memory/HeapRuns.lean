import Mathlib.Data.List.Pairwise
import Mathlib.Data.Set.BooleanAlgebra
import Mathlib.Data.Set.Disjoint
import Mathlib.Order.CompletePartialOrder
import PlumOS.Lib.LabelledRun
import PlumOS.Memory.HeapMarks

/-!
# Runs of the block heap

Sequences of `heap_malloc` and `heap_free` on a heap made by `heap_create`, with
the list of live allocations and the table indices touched so far as history.
The pool is kept apart exactly as long as no request is answered with the short
run at the end of the table and no block from `2^19` on is released.

## Main definitions

- `heapMallocTouched`, `heapFreeTouched` — the entries a call reads or writes
- `HeapRun`, `HeapStep` — a heap with its history, one call
- `HeapRun.Apart` — live allocations disjoint and inside, no entry outside touched
- `HeapRun.Admits` — the calls that keep it so
-/

namespace PlumOS

open LabelledRun

/-! ### The entries each loop touches -/

/-- The indices `heapGetStartBlockLoop` reads, in order. -/
def heapGetStartBlockReads (table : HeapTable) (total_blocks : Nat) :
    (fuel i bc : Nat) → List Int
  | 0, _, _ => []
  | fuel + 1, i, bc =>
    (i : Int) ::
      if heapGetEntryType (table.entries i) ≠ HEAP_BLOCK_TABLE_ENTRY_FREE then
        heapGetStartBlockReads table total_blocks fuel (i + 1) 0
      else if bc + 1 = total_blocks then []
      else heapGetStartBlockReads table total_blocks fuel (i + 1) (bc + 1)

/-- The indices `heap_mark_blocks_taken` writes. -/
def heapMarkBlocksTakenWrites (start_block : Int) (total_blocks : Nat) : List Int :=
  (List.range total_blocks).map fun j : Nat => start_block + (j : Int)

/-- The indices `heapMarkBlocksFreeLoop` reads and writes. -/
def heapMarkBlocksFreeTouched : (fuel : Nat) → (i : Int) → (Int → UInt8) → List Int
  | 0, _, _ => []
  | fuel + 1, i, entries =>
    i :: if entries i &&& HEAP_BLOCK_HAS_NEXT = 0 then []
      else heapMarkBlocksFreeTouched fuel (i + 1) entries

def heapMallocTouched (heap : Heap) (size : Nat) : List Int :=
  let total_blocks := heapTotalBlocks size
  let start_block := heapGetStartBlock heap total_blocks
  heapGetStartBlockReads heap.table total_blocks heap.table.total 0 0 ++
    if start_block < 0 then [] else heapMarkBlocksTakenWrites start_block total_blocks

def heapFreeTouched (heap : Heap) (ptr : Nat) : List Int :=
  let block := heapAddressToBlock heap ptr
  heapMarkBlocksFreeTouched ((heap.table.total : Int) - block).toNat block heap.table.entries

/-- The search depends on no entry but those it reads. -/
theorem heapGetStartBlockLoop_congr {t t' : HeapTable} {n : Nat} :
    ∀ (fuel i : Nat) (bs : Int) (bc : Nat),
      (∀ k ∈ heapGetStartBlockReads t n fuel i bc, t'.entries k = t.entries k) →
      heapGetStartBlockLoop t' n fuel i bs bc = heapGetStartBlockLoop t n fuel i bs bc := by
  intro fuel
  induction fuel with
  | zero => intros; rfl
  | succ fuel ih =>
    intro i bs bc h
    simp only [heapGetStartBlockReads, List.mem_cons, forall_eq_or_imp] at h
    obtain ⟨hi, hrest⟩ := h
    simp only [heapGetStartBlockLoop, hi]
    split
    · next ht => exact ih _ _ _ (by rwa [if_pos ht] at hrest)
    · next ht =>
      rw [if_neg ht] at hrest
      by_cases hn : bc + 1 = n
      · simp only [if_pos hn]
      · simp only [if_neg hn] at hrest ⊢
        exact ih _ _ _ hrest

theorem heapGetStartBlockReads_mem {t : HeapTable} {n : Nat} :
    ∀ (fuel i bc : Nat), ∀ k ∈ heapGetStartBlockReads t n fuel i bc,
      (i : Int) ≤ k ∧ k < (i : Int) + fuel := by
  intro fuel
  induction fuel with
  | zero => intro i bc k hk; simp [heapGetStartBlockReads] at hk
  | succ fuel ih =>
    intro i bc k hk
    simp only [heapGetStartBlockReads, List.mem_cons] at hk
    rcases hk with rfl | hk
    · omega
    · split at hk
      · have := ih _ _ _ hk
        omega
      · split at hk
        · simp at hk
        · have := ih _ _ _ hk
          omega

theorem mem_heapMarkBlocksTakenWrites {b k : Int} {n : Nat} :
    k ∈ heapMarkBlocksTakenWrites b n ↔ b ≤ k ∧ k < b + n := by
  simp only [heapMarkBlocksTakenWrites, List.mem_map, List.mem_range]
  constructor
  · rintro ⟨j, hj, rfl⟩
    omega
  · rintro ⟨h₁, h₂⟩
    exact ⟨(k - b).toNat, by omega, by omega⟩

/-- `heap_mark_blocks_taken` changes no entry but those listed. -/
theorem heapMarkBlocksTaken_untouched {t t' : HeapTable} {b n : Nat} {k : Int}
    (h : heapMarkBlocksTaken t b n = .ok t') (hk : k ∉ heapMarkBlocksTakenWrites b n) :
    t'.entries k = t.entries k := by
  rw [(heapMarkBlocksTaken_eq h).2 k, if_neg]
  rwa [mem_heapMarkBlocksTakenWrites] at hk

/-- A release touches the entries it reaches inside the table. -/
theorem mem_heapMarkBlocksFreeTouched {entries : Int → UInt8} :
    ∀ (fuel : Nat) (i k : Int), k ∈ heapMarkBlocksFreeTouched fuel i entries ↔
      Chain entries i k ∧ k < i + fuel := by
  intro fuel
  induction fuel with
  | zero =>
    intro i k
    simp only [heapMarkBlocksFreeTouched, List.not_mem_nil, false_iff]
    rintro ⟨⟨h, _⟩, hk⟩
    omega
  | succ fuel ih =>
    intro i k
    simp only [heapMarkBlocksFreeTouched, List.mem_cons]
    constructor
    · rintro (rfl | hk)
      · exact ⟨⟨le_rfl, fun j h₁ h₂ => by omega⟩, by omega⟩
      · split at hk
        · simp at hk
        · next hnext =>
          obtain ⟨⟨h₁, h₂⟩, h₃⟩ := (ih _ _).mp hk
          refine ⟨⟨by omega, fun j hj₁ hj₂ => ?_⟩, by omega⟩
          rcases eq_or_ne j i with rfl | hne
          · exact hnext
          · exact h₂ j (by omega) hj₂
    · rintro ⟨⟨h₁, h₂⟩, h₃⟩
      by_cases hki : k = i
      · exact Or.inl hki
      · have hnext : ¬ entries i &&& HEAP_BLOCK_HAS_NEXT = 0 := h₂ i le_rfl (by omega)
        rw [if_neg hnext]
        exact Or.inr ((ih _ _).mpr ⟨⟨by omega, fun j hj₁ hj₂ => h₂ j (by omega) hj₂⟩, by omega⟩)

/-- `heap_free` changes no entry but those listed. -/
theorem heapFree_untouched {heap : Heap} {ptr : Nat} {k : Int}
    (hk : k ∉ heapFreeTouched heap ptr) :
    (heapFree heap ptr).table.entries k = heap.table.entries k := by
  refine heapMarkBlocksFree_other fun hc => ?_
  simp only [heapFreeTouched, mem_heapMarkBlocksFreeTouched, not_and] at hk
  have := hk hc
  have := hc.1
  omega

/-! ### Calls and their history -/

/-- The two calls of the heap's interface. -/
inductive HeapCall
  | malloc (size : Nat)
  | free (ptr : Nat)
  deriving DecidableEq

/-- A heap, the allocations that are live (pointer and size asked for) and the
table indices touched so far. -/
structure HeapRun where
  heap : Heap
  live : List (Nat × Nat)
  touched : List Int

/-- One call: `heap_malloc` with a size a caller may ask for, or `heap_free` on a
pointer that was returned and not yet freed. -/
inductive HeapStep : HeapRun → HeapCall → HeapRun → Prop
  | malloc {s : HeapRun} {size ptr : Nat} {heap' : Heap} :
      1 ≤ size → size ≤ 0x7FFFF000 → heapMalloc s.heap size = .ok (ptr, heap') →
      HeapStep s (.malloc size)
        { heap := heap'
          live := if ptr = 0 then s.live else (ptr, size) :: s.live
          touched := s.touched ++ heapMallocTouched s.heap size }
  | free {s : HeapRun} {ptr size : Nat} :
      (ptr, size) ∈ s.live →
      HeapStep s (.free ptr)
        { heap := heapFree s.heap ptr
          live := s.live.filter fun a => a.1 ≠ ptr
          touched := s.touched ++ heapFreeTouched s.heap ptr }

/-- The blocks of the pool at `saddr` that an allocation covers. -/
def covers (saddr : Nat) (a : Nat × Nat) : Set Nat :=
  {i | ∃ b, a.1 = saddr + 4096 * b ∧ b ≤ i ∧ i < b + blocksOf a.2}

/-- The property of the pool of `N` blocks: each live allocation starts at a block
and lies inside, two of them share no block, and no entry outside the table was
read or written. -/
structure HeapRun.Apart (N : Nat) (s : HeapRun) : Prop where
  inside : ∀ a ∈ s.live, ∃ b, a.1 = s.heap.saddr + 4096 * b ∧ b + blocksOf a.2 ≤ N
  disjoint : s.live.Pairwise fun a a' => Disjoint (covers s.heap.saddr a) (covers s.heap.saddr a')
  touched : ∀ i ∈ s.touched, 0 ≤ i ∧ i < N

/-- The calls that keep the pool apart: a request for which the table has a long
enough run or no free entry at its end, a release below the 2 GiB mark of the pool. -/
def HeapRun.Admits (s : HeapRun) : HeapCall → Prop
  | .malloc size => s.heap.table.HasRun (blocksOf size) ∨ ¬ s.heap.table.LastFree
  | .free ptr => ptr < s.heap.saddr + 0x80000000

/-- The representation invariant: besides `Apart`, the live allocations are the
marked runs of the table. -/
structure HeapRun.Inv (N : Nat) (s : HeapRun) : Prop where
  total : s.heap.table.total = N
  saddr : s.heap.saddr + 4096 * N < 0x100000000
  marked : ∀ a ∈ s.live, ∃ b, a.1 = s.heap.saddr + 4096 * b ∧ 0 < blocksOf a.2 ∧
    b + blocksOf a.2 ≤ N ∧ s.heap.table.MarkedRun b (blocksOf a.2)
  disjoint : s.live.Pairwise fun a a' => Disjoint (covers s.heap.saddr a) (covers s.heap.saddr a')
  touched : ∀ i ∈ s.touched, 0 ≤ i ∧ i < N

variable {N : Nat} {s s' : HeapRun}

theorem HeapRun.Inv.apart (h : s.Inv N) : s.Apart N where
  inside := fun a ha => by
    obtain ⟨b, hb, _, hin, _⟩ := h.marked a ha
    exact ⟨b, hb, hin⟩
  disjoint := h.disjoint
  touched := h.touched

theorem mem_covers {saddr b size i : Nat} :
    i ∈ covers saddr (saddr + 4096 * b, size) ↔ b ≤ i ∧ i < b + blocksOf size := by
  constructor
  · rintro ⟨b', heq, h₁, h₂⟩
    simp only at heq h₂
    omega
  · rintro ⟨h₁, h₂⟩
    exact ⟨b, rfl, h₁, h₂⟩

theorem heapMalloc_eq {heap : Heap} {size : Nat} (h : size ≤ 0x7FFFF000) :
    heapMalloc heap size = heapMallocBlcoks heap (blocksOf size) := by
  rw [heapMalloc, heapTotalBlocks_eq h]

theorem mem_heapMallocTouched {heap : Heap} {size : Nat} (h : size ≤ 0x7FFFF000) {k : Int}
    (hk : k ∈ heapMallocTouched heap size) :
    (0 ≤ k ∧ k < heap.table.total) ∨
      (0 ≤ heapGetStartBlock heap (blocksOf size) ∧
        heapGetStartBlock heap (blocksOf size) ≤ k ∧
        k < heapGetStartBlock heap (blocksOf size) + blocksOf size) := by
  simp only [heapMallocTouched, heapTotalBlocks_eq h, List.mem_append] at hk
  rcases hk with hk | hk
  · have := heapGetStartBlockReads_mem _ _ _ _ hk
    exact Or.inl (by omega)
  · split at hk
    · simp at hk
    · exact Or.inr ⟨by omega, mem_heapMarkBlocksTakenWrites.mp hk⟩

/-- A live allocation stays a marked run when another one is made. -/
theorem HeapTable.MarkedRun.allocated {t t' : HeapTable} {b b' n n' : Nat}
    (h : t.MarkedRun b n) (hin : b + n ≤ t.total) (ha : Allocated t t' b' n') :
    t'.MarkedRun b n := by
  intro j hj
  rw [ha.keeps (by omega) (by omega) (h.not_free (by omega) (by omega))]
  exact h j hj

/-- A release of one marked run keeps a run that shares no entry with it. -/
theorem HeapTable.MarkedRun.freed {t : HeapTable} {b b' n n' : Nat} (h : t.MarkedRun b n)
    (h' : t.MarkedRun b' n') (hn' : 0 < n') (hdis : b + n ≤ b' ∨ b' + n' ≤ b) :
    (heapMarkBlocksFree t b').MarkedRun b n := by
  intro j hj
  rw [heapMarkBlocksFree_other fun hc => ?_]
  · exact h j hj
  · have := (h'.chain_iff hn' _).mp hc
    omega

private theorem inv_malloc {size ptr : Nat} {heap' : Heap} (h : s.Inv N)
    (h₁ : 1 ≤ size) (h₂ : size ≤ 0x7FFFF000) (hm : heapMalloc s.heap size = .ok (ptr, heap'))
    (hC : s.Admits (.malloc size)) :
    HeapRun.Inv N { heap := heap'
                    live := if ptr = 0 then s.live else (ptr, size) :: s.live
                    touched := s.touched ++ heapMallocTouched s.heap size } := by
  have hn := blocksOf_pos h₁
  have htot := h.total
  have hsz := h.saddr
  rw [heapMalloc_eq h₂] at hm
  rcases heapMallocBlcoks_cases hm with ⟨hneg, rfl, rfl⟩ | ⟨b, hb, rfl, hsaddr, ha⟩
  · -- no start block: the search read entries of the table and nothing was marked
    rw [if_pos rfl]
    refine ⟨h.total, h.saddr, h.marked, h.disjoint, fun k hk => ?_⟩
    rcases List.mem_append.mp hk with hk | hk
    · exact h.touched k hk
    · rcases mem_heapMallocTouched h₂ hk with hk | ⟨hk, _⟩
      · omega
      · omega
  · have hin : b + blocksOf size ≤ s.heap.table.total :=
      StartBlock.inside (hb ▸ heapGetStartBlock_spec s.heap (blocksOf size)) hn hC
    have hptr : u32 (s.heap.saddr + (b : Int) * 4096) = s.heap.saddr + 4096 * b := by
      rw [u32_of_range (by omega) (by omega)]
      omega
    rw [hptr]
    have hlive : ∀ a ∈ s.live, ∃ c, a.1 = heap'.saddr + 4096 * c ∧ 0 < blocksOf a.2 ∧
        c + blocksOf a.2 ≤ N ∧ heap'.table.MarkedRun c (blocksOf a.2) := by
      intro a hmem
      obtain ⟨c, hc, hpos, hcN, hmark⟩ := h.marked a hmem
      exact ⟨c, by rw [hsaddr]; exact hc, hpos, hcN, hmark.allocated (by omega) ha⟩
    refine ⟨by simpa [ha.total] using htot, by simpa [hsaddr] using hsz, ?_, ?_, ?_⟩
    · intro a hmem
      dsimp only at hmem ⊢
      split at hmem
      · exact hlive a hmem
      · rcases List.mem_cons.mp hmem with rfl | hmem
        · exact ⟨b, by simp [hsaddr], hn, htot ▸ hin, ha.markedRun⟩
        · exact hlive a hmem
    · dsimp only
      rw [hsaddr]
      split
      · exact h.disjoint
      · refine List.pairwise_cons.mpr ⟨fun a hmem => ?_, h.disjoint⟩
        -- the new blocks were free, those of a live allocation were taken
        obtain ⟨c, hc, _, hcN, hmark⟩ := h.marked a hmem
        obtain ⟨p, sz⟩ := a
        dsimp only at hc hcN hmark
        subst hc
        refine Set.disjoint_left.mpr fun i hi hi' => ?_
        rw [mem_covers] at hi hi'
        exact hmark.not_free hi'.1 hi'.2 (ha.free i hi.1 (Or.inr hi.2) (by omega))
    · intro k hk
      rcases List.mem_append.mp hk with hk | hk
      · exact h.touched k hk
      · rcases mem_heapMallocTouched h₂ hk with hk | ⟨_, hk⟩
        · omega
        · omega

private theorem inv_free {ptr size : Nat} (h : s.Inv N) (hmem : (ptr, size) ∈ s.live)
    (hC : s.Admits (.free ptr)) :
    HeapRun.Inv N { heap := heapFree s.heap ptr
                    live := s.live.filter fun a => a.1 ≠ ptr
                    touched := s.touched ++ heapFreeTouched s.heap ptr } := by
  have htot := h.total
  have hsz := h.saddr
  obtain ⟨b, hb, hpos, hin, hmark⟩ := h.marked _ hmem
  dsimp only at hb hpos hin hmark
  have hblock : heapAddressToBlock s.heap ptr = b := by
    have hlt : ptr < s.heap.saddr + 0x80000000 := hC
    rw [hb]
    exact heapAddressToBlock_of_lt _ (by omega)
  refine ⟨htot, hsz, fun a ha => ?_, h.disjoint.filter _, fun k hk => ?_⟩
  · simp only [List.mem_filter, decide_eq_true_eq] at ha
    obtain ⟨c, hc, hcpos, hcN, hcmark⟩ := h.marked a ha.1
    refine ⟨c, hc, hcpos, hcN, ?_⟩
    dsimp only [heapFree]
    rw [hblock]
    refine hcmark.freed hmark hpos ?_
    -- distinct live allocations share no block
    have hne : (ptr, size) ≠ a := by
      rintro rfl
      exact ha.2 rfl
    have : Std.Symm fun a a' => Disjoint (covers s.heap.saddr a) (covers s.heap.saddr a') :=
      ⟨fun _ _ hd => hd.symm⟩
    have hdis := h.disjoint.forall hmem ha.1 hne
    obtain ⟨p, sz⟩ := a
    dsimp only at hc hcpos ⊢
    rw [hb, hc] at hdis
    by_contra hover
    rcases Nat.le_total b c with hbc | hbc
    · exact Set.disjoint_left.mp hdis (mem_covers.mpr ⟨hbc, by omega⟩)
        (mem_covers.mpr ⟨le_rfl, by omega⟩)
    · exact Set.disjoint_left.mp hdis (mem_covers.mpr ⟨le_rfl, by omega⟩)
        (mem_covers.mpr ⟨hbc, by omega⟩)
  · rcases List.mem_append.mp hk with hk | hk
    · exact h.touched k hk
    · simp only [heapFreeTouched, hblock, mem_heapMarkBlocksFreeTouched] at hk
      have := (hmark.chain_iff hpos k).mp hk.1
      omega

/-- An admitted call keeps the representation invariant. -/
theorem HeapRun.Inv.step {c : HeapCall} (h : s.Inv N) (hC : s.Admits c) (hst : HeapStep s c s') :
    s'.Inv N := by
  cases hst with
  | malloc h₁ h₂ hm => exact inv_malloc h h₁ h₂ hm hC
  | free hmem => exact inv_free h hmem hC

/-- Any other call touches an entry outside the table. -/
theorem HeapRun.Inv.step_outside {c : HeapCall} (h : s.Inv N) (hC : ¬ s.Admits c)
    (hst : HeapStep s c s') : ¬ s'.Apart N := by
  have htot := h.total
  cases hst with
  | @malloc size ptr heap' h₁ h₂ hm =>
    -- the run handed out reaches over the end: entry `N` is marked
    simp only [Admits, not_or, not_not] at hC
    have hover := (heapGetStartBlock_spec s.heap (blocksOf size)).overruns (blocksOf_pos h₁)
      hC.1 hC.2
    intro hapart
    have := hapart.touched N (List.mem_append_right _ ?_)
    · omega
    · simp only [heapMallocTouched, heapTotalBlocks_eq h₂]
      refine List.mem_append_right _ ?_
      rw [if_neg (not_lt.mpr hover.1), mem_heapMarkBlocksTakenWrites]
      omega
  | @free ptr size hmem =>
    -- the block number comes out negative, and the entry there is cleared
    obtain ⟨b, hb, _, hin, _⟩ := h.marked _ hmem
    have hsz := h.saddr
    dsimp only at hb hin
    have hge : s.heap.saddr + 0x80000000 ≤ ptr := not_lt.mp hC
    have hblock : heapAddressToBlock s.heap ptr < 0 := by
      rw [hb]
      exact heapAddressToBlock_of_ge _ (by omega) (by omega)
    intro hapart
    have := hapart.touched (heapAddressToBlock s.heap ptr) (List.mem_append_right _ ?_)
    · omega
    · simp only [heapFreeTouched, mem_heapMarkBlocksFreeTouched]
      exact ⟨⟨le_rfl, fun j h₁ h₂ => by omega⟩, by omega⟩

/-- What `heap_create` leaves behind when it succeeds over `N` blocks. -/
theorem heapCreate_ok {heap₀ heap : Heap} {ptr N : Nat} {table : HeapTable}
    (hend : ptr + 4096 * N < 0x100000000)
    (h : heapCreate heap₀ ptr (ptr + 4096 * N) table = (0, heap)) :
    heap.table.total = N ∧ heap.saddr = ptr ∧ ∀ i : Nat, i < N → heap.table.IsFree i := by
  unfold heapCreate at h
  split at h
  · simp [EINVARG] at h
  · dsimp only at h
    split at h
    · next hneg =>
      simp only [Prod.mk.injEq] at h
      omega
    · simp only [Prod.mk.injEq] at h
      obtain ⟨hres, rfl⟩ := h
      have htotal : table.total = N := by
        have hsize : u32 (((ptr + 4096 * N : Nat) : Int) - ptr) / PLUMOS_HEAP_BLOCK_SIZE = N := by
          rw [u32_of_range (by omega) (by omega)]
          simp only [PLUMOS_HEAP_BLOCK_SIZE]
          omega
        by_contra hne
        have hbad : heapValidateTable ptr (ptr + 4096 * N) table = -EINVARG :=
          if_pos fun heq => hne (heq.trans hsize)
        simp [hbad, EINVARG] at hres
      refine ⟨htotal, rfl, fun i hi => ?_⟩
      unfold HeapTable.IsFree
      dsimp only
      rw [if_pos (by omega)]
      rfl

/-- A run of the heap keeps live allocations apart and touches no entry outside
the table exactly when each of its calls is admitted: no request without a run
that is long enough meets a free entry at the end of the table, and no block
2 GiB or more into the pool is released. -/
theorem heap_run_apart_iff {heap₀ heap : Heap} {ptr N : Nat} {table : HeapTable}
    {tr : List (HeapCall × HeapRun)} (hend : ptr + 4096 * N < 0x100000000)
    (hcreate : heapCreate heap₀ ptr (ptr + 4096 * N) table = (0, heap))
    (hrun : Run HeapStep ⟨heap, [], []⟩ tr) :
    AllStates (HeapRun.Apart N) ⟨heap, [], []⟩ tr ↔
      AllSteps HeapRun.Admits ⟨heap, [], []⟩ tr := by
  obtain ⟨htot, hsaddr, _⟩ := heapCreate_ok hend hcreate
  refine hrun.allStates_iff_allSteps (fun (h : HeapRun.Inv N _) => h.apart)
    (fun h hC hst => h.step hC hst) (fun h hC hst => h.step_outside hC hst) ?_
  exact
    { total := htot
      saddr := by rw [hsaddr]; exact hend
      marked := by simp
      disjoint := List.Pairwise.nil
      touched := by simp }

/-- The table of a pool of one block, all zero. -/
def oneBlockTable : HeapTable := ⟨fun _ => 0, 1, by decide⟩

/-- The pool of one block at 16 MiB. -/
def oneBlockHeap : Heap := (heapCreate ⟨oneBlockTable, 0⟩ 0x1000000 0x1001000 oneBlockTable).2

theorem heapCreate_oneBlock :
    heapCreate ⟨oneBlockTable, 0⟩ 0x1000000 (0x1000000 + 4096 * 1) oneBlockTable =
      (0, oneBlockHeap) := rfl

/-- In a pool of one block a request for 8192 bytes is answered with block 0, and
entry 1 is marked. -/
theorem heap_run_apart_overrun :
    ∃ (table : HeapTable) (heap₀ heap : Heap) (tr : List (HeapCall × HeapRun)),
      heapCreate heap₀ 0x1000000 (0x1000000 + 4096 * 1) table = (0, heap) ∧
      Run HeapStep ⟨heap, [], []⟩ tr ∧ ¬ AllStates (HeapRun.Apart 1) ⟨heap, [], []⟩ tr := by
  obtain ⟨p, heap', hm⟩ := heapMallocBlcoks_isOk oneBlockHeap (n := 2) (by decide)
  have hst : HeapStep ⟨oneBlockHeap, [], []⟩ (.malloc 8192) _ :=
    .malloc (by decide) (by decide) hm
  refine ⟨_, _, _, [(_, _)], heapCreate_oneBlock, .cons hst (.nil _), fun h => ?_⟩
  have htouched : (1 : Int) ∈ heapMallocTouched oneBlockHeap 8192 := by decide
  have := (allStates_cons.mp h).2.1.touched 1 htouched
  omega

/-- A run to which the equivalence applies: one block requested. -/
theorem heap_run_apart_one :
    ∃ tr : List (HeapCall × HeapRun), tr ≠ [] ∧
      (AllStates (HeapRun.Apart 1) ⟨oneBlockHeap, [], []⟩ tr ↔
        AllSteps HeapRun.Admits ⟨oneBlockHeap, [], []⟩ tr) := by
  obtain ⟨p, heap', hm⟩ := heapMallocBlcoks_isOk oneBlockHeap (n := 1) (by decide)
  have hst : HeapStep ⟨oneBlockHeap, [], []⟩ (.malloc 4096) _ :=
    .malloc (by decide) (by decide) hm
  exact ⟨[(_, _)], by simp, heap_run_apart_iff (by decide) heapCreate_oneBlock
    (.cons hst (.nil _))⟩

end PlumOS
