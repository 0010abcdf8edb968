import PlumOS.Memory.Fence
import PlumOS.Memory.HeapRequest
import PlumOS.Task.Process

/-!
# Requests of a process that fail

`process_malloc` takes the memory from the heap before it looks for a slot and maps it.
Its error exit is meant to give it back, but the test there is the wrong way round.

## Main definitions

- `RequestUndone` — the heap table, the process's allocations and its page tables are as before
- `Kernel.NoRoom` — the heap has no run of blocks for a request

## Main results

- `processMalloc_failed_iff` — which failing requests are undone
-/

namespace PlumOS

open StateExcept

/-- The allocations in the process at `process`. -/
def allocationsOf (k : Kernel) (process : Nat) : Option (Nat → ProcessAllocation) :=
  ((k.objs process).bind Obj.process?).map Process.allocations

/-- The entry for `virt` in the page tables of the process's task. -/
def pageEntryOf (k : Kernel) (process virt : Nat) : Except Fault Nat :=
  ((do
    let p ← deref Obj.process? process
    let t ← deref Obj.task? p.task
    let directory ← deref Obj.chunk? t.page_directory
    pagingGet directory virt) k).map Prod.fst

/-- What `process_malloc` works on is as it was before the call. -/
structure RequestUndone (process : Nat) (k k' : Kernel) : Prop where
  heap : k'.heap_entries = k.heap_entries
  allocations : allocationsOf k' process = allocationsOf k process
  pages : ∀ virt, pageEntryOf k' process virt = pageEntryOf k process virt

/-- The heap has no run of free blocks for `size` bytes, also not at its end. -/
def Kernel.NoRoom (k : Kernel) (size : Nat) : Prop :=
  ¬ k.heap.table.LastFree ∧
    (heapTotalBlocks size = 0 ∨ ¬ k.heap.table.HasRun (heapTotalBlocks size))

/-- `heap_get_start_block` fails exactly when there is no room. -/
theorem heapGetStartBlock_neg_iff {k : Kernel} {size : Nat} :
    heapGetStartBlock k.heap (heapTotalBlocks size) < 0 ↔ k.NoRoom size := by
  have hspec := heapGetStartBlock_spec k.heap (heapTotalBlocks size)
  generalize heapGetStartBlock k.heap (heapTotalBlocks size) = r at hspec
  unfold Kernel.NoRoom
  cases hspec with
  | found b hn hin hrun _ =>
    refine iff_of_false (by omega) fun h => ?_
    rcases h.2 with hzero | hno
    · omega
    · exact hno ⟨b, hin, hrun⟩
  | tail b hb hrun _ _ => exact iff_of_false (by omega) fun h => h.1 (hrun.lastFree hb)
  | none hlast hno => exact iff_of_true (by decide) ⟨hlast, hno⟩

/-- `kzalloc` returns NULL exactly when there is no room, and then it changes nothing. -/
theorem kzalloc_null_iff {k k' : Kernel} {size ptr : Nat} (h : kzalloc size k = .ok (ptr, k')) :
    ptr = 0 ↔ k.NoRoom size := by
  rw [← heapGetStartBlock_neg_iff]
  obtain ⟨p, k₁, hm, hrest⟩ := bind_eq_ok.mp h
  have hptr : ptr = p := by
    split at hrest
    · next hzero => exact (pure_eq_ok.mp hrest).1.symm.trans hzero.symm
    · obtain ⟨_, _, _, hpure⟩ := bind_eq_ok.mp hrest
      exact (pure_eq_ok.mp hpure).1.symm
  rw [hptr]
  unfold kmalloc heapMalloc at hm
  cases hb : heapMallocBlcoks k.heap (heapTotalBlocks size) with
  | error e => simp [hb] at hm
  | ok r =>
    simp only [hb, Except.ok.injEq, Prod.mk.injEq] at hm
    obtain ⟨rfl, -⟩ := hm
    rcases heapMallocBlcoks_cases hb with ⟨hneg, hzero, -⟩ | ⟨b, hstart, hp, -, ha⟩
    · exact iff_of_true hzero hneg
    · have hlt := ha.start_lt
      rw [Kernel.heap_total] at hlt
      rw [hp, hstart, Kernel.heap_saddr, u32_of_range (by omega) (by omega)]
      omega

theorem kzalloc_of_noRoom {k : Kernel} {size : Nat} (h : k.NoRoom size) :
    kzalloc size k = .ok (0, k) := by
  have hmalloc : heapMalloc k.heap size = .ok (0, k.heap) := by
    unfold heapMalloc heapMallocBlcoks
    exact if_pos (heapGetStartBlock_neg_iff.mpr h)
  have hk : kmalloc size k = .ok (0, k) := by
    unfold kmalloc
    rw [hmalloc]
    rfl
  exact bind_of_ok hk

/-- A structure is at NULL only where there was no room for it. -/
theorem kzallocObj_null (k : Kernel) (size : Nat) (zero : Obj) :
    Ensures (kzallocObj size zero) k fun p _ => p = 0 → k.NoRoom size := by
  refine .bind (R := fun p _ => p = 0 → k.NoRoom size)
    (fun p k' h => (kzalloc_null_iff h).mp) ?_
  intro p k₁ hp
  split
  · exact .pure fun _ => hp ‹_›
  · next hne =>
    exact .bind (R := fun _ _ => True) (fun _ _ _ => trivial) fun _ _ _ =>
      .pure fun h0 => absurd h0 hne

/-! ### Mapping does not give memory back -/

/-- A function that leaves the heap's table alone. -/
def KeepsHeap {α : Type} (m : KM α) : Prop :=
  ∀ k, Ensures m k fun _ k' => k'.heap_entries = k.heap_entries

theorem pagingSet_keepsHeap (directory virt val : Nat) : KeepsHeap (pagingSet directory virt val) := by
  intro k
  unfold pagingSet
  split
  · exact .pure rfl
  dsimp only
  split
  · exact .pure rfl
  refine .bind (deref_spec _ _ _) ?_
  rintro dir _ ⟨rfl, -, -⟩
  refine .bind (deref_spec _ _ _) ?_
  rintro entries _ ⟨rfl, -, -⟩
  refine .bind (storeObj_spec _ _ _).ensures ?_
  intro _ k₁ hst
  exact .pure hst.heap_entries

theorem pagingMapRange_keepsHeap (chunk flags : Nat) :
    ∀ fuel virt phys, KeepsHeap (pagingMapRange chunk flags fuel virt phys) := by
  intro fuel
  induction fuel with
  | zero => exact fun _ _ _ => .pure rfl
  | succ fuel ih =>
    intro virt phys k
    refine .bind (R := fun _ k' => k'.heap_entries = k.heap_entries) ?_ ?_
    · unfold pagingMap
      split
      · exact .pure rfl
      refine .bind (deref_spec _ _ _) ?_
      rintro directory _ ⟨rfl, -, -⟩
      exact pagingSet_keepsHeap _ _ _ k
    intro res k₁ hk₁
    split
    · exact .pure hk₁
    · exact (ih _ _ k₁).mono fun _ _ hk₂ => hk₂.trans hk₁

theorem pagingMapTo_keepsHeap (chunk virt phys phys_end flags : Nat) :
    KeepsHeap (pagingMapTo chunk virt phys phys_end flags) := by
  intro k
  unfold pagingMapTo
  split
  · exact .pure rfl
  split
  · exact .pure rfl
  split
  · exact .pure rfl
  split
  · exact .pure rfl
  · exact pagingMapRange_keepsHeap _ _ _ _ _ k

theorem pagingMapTo_empty (chunk : Nat) {virt phys : Nat} (hv : virt % 4096 = 0)
    (hp : phys % 4096 = 0) (flags : Nat) : pagingMapTo chunk virt phys phys flags = pure 0 := by
  have hv' : ¬ virt % PAGING_PAGE_SIZE ≠ 0 := not_not_intro hv
  have hp' : ¬ phys % PAGING_PAGE_SIZE ≠ 0 := not_not_intro hp
  unfold pagingMapTo
  rw [if_neg hv', if_neg hp', if_neg hp', if_neg (lt_irrefl _), Nat.sub_self]
  rfl

/-! ### The failing request -/

/-- An allocation of at least one block changes the table. -/
theorem Kzalloced.entries_ne {k k' : Kernel} {size ptr : Nat} (h : Kzalloced k size ptr k')
    (hsize : size ≠ 0) : k'.heap_entries ≠ k.heap_entries := by
  obtain ⟨b, rfl, ha⟩ := h.block
  have hspace := h.in_space
  have hcovers : size ≤ 4096 * heapTotalBlocks size := heapTotalBlocks_covers (by
    unfold blockAddress at hspace
    omega)
  intro hsame
  have hfree := ha.free b le_rfl (.inl rfl) ha.start_lt
  have htaken := ha.markedRun.not_free (k := b) le_rfl (by omega)
  unfold HeapTable.IsFree at hfree htaken
  rw [Kernel.heap_entries_eq, hsame] at htaken
  exact htaken hfree

/-- A request for nothing leaves everything as it is. -/
theorem Kzalloced.eq_of_zero {k k' : Kernel} {ptr : Nat} (h : Kzalloced k 0 ptr k') : k' = k := by
  obtain ⟨b, rfl, ha⟩ := h.block
  have hentries : k'.heap_entries = k.heap_entries := by
    funext i
    have hentry := ha.entries i
    have hnone : heapTotalBlocks 0 = 0 := by decide
    rw [hnone, if_neg (by omega)] at hentry
    exact hentry
  rw [h.eq, hentries]
  have hnot : ∀ a, ¬ (blockAddress b ≤ a ∧ a < blockAddress b + 0) := fun a => by omega
  simp only [hnot, if_false]

theorem RequestUndone.refl (process : Nat) (k : Kernel) : RequestUndone process k k :=
  ⟨rfl, rfl, fun _ => rfl⟩

/-- A request that fails behind `kzalloc` leaves the heap as `kzalloc` did. -/
theorem processMalloc_failed {process size : Nat} {k k' : Kernel}
    (h : processMalloc process size k = .ok (0, k')) :
    (k' = k ∧ k.NoRoom size) ∨ ∃ ptr k₁, ¬ k.NoRoom size ∧ Kzalloced k size ptr k₁ ∧
      k'.heap_entries = k₁.heap_entries ∧ (size = 0 → k' = k₁) := by
  obtain ⟨ptr, k₁, halloc, hrest⟩ := bind_eq_ok.mp h
  have hnull := kzalloc_null_iff halloc
  rcases kzalloc_spec k size _ _ halloc with ⟨rfl, rfl⟩ | ha
  · obtain ⟨-, rfl⟩ := pure_eq_ok.mp hrest
    exact .inl ⟨rfl, hnull.mp rfl⟩
  refine .inr ⟨ptr, k₁, fun hno => ha.ne_zero (hnull.mpr hno), ha, ?_⟩
  rw [if_neg ha.ne_zero] at hrest
  obtain ⟨p, k₂, hderef, hrest⟩ := bind_eq_ok.mp hrest
  obtain ⟨-, -, rfl⟩ := deref_eq_ok.mp hderef
  cases hindex : processFindFreeAllocationIndex p.allocations with
  | none =>
    rw [hindex] at hrest
    obtain ⟨-, rfl⟩ := pure_eq_ok.mp hrest
    exact ⟨rfl, fun _ => rfl⟩
  | some index =>
    rw [hindex] at hrest
    obtain ⟨t, k₂, hderef, hrest⟩ := bind_eq_ok.mp hrest
    obtain ⟨-, -, rfl⟩ := deref_eq_ok.mp hderef
    obtain ⟨res, k₃, hmap, hrest⟩ := bind_eq_ok.mp hrest
    split at hrest
    · next hneg =>
      obtain ⟨-, rfl⟩ := pure_eq_ok.mp hrest
      refine ⟨pagingMapTo_keepsHeap _ _ _ _ _ k₁ _ _ hmap, ?_⟩
      rintro rfl
      -- the empty range behind an allocation of nothing is mapped
      obtain ⟨b, rfl, hall⟩ := ha.block
      have hlt := hall.start_lt
      rw [Kernel.heap_total] at hlt
      have haligned := blockAddress_aligned b
      have hend : pagingAlignAddress (u32 ((blockAddress b + 0 : Nat) : Int)) = blockAddress b := by
        rw [Nat.add_zero, u32_natCast (by unfold blockAddress; omega)]
        exact if_neg (not_not_intro haligned)
      rw [hend, pagingMapTo_empty _ haligned haligned] at hmap
      obtain ⟨rfl, rfl⟩ := pure_eq_ok.mp hmap
      exact absurd hneg (by decide)
    · -- the call succeeds with the new pointer
      obtain ⟨_, k₄, -, hpure⟩ := bind_eq_ok.mp hrest
      exact absurd (pure_eq_ok.mp hpure).1 ha.ne_zero

/-- A request that fails is undone exactly when it had taken no memory: it is for nothing,
or the heap has no room. -/
theorem processMalloc_failed_iff {process size : Nat} {k k' : Kernel}
    (h : processMalloc process size k = .ok (0, k')) :
    RequestUndone process k k' ↔ size = 0 ∨ k.NoRoom size := by
  rcases processMalloc_failed h with ⟨rfl, hno⟩ | ⟨ptr, k₁, hroom, ha, hheap, hzero⟩
  · exact iff_of_true (.refl process k') (.inr hno)
  · by_cases hsize : size = 0
    · subst hsize
      rw [hzero rfl, ha.eq_of_zero]
      exact iff_of_true (.refl process k) (.inl rfl)
    · refine iff_of_false (fun hundone => ?_) (by simp [hsize, hroom])
      exact ha.entries_ne hsize (hheap.symm.trans hundone.heap)

/-- A process that has used all its slots, one for a block each, with the rest of the heap
as `free` says. -/
def Kernel.fullProcess (free : UInt8) : Kernel :=
  { Kernel.boot Disk.blank with
    heap_entries := fun i => if i = 0 ∨ 4096 ≤ i ∧ i < 5120 then 0x41 else free
    objs := fun p => if p = 0x1000000 then some (.process { Process.zero with
      allocations := fun i => ⟨0x2000000 + 4096 * i, 1⟩ }) else none }

/-- In a heap without a free block. -/
theorem processMalloc_failed_iff_no_room :
    ∃ k', processMalloc 0x1000000 16 (Kernel.fullProcess 0x41) = .ok (0, k') ∧
      RequestUndone 0x1000000 (Kernel.fullProcess 0x41) k' := by
  have hentry : ∀ i : Int, (Kernel.fullProcess 0x41).heap_entries i = 0x41 := fun i => ite_self _
  have hno : (Kernel.fullProcess 0x41).NoRoom 16 := by
    refine ⟨?_, .inr ?_⟩
    · rintro ⟨-, hfree⟩
      unfold HeapTable.IsFree at hfree
      rw [Kernel.heap_entries_eq, hentry] at hfree
      exact absurd hfree (by decide)
    · rintro ⟨b, -, hrun⟩
      rw [show heapTotalBlocks 16 = 1 by decide] at hrun
      have hfree := hrun b le_rfl (Nat.lt_succ_self b)
      unfold HeapTable.IsFree at hfree
      rw [Kernel.heap_entries_eq, hentry] at hfree
      exact absurd hfree (by decide)
  have hok : processMalloc 0x1000000 16 (Kernel.fullProcess 0x41) =
      .ok (0, Kernel.fullProcess 0x41) := bind_of_ok (kzalloc_of_noRoom hno)
  exact ⟨_, hok, (processMalloc_failed_iff hok).mpr (.inr hno)⟩

/-- In a heap with free blocks the one that was taken is not given back. -/
theorem processMalloc_full_table :
    ∃ k', processMalloc 0x1000000 16 (Kernel.fullProcess 0) = .ok (0, k') ∧
      ¬ RequestUndone 0x1000000 (Kernel.fullProcess 0) k' := by
  obtain ⟨ptr, k', hok, hq⟩ := Returns.of_checks (m := processMalloc 0x1000000 16)
    (s := Kernel.fullProcess 0) (q := fun ptr k' => decide (ptr = 0 ∧ k'.heap_entries 1 = 0x41))
    (by decide +kernel)
  obtain ⟨rfl, htaken⟩ := of_decide_eq_true hq
  refine ⟨k', hok, fun hundone => ?_⟩
  rw [hundone.heap] at htaken
  exact absurd htaken (by decide)

end PlumOS
