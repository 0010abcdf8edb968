import Mathlib.Data.List.Perm.Basic
import PlumOS.Lib.LoggedState
import PlumOS.Memory.HeapRuns
import PlumOS.Task.ProcessMemory

/-!
# The allocations of a process that ends

`process_terminate_allocations` with the calls of `kfree` it makes. Slot by slot the
recorded pointer is released and the slot cleared, but the loop makes no difference
between a recorded pointer and an empty slot: for the first empty slot it finds that
slot under the address 0 and releases 0.

## Main definitions

- `KfreeCall` — a call of `kfree`, with the table entries it touches
- `processTerminateAllocationsLogged` — the code, with its calls of `kfree`
- `HoldsAllocations`, `FreesAllocations` — before and after

## Main results

- `processTerminateAllocationsLogged_erases` — without the log it is the code
- `processTerminateAllocations_frees_iff`
-/

namespace PlumOS

open StateExcept

/-! ### The code with its calls of `kfree` -/

/-- A call of `kfree`: the pointer, and the indices of the heap table it touches. -/
structure KfreeCall where
  ptr : Nat
  touched : List Int

def kfreeCall (ptr : Nat) (k : Kernel) : KfreeCall := ⟨ptr, heapFreeTouched k.heap ptr⟩

/-- `processFree`, its call of `kfree` logged. -/
def processFreeLogged (process ptr : Nat) : StateT (Kernel × List KfreeCall) (Except Fault) PUnit := do
  let p ← silent (deref Obj.process? process)
  match processGetAllocationByAddress p.allocations ptr with
  | none => pure ⟨⟩
  | some index => do
    let allocation := p.allocations index
    let t ← silent (deref Obj.task? p.task)
    let res ← silent (pagingMapTo t.page_directory allocation.ptr allocation.ptr
      (pagingAlignAddress (u32 ((allocation.ptr + allocation.size : Nat) : Int))) 0x00)
    if res < 0 then pure ⟨⟩
    else do
      silent (modifyProcess process fun p =>
        { p with allocations := processAllocationUnjoin p.allocations ptr })
      logged (kfreeCall ptr) (kfree ptr)

def processTerminateAllocationsLoopLogged (process : Nat) :
    (fuel i : Nat) → StateT (Kernel × List KfreeCall) (Except Fault) PUnit
  | 0, _ => pure ⟨⟩
  | fuel + 1, i => do
    let p ← silent (deref Obj.process? process)
    processFreeLogged process (p.allocations i).ptr
    processTerminateAllocationsLoopLogged process fuel (i + 1)

def processTerminateAllocationsLogged (process : Nat) :
    StateT (Kernel × List KfreeCall) (Except Fault) PUnit :=
  processTerminateAllocationsLoopLogged process PLUMOS_MAX_PROGRAM_ALLOCATIONS 0

theorem processFreeLogged_erases (process ptr : Nat) :
    Erases (processFreeLogged process ptr) (processFree process ptr) := by
  apply Erases.bind (.silent _)
  intro p
  cases processGetAllocationByAddress p.allocations ptr with
  | none => exact .pure _
  | some index =>
    apply Erases.bind (.silent _)
    intro t
    apply Erases.bind (.silent _)
    intro res
    by_cases hres : res < 0
    · simp only [if_pos hres]
      exact .pure _
    · simp only [if_neg hres]
      apply Erases.bind (.silent _)
      intro _
      exact .logged _ _

theorem processTerminateAllocationsLoopLogged_erases (process : Nat) : ∀ fuel i,
    Erases (processTerminateAllocationsLoopLogged process fuel i)
      (processTerminateAllocationsLoop process fuel i) := by
  intro fuel
  induction fuel with
  | zero => exact fun _ => .pure _
  | succ fuel ih =>
    intro i
    apply Erases.bind (.silent _)
    intro p
    apply Erases.bind (processFreeLogged_erases _ _)
    exact fun _ => ih (i + 1)

/-- Without the log it is `process_terminate_allocations`. -/
theorem processTerminateAllocationsLogged_erases (process : Nat) :
    Erases (processTerminateAllocationsLogged process) (processTerminateAllocations process) :=
  processTerminateAllocationsLoopLogged_erases process _ _

theorem processFreeLogged_grows (process ptr : Nat) : LogGrows (processFreeLogged process ptr) := by
  apply LogGrows.bind (.silent _)
  intro p
  cases processGetAllocationByAddress p.allocations ptr with
  | none => exact .pure _
  | some index =>
    apply LogGrows.bind (.silent _)
    intro t
    apply LogGrows.bind (.silent _)
    intro res
    by_cases hres : res < 0
    · simp only [if_pos hres]
      exact .pure _
    · simp only [if_neg hres]
      apply LogGrows.bind (.silent _)
      intro _
      exact .logged _ _

theorem processTerminateAllocationsLoopLogged_grows (process : Nat) : ∀ fuel i,
    LogGrows (processTerminateAllocationsLoopLogged process fuel i) := by
  intro fuel
  induction fuel with
  | zero => exact fun _ => .pure _
  | succ fuel ih =>
    intro i
    apply LogGrows.bind (.silent _)
    intro p
    apply LogGrows.bind (processFreeLogged_grows _ _)
    exact fun _ => ih (i + 1)

/-! ### Before and after -/

/-- Block `index` of the heap lies in the memory of the allocation. -/
def InBlocks (a : ProcessAllocation) (index : Int) : Prop :=
  (a.ptr : Int) ≤ PLUMOS_HEAP_ADDRESS + PLUMOS_HEAP_BLOCK_SIZE * index ∧
    PLUMOS_HEAP_ADDRESS + PLUMOS_HEAP_BLOCK_SIZE * index <
      a.ptr + (PLUMOS_HEAP_BLOCK_SIZE * blocksOf a.size : Nat)

/-- The pointers of the slots in use. -/
def recordedPtrs (allocations : Nat → ProcessAllocation) : List Nat :=
  ((List.range PLUMOS_MAX_PROGRAM_ALLOCATIONS).map fun i => (allocations i).ptr).filter (· ≠ 0)

/-- A process whose slots are empty or hold distinct pointers to live allocations, of the
sizes that are recorded. -/
structure HoldsAllocations (process : Nat) (k : Kernel) (pr : Process) (t : Task)
    (ptrs : List Nat) : Prop where
  at_process : ∃ m, ProcessAt process k pr t ptrs m
  alive : ∀ i < 1024, (pr.allocations i).ptr ≠ 0 →
    k.Alive (pr.allocations i).ptr (blocksOf (pr.allocations i).size)
  apart : ∀ i < 1024, (pr.allocations i).ptr ≠ 0 → ApartFrom process pr ptrs (pr.allocations i).ptr
  distinct : ∀ i < 1024, ∀ j < 1024, (pr.allocations i).ptr ≠ 0 →
    (pr.allocations i).ptr = (pr.allocations j).ptr → i = j
  empty : ∀ i < 1024, (pr.allocations i).ptr = 0 → (pr.allocations i).size = 0

/-- `process_terminate_allocations` calls `kfree` once for each recorded pointer and for
nothing else. The table entries of the recorded allocations become free, no other entry
changes and none outside the table is touched. All slots are empty in the end. -/
def FreesAllocations (process : Nat) (k : Kernel) (pr : Process) : Prop :=
  ∃ k' calls pr', processTerminateAllocations process k = .ok (⟨⟩, k') ∧
    processTerminateAllocationsLogged process (k, []) = .ok (⟨⟩, k', calls) ∧
    (calls.map KfreeCall.ptr).Perm (recordedPtrs pr.allocations) ∧
    (∀ i < 1024, (pr.allocations i).ptr ≠ 0 → ∀ index, InBlocks (pr.allocations i) index →
      k'.heap_entries index = HEAP_BLOCK_TABLE_ENTRY_FREE) ∧
    (∀ index, (∀ i < 1024, (pr.allocations i).ptr ≠ 0 → ¬ InBlocks (pr.allocations i) index) →
      k'.heap_entries index = k.heap_entries index) ∧
    (∀ call ∈ calls, ∀ index ∈ call.touched, 0 ≤ index ∧ index < k.heap.table.total) ∧
    k'.objs process = some (.process pr') ∧
    ∀ i < 1024, pr'.allocations i = ⟨0, 0⟩

/-! ### One slot -/

/-- The table of allocations with its first `i` slots cleared. -/
def clearedSlots (allocations : Nat → ProcessAllocation) (i : Nat) : Nat → ProcessAllocation :=
  fun j => if j < i then ⟨0, 0⟩ else allocations j

/-- The heap entries after the release of the first `i` slots. -/
def releasedEntries (allocations : Nat → ProcessAllocation) (entries : Int → UInt8) (i : Nat)
    (index : Int) (entry : UInt8) : Prop :=
  (∀ j < i, InBlocks (allocations j) index → entry = HEAP_BLOCK_TABLE_ENTRY_FREE) ∧
    ((∀ j < i, ¬ InBlocks (allocations j) index) → entry = entries index)

/-- The state when the first `i` slots, all in use, have been released. -/
structure ReleasedSlots (process : Nat) (k : Kernel) (pr : Process) (t : Task) (ptrs : List Nat)
    (i : Nat) (s : Kernel × List KfreeCall) : Prop where
  at_process : ∃ m, ProcessAt process s.1 { pr with allocations := clearedSlots pr.allocations i }
    t ptrs m
  alive : ∀ j, i ≤ j → j < 1024 → (pr.allocations j).ptr ≠ 0 →
    s.1.Alive (pr.allocations j).ptr (blocksOf (pr.allocations j).size)
  calls : s.2.map KfreeCall.ptr = (List.range i).map fun j => (pr.allocations j).ptr
  entries : ∀ index, releasedEntries pr.allocations k.heap_entries i index (s.1.heap_entries index)
  touched : ∀ call ∈ s.2, ∀ index ∈ call.touched, 0 ≤ index ∧ index < (25600 : Int)

theorem inBlocks_iff {a : ProcessAllocation} {b : Nat} (h : a.ptr = blockAddress b) (index : Int) :
    InBlocks a index ↔ (b : Int) ≤ index ∧ index < (b : Int) + blocksOf a.size := by
  unfold InBlocks
  rw [h]
  simp only [blockAddress, PLUMOS_HEAP_ADDRESS, PLUMOS_HEAP_BLOCK_SIZE]
  omega

/-- The release of a live allocation touches its own entries. -/
theorem Kernel.Alive.freeTouched {k : Kernel} {p n : Nat} (h : k.Alive p n) {index : Int}
    (hindex : index ∈ heapFreeTouched k.heap p) : 0 ≤ index ∧ index < 25600 := by
  obtain ⟨b, rfl, hn, hin, hm⟩ := h
  unfold heapFreeTouched at hindex
  rw [heapAddressToBlock_blockAddress k (by omega)] at hindex
  have hchain := ((mem_heapMarkBlocksFreeTouched _ _ _).mp hindex).1
  have := (hm.chain_iff hn index).mp hchain
  omega

theorem clearedSlots_of_le (allocations : Nat → ProcessAllocation) {i j : Nat} (h : i ≤ j) :
    clearedSlots allocations i j = allocations j := if_neg (by omega)

theorem HoldsAllocations.releasedSlots {process : Nat} {k : Kernel} {pr : Process} {t : Task}
    {ptrs : List Nat} (h : HoldsAllocations process k pr t ptrs) :
    ReleasedSlots process k pr t ptrs 0 (k, []) where
  at_process := h.at_process
  alive := fun j _ hj hne => h.alive j hj hne
  calls := rfl
  entries := fun _ => ⟨fun _ hj => absurd hj (Nat.not_lt_zero _), fun _ => rfl⟩
  touched := by simp

section ReleasedSlots

variable {process : Nat} {k : Kernel} {pr : Process} {t : Task} {ptrs : List Nat}

/-- Of the slots from the first one on that is not cleared, only slot `i` has its pointer. -/
theorem HoldsAllocations.unjoin (h : HoldsAllocations process k pr t ptrs) {i : Nat} (hi : i < 1024)
    (hne : (pr.allocations i).ptr ≠ 0) :
    processAllocationUnjoin (clearedSlots pr.allocations i) (pr.allocations i).ptr =
      clearedSlots pr.allocations (i + 1) := by
  funext j
  unfold processAllocationUnjoin
  rcases lt_trichotomy j i with hj | rfl | hj
  · -- a cleared slot stays as it is
    have hzero : clearedSlots pr.allocations i j = ⟨0, 0⟩ := if_pos hj
    have hzero' : clearedSlots pr.allocations (i + 1) j = ⟨0, 0⟩ := if_pos (by omega)
    rw [hzero, hzero', ite_self]
  · rw [clearedSlots_of_le _ le_rfl, if_pos ⟨hi, rfl⟩]
    exact (if_pos (Nat.lt_succ_self j)).symm
  · rw [clearedSlots_of_le _ hj.le, clearedSlots_of_le _ (show i + 1 ≤ j from hj)]
    refine if_neg fun hc => ?_
    have := h.distinct i hi j hc.1 hne hc.2.symm
    omega

/-- `process_free` of the pointer in the next slot. -/
theorem ReleasedSlots.next (h : HoldsAllocations process k pr t ptrs) {i : Nat}
    {s : Kernel × List KfreeCall} (hs : ReleasedSlots process k pr t ptrs i s) (hi : i < 1024)
    (hne : (pr.allocations i).ptr ≠ 0) :
    Returns (processFreeLogged process (pr.allocations i).ptr) s fun _ s' =>
      ReleasedSlots process k pr t ptrs (i + 1) s' := by
  obtain ⟨k₀, calls⟩ := s
  obtain ⟨m, hat⟩ := hs.at_process
  obtain ⟨n, hn⟩ := hat.process_alive
  have halive := hs.alive i le_rfl hi hne
  obtain ⟨b, hb, -, hin, -⟩ := id halive
  refine Returns.bind (Returns.silent (deref_returns hn.ne_zero hat.process_eq rfl)) ?_
  rintro _ ⟨_, _⟩ ⟨⟨rfl, rfl⟩, rfl⟩
  dsimp only at hat halive ⊢
  cases hindex : processGetAllocationByAddress (clearedSlots pr.allocations i)
      (pr.allocations i).ptr with
  | none =>
    exact absurd (congrArg ProcessAllocation.ptr (clearedSlots_of_le pr.allocations le_rfl))
      (processGetAllocationByAddress_eq_none hindex hi)
  | some index =>
    obtain ⟨hlt, hptr⟩ := processGetAllocationByAddress_eq_some hindex
    -- the slot it finds is the next one
    have hle : i ≤ index := by
      by_contra hgt
      have hzero : clearedSlots pr.allocations i index = ⟨0, 0⟩ := if_pos (by omega)
      rw [hzero] at hptr
      exact hne hptr.symm
    rw [clearedSlots_of_le _ hle] at hptr
    obtain rfl := h.distinct i hi index hlt hne hptr.symm
    dsimp only
    rw [clearedSlots_of_le _ le_rfl]
    refine Returns.bind (Returns.silent (deref_returns hat.task_alive.ne_zero hat.task_eq rfl)) ?_
    rintro _ ⟨_, _⟩ ⟨⟨rfl, rfl⟩, rfl⟩
    have hmapRun := hat.space.mapRun hin 0x00
    rw [← hb] at hmapRun
    refine Returns.bind (Returns.silent hmapRun) ?_
    rintro _ ⟨k₁, _⟩ ⟨⟨rfl, hmaps, honly⟩, rfl⟩
    rw [if_neg (lt_irrefl 0)]
    have hpr₁ := (honly.objs _ hat.process_not_mem).trans hat.process_eq
    refine Returns.bind (Returns.silent (modifyProcess_returns _ hn.ne_zero hpr₁)) ?_
    rintro _ ⟨k₂, _⟩ ⟨hst, rfl⟩
    dsimp only at hst
    rw [h.unjoin hi hne] at hst
    obtain ⟨hat₂, hkeep⟩ := hat.changed hmaps honly hst rfl
    have halive₂ := hkeep _ _ halive
    refine (Returns.logged (kfree_spec halive₂)).mono ?_
    rintro _ ⟨k₃, calls⟩ ⟨hfreed, rfl⟩
    have hheap : k₂.heap_entries = k₀.heap_entries := hst.heap_entries.trans honly.heap_entries
    refine
      { at_process := ⟨_, hat₂.freed (h.apart i hi hne) hfreed⟩
        alive := fun j hj hj' hne' => ?_
        calls := ?_
        entries := fun idx => ?_
        touched := fun call hcall => ?_ }
    · refine (hfreed.keeps _ _ (hkeep _ _ (hs.alive j (by omega) hj' hne')) ?_).1
      intro hmem
      have := h.distinct j hj' i hi hne' (List.mem_singleton.mp hmem)
      omega
    · rw [List.map_append, hs.calls, List.range_succ, List.map_append]
      rfl
    · have hold := hs.entries idx
      have hnew := hfreed.entries b _ idx hb halive₂
      rw [hheap] at hnew
      by_cases hin : InBlocks (pr.allocations i) idx
      · rw [if_pos ((inBlocks_iff hb idx).mp hin)] at hnew
        exact ⟨fun _ _ _ => hnew, fun hno => absurd hin (hno i (Nat.lt_succ_self i))⟩
      · rw [if_neg fun hc => hin ((inBlocks_iff hb idx).mpr hc)] at hnew
        dsimp only at hold ⊢
        rw [hnew]
        refine ⟨fun j hj hjin => hold.1 j ?_ hjin, fun hno => hold.2 fun j hj => hno j (by omega)⟩
        rcases Nat.lt_succ_iff_lt_or_eq.mp hj with hj | rfl
        · exact hj
        · exact absurd hjin hin
    · rcases List.mem_append.mp hcall with hcall | hcall
      · exact hs.touched call hcall
      · rw [List.mem_singleton.mp hcall]
        exact fun idx hidx => halive₂.freeTouched hidx

/-- `process_free` for an empty slot: it finds an empty slot and releases the pointer 0. -/
theorem ReleasedSlots.empty (h : HoldsAllocations process k pr t ptrs) {i : Nat}
    {s : Kernel × List KfreeCall} (hs : ReleasedSlots process k pr t ptrs i s) (hi : i < 1024)
    (hzero : (pr.allocations i).ptr = 0) :
    Returns (processFreeLogged process 0) s fun _ s' => 0 ∈ s'.2.map KfreeCall.ptr := by
  obtain ⟨k₀, calls⟩ := s
  obtain ⟨m, hat⟩ := hs.at_process
  obtain ⟨n, hn⟩ := hat.process_alive
  refine Returns.bind (Returns.silent (deref_returns hn.ne_zero hat.process_eq rfl)) ?_
  rintro _ ⟨_, _⟩ ⟨⟨rfl, rfl⟩, rfl⟩
  dsimp only at hat ⊢
  cases hindex : processGetAllocationByAddress (clearedSlots pr.allocations i) 0 with
  | none =>
    have hslot := congrArg ProcessAllocation.ptr (clearedSlots_of_le pr.allocations (le_refl i))
    exact absurd (hslot.trans hzero) (processGetAllocationByAddress_eq_none hindex hi)
  | some index =>
    obtain ⟨hlt, hptr⟩ := processGetAllocationByAddress_eq_some hindex
    have hslot : clearedSlots pr.allocations i index = ⟨0, 0⟩ := by
      by_cases hle : index < i
      · exact if_pos hle
      · rw [clearedSlots_of_le _ (by omega)] at hptr ⊢
        have hsize := h.empty index hlt hptr
        cases ha : pr.allocations index
        rw [ha] at hptr hsize
        dsimp only at hptr hsize
        rw [hptr, hsize]
    dsimp only
    rw [hslot]
    refine Returns.bind (Returns.silent (deref_returns hat.task_alive.ne_zero hat.task_eq rfl)) ?_
    rintro _ ⟨_, _⟩ ⟨⟨rfl, rfl⟩, rfl⟩
    -- an empty range is mapped
    refine Returns.bind (Returns.silent (Q := fun res k' => res = 0 ∧ k₀ = k')
      ⟨0, k₀, rfl, rfl, rfl⟩) ?_
    rintro _ ⟨_, _⟩ ⟨⟨rfl, rfl⟩, rfl⟩
    rw [if_neg (lt_irrefl 0)]
    refine Returns.bind (Returns.silent (modifyProcess_returns _ hn.ne_zero hat.process_eq)) ?_
    rintro _ ⟨k₂, _⟩ ⟨-, rfl⟩
    refine (Returns.logged (Q := fun _ _ => True) ⟨⟨⟩, _, rfl, trivial⟩).mono ?_
    rintro _ ⟨k₃, calls⟩ ⟨-, rfl⟩
    dsimp only
    rw [List.map_append]
    exact List.mem_append_right _ (List.mem_singleton_self 0)

/-! ### All slots -/

/-- The slots in use, up to slot `i + fuel`. -/
theorem ReleasedSlots.loop (h : HoldsAllocations process k pr t ptrs) : ∀ (fuel : Nat) {i : Nat}
    {s : Kernel × List KfreeCall}, ReleasedSlots process k pr t ptrs i s → i + fuel ≤ 1024 →
    (∀ j < 1024, (pr.allocations j).ptr ≠ 0) →
    Returns (processTerminateAllocationsLoopLogged process fuel i) s fun _ s' =>
      ReleasedSlots process k pr t ptrs (i + fuel) s' := by
  intro fuel
  induction fuel with
  | zero => exact fun hs _ _ => .pure hs
  | succ fuel ih =>
    intro i s hs hle hall
    obtain ⟨m, hat⟩ := hs.at_process
    obtain ⟨n, hn⟩ := hat.process_alive
    refine Returns.bind (Returns.silent (deref_returns hn.ne_zero hat.process_eq rfl)) ?_
    rintro _ ⟨_, _⟩ ⟨⟨rfl, rfl⟩, rfl⟩
    dsimp only
    rw [clearedSlots_of_le _ le_rfl]
    refine Returns.bind (hs.next h (by omega) (hall i (by omega))) ?_
    intro _ s₁ hs₁
    rw [show i + (fuel + 1) = i + 1 + fuel by omega]
    exact ih hs₁ (by omega) hall

/-- The first empty slot: the pointer 0 is released. -/
theorem ReleasedSlots.loop_empty (h : HoldsAllocations process k pr t ptrs) : ∀ (fuel : Nat) {i : Nat}
    {s : Kernel × List KfreeCall}, ReleasedSlots process k pr t ptrs i s → i + fuel = 1024 →
    (∃ j, i ≤ j ∧ j < 1024 ∧ (pr.allocations j).ptr = 0) →
    Ensures (processTerminateAllocationsLoopLogged process fuel i) s fun _ s' =>
      0 ∈ s'.2.map KfreeCall.ptr := by
  intro fuel
  induction fuel with
  | zero =>
    rintro i s - hle ⟨j, hij, hj, -⟩
    omega
  | succ fuel ih =>
    rintro i s hs hle ⟨j, hij, hj, hzero⟩
    obtain ⟨m, hat⟩ := hs.at_process
    obtain ⟨n, hn⟩ := hat.process_alive
    have hread : Returns (deref Obj.process? process) s.1 _ :=
      deref_returns hn.ne_zero hat.process_eq rfl
    refine Ensures.bind hread.silent.ensures ?_
    rintro _ ⟨_, _⟩ ⟨⟨rfl, rfl⟩, rfl⟩
    dsimp only
    rw [clearedSlots_of_le _ le_rfl]
    by_cases hi : (pr.allocations i).ptr = 0
    · rw [hi]
      refine Ensures.bind (hs.empty h (by omega) hi).ensures ?_
      intro _ s₁ hmem
      refine (processTerminateAllocationsLoopLogged_grows process fuel (i + 1) s₁).mono ?_
      intro _ s' hprefix
      exact List.map_subset _ hprefix.subset hmem
    · refine Ensures.bind (hs.next h (by omega) hi).ensures ?_
      intro _ s₁ hs₁
      refine ih hs₁ (by omega) ⟨j, ?_, hj, hzero⟩
      rcases Nat.lt_or_ge i j with hlt | hge
      · exact hlt
      · obtain rfl : i = j := by omega
        exact absurd hzero hi

/-- A process with an empty slot: the pointer 0 is released. -/
theorem HoldsAllocations.frees_zero (h : HoldsAllocations process k pr t ptrs) {i : Nat}
    (hi : i < 1024) (hzero : (pr.allocations i).ptr = 0) {k' : Kernel} {calls : List KfreeCall}
    (hrun : processTerminateAllocationsLogged process (k, []) = .ok (⟨⟩, k', calls)) :
    0 ∈ calls.map KfreeCall.ptr :=
  h.releasedSlots.loop_empty h 1024 rfl ⟨i, Nat.zero_le i, hi, hzero⟩ _ _ hrun

theorem zero_not_mem_recordedPtrs (allocations : Nat → ProcessAllocation) :
    0 ∉ recordedPtrs allocations := by
  intro hmem
  have hne := List.of_mem_filter hmem
  simp at hne

theorem HoldsAllocations.not_frees (h : HoldsAllocations process k pr t ptrs) {i : Nat}
    (hi : i < 1024) (hzero : (pr.allocations i).ptr = 0) : ¬ FreesAllocations process k pr := by
  rintro ⟨k', calls, -, -, hrun, hperm, -⟩
  exact zero_not_mem_recordedPtrs _ (hperm.subset (h.frees_zero hi hzero hrun))

theorem HoldsAllocations.frees (h : HoldsAllocations process k pr t ptrs)
    (hall : ∀ i < 1024, (pr.allocations i).ptr ≠ 0) : FreesAllocations process k pr := by
  obtain ⟨_, ⟨k', calls⟩, hrun, hs⟩ := h.releasedSlots.loop h 1024 le_rfl hall
  obtain ⟨m, hat⟩ := hs.at_process
  refine ⟨k', calls, _, (processTerminateAllocationsLogged_erases process).ok hrun, hrun, ?_,
    fun i hi _ index hin => (hs.entries index).1 i hi hin,
    fun index hno => (hs.entries index).2 fun i hi => hno i hi (hall i hi),
    hs.touched, hat.process_eq, fun i hi => if_pos hi⟩
  have hkeep : recordedPtrs pr.allocations =
      (List.range PLUMOS_MAX_PROGRAM_ALLOCATIONS).map fun i => (pr.allocations i).ptr := by
    refine List.filter_eq_self.mpr fun p hp => ?_
    obtain ⟨i, hi, rfl⟩ := List.mem_map.mp hp
    exact decide_eq_true (hall i (List.mem_range.mp hi))
  rw [hkeep]
  exact List.Perm.of_eq hs.calls

end ReleasedSlots

/-- A process that never asked for memory. -/
theorem FreshProcess.holdsAllocations {process : Nat} {k : Kernel} {pr : Process} {t : Task}
    {ptrs : List Nat} {base : Nat → Nat} (h : FreshProcess process k pr t ptrs base)
    (hempty : pr.allocations = fun _ => ⟨0, 0⟩) : HoldsAllocations process k pr t ptrs where
  at_process := ⟨base, h.process_eq, h.process_alive, h.task_eq, h.task_alive, h.space⟩
  alive := fun i _ hne => absurd (by rw [hempty]) hne
  apart := fun i _ hne => absurd (by rw [hempty]) hne
  distinct := fun i _ j _ hne => absurd (by rw [hempty]) hne
  empty := fun i _ _ => by rw [hempty]

end PlumOS
