import Mathlib.Data.Finset.Card
import PlumOS.Lib.LoggedState
import PlumOS.Memory.HeapRequest
import PlumOS.Memory.PageTable

/-!
# An address space given back

`paging_new_4gb` takes 1026 blocks, wherever they are free, and `paging_free_4gb` finds
all of them again in the directory, however the pages were mapped in between.

## Main definitions

- `HeapTable.ZeroFree` — the entry of a free block is 0
- `TookBlocks` — some free blocks were taken, one at a time
- `MappingCall` — a call that changes entries of page tables
- `pagingFree4gbLogged` — the code, with its calls of `kfree`

## Main results

- `heap_run_zeroFree` — no sequence of heap calls leaves another entry in a free block
- `pagingNew4gb_takes` — an address space takes 1026 blocks
- `pagingFree4gb_restores`
-/

namespace PlumOS

open StateExcept LabelledRun

/-! ### Free entries -/

/-- The entry of every free block is 0. -/
def HeapTable.ZeroFree (t : HeapTable) : Prop :=
  ∀ i : Int, 0 ≤ i → i < t.total → t.IsFree i → t.entries i = HEAP_BLOCK_TABLE_ENTRY_FREE

theorem HeapTable.ZeroFree.allocated {t t' : HeapTable} {b n : Nat} (h : t.ZeroFree)
    (ha : Allocated t t' b n) : t'.ZeroFree := by
  intro i h₀ hi hfree
  unfold HeapTable.IsFree at hfree
  rw [ha.total] at hi
  rw [ha.entries] at hfree ⊢
  split at hfree
  · exact absurd hfree (runEntry_taken _ _)
  · next hout =>
    rw [if_neg hout]
    exact h i h₀ hi hfree

theorem HeapTable.ZeroFree.freed {t : HeapTable} (h : t.ZeroFree) (b : Int) :
    (heapMarkBlocksFree t b).ZeroFree := by
  intro i h₀ hi hfree
  rcases heapMarkBlocksFree_cases t b i with hzero | hsame
  · exact hzero
  · unfold HeapTable.IsFree at hfree
    rw [hsame] at hfree ⊢
    exact h i h₀ hi hfree

theorem boot_zeroFree (disk : Disk) : (Kernel.boot disk).heap.table.ZeroFree :=
  fun _ _ _ _ => rfl

/-- In every run of requests and releases the entries of the free blocks stay 0. -/
theorem heap_run_zeroFree {s : HeapRun} {tr : List (HeapCall × HeapRun)}
    (h : s.heap.table.ZeroFree) (hrun : Run HeapStep s tr) :
    AllStates (fun s => s.heap.table.ZeroFree) s tr := by
  refine hrun.invariant (C := fun _ _ => True) ?_ h (allSteps_of_forall (fun _ _ => trivial) _ _)
  intro s c s' h _ hstep
  cases hstep with
  | malloc h₁ h₂ hm =>
    rcases heapMallocBlcoks_cases hm with ⟨_, _, rfl⟩ | ⟨b, _, _, _, ha⟩
    · exact h
    · exact h.allocated ha
  | free hmem => exact h.freed _

/-! ### Blocks that are taken one at a time -/

/-- The free blocks of the kernel heap. -/
def Kernel.freeBlocks (k : Kernel) : Finset Nat :=
  (Finset.range 25600).filter fun b : Nat => k.heap.table.IsFree (b : Int)

theorem Kernel.mem_freeBlocks {k : Kernel} {b : Nat} :
    b ∈ k.freeBlocks ↔ b < 25600 ∧ k.heap.table.IsFree (b : Int) := by
  unfold Kernel.freeBlocks
  rw [Finset.mem_filter, Finset.mem_range]

theorem Kernel.freeBlocks_congr {k k' : Kernel} (h : k'.heap_entries = k.heap_entries) :
    k'.freeBlocks = k.freeBlocks := by
  ext b
  rw [Kernel.mem_freeBlocks, Kernel.mem_freeBlocks]
  unfold HeapTable.IsFree
  rw [Kernel.heap_entries_eq, Kernel.heap_entries_eq, h]

/-- The entries with the blocks of `taken` taken one at a time. -/
def takenEntries (entries : Int → UInt8) (taken : Finset Nat) : Int → UInt8 := fun i =>
  if 0 ≤ i ∧ i.toNat ∈ taken then runEntry 1 0 else entries i

/-- `k'` is `k` after `n` of its free blocks were taken one at a time. -/
def TookBlocks (k : Kernel) (n : Nat) (k' : Kernel) : Prop :=
  ∃ taken : Finset Nat, taken.card = n ∧ taken ⊆ k.freeBlocks ∧
    k'.heap_entries = takenEntries k.heap_entries taken

theorem takenEntries_nat (entries : Int → UInt8) (taken : Finset Nat) (b : Nat) :
    takenEntries entries taken b = if b ∈ taken then runEntry 1 0 else entries b := by
  simp [takenEntries]

theorem takenEntries_union (entries : Int → UInt8) (taken taken' : Finset Nat) :
    takenEntries (takenEntries entries taken) taken' = takenEntries entries (taken ∪ taken') := by
  funext i
  unfold takenEntries
  by_cases h : 0 ≤ i ∧ i.toNat ∈ taken
  · rw [if_pos h, ite_self, if_pos ⟨h.1, Finset.mem_union_left _ h.2⟩]
  · by_cases h' : 0 ≤ i ∧ i.toNat ∈ taken'
    · rw [if_pos h', if_pos ⟨h'.1, Finset.mem_union_right _ h'.2⟩]
    · rw [if_neg h', if_neg h, if_neg fun hc => ?_]
      rcases Finset.mem_union.mp hc.2 with hmem | hmem
      · exact h ⟨hc.1, hmem⟩
      · exact h' ⟨hc.1, hmem⟩

theorem freeBlocks_of_taken {k k' : Kernel} {taken : Finset Nat}
    (h : k'.heap_entries = takenEntries k.heap_entries taken) :
    k'.freeBlocks = k.freeBlocks \ taken := by
  ext b
  rw [Finset.mem_sdiff, Kernel.mem_freeBlocks, Kernel.mem_freeBlocks]
  unfold HeapTable.IsFree
  rw [Kernel.heap_entries_eq, Kernel.heap_entries_eq, h, takenEntries_nat]
  by_cases hb : b ∈ taken
  · rw [if_pos hb]
    exact ⟨fun hc => absurd hc.2 (runEntry_taken 1 0), fun hc => absurd hb hc.2⟩
  · rw [if_neg hb, and_iff_left hb]

theorem TookBlocks.refl (k : Kernel) : TookBlocks k 0 k := by
  refine ⟨∅, Finset.card_empty, Finset.empty_subset _, ?_⟩
  funext i
  simp [takenEntries]

theorem TookBlocks.trans {k₁ k₂ k₃ : Kernel} {n m : Nat} (h : TookBlocks k₁ n k₂)
    (h' : TookBlocks k₂ m k₃) : TookBlocks k₁ (n + m) k₃ := by
  obtain ⟨taken, rfl, hsub, he⟩ := h
  obtain ⟨taken', rfl, hsub', he'⟩ := h'
  rw [freeBlocks_of_taken he] at hsub'
  have hdisjoint : Disjoint taken taken' :=
    Finset.disjoint_left.mpr fun b hb hb' => (Finset.mem_sdiff.mp (hsub' hb')).2 hb
  refine ⟨taken ∪ taken', Finset.card_union_of_disjoint hdisjoint, ?_, ?_⟩
  · exact Finset.union_subset hsub fun b hb => (Finset.mem_sdiff.mp (hsub' hb)).1
  · rw [he', he, takenEntries_union]

theorem TookBlocks.congr {k k' k'' : Kernel} {n : Nat} (h : TookBlocks k n k')
    (he : k''.heap_entries = k'.heap_entries) : TookBlocks k n k'' := by
  obtain ⟨taken, hn, hsub, he'⟩ := h
  exact ⟨taken, hn, hsub, he.trans he'⟩

theorem TookBlocks.card {k k' : Kernel} {n : Nat} (h : TookBlocks k n k') :
    k'.freeBlocks.card = k.freeBlocks.card - n := by
  obtain ⟨taken, rfl, hsub, he⟩ := h
  rw [freeBlocks_of_taken he, Finset.card_sdiff_of_subset hsub]

/-- With a free block anywhere, the lowest of them is taken for at most one block. -/
theorem kzalloc_takes {k : Kernel} {size : Nat} (h : 0 < k.freeBlocks.card) (h₁ : 1 ≤ size)
    (h₂ : size ≤ 4096) :
    Returns (kzalloc size) k fun ptr k' => ∃ b, ptr = blockAddress b ∧ b ∈ k.freeBlocks ∧
      k.heap.table.LowestRun 1 b ∧ Kzalloced k size ptr k' ∧
      k'.heap_entries = takenEntries k.heap_entries {b} := by
  obtain ⟨c, hc⟩ := Finset.card_pos.mp h
  obtain ⟨hc₁, hc₂⟩ := Kernel.mem_freeBlocks.mp hc
  have hone : heapTotalBlocks size = 1 := by
    rw [heapTotalBlocks_eq (by omega)]
    unfold blocksOf
    omega
  have hrun : k.heap.table.HasRun 1 := by
    refine ⟨c, by rw [Kernel.heap_total]; omega, fun j h₁ h₂ => ?_⟩
    obtain rfl : j = c := by omega
    exact hc₂
  obtain ⟨b, heap', hlow, hok, -, ha⟩ := heapMallocBlcoks_lowest Nat.zero_lt_one hrun
  have hlt := ha.start_lt
  rw [Kernel.heap_total] at hlt
  have hptr : heapBlockToAddress k.heap b = blockAddress b := by
    unfold heapBlockToAddress blockAddress
    simp only [Kernel.heap_saddr, PLUMOS_HEAP_BLOCK_SIZE]
    rw [u32_of_range (by omega) (by omega)]
    omega
  rw [hptr, ← hone] at hok
  have hfree := ha.free b le_rfl (Or.inl rfl) ha.start_lt
  rw [← hone] at ha
  refine (kzalloc_of_ok hok ha (by unfold blockAddress; omega)).mono ?_
  rintro _ k' ⟨rfl, hz, he⟩
  refine ⟨b, rfl, Kernel.mem_freeBlocks.mpr ⟨hlt, hfree⟩, hlow, hz, ?_⟩
  funext i
  rw [he, ha.entries, hone]
  unfold takenEntries
  by_cases hi : (b : Int) ≤ i ∧ i < (b : Int) + (1 : Nat)
  · rw [if_pos hi, if_pos ⟨by omega, Finset.mem_singleton.mpr (by omega)⟩,
      show (i - b).toNat = 0 by omega]
  · rw [if_neg hi, if_neg]
    · rfl
    · rintro ⟨h₀, hmem⟩
      rw [Finset.mem_singleton] at hmem
      omega

/-- With a free block anywhere, one of them is taken for a structure of at most one
block. -/
theorem kzallocObj_takes {k : Kernel} {size : Nat} {z : Obj} (h : 0 < k.freeBlocks.card)
    (h₁ : 1 ≤ size) (h₂ : size ≤ 4096) :
    Returns (kzallocObj size z) k fun ptr k' => TookBlocks k 1 k' ∧ k'.Alive ptr 1 ∧
      (∀ n, ¬ k.Alive ptr n) ∧ k'.objs ptr = some z ∧ Keeps [] k k' := by
  have hstored : Returns (kzallocObj size z) k fun ptr k' => ptr ≠ 0 ∧ TookBlocks k 1 k' := by
    refine Returns.bind (kzalloc_takes h h₁ h₂) ?_
    rintro _ k₁ ⟨b, rfl, hmem, -, hz, he⟩
    rw [if_neg hz.ne_zero]
    refine Returns.bind (storeObj_spec _ _ _) ?_
    intro _ k₂ hst
    exact Returns.pure ⟨hz.ne_zero, {b}, Finset.card_singleton b,
      Finset.singleton_subset_iff.mpr hmem, hst.heap_entries.trans he⟩
  refine (hstored.and_ensures (kzallocObj_small h₁ h₂)).mono ?_
  rintro ptr k' ⟨⟨hne, htook⟩, hsmall⟩
  obtain ⟨hal, hnew, ho, hkeep, -⟩ := hsmall.resolve_left fun hzero => hne hzero.1
  exact ⟨htook, hal, hnew, ho, hkeep⟩

private theorem pagingNew4gbLoop_takes {flags directory : Nat} :
    ∀ (fuel i offset : Nat) (k : Kernel) (w : Nat → Nat), fuel ≤ k.freeBlocks.card →
      k.Alive directory 1 → k.objs directory = some (.words w) →
      Returns (pagingNew4gbLoop flags directory fuel i offset) k fun _ k' =>
        TookBlocks k fuel k' := by
  intro fuel
  induction fuel with
  | zero =>
    intro i offset k w _ _ _
    exact Returns.pure (TookBlocks.refl k)
  | succ fuel ih =>
    intro i offset k w hcard ha hw
    refine Returns.bind (kzallocObj_takes (by omega) (by omega) le_rfl) ?_
    rintro entry k₁ ⟨htook₁, hal, hnew, ho₁, hkeep₁⟩
    have hne_dir : directory ≠ entry := fun h => hnew 1 (h ▸ ha)
    obtain ⟨hda₁, hdo₁⟩ := hkeep₁ directory 1 ha (by simp)
    refine Returns.bind (deref_returns hal.ne_zero ho₁ rfl) ?_
    rintro _ _ ⟨rfl, rfl⟩
    refine Returns.bind (storeObj_spec _ _ _) ?_
    intro _ k₂ hst₂
    refine Returns.bind (deref_returns ha.ne_zero
      ((hst₂.other _ hne_dir).trans (hdo₁.trans hw)) rfl) ?_
    rintro _ _ ⟨rfl, rfl⟩
    refine Returns.bind (storeObj_spec _ _ _) ?_
    intro _ k₃ hst₃
    have htook₃ := htook₁.congr (hst₃.heap_entries.trans hst₂.heap_entries)
    have hcard₃ := htook₃.card
    refine (ih (i + 1) _ k₃ _ (by omega) (hst₃.alive (hst₂.alive hda₁)) hst₃.self).mono ?_
    intro _ k₄ htook₄
    rw [Nat.add_comm]
    exact htook₃.trans htook₄

/-- With 1026 free blocks anywhere an address space can be made, of 1026 of them. -/
theorem pagingNew4gb_takes {k : Kernel} (flags : Nat) (h : 1026 ≤ k.freeBlocks.card) :
    Returns (pagingNew4gb flags) k fun _ k' => TookBlocks k 1026 k' := by
  refine Returns.bind (kzallocObj_takes (by omega) (by omega) le_rfl) ?_
  rintro directory k₁ ⟨htook₁, hal₁, -, ho₁, -⟩
  have hcard₁ := htook₁.card
  refine Returns.bind (pagingNew4gbLoop_takes 1024 0 0 k₁ _ (by omega) hal₁ ho₁) ?_
  intro _ k₂ htook₂
  have hcard₂ := htook₂.card
  refine Returns.bind (kzallocObj_takes (by omega) (by omega) (by omega)) ?_
  rintro chunk k₃ ⟨htook₃, hal₃, -, ho₃, -⟩
  refine Returns.bind (deref_returns hal₃.ne_zero ho₃ rfl) ?_
  rintro _ _ ⟨rfl, rfl⟩
  refine Returns.bind (storeObj_spec _ _ _) ?_
  intro _ k₄ hst₄
  exact Returns.pure (((htook₁.trans htook₂).trans htook₃).congr hst₄.heap_entries)

/-- The blocks that were taken are those of the address space. -/
theorem TookBlocks.mem_iff {k k' : Kernel} {ptrs : List Nat} (h : TookBlocks k ptrs.length k')
    (hnodup : ptrs.Nodup) (ha : ∀ p ∈ ptrs, k'.Alive p 1) (hnew : ∀ p ∈ ptrs, ∀ n, ¬ k.Alive p n)
    (b : Nat) : blockAddress b ∈ ptrs ↔ b ∈ k.freeBlocks ∧ b ∉ k'.freeBlocks := by
  obtain ⟨taken, hn, hsub, he⟩ := h
  have hinj : Function.Injective blockAddress := fun _ _ h => blockAddress_inj.mp h
  have hptrs : ptrs.toFinset ⊆ taken.image blockAddress := by
    intro p hp
    rw [List.mem_toFinset] at hp
    obtain ⟨c, rfl, -, hin, hm⟩ := ha p hp
    by_contra hc
    -- a block that was not taken was alive before
    refine hnew _ hp 1 ⟨c, rfl, Nat.zero_lt_one, hin, fun j hj => ?_⟩
    have hold := hm j hj
    rw [Kernel.heap_entries_eq] at hold ⊢
    rw [he, takenEntries_nat, if_neg] at hold
    · exact hold
    · obtain rfl : j = 0 := by omega
      exact fun hmem => hc (Finset.mem_image_of_mem _ hmem)
  have hcard : (taken.image blockAddress).card ≤ ptrs.toFinset.card := by
    rw [Finset.card_image_of_injective _ hinj, List.toFinset_card_of_nodup hnodup, hn]
  have heq := Finset.eq_of_subset_of_card_le hptrs hcard
  rw [← List.mem_toFinset, heq, hinj.mem_finset_image, freeBlocks_of_taken he, Finset.mem_sdiff,
    not_and_not_right]
  exact ⟨fun hb => ⟨hsub hb, fun _ => hb⟩, fun hb => hb.2 hb.1⟩

/-! ### Calls that map pages -/

/-- A call that changes entries in the page tables of `chunk`. -/
inductive MappingCall
  | set (chunk : Nat) (virt val : UInt32)
  | map (chunk : Nat) (virt phys flags : UInt32)
  | mapTo (chunk : Nat) (virt phys phys_end flags : UInt32)

def MappingCall.chunk : MappingCall → Nat
  | .set chunk _ _ | .map chunk _ _ _ | .mapTo chunk _ _ _ _ => chunk

def MappingCall.run : MappingCall → KM Int
  | .set chunk virt val => do
    let directory ← deref Obj.chunk? chunk
    pagingSet directory virt.toNat val.toNat
  | .map chunk virt phys flags => pagingMap chunk virt.toNat phys.toNat flags.toNat
  | .mapTo chunk virt phys phys_end flags =>
    pagingMapTo chunk virt.toNat phys.toNat phys_end.toNat flags.toNat

/-- The calls one after the other, whatever they return. -/
def runMappings : List MappingCall → KM PUnit
  | [] => pure ⟨⟩
  | call :: calls => do
    let _ ← call.run
    runMappings calls

/-- The address spaces of the chunks own disjoint blocks. -/
structure SpacesApart (k : Kernel) (chunks : List Nat) (owned : Nat → List Nat) : Prop where
  disjoint : ∀ c ∈ chunks, ∀ c' ∈ chunks, c ≠ c' → (owned c).Disjoint (owned c')
  maps : ∀ c ∈ chunks, ∃ m, MapsSpace k c (owned c) m

/-- A change in one address space leaves the others alone. -/
theorem SpacesApart.changed {k k' : Kernel} {chunks : List Nat} {owned : Nat → List Nat}
    (h : SpacesApart k chunks owned) {c : Nat} (hc : c ∈ chunks) {m : Nat → Nat}
    (hm : MapsSpace k' c (owned c) m) (honly : OnlyIn (owned c) k k') :
    SpacesApart k' chunks owned where
  disjoint := h.disjoint
  maps := by
    intro c' hc'
    rcases eq_or_ne c' c with rfl | hne
    · exact ⟨m, hm⟩
    · obtain ⟨m', hm'⟩ := h.maps c' hc'
      refine ⟨m', hm'.congr fun p hp => ⟨honly.alive (hm'.owns.alive p hp), ?_⟩⟩
      exact honly.objs p fun hmem => h.disjoint c' hc' c hc hne hp hmem

/-- One call returns, and it takes and releases no block. -/
theorem MappingCall.run_spec {k : Kernel} {chunks : List Nat} {owned : Nat → List Nat}
    (h : SpacesApart k chunks owned) (call : MappingCall) (hcall : call.chunk ∈ chunks) :
    Returns call.run k fun _ k' =>
      SpacesApart k' chunks owned ∧ k'.heap_entries = k.heap_entries := by
  obtain ⟨m, hm⟩ := h.maps _ hcall
  cases call with
  | set chunk virt val =>
    obtain ⟨d, -, hd, -⟩ := id hm
    refine Returns.bind (deref_returns (hm.owns.alive _ hm.owns.chunk_mem).ne_zero hd rfl) ?_
    rintro _ _ ⟨rfl, rfl⟩
    by_cases hv : virt.toNat % 4096 = 0
    · refine (hm.set hd hv virt.toNat_lt val.toNat).mono ?_
      rintro _ k' ⟨-, -, hm', honly⟩
      exact ⟨h.changed hcall hm' honly, honly.heap_entries⟩
    · have hrefused : pagingSet d virt.toNat val.toNat = pure (-EINVARG) := by
        have hodd : (!pagingIsAligned virt.toNat) = true := by
          simp [pagingIsAligned, PAGING_PAGE_SIZE, hv]
        exact if_pos hodd
      rw [hrefused]
      exact Returns.pure ⟨h, rfl⟩
  | map chunk virt phys flags =>
    by_cases hbad : virt.toNat % PAGING_PAGE_SIZE ≠ 0 ∨ phys.toNat % PAGING_PAGE_SIZE ≠ 0
    · exact ⟨_, _, congrFun (if_pos hbad) k, h, rfl⟩
    · simp only [PAGING_PAGE_SIZE] at hbad
      refine (hm.map (by omega) virt.toNat_lt (by omega) flags.toNat).mono ?_
      rintro _ k' ⟨-, hm', honly⟩
      exact ⟨h.changed hcall hm' honly, honly.heap_entries⟩
  | mapTo chunk virt phys phys_end flags =>
    by_cases hbad : virt.toNat % PAGING_PAGE_SIZE ≠ 0 ∨ phys.toNat % PAGING_PAGE_SIZE ≠ 0 ∨
        phys_end.toNat % PAGING_PAGE_SIZE ≠ 0 ∨ phys_end.toNat < phys.toNat
    · have hrefused : pagingMapTo chunk virt.toNat phys.toNat phys_end.toNat flags.toNat =
          pure (-EINVARG) := by
        unfold pagingMapTo
        split_ifs <;> first | rfl | omega
      exact ⟨_, _, congrFun hrefused k, h, rfl⟩
    · simp only [PAGING_PAGE_SIZE] at hbad
      refine (hm.mapTo (by omega) virt.toNat_lt (by omega) (by omega) (by omega)
        phys_end.toNat_lt flags.toNat).mono ?_
      rintro _ k' ⟨-, hm', honly⟩
      exact ⟨h.changed hcall hm' honly, honly.heap_entries⟩

/-- Any sequence of calls. -/
theorem runMappings_spec {chunks : List Nat} {owned : Nat → List Nat} :
    ∀ (calls : List MappingCall) {k : Kernel}, SpacesApart k chunks owned →
      (∀ call ∈ calls, call.chunk ∈ chunks) →
      Returns (runMappings calls) k fun _ k' =>
        SpacesApart k' chunks owned ∧ k'.heap_entries = k.heap_entries := by
  intro calls
  induction calls with
  | nil =>
    intro k h _
    exact Returns.pure ⟨h, rfl⟩
  | cons call calls ih =>
    intro k h hcalls
    refine Returns.bind (call.run_spec h (hcalls call List.mem_cons_self)) ?_
    rintro _ k₁ ⟨h₁, he₁⟩
    refine (ih h₁ fun c hc => hcalls c (List.mem_cons_of_mem _ hc)).mono ?_
    rintro _ k₂ ⟨h₂, he₂⟩
    exact ⟨h₂, he₂.trans he₁⟩

/-! ### The heap table afterwards -/

/-- Releasing the blocks that were taken leaves the entries that were there. -/
theorem TookBlocks.restored {k k' : Kernel} {n : Nat} {ptrs : List Nat}
    (hzero : k.heap.table.ZeroFree) (h : TookBlocks k n k')
    (hptrs : ∀ b, blockAddress b ∈ ptrs ↔ b ∈ k.freeBlocks ∧ b ∉ k'.freeBlocks) :
    releasedEntriesOf k'.heap_entries ptrs = k.heap_entries := by
  obtain ⟨taken, -, hsub, he⟩ := h
  rw [freeBlocks_of_taken he] at hptrs
  have hmem : ∀ b, blockAddress b ∈ ptrs ↔ b ∈ taken := by
    intro b
    rw [hptrs, Finset.mem_sdiff, not_and_not_right]
    exact ⟨fun hb => hb.2 hb.1, fun hb => ⟨hsub hb, fun _ => hb⟩⟩
  funext i
  unfold releasedEntriesOf
  simp only [hmem, he]
  by_cases hi : 0 ≤ i ∧ i.toNat ∈ taken
  · rw [if_pos hi]
    obtain ⟨hlt, hfree⟩ := Kernel.mem_freeBlocks.mp (hsub hi.2)
    rw [show ((i.toNat : Nat) : Int) = i by omega] at hfree
    exact (hzero i hi.1 (by rw [Kernel.heap_total]; omega) hfree).symm
  · rw [if_neg hi]
    exact if_neg hi

/-- The address spaces that were there before and the new one own disjoint blocks. -/
theorem SpacesApart.cons {k k' : Kernel} {chunks : List Nat} {owned : Nat → List Nat}
    (h : SpacesApart k chunks owned) (hkeep : Keeps [] k k') {chunk : Nat} {ptrs : List Nat}
    {m : Nat → Nat} (hm : MapsSpace k' chunk ptrs m) (hnew : ∀ p ∈ ptrs, ∀ n, ¬ k.Alive p n) :
    SpacesApart k' (chunk :: chunks) (Function.update owned chunk ptrs) := by
  have hold : ∀ c ∈ chunks, (owned c).Disjoint ptrs ∧ c ≠ chunk := by
    intro c hc
    obtain ⟨m', hm'⟩ := h.maps c hc
    have hdisjoint : (owned c).Disjoint ptrs := fun p hp hmem =>
      hnew p hmem 1 (hm'.owns.alive p hp)
    exact ⟨hdisjoint, fun heq => hdisjoint hm'.owns.chunk_mem (heq ▸ hm.owns.chunk_mem)⟩
  constructor
  · intro c hc c' hc' hne
    rcases List.mem_cons.mp hc with heq | hin
    · subst heq
      have hin' := (List.mem_cons.mp hc').resolve_left hne.symm
      rw [Function.update_self, Function.update_of_ne hne.symm]
      exact (hold c' hin').1.symm
    · rw [Function.update_of_ne (hold c hin).2]
      rcases List.mem_cons.mp hc' with heq | hin'
      · rw [heq, Function.update_self]
        exact (hold c hin).1
      · rw [Function.update_of_ne (hold c' hin').2]
        exact h.disjoint c hin c' hin' hne
  · intro c hc
    rcases List.mem_cons.mp hc with rfl | hc
    · rw [Function.update_self]
      exact ⟨m, hm⟩
    · rw [Function.update_of_ne (hold c hc).2]
      obtain ⟨m', hm'⟩ := h.maps c hc
      exact ⟨m', hm'.congr fun p hp => hkeep p 1 (hm'.owns.alive p hp) (by simp)⟩

/-- From any table whose free entries are 0, with 1026 blocks or more free anywhere:
`paging_new_4gb` returns. Whatever is mapped then, in the new address space and in
others, `paging_free_4gb` releases each of the 1026 blocks that were taken once, and the
heap table is what it was. -/
theorem pagingFree4gb_restores {k : Kernel} (hzero : k.heap.table.ZeroFree)
    (hfree : 1026 ≤ k.freeBlocks.card) {flags : Nat} (hflags : flags < 256)
    {others : List Nat} {owned : Nat → List Nat} (hothers : SpacesApart k others owned) :
    Returns (pagingNew4gb flags) k fun chunk k₁ =>
      ∀ calls : List MappingCall, (∀ call ∈ calls, call.chunk ∈ chunk :: others) →
        Returns (runMappings calls) k₁ fun _ k₂ =>
          Returns (pagingFree4gb chunk) k₂ fun _ k₃ => k₃.heap_entries = k.heap_entries ∧
            ∃ released, pagingFree4gbLogged chunk (k₂, []) = .ok (⟨⟩, k₃, released) ∧
              released.length = 1026 ∧ released.Nodup ∧
              ∀ b, blockAddress b ∈ released ↔ b ∈ k.freeBlocks ∧ b ∉ k₁.freeBlocks := by
  refine ((pagingNew4gb_takes flags hfree).and_ensures
    (pagingNew4gb_maps (by omega) k)).mono ?_
  rintro chunk k₁ ⟨htook, hkeep, -, ptrs, hmaps, hnew⟩ calls hcalls
  have howns := hmaps.owns
  have hlength : ptrs.length = 1026 := by
    obtain ⟨d, w, -, -, rfl, -⟩ := howns
    simp [tablePtrs]
  have hmem := TookBlocks.mem_iff (by rw [hlength]; exact htook) howns.nodup howns.alive hnew
  refine (runMappings_spec calls (hothers.cons hkeep hmaps hnew) hcalls).mono ?_
  rintro _ k₂ ⟨hapart, he₂⟩
  obtain ⟨m₂, hmaps₂⟩ := hapart.maps chunk List.mem_cons_self
  rw [Function.update_self] at hmaps₂
  obtain ⟨_, ⟨k₃, released⟩, hrun, hperm, he₃, -, -⟩ := pagingFree4gbLogged_spec hmaps₂.owns
  have hreleased : ∀ b, blockAddress b ∈ released ↔ b ∈ k.freeBlocks ∧ b ∉ k₁.freeBlocks :=
    fun b => hperm.mem_iff.trans (hmem b)
  refine ⟨_, k₃, (pagingFree4gbLogged_erases chunk).ok hrun, ?_, released, hrun, ?_, ?_,
    hreleased⟩
  · exact he₃.trans ((congrArg (releasedEntriesOf · released) he₂).trans
      (htook.restored hzero hreleased))
  · rw [hperm.length_eq, hlength]
  · exact hperm.nodup_iff.mpr howns.nodup

theorem boot_freeBlocks (disk : Disk) : (Kernel.boot disk).freeBlocks = Finset.range 25600 :=
  Finset.filter_true_of_mem fun b hb =>
    boot_freeFrom disk b (Nat.zero_le b) (Finset.mem_range.mp hb)

/-- At boot: an address space with one page mapped by each call. -/
theorem pagingFree4gb_restores_boot : ∃ (chunk : Nat) (k₁ k₂ k₃ : Kernel),
    pagingNew4gb 0xff (Kernel.boot Disk.blank) = .ok (chunk, k₁) ∧
      runMappings [.set chunk 0x400000 0x1000007, .map chunk 0x5000 0x6000 7,
        .mapTo chunk 0x1234 0x6000 0x8000 7] k₁ = .ok (⟨⟩, k₂) ∧
      pagingFree4gb chunk k₂ = .ok (⟨⟩, k₃) ∧
      k₃.heap_entries = (Kernel.boot Disk.blank).heap_entries := by
  have hcard : 1026 ≤ (Kernel.boot Disk.blank).freeBlocks.card := by
    rw [boot_freeBlocks, Finset.card_range]
    decide
  obtain ⟨chunk, k₁, hnew, hcalls⟩ := @pagingFree4gb_restores _ (boot_zeroFree Disk.blank) hcard
    0xff (by decide) [] (fun _ => []) ⟨by simp, by simp⟩
  obtain ⟨_, k₂, hrun, _, k₃, hfreed, hentries, -⟩ := hcalls [.set chunk 0x400000 0x1000007,
    .map chunk 0x5000 0x6000 7, .mapTo chunk 0x1234 0x6000 0x8000 7] (by simp [MappingCall.chunk])
  exact ⟨chunk, k₁, k₂, k₃, hnew, hrun, hfreed, hentries⟩

end PlumOS
