import PlumOS.Kernel.State
import PlumOS.Memory.HeapMarks

/-!
# The kernel heap

`memory/heap/kheap.c` over the kernel's state, and what a caller may rely on: an
allocation is new memory, it leaves every live allocation and every structure in
one alone, and a release ends one allocation and no other.

## Main definitions

- `kmalloc`, `kzalloc`, `kfree`
- `Kernel.Alive` — a pointer to a live allocation
- `Kzalloced` — the effect of a successful `kzalloc`
-/

namespace PlumOS

open StateExcept

/-- `kmalloc`. -/
def kmalloc (size : Nat) : KM Nat := fun k =>
  match heapMalloc k.heap size with
  | .error e => .error e
  | .ok (ptr, heap) => .ok (ptr, { k with heap_entries := heap.table.entries })

/-- `memset(ptr, 0x00, size)`: the structures that lie there are gone. -/
def memsetZero (ptr size : Nat) : KM PUnit := fun k =>
  if 0x100000000 < ptr + size then .error .wildWrite
  else .ok (⟨⟩, { k with
    mem := fun a => if ptr ≤ a ∧ a < ptr + size then 0 else k.mem a
    objs := fun a => if ptr ≤ a ∧ a < ptr + size then none else k.objs a })

/-- `kzalloc`. -/
def kzalloc (size : Nat) : KM Nat := do
  let ptr ← kmalloc size
  if ptr = 0 then pure 0
  else do
    memsetZero ptr size
    pure ptr

/-- `kfree`. What was at `ptr` may not be used any more. -/
def kfree (ptr : Nat) : KM PUnit :=
  modifies fun k => { k with
    heap_entries := (heapFree k.heap ptr).table.entries
    objs := Function.update k.objs ptr none }

/-- `kzalloc` of a structure; `zero` is the structure with all bytes zero. -/
def kzallocObj (size : Nat) (zero : Obj) : KM Nat := do
  let ptr ← kzalloc size
  if ptr = 0 then pure 0
  else do
    storeObj ptr zero
    pure ptr

/-! ### Allocations -/

/-- The address of block `b` of the kernel heap. -/
def blockAddress (b : Nat) : Nat := 0x1000000 + 4096 * b

/-- `k'` is `k` after `size` bytes were allocated at `ptr`. -/
structure Kzalloced (k : Kernel) (size ptr : Nat) (k' : Kernel) : Prop where
  block : ∃ b, ptr = blockAddress b ∧ Allocated k.heap.table k'.heap.table b (heapTotalBlocks size)
  in_space : ptr + size ≤ 0x100000000
  eq : k' = { k with
    heap_entries := k'.heap_entries
    mem := fun a => if ptr ≤ a ∧ a < ptr + size then 0 else k.mem a
    objs := fun a => if ptr ≤ a ∧ a < ptr + size then none else k.objs a }

theorem Kzalloced.ne_zero {k k' : Kernel} {size ptr : Nat} (h : Kzalloced k size ptr k') :
    ptr ≠ 0 := by
  obtain ⟨b, rfl, _⟩ := h.block
  unfold blockAddress
  omega

private theorem kmalloc_cases {k k' : Kernel} {size ptr : Nat} (h : kmalloc size k = .ok (ptr, k')) :
    (ptr = 0 ∧ k' = k) ∨
      ∃ b, ptr = blockAddress b ∧ k' = { k with heap_entries := k'.heap_entries } ∧
        Allocated k.heap.table k'.heap.table b (heapTotalBlocks size) := by
  unfold kmalloc heapMalloc at h
  cases hm : heapMallocBlcoks k.heap (heapTotalBlocks size) with
  | error e => simp [hm] at h
  | ok r =>
    obtain ⟨p, heap'⟩ := r
    simp only [hm, Except.ok.injEq, Prod.mk.injEq] at h
    obtain ⟨rfl, rfl⟩ := h
    rcases heapMallocBlcoks_cases hm with ⟨_, rfl, rfl⟩ | ⟨b, _, rfl, _, ha⟩
    · exact Or.inl ⟨rfl, rfl⟩
    · have hlt := ha.start_lt
      rw [Kernel.heap_total] at hlt
      refine Or.inr ⟨b, ?_, rfl, rfl, ha.start_lt, ha.free, ha.entries⟩
      rw [Kernel.heap_saddr, u32_of_range (by omega) (by omega)]
      unfold blockAddress
      omega

/-- `kzalloc` fails and changes nothing, or allocates. -/
theorem kzalloc_spec (k : Kernel) (size : Nat) :
    Ensures (kzalloc size) k fun ptr k' => (ptr = 0 ∧ k' = k) ∨ Kzalloced k size ptr k' := by
  refine Ensures.bind (R := fun ptr k' => kmalloc size k = .ok (ptr, k')) (fun _ _ h => h) ?_
  intro ptr k₁ hm
  rcases kmalloc_cases hm with ⟨rfl, rfl⟩ | ⟨b, rfl, hk₁, ha⟩
  · exact Ensures.pure (Or.inl ⟨rfl, rfl⟩)
  · rw [if_neg (by unfold blockAddress; omega)]
    intro p k₂ h
    obtain ⟨_, k₃, hset, hpure⟩ := bind_eq_ok.mp h
    obtain ⟨rfl, rfl⟩ := pure_eq_ok.mp hpure
    unfold memsetZero at hset
    split at hset
    · cases hset
    · next hle =>
      simp only [Except.ok.injEq, Prod.mk.injEq, true_and] at hset
      subst hset
      refine Or.inr ⟨⟨b, rfl, ha⟩, by omega, ?_⟩
      rw [hk₁]

/-- Allocating a structure: as `kzalloc`, with the structure at the new address. -/
theorem kzallocObj_spec (k : Kernel) (size : Nat) (zero : Obj) :
    Ensures (kzallocObj size zero) k fun ptr k' => (ptr = 0 ∧ k' = k) ∨
      ∃ k₁, Kzalloced k size ptr k₁ ∧
        k' = { k₁ with objs := Function.update k₁.objs ptr (some zero) } := by
  refine Ensures.bind (kzalloc_spec k size) ?_
  rintro ptr k₁ (⟨rfl, rfl⟩ | ha)
  · exact Ensures.pure (Or.inl ⟨rfl, rfl⟩)
  · rw [if_neg ha.ne_zero]
    refine Ensures.bind (Ensures.modifies (Q := fun _ k₂ =>
      k₂ = { k₁ with objs := Function.update k₁.objs ptr (some zero) }) rfl) ?_
    rintro _ k₂ rfl
    exact Ensures.pure (Or.inr ⟨k₁, ha, rfl⟩)

/-! ### Live allocations -/

/-- `p` points to a live allocation of `n` blocks. -/
def Kernel.Alive (k : Kernel) (p n : Nat) : Prop :=
  ∃ b, p = blockAddress b ∧ 0 < n ∧ b + n ≤ 25600 ∧ k.heap.table.MarkedRun b n

theorem blockAddress_inj {b b' : Nat} : blockAddress b = blockAddress b' ↔ b = b' := by
  unfold blockAddress
  omega

theorem Kernel.Alive.ne_zero {k : Kernel} {p n : Nat} (h : k.Alive p n) : p ≠ 0 := by
  obtain ⟨b, rfl, _⟩ := h
  unfold blockAddress
  omega

theorem Kernel.Alive.congr {k k' : Kernel} {p n : Nat} (h : k.Alive p n)
    (he : k'.heap_entries = k.heap_entries) : k'.Alive p n := by
  obtain ⟨b, hb, hn, hin, hm⟩ := h
  refine ⟨b, hb, hn, hin, fun j hj => ?_⟩
  rw [Kernel.heap_entries_eq, he]
  exact hm j hj

/-- An allocation leaves the live ones alive. -/
theorem Kzalloced.alive {k k' : Kernel} {size ptr p n : Nat} (h : Kzalloced k size ptr k')
    (hp : k.Alive p n) : k'.Alive p n := by
  obtain ⟨b, hb, hn, hin, hm⟩ := hp
  obtain ⟨c, _, ha⟩ := h.block
  refine ⟨b, hb, hn, hin, fun j hj => ?_⟩
  rw [ha.keeps (by omega) (by rw [Kernel.heap_total]; omega) (hm.not_free (by omega) (by omega))]
  exact hm j hj

/-- The memory of an allocation of at most 2 GiB less a page starts in no live one. -/
theorem Kzalloced.fresh {k k' : Kernel} {size ptr p n : Nat} (h : Kzalloced k size ptr k')
    (hsize : size ≤ 0x7FFFF000) (hp : k.Alive p n) : ¬ (ptr ≤ p ∧ p < ptr + size) := by
  obtain ⟨b, rfl, hn, hin, hm⟩ := hp
  obtain ⟨c, rfl, ha⟩ := h.block
  rintro ⟨h₁, h₂⟩
  unfold blockAddress at h₁ h₂
  rw [heapTotalBlocks_eq hsize] at ha
  refine hm.not_free le_rfl (by omega) (ha.free b (by omega) ?_ (by rw [Kernel.heap_total]; omega))
  unfold blocksOf
  omega

theorem Kzalloced.ne_alive {k k' : Kernel} {size ptr p n : Nat} (h : Kzalloced k size ptr k')
    (hp : k.Alive p n) : p ≠ ptr := by
  rintro rfl
  obtain ⟨b, hb, hn, hin, hm⟩ := hp
  obtain ⟨c, hc, ha⟩ := h.block
  obtain rfl : c = b := blockAddress_inj.mp (hc.symm.trans hb)
  exact hm.not_free le_rfl (by omega) (ha.free c le_rfl (Or.inl rfl) ha.start_lt)

/-- It leaves the structures in the live ones where they are. -/
theorem Kzalloced.objs_of_alive {k k' : Kernel} {size ptr p n : Nat} (h : Kzalloced k size ptr k')
    (hsize : size ≤ 0x7FFFF000) (hp : k.Alive p n) : k'.objs p = k.objs p := by
  rw [h.eq]
  exact if_neg (h.fresh hsize hp)

/-- An allocation of one block is alive afterwards. -/
theorem Kzalloced.alive_one {k k' : Kernel} {size ptr : Nat} (h : Kzalloced k size ptr k')
    (h₁ : 1 ≤ size) (h₂ : size ≤ 4096) : k'.Alive ptr 1 := by
  obtain ⟨b, hb, ha⟩ := h.block
  have hlt := ha.start_lt
  rw [Kernel.heap_total] at hlt
  have hone : heapTotalBlocks size = 1 := by
    rw [heapTotalBlocks_eq (by omega)]
    unfold blocksOf
    omega
  rw [hone] at ha
  exact ⟨b, hb, by omega, by omega, ha.markedRun⟩

/-! ### Releases -/

theorem kfree_eq (ptr : Nat) (k : Kernel) :
    kfree ptr k = .ok (⟨⟩, { k with
      heap_entries := (heapFree k.heap ptr).table.entries
      objs := Function.update k.objs ptr none }) := rfl

theorem heapAddressToBlock_blockAddress (k : Kernel) {b : Nat} (hb : b < 25600) :
    heapAddressToBlock k.heap (blockAddress b) = b :=
  heapAddressToBlock_of_lt k.heap (by omega)

/-- The entries after the release of a live allocation. -/
theorem heapFree_entries {k : Kernel} {b n : Nat} (hm : k.heap.table.MarkedRun b n) (hn : 0 < n)
    (hin : b + n ≤ 25600) (i : Int) :
    (heapFree k.heap (blockAddress b)).table.entries i =
      if (b : Int) ≤ i ∧ i < (b : Int) + n then HEAP_BLOCK_TABLE_ENTRY_FREE
      else k.heap_entries i := by
  unfold heapFree
  rw [heapAddressToBlock_blockAddress k (by omega)]
  exact hm.free_entries hn hin i

/-- The release of one allocation leaves the others alive. -/
theorem Kernel.Alive.kfree {k : Kernel} {p n q m : Nat} (h : k.Alive p n) (hq : k.Alive q m)
    (hne : q ≠ p) :
    Kernel.Alive { k with
      heap_entries := (heapFree k.heap p).table.entries
      objs := Function.update k.objs p none } q m := by
  obtain ⟨b, rfl, hn, hin, hm⟩ := h
  obtain ⟨c, rfl, hcn, hcin, hcm⟩ := hq
  have hbc : c ≠ b := fun hcb => hne (by rw [hcb])
  refine ⟨c, rfl, hcn, hcin, fun j hj => ?_⟩
  rw [Kernel.heap_entries_eq]
  dsimp only
  rw [heapFree_entries hm hn hin, if_neg]
  · exact hcm j hj
  · have := hcm.disjoint hm hcn hn hbc
    omega

/-! ### Frames -/

/-- Every live allocation outside `F` is alive in `k'`, with the same structure in it. -/
def Keeps (F : List Nat) (k k' : Kernel) : Prop :=
  ∀ p n, k.Alive p n → p ∉ F → k'.Alive p n ∧ k'.objs p = k.objs p

/-- The tables and lists of the kernel are the same. -/
structure SameGlobals (k k' : Kernel) : Prop where
  file_descriptors : k'.file_descriptors = k.file_descriptors
  processes : k'.processes = k.processes
  current_process : k'.current_process = k.current_process
  task_head : k'.task_head = k.task_head
  task_tail : k'.task_tail = k.task_tail
  current_task : k'.current_task = k.current_task

theorem SameGlobals.refl (k : Kernel) : SameGlobals k k := ⟨rfl, rfl, rfl, rfl, rfl, rfl⟩

theorem SameGlobals.trans {k₁ k₂ k₃ : Kernel} (h : SameGlobals k₁ k₂) (h' : SameGlobals k₂ k₃) :
    SameGlobals k₁ k₃ where
  file_descriptors := h'.file_descriptors.trans h.file_descriptors
  processes := h'.processes.trans h.processes
  current_process := h'.current_process.trans h.current_process
  task_head := h'.task_head.trans h.task_head
  task_tail := h'.task_tail.trans h.task_tail
  current_task := h'.current_task.trans h.current_task

theorem Keeps.refl (F : List Nat) (k : Kernel) : Keeps F k k := fun _ _ h _ => ⟨h, rfl⟩

theorem Keeps.trans {F F' : List Nat} {k₁ k₂ k₃ : Kernel} (h : Keeps F k₁ k₂)
    (h' : Keeps F' k₂ k₃) : Keeps (F ++ F') k₁ k₃ := by
  intro p n hp hF
  rw [List.mem_append, not_or] at hF
  obtain ⟨ha, ho⟩ := h p n hp hF.1
  obtain ⟨ha', ho'⟩ := h' p n ha hF.2
  exact ⟨ha', ho'.trans ho⟩

theorem Keeps.mono {F F' : List Nat} {k k' : Kernel} (h : Keeps F k k') (hF : ∀ p ∈ F, p ∈ F') :
    Keeps F' k k' := fun p n hp hnot => h p n hp fun hmem => hnot (hF p hmem)

theorem Kzalloced.keeps {k k' : Kernel} {size ptr : Nat} (h : Kzalloced k size ptr k')
    (hsize : size ≤ 0x7FFFF000) : Keeps [] k k' :=
  fun _ _ hp _ => ⟨h.alive hp, h.objs_of_alive hsize hp⟩

theorem Kzalloced.globals {k k' : Kernel} {size ptr : Nat} (h : Kzalloced k size ptr k') :
    SameGlobals k k' := by
  rw [h.eq]
  exact ⟨rfl, rfl, rfl, rfl, rfl, rfl⟩

/-- `k'` is `k` with the structure `o` at `p`. -/
structure Stored (k : Kernel) (p : Nat) (o : Obj) (k' : Kernel) : Prop where
  self : k'.objs p = some o
  other : ∀ q, q ≠ p → k'.objs q = k.objs q
  heap_entries : k'.heap_entries = k.heap_entries
  mem : k'.mem = k.mem
  disk : k'.disk = k.disk
  globals : SameGlobals k k'

theorem storeObj_spec (k : Kernel) (p : Nat) (o : Obj) :
    Returns (storeObj p o) k fun _ k' => Stored k p o k' :=
  Returns.modifies
    { self := Function.update_self ..
      other := fun _ hq => Function.update_of_ne hq _ _
      heap_entries := rfl
      mem := rfl
      disk := rfl
      globals := ⟨rfl, rfl, rfl, rfl, rfl, rfl⟩ }

theorem Stored.alive {k k' : Kernel} {p q n : Nat} {o : Obj} (h : Stored k p o k')
    (hq : k.Alive q n) : k'.Alive q n := hq.congr h.heap_entries

/-- Writing a structure changes no other one. -/
theorem Stored.keeps {k k' : Kernel} {p : Nat} {o : Obj} (h : Stored k p o k') :
    Keeps [p] k k' :=
  fun q _ hq hne => ⟨h.alive hq, h.other q (by simpa using hne)⟩

/-- `k'` is `k` after the release of the live allocation at `p`. -/
structure Freed (k : Kernel) (p : Nat) (k' : Kernel) : Prop where
  keeps : Keeps [p] k k'
  entries : ∀ b n i, p = blockAddress b → k.Alive p n → k'.heap_entries i =
    if (b : Int) ≤ i ∧ i < (b : Int) + n then HEAP_BLOCK_TABLE_ENTRY_FREE else k.heap_entries i
  mem : k'.mem = k.mem
  disk : k'.disk = k.disk
  globals : SameGlobals k k'

/-- Releasing a live allocation ends no other one. -/
theorem kfree_spec {k : Kernel} {p n : Nat} (h : k.Alive p n) :
    Returns (kfree p) k fun _ k' => Freed k p k' := by
  refine Returns.modifies
    { keeps := ?_
      entries := ?_
      mem := rfl
      disk := rfl
      globals := ⟨rfl, rfl, rfl, rfl, rfl, rfl⟩ }
  · intro q m hq hne
    have hne' : q ≠ p := by simpa using hne
    exact ⟨h.kfree hq hne', Function.update_of_ne hne' _ _⟩
  · rintro b n' i rfl ⟨c, hc, hn', hin, hm⟩
    obtain rfl := blockAddress_inj.mp hc
    exact heapFree_entries hm hn' hin i

/-- The entries when single blocks are released. -/
def releasedEntriesOf (entries : Int → UInt8) (ptrs : List Nat) : Int → UInt8 := fun i =>
  if 0 ≤ i ∧ blockAddress i.toNat ∈ ptrs then HEAP_BLOCK_TABLE_ENTRY_FREE else entries i

theorem releasedEntriesOf_append (entries : Int → UInt8) (ptrs ptrs' : List Nat) :
    releasedEntriesOf (releasedEntriesOf entries ptrs) ptrs' =
      releasedEntriesOf entries (ptrs ++ ptrs') := by
  funext i
  unfold releasedEntriesOf
  by_cases h : 0 ≤ i ∧ blockAddress i.toNat ∈ ptrs
  · rw [if_pos h, ite_self, if_pos ⟨h.1, List.mem_append_left _ h.2⟩]
  · by_cases h' : 0 ≤ i ∧ blockAddress i.toNat ∈ ptrs'
    · rw [if_pos h', if_pos ⟨h'.1, List.mem_append_right _ h'.2⟩]
    · rw [if_neg h', if_neg h, if_neg fun hc => ?_]
      rcases List.mem_append.mp hc.2 with hmem | hmem
      · exact h ⟨hc.1, hmem⟩
      · exact h' ⟨hc.1, hmem⟩

theorem Freed.released {k k' : Kernel} {p : Nat} (h : Freed k p k') (ha : k.Alive p 1) :
    k'.heap_entries = releasedEntriesOf k.heap_entries [p] := by
  obtain ⟨b, rfl, -⟩ := id ha
  funext i
  rw [h.entries b 1 i rfl ha]
  unfold releasedEntriesOf
  by_cases hi : (b : Int) ≤ i ∧ i < (b : Int) + (1 : Nat)
  · rw [if_pos hi, if_pos ⟨by omega, List.mem_singleton.mpr (blockAddress_inj.mpr (by omega))⟩]
  · rw [if_neg hi, if_neg]
    rintro ⟨h₀, hmem⟩
    have := blockAddress_inj.mp (List.mem_singleton.mp hmem)
    omega

/-- Allocating a structure of at most one block: new memory, with the structure in it. -/
theorem kzallocObj_small {k : Kernel} {size : Nat} {zero : Obj} (h₁ : 1 ≤ size)
    (h₂ : size ≤ 4096) :
    Ensures (kzallocObj size zero) k fun ptr k' => (ptr = 0 ∧ k' = k) ∨
      (k'.Alive ptr 1 ∧ (∀ n, ¬ k.Alive ptr n) ∧ k'.objs ptr = some zero ∧
        Keeps [] k k' ∧ SameGlobals k k') := by
  refine (kzallocObj_spec k size zero).mono ?_
  rintro ptr k' (⟨rfl, rfl⟩ | ⟨k₁, ha, rfl⟩)
  · exact Or.inl ⟨rfl, rfl⟩
  · refine Or.inr ⟨(ha.alive_one h₁ h₂).congr rfl, fun n hn => ha.ne_alive hn rfl,
      Function.update_self .., ?_, ?_⟩
    · intro q n hq _
      obtain ⟨hq', ho⟩ := ha.keeps (by omega) q n hq (by simp)
      exact ⟨hq'.congr rfl, (Function.update_of_ne (ha.ne_alive hq) _ _).trans ho⟩
    · exact ha.globals.trans ⟨rfl, rfl, rfl, rfl, rfl, rfl⟩

/-! ### Enough memory -/

/-- All blocks from block `m` on are free. -/
def Kernel.FreeFrom (k : Kernel) (m : Nat) : Prop :=
  ∀ i : Nat, m ≤ i → i < 25600 → k.heap.table.IsFree i

theorem boot_freeFrom (disk : Disk) : (Kernel.boot disk).FreeFrom 0 := by
  intro i _ _
  change heapGetEntryType 0 = HEAP_BLOCK_TABLE_ENTRY_FREE
  decide

theorem Kernel.FreeFrom.mono {k : Kernel} {m m' : Nat} (h : k.FreeFrom m) (hm : m ≤ m') :
    k.FreeFrom m' := fun i h₁ h₂ => h i (by omega) h₂

theorem Kernel.FreeFrom.congr {k k' : Kernel} {m : Nat} (h : k.FreeFrom m)
    (he : k'.heap_entries = k.heap_entries) : k'.FreeFrom m := by
  intro i h₁ h₂
  have := h i h₁ h₂
  unfold HeapTable.IsFree at this ⊢
  rwa [Kernel.heap_entries_eq, he]

theorem heapMallocBlcoks_freeFrom {k : Kernel} {m n : Nat} (h : k.FreeFrom m) (hn : 0 < n)
    (hm : m + n ≤ 25600) : ∃ b heap', b ≤ m ∧
      heapMallocBlcoks k.heap n = .ok (blockAddress b, heap') ∧
      Allocated k.heap.table heap'.table b n := by
  have hrun : k.heap.table.FreeRun m n := fun j h₁ h₂ => h j h₁ (by omega)
  obtain ⟨p, heap', hok⟩ := heapMallocBlcoks_isOk k.heap hn
  rcases heapMallocBlcoks_cases hok with ⟨hneg, -, -⟩ | ⟨b, hb, rfl, -, ha⟩
  · have hspec := heapGetStartBlock_spec k.heap n
    generalize heapGetStartBlock k.heap n = r at hspec hneg
    cases hspec with
    | found b => omega
    | tail b => omega
    | none _ hno => exact absurd ⟨m, hm, hrun⟩ (hno.resolve_left (by omega))
  · have hlt := ha.start_lt
    rw [Kernel.heap_total] at hlt
    have hptr : u32 (k.heap.saddr + (b : Int) * 4096) = blockAddress b := by
      rw [Kernel.heap_saddr, u32_of_range (by omega) (by omega)]
      unfold blockAddress
      omega
    rw [hptr] at hok
    refine ⟨b, heap', ?_, hok, ha⟩
    -- the lowest run of `n` blocks starts at `m` or before
    have hspec := heapGetStartBlock_spec k.heap n
    rw [hb] at hspec
    generalize hr : (b : Int) = r at hspec
    cases hspec with
    | found c _ _ _ hlow =>
      by_contra hgt
      exact hlow m (by omega) hrun
    | tail c _ _ _ hno => exact absurd ⟨m, hm, hrun⟩ (hno.resolve_left (by omega))
    | none => simp only [ENOMEM] at hr; omega

/-- When the heap hands out the blocks from `b` on, `kzalloc` returns their address. -/
theorem kzalloc_of_ok {k : Kernel} {size b : Nat} {heap' : Heap}
    (hok : heapMallocBlcoks k.heap (heapTotalBlocks size) = .ok (blockAddress b, heap'))
    (ha : Allocated k.heap.table heap'.table b (heapTotalBlocks size))
    (hin : blockAddress b + size ≤ 0x100000000) :
    Returns (kzalloc size) k fun ptr k' => ptr = blockAddress b ∧ Kzalloced k size ptr k' ∧
      k'.heap_entries = heap'.table.entries := by
  have hne : blockAddress b ≠ 0 := by
    unfold blockAddress
    omega
  have hkm : kmalloc size k =
      .ok (blockAddress b, { k with heap_entries := heap'.table.entries }) := by
    unfold kmalloc heapMalloc
    rw [hok]
  refine Returns.bind (R := fun ptr k₁ => ptr = blockAddress b ∧
    k₁ = { k with heap_entries := heap'.table.entries }) ⟨_, _, hkm, rfl, rfl⟩ ?_
  rintro _ _ ⟨rfl, rfl⟩
  rw [if_neg hne]
  refine ⟨_, _, bind_of_ok (if_neg (by omega)), rfl, ⟨⟨b, rfl, ?_⟩, hin, rfl⟩, rfl⟩
  exact ⟨rfl, ha.start_lt, ha.free, ha.entries⟩

/-- With enough free blocks behind block `m`, `kzalloc` succeeds. -/
theorem kzalloc_returns {k : Kernel} {m size : Nat} (h : k.FreeFrom m) (h₁ : 1 ≤ size)
    (h₂ : m + blocksOf size ≤ 25600) :
    Returns (kzalloc size) k fun ptr k' => Kzalloced k size ptr k' ∧
      k'.Alive ptr (blocksOf size) ∧ k'.FreeFrom (m + blocksOf size) := by
  have hsize : size ≤ 0x6400000 := by
    unfold blocksOf at h₂
    omega
  have hn := blocksOf_pos h₁
  have htotal : heapTotalBlocks size = blocksOf size := heapTotalBlocks_eq (by omega)
  obtain ⟨b, heap', hbm, hok, ha⟩ := heapMallocBlcoks_freeFrom h hn h₂
  rw [← htotal] at hok ha
  refine (kzalloc_of_ok hok ha (by unfold blockAddress; omega)).mono ?_
  rintro _ k' ⟨rfl, hz, he⟩
  rw [htotal] at ha
  refine ⟨hz, ⟨b, rfl, hn, by omega, fun j hj => ?_⟩, fun i hi₁ hi₂ => ?_⟩
  · rw [Kernel.heap_entries_eq, he]
    exact ha.markedRun j hj
  · have hfree := h i (by omega) hi₂
    unfold HeapTable.IsFree at hfree ⊢
    rw [Kernel.heap_entries_eq, he, ha.entries, if_neg (by omega)]
    exact hfree

/-- With enough free blocks, allocating a structure succeeds. -/
theorem kzallocObj_returns {k : Kernel} {m size : Nat} {zero : Obj} (h : k.FreeFrom m)
    (h₁ : 1 ≤ size) (h₂ : m + blocksOf size ≤ 25600) :
    Returns (kzallocObj size zero) k fun ptr k' => ptr ≠ 0 ∧ k'.objs ptr = some zero ∧
      k'.Alive ptr (blocksOf size) ∧ k'.FreeFrom (m + blocksOf size) := by
  refine Returns.bind (kzalloc_returns h h₁ h₂) ?_
  rintro ptr k₁ ⟨ha, hal, hfree⟩
  rw [if_neg ha.ne_zero]
  refine Returns.bind (storeObj_spec _ _ _) ?_
  intro _ k₂ hst
  exact Returns.pure ⟨ha.ne_zero, hst.self, hst.alive hal, hfree.congr hst.heap_entries⟩

/-- With a free block, allocating a structure of at most one block succeeds. -/
theorem kzallocObj_small_returns {k : Kernel} {m size : Nat} {z : Obj} (h : k.FreeFrom m)
    (h₁ : 1 ≤ size) (h₂ : size ≤ 4096) (hm : m + 1 ≤ 25600) :
    Returns (kzallocObj size z) k fun ptr k' => k'.FreeFrom (m + 1) ∧ k'.Alive ptr 1 ∧
      (∀ n, ¬ k.Alive ptr n) ∧ k'.objs ptr = some z ∧ Keeps [] k k' ∧ SameGlobals k k' := by
  have hone : blocksOf size = 1 := by
    unfold blocksOf
    omega
  refine ((kzallocObj_returns h h₁ (by omega)).and_ensures
    (kzallocObj_small h₁ h₂)).mono ?_
  rintro ptr k' ⟨⟨hne, -, -, hfree⟩, hsmall⟩
  exact ⟨hone ▸ hfree, hsmall.resolve_left fun h => hne h.1⟩

/-- Releasing memory leaves the free blocks free. -/
theorem Kernel.FreeFrom.freed {k k' : Kernel} {m p n : Nat} (h : k.FreeFrom m)
    (hp : k.Alive p n) (hf : Freed k p k') : k'.FreeFrom m := by
  intro i h₁ h₂
  obtain ⟨b, rfl, -⟩ := id hp
  unfold HeapTable.IsFree
  rw [Kernel.heap_entries_eq, hf.entries b n i rfl hp]
  split
  · rfl
  · exact h i h₁ h₂

end PlumOS
