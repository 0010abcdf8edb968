import PlumOS.Memory.PageTable
import PlumOS.Task.Process

/-!
# The memory requests of a process

Runs of `process_malloc` and `process_free` on one process. The table of allocations,
the page tables and the heap agree in every state: a page of the heap is writeable
exactly while it is in the run of a recorded pointer.

## Main definitions

- `InRun` — the pages of an allocation
- `RequestRun`, `RequestStep` — the calls, with the allocations that are live

## Main results

- `processMalloc_spec`, `processFree_returns` — one call
- `request_run_recorded` — all runs
-/

namespace PlumOS

open StateExcept LabelledRun

/-- Page number `page` is in the memory of the allocation. -/
def InRun (a : ProcessAllocation) (page : Nat) : Prop :=
  a.ptr / 4096 ≤ page ∧ page < a.ptr / 4096 + blocksOf a.size

instance (a : ProcessAllocation) (page : Nat) : Decidable (InRun a page) :=
  inferInstanceAs (Decidable (_ ∧ _))

/-- The sizes a process may ask for. -/
def RequestSize (size : Nat) : Prop := 1 ≤ size ∧ size ≤ 0x7FFFF000

theorem pagingAlignAddress_eq {ptr : Nat} (h : ptr + 4096 ≤ 0x100000000) :
    pagingAlignAddress ptr = (ptr + 4095) / 4096 * 4096 := by
  unfold pagingAlignAddress
  by_cases hmod : ptr % PAGING_PAGE_SIZE = 0
  · rw [if_neg (not_not.mpr hmod)]
    simp only [PAGING_PAGE_SIZE] at hmod
    omega
  · rw [if_pos hmod]
    simp only [PAGING_PAGE_SIZE] at hmod ⊢
    unfold u32
    omega

/-- The end of an allocation in the pool, rounded up to a page. -/
theorem pagingAlignAddress_run {b size : Nat} (hin : b + blocksOf size ≤ 25600) :
    pagingAlignAddress (u32 ((blockAddress b + size : Nat) : Int)) =
      blockAddress b + 4096 * blocksOf size := by
  have hsize : size ≤ 4096 * blocksOf size := by
    unfold blocksOf
    omega
  have haddr : u32 ((blockAddress b + size : Nat) : Int) = 0x1000000 + 4096 * b + size := by
    unfold u32 blockAddress
    omega
  rw [haddr, pagingAlignAddress_eq (by omega)]
  unfold blockAddress blocksOf
  omega

/-- Mapping an allocation to itself. -/
theorem MapsSpace.mapRun {k : Kernel} {chunk b size : Nat} {ptrs : List Nat} {m : Nat → Nat}
    (h : MapsSpace k chunk ptrs m) (hin : b + blocksOf size ≤ 25600) (flags : Nat) :
    Returns (pagingMapTo chunk (blockAddress b) (blockAddress b)
      (pagingAlignAddress (u32 ((blockAddress b + size : Nat) : Int))) flags) k fun res k' =>
        res = 0 ∧ MapsSpace k' chunk ptrs (fun page =>
          if InRun ⟨blockAddress b, size⟩ page then page * 4096 ||| flags else m page) ∧
        OnlyIn ptrs k k' := by
  have haligned := blockAddress_aligned b
  have hlt : blockAddress b + 4096 * blocksOf size ≤ 0x7400000 := by
    unfold blockAddress
    omega
  rw [pagingAlignAddress_run hin]
  refine (h.mapTo haligned (by omega) haligned (by omega) (by omega) (by omega) flags).mono ?_
  rintro res k' ⟨hres, hmaps, honly⟩
  refine ⟨hres, hmaps.ext fun page hpage => ?_, honly⟩
  rw [show (blockAddress b + 4096 * blocksOf size - blockAddress b) / 4096 = blocksOf size by omega,
    mapRange_of_le _ _ _ (by omega) hpage]
  by_cases hrun : InRun ⟨blockAddress b, size⟩ page
  · rw [if_pos hrun]
    refine (if_pos hrun).trans ?_
    have haddr : blockAddress b + (page - blockAddress b / 4096) * 4096 = page * 4096 := by
      have := hrun.1
      dsimp only at this
      omega
    rw [haddr]
  · rw [if_neg hrun]
    exact if_neg hrun

/-- What `kzalloc` gives inside the pool is a live allocation of its size. -/
theorem Kzalloced.alive_of_le {k k' : Kernel} {size ptr : Nat} (h : Kzalloced k size ptr k')
    (hsize : RequestSize size) (hin : ptr + 4096 * blocksOf size ≤ 0x7400000) :
    k'.Alive ptr (blocksOf size) := by
  obtain ⟨b, rfl, hall⟩ := h.block
  rw [heapTotalBlocks_eq hsize.2] at hall
  refine ⟨b, rfl, blocksOf_pos hsize.1, ?_, hall.markedRun⟩
  unfold blockAddress at hin
  omega

/-- Live allocations at two addresses have no page in common. -/
theorem Kernel.Alive.page_disjoint {k : Kernel} {a a' : ProcessAllocation}
    (h : k.Alive a.ptr (blocksOf a.size)) (h' : k.Alive a'.ptr (blocksOf a'.size))
    (hne : a.ptr ≠ a'.ptr) {page : Nat} (hp : InRun a page) : ¬ InRun a' page := by
  rintro ⟨h₁', h₂'⟩
  obtain ⟨h₁, h₂⟩ := hp
  obtain ⟨b, hb, hn, -, hm⟩ := h
  obtain ⟨b', hb', hn', -, hm'⟩ := h'
  have hdis := hm.disjoint hm' hn hn' fun hbb => hne (by rw [hb, hb', hbb])
  rw [hb] at h₁ h₂
  rw [hb'] at h₁' h₂'
  unfold blockAddress at h₁ h₂ h₁' h₂'
  omega

theorem modifyProcess_returns {k : Kernel} {p : Nat} {pr : Process} (f : Process → Process)
    (hp : p ≠ 0) (ho : k.objs p = some (.process pr)) :
    Returns (modifyProcess p f) k fun _ k' => Stored k p (.process (f pr)) k' := by
  refine Returns.bind (deref_returns hp ho rfl) ?_
  rintro _ _ ⟨rfl, rfl⟩
  exact storeObj_spec _ _ _

/-! ### A process and its address space -/

/-- The process at `process`, with its task and the address space of that task. -/
structure ProcessAt (process : Nat) (k : Kernel) (pr : Process) (t : Task) (ptrs : List Nat)
    (m : Nat → Nat) : Prop where
  process_eq : k.objs process = some (.process pr)
  process_alive : ∃ n, k.Alive process n
  task_eq : k.objs pr.task = some (.task t)
  task_alive : k.Alive pr.task 1
  space : MapsSpace k t.page_directory ptrs m

/-- Allocation `p` is not the process, its task or a block of its address space. -/
def ApartFrom (process : Nat) (pr : Process) (ptrs : List Nat) (p : Nat) : Prop :=
  p ≠ process ∧ p ≠ pr.task ∧ p ∉ ptrs

/-- The structures of a process are not those of its address space. -/
theorem MapsSpace.not_mem {k : Kernel} {chunk p : Nat} {ptrs : List Nat} {m : Nat → Nat}
    (h : MapsSpace k chunk ptrs m) {o : Obj} (ho : k.objs p = some o) (hchunk : o.chunk? = none)
    (hwords : o.words? = none) : p ∉ ptrs := by
  obtain ⟨d, w, hc, hd, rfl, -, -, htables⟩ := h
  intro hp
  rcases List.mem_cons.mp hp with rfl | hp
  · rw [hc] at ho
    cases ho
    cases hchunk
  rcases List.mem_cons.mp hp with rfl | hp
  · rw [hd] at ho
    cases ho
    cases hwords
  · obtain ⟨i, hi, rfl⟩ := List.mem_map.mp hp
    obtain ⟨e, he, -⟩ := htables i (by simpa using hi)
    rw [he] at ho
    cases ho
    cases hwords

section ProcessAt

variable {process : Nat} {k : Kernel} {pr : Process} {t : Task} {ptrs : List Nat} {m : Nat → Nat}

theorem ProcessAt.task_ne (h : ProcessAt process k pr t ptrs m) : pr.task ≠ process := by
  intro heq
  have htask_eq := h.task_eq
  rw [heq, h.process_eq] at htask_eq
  cases htask_eq

theorem ProcessAt.process_not_mem (h : ProcessAt process k pr t ptrs m) : process ∉ ptrs :=
  h.space.not_mem h.process_eq rfl rfl

theorem ProcessAt.task_not_mem (h : ProcessAt process k pr t ptrs m) : pr.task ∉ ptrs :=
  h.space.not_mem h.task_eq rfl rfl

/-- The process after its page tables and its table of allocations changed. -/
theorem ProcessAt.changed (h : ProcessAt process k pr t ptrs m) {k₁ k₂ : Kernel} {m' : Nat → Nat}
    {pr' : Process} (hmaps : MapsSpace k₁ t.page_directory ptrs m') (honly : OnlyIn ptrs k k₁)
    (hst : Stored k₁ process (.process pr') k₂) (htask : pr'.task = pr.task) :
    ProcessAt process k₂ pr' t ptrs m' ∧ ∀ q l, k.Alive q l → k₂.Alive q l := by
  have hkeep : ∀ q l, k.Alive q l → k₂.Alive q l := fun q l hq => hst.alive (honly.alive hq)
  obtain ⟨n, hn⟩ := h.process_alive
  refine ⟨
    { process_eq := hst.self
      process_alive := ⟨n, hkeep _ n hn⟩
      task_eq := ?_
      task_alive := htask ▸ hkeep _ 1 h.task_alive
      space := hmaps.congr fun p hp => ⟨hst.alive (hmaps.owns.alive p hp),
        hst.other p fun heq => h.process_not_mem (heq ▸ hp)⟩ }, hkeep⟩
  rw [htask, hst.other _ h.task_ne, honly.objs _ h.task_not_mem]
  exact h.task_eq

/-- The process after a change of its page tables. -/
theorem ProcessAt.mapped {process chunk : Nat} {k k' : Kernel} {pr : Process} {t : Task}
    {ptrs : List Nat} {m m' : Nat → Nat} (h : ProcessAt process k pr t ptrs m)
    (hchunk : t.page_directory = chunk) (hmaps : MapsSpace k' chunk ptrs m')
    (honly : OnlyIn ptrs k k') : ProcessAt process k' pr t ptrs m' where
  process_eq := (honly.objs _ h.process_not_mem).trans h.process_eq
  process_alive := by
    obtain ⟨n, hn⟩ := h.process_alive
    exact ⟨n, honly.alive hn⟩
  task_eq := (honly.objs _ h.task_not_mem).trans h.task_eq
  task_alive := honly.alive h.task_alive
  space := hchunk ▸ hmaps

/-- The process after a change that keeps what is alive. -/
theorem ProcessAt.kept (h : ProcessAt process k pr t ptrs m) (hkeeps : Keeps [] k k') :
    ProcessAt process k' pr t ptrs m := by
  have hkeep : ∀ p n, k.Alive p n → k'.Alive p n ∧ k'.objs p = k.objs p :=
    fun p n hp => hkeeps p n hp List.not_mem_nil
  obtain ⟨n, hn⟩ := h.process_alive
  exact
    { process_eq := (hkeep _ n hn).2.trans h.process_eq
      process_alive := ⟨n, (hkeep _ n hn).1⟩
      task_eq := (hkeep _ 1 h.task_alive).2.trans h.task_eq
      task_alive := (hkeep _ 1 h.task_alive).1
      space := h.space.congr fun p hp => hkeep p 1 (h.space.owns.alive p hp) }

/-- The process after the release of memory that is not its own. -/
theorem ProcessAt.freed (h : ProcessAt process k pr t ptrs m) {p : Nat} {k' : Kernel}
    (hapart : ApartFrom process pr ptrs p) (hfreed : Freed k p k') :
    ProcessAt process k' pr t ptrs m := by
  obtain ⟨hprocess, htask, hptrs⟩ := hapart
  have hkeep : ∀ q l, k.Alive q l → q ≠ p → k'.Alive q l ∧ k'.objs q = k.objs q :=
    fun q l hq hne => hfreed.keeps q l hq (by simpa using hne)
  obtain ⟨n, hn⟩ := h.process_alive
  exact
    { process_eq := (hkeep _ n hn hprocess.symm).2.trans h.process_eq
      process_alive := ⟨n, (hkeep _ n hn hprocess.symm).1⟩
      task_eq := (hkeep _ 1 h.task_alive htask.symm).2.trans h.task_eq
      task_alive := (hkeep _ 1 h.task_alive htask.symm).1
      space := h.space.congr fun q hq =>
        hkeep q 1 (h.space.owns.alive q hq) fun heq => hptrs (heq ▸ hq) }

end ProcessAt

/-! ### The table of allocations -/

theorem processFindFreeAllocationIndex_eq_some {allocations : Nat → ProcessAllocation} {i : Nat}
    (h : processFindFreeAllocationIndex allocations = some i) :
    i < 1024 ∧ (allocations i).ptr = 0 := by
  unfold processFindFreeAllocationIndex at h
  rw [List.find?_range_eq_some] at h
  have := h.1
  simp only [PLUMOS_MAX_PROGRAM_ALLOCATIONS, List.mem_range, beq_iff_eq] at h
  exact ⟨h.2.1, h.1⟩

theorem processGetAllocationByAddress_eq_some {allocations : Nat → ProcessAllocation}
    {addr i : Nat} (h : processGetAllocationByAddress allocations addr = some i) :
    i < 1024 ∧ (allocations i).ptr = addr := by
  unfold processGetAllocationByAddress at h
  rw [List.find?_range_eq_some] at h
  simp only [PLUMOS_MAX_PROGRAM_ALLOCATIONS, List.mem_range, beq_iff_eq] at h
  exact ⟨h.2.1, h.1⟩

theorem processGetAllocationByAddress_eq_none {allocations : Nat → ProcessAllocation} {addr : Nat}
    (h : processGetAllocationByAddress allocations addr = none) {i : Nat} (hi : i < 1024) :
    (allocations i).ptr ≠ addr := by
  unfold processGetAllocationByAddress at h
  rw [List.find?_eq_none] at h
  have := h i (List.mem_range.mpr hi)
  rwa [beq_iff_eq] at this

/-- The table records exactly the allocations in `live`, each in one slot. -/
structure Records (allocations : Nat → ProcessAllocation) (live : List ProcessAllocation) :
    Prop where
  recorded : ∀ i < 1024, (allocations i).ptr ≠ 0 → allocations i ∈ live
  slot : ∀ a ∈ live, ∃ i < 1024, allocations i = a
  nonzero : ∀ a ∈ live, a.ptr ≠ 0
  unique : ∀ i < 1024, ∀ j < 1024, (allocations i).ptr ≠ 0 →
    (allocations i).ptr = (allocations j).ptr → i = j

theorem Records.eq_of_ptr {allocations : Nat → ProcessAllocation} {live : List ProcessAllocation}
    (h : Records allocations live) {a a' : ProcessAllocation} (ha : a ∈ live) (ha' : a' ∈ live)
    (hptr : a.ptr = a'.ptr) : a = a' := by
  obtain ⟨i, hi, rfl⟩ := h.slot a ha
  obtain ⟨j, hj, rfl⟩ := h.slot a' ha'
  rw [h.unique i hi j hj (h.nonzero _ ha) hptr]

theorem Records.insert {allocations : Nat → ProcessAllocation} {live : List ProcessAllocation}
    (h : Records allocations live) {a : ProcessAllocation} {index : Nat} (hindex : index < 1024)
    (hfree : (allocations index).ptr = 0) (ha : a.ptr ≠ 0) (hnew : ∀ b ∈ live, b.ptr ≠ a.ptr) :
    Records (Function.update allocations index a) (live ++ [a]) where
  recorded := fun i hi hne => by
    by_cases hii : i = index
    · subst hii
      rw [Function.update_self]
      exact List.mem_append_right _ (List.mem_singleton_self a)
    · rw [Function.update_of_ne hii] at hne ⊢
      exact List.mem_append_left _ (h.recorded i hi hne)
  slot := fun b hb => by
    rcases List.mem_append.mp hb with hb | hb
    · obtain ⟨i, hi, rfl⟩ := h.slot b hb
      have hne : i ≠ index := by
        rintro rfl
        exact h.nonzero _ hb hfree
      exact ⟨i, hi, Function.update_of_ne hne _ _⟩
    · rw [List.mem_singleton.mp hb]
      exact ⟨index, hindex, Function.update_self ..⟩
  nonzero := fun b hb => by
    rcases List.mem_append.mp hb with hb | hb
    · exact h.nonzero b hb
    · rwa [List.mem_singleton.mp hb]
  unique := fun i hi j hj hne heq => by
    by_cases hii : i = index
    · by_cases hjj : j = index
      · rw [hii, hjj]
      · subst hii
        rw [Function.update_self] at hne heq
        rw [Function.update_of_ne hjj] at heq
        exact absurd heq.symm (hnew _ (h.recorded j hj (heq ▸ hne)))
    · rw [Function.update_of_ne hii] at hne heq
      by_cases hjj : j = index
      · subst hjj
        rw [Function.update_self] at heq
        exact absurd heq (hnew _ (h.recorded i hi hne))
      · rw [Function.update_of_ne hjj] at heq
        exact h.unique i hi j hj hne heq

theorem Records.unjoin {allocations : Nat → ProcessAllocation} {live : List ProcessAllocation}
    (h : Records allocations live) (ptr : Nat) :
    Records (processAllocationUnjoin allocations ptr) (live.filter fun a => a.ptr ≠ ptr) := by
  have hkeep : ∀ i < 1024, (allocations i).ptr ≠ ptr →
      processAllocationUnjoin allocations ptr i = allocations i := fun i _ hne =>
    if_neg fun hc => hne hc.2
  have hzero : ∀ i < 1024, (allocations i).ptr = ptr →
      processAllocationUnjoin allocations ptr i = ⟨0, 0⟩ := fun i hi heq => if_pos ⟨hi, heq⟩
  have hold : ∀ i < 1024, (processAllocationUnjoin allocations ptr i).ptr ≠ 0 →
      (allocations i).ptr ≠ ptr := by
    intro i hi hne heq
    rw [hzero i hi heq] at hne
    exact hne rfl
  refine ⟨fun i hi hne => ?_, fun a ha => ?_, fun a ha => ?_, fun i hi j hj hne heq => ?_⟩
  · have hptr := hold i hi hne
    rw [hkeep i hi hptr] at hne ⊢
    exact List.mem_filter.mpr ⟨h.recorded i hi hne, decide_eq_true hptr⟩
  · obtain ⟨ha, hptr⟩ := List.mem_filter.mp ha
    obtain ⟨i, hi, rfl⟩ := h.slot a ha
    exact ⟨i, hi, hkeep i hi (of_decide_eq_true hptr)⟩
  · exact h.nonzero a (List.mem_filter.mp ha).1
  · have hi' := hold i hi hne
    have hj' := hold j hj (heq ▸ hne)
    rw [hkeep i hi hi'] at hne heq
    rw [hkeep j hj hj'] at heq
    exact h.unique i hi j hj hne heq

/-! ### The calls -/

/-- The entry of a page: writeable in a live allocation, not present where one was, and
as it was elsewhere. -/
def PageEntry (base : Nat → Nat) (live : List ProcessAllocation) (freed : Nat → Prop) (page entry : Nat) : Prop :=
  ((∃ a ∈ live, InRun a page) → entry = page * 4096 ||| userWriteable) ∧
    ((¬ ∃ a ∈ live, InRun a page) → freed page → entry = page * 4096) ∧
    ((¬ ∃ a ∈ live, InRun a page) → ¬ freed page → entry = base page)

theorem PageEntry.congr {base : Nat → Nat} {live live' : List ProcessAllocation}
    {freed freed' : Nat → Prop} {page entry : Nat} (h : PageEntry base live freed page entry)
    (hlive : (∃ a ∈ live', InRun a page) ↔ ∃ a ∈ live, InRun a page)
    (hfreed : freed' page ↔ freed page) : PageEntry base live' freed' page entry := by
  unfold PageEntry
  rw [hlive, hfreed]
  exact h

/-- The process at `process` records the live allocations, and its page tables map them. -/
structure RequestInv (process : Nat) (base : Nat → Nat) (live : List ProcessAllocation)
    (freed : Nat → Prop) (k : Kernel) (pr : Process) (t : Task) (ptrs : List Nat) (m : Nat → Nat) : Prop where
  process_eq : k.objs process = some (.process pr)
  process_alive : ∃ n, k.Alive process n
  task_eq : k.objs pr.task = some (.task t)
  task_alive : k.Alive pr.task 1
  space : MapsSpace k t.page_directory ptrs m
  records : Records pr.allocations live
  size : ∀ a ∈ live, RequestSize a.size
  alive : ∀ a ∈ live, k.Alive a.ptr (blocksOf a.size)
  apart : ∀ a ∈ live, a.ptr ≠ process ∧ a.ptr ≠ pr.task ∧ a.ptr ∉ ptrs
  entry : ∀ page, PageEntry base live freed page (m page)

section RequestInv

variable {process : Nat} {base : Nat → Nat} {live : List ProcessAllocation} {freed : Nat → Prop} {k : Kernel}
  {pr : Process} {t : Task} {ptrs : List Nat} {m : Nat → Nat}

theorem RequestInv.processAt (h : RequestInv process base live freed k pr t ptrs m) :
    ProcessAt process k pr t ptrs m :=
  ⟨h.process_eq, h.process_alive, h.task_eq, h.task_alive, h.space⟩

/-- Live allocations, and the structures that a change keeps, carry the invariant on. -/
theorem RequestInv.congr (h : RequestInv process base live freed k pr t ptrs m) {k' : Kernel}
    (halive : ∀ p n, k.Alive p n → k'.Alive p n)
    (hobjs : ∀ p n, k.Alive p n → k'.objs p = k.objs p) :
    RequestInv process base live freed k' pr t ptrs m where
  process_eq := by
    obtain ⟨n, hn⟩ := h.process_alive
    exact (hobjs _ n hn).trans h.process_eq
  process_alive := by
    obtain ⟨n, hn⟩ := h.process_alive
    exact ⟨n, halive _ n hn⟩
  task_eq := (hobjs _ 1 h.task_alive).trans h.task_eq
  task_alive := halive _ 1 h.task_alive
  space := h.space.congr fun p hp =>
    ⟨halive p 1 (h.space.owns.alive p hp), hobjs p 1 (h.space.owns.alive p hp)⟩
  records := h.records
  size := h.size
  alive := fun a ha => halive _ _ (h.alive a ha)
  apart := h.apart
  entry := h.entry

/-- `process_malloc` when `kzalloc` returns and keeps inside the pool: a new run is mapped
and recorded, or nothing that the process sees changes. -/
theorem processMalloc_returns (h : RequestInv process base live freed k pr t ptrs m) {size q : Nat}
    {k₁ : Kernel} (hsize : RequestSize size) (hk₁ : kzalloc size k = .ok (q, k₁))
    (hpool : q ≠ 0 → q + 4096 * blocksOf size ≤ 0x7400000) :
    Returns (processMalloc process size) k fun ptr k' =>
      (ptr = 0 ∧ (q ≠ 0 → processFindFreeAllocationIndex pr.allocations = none) ∧
          RequestInv process base live freed k' pr t ptrs m) ∨
        ptr ≠ 0 ∧ ∃ pr' m', RequestInv process base (live ++ [⟨ptr, size⟩])
          (fun page => freed page ∧ ¬ InRun ⟨ptr, size⟩ page) k' pr' t ptrs m' := by
  obtain ⟨n, hn⟩ := h.process_alive
  refine Returns.bind (R := fun ptr k' => ptr = q ∧ k' = k₁) ⟨q, k₁, hk₁, rfl, rfl⟩ ?_
  rintro ptr _ ⟨rfl, rfl⟩
  rcases kzalloc_spec k size _ _ hk₁ with ⟨rfl, rfl⟩ | ha
  · exact .pure (Or.inl ⟨rfl, fun h => absurd rfl h, h⟩)
  rw [if_neg ha.ne_zero]
  have halive := ha.alive_of_le hsize (hpool ha.ne_zero)
  have h₁ := h.congr (fun p n hp => ha.alive hp) fun p n hp => ha.objs_of_alive hsize.2 hp
  -- the new memory is apart from all that was alive
  have hnew : ∀ {p n}, k.Alive p n → p ≠ ptr := fun hp => ha.ne_alive hp
  refine Returns.bind (deref_returns hn.ne_zero h₁.process_eq rfl) ?_
  rintro _ _ ⟨rfl, rfl⟩
  cases hindex : processFindFreeAllocationIndex pr.allocations with
  | none => exact .pure (Or.inl ⟨rfl, fun _ => rfl, h₁⟩)
  | some index =>
    obtain ⟨hlt, hfree⟩ := processFindFreeAllocationIndex_eq_some hindex
    obtain ⟨b, rfl, -, hb, -⟩ := id halive
    refine Returns.bind (deref_returns h₁.task_alive.ne_zero h₁.task_eq rfl) ?_
    rintro _ _ ⟨rfl, rfl⟩
    refine Returns.bind (h₁.space.mapRun hb userWriteable) ?_
    rintro _ k₂ ⟨rfl, hmaps, honly⟩
    rw [if_neg (lt_irrefl 0)]
    have hpr₂ : k₂.objs process = some (.process pr) :=
      (honly.objs _ h₁.processAt.process_not_mem).trans h₁.process_eq
    refine Returns.bind (modifyProcess_returns _ hn.ne_zero hpr₂) ?_
    intro _ k₃ hst
    obtain ⟨hat, hkeep⟩ := h₁.processAt.changed hmaps honly hst rfl
    refine .pure (Or.inr ⟨ha.ne_zero, _, _,
      { process_eq := hat.process_eq
        process_alive := hat.process_alive
        task_eq := hat.task_eq
        task_alive := hat.task_alive
        space := hat.space
        records := h.records.insert hlt hfree ha.ne_zero fun a ha' => hnew (h.alive a ha')
        size := fun a ha' => ?_
        alive := fun a ha' => ?_
        apart := fun a ha' => ?_
        entry := fun page => ?_ }⟩)
    · rcases List.mem_append.mp ha' with ha' | ha'
      · exact h.size a ha'
      · rwa [List.mem_singleton.mp ha']
    · rcases List.mem_append.mp ha' with ha' | ha'
      · exact hkeep _ _ (h₁.alive a ha')
      · rw [List.mem_singleton.mp ha']
        exact hkeep _ _ halive
    · rcases List.mem_append.mp ha' with ha' | ha'
      · exact h.apart a ha'
      · rw [List.mem_singleton.mp ha']
        exact ⟨(hnew hn).symm, (hnew h.task_alive).symm,
          fun hmem => hnew (h.space.owns.alive _ hmem) rfl⟩
    · -- a page of the new run, or one that keeps its entry
      have hold := h.entry page
      by_cases hrun : InRun ⟨blockAddress b, size⟩ page
      · rw [if_pos hrun]
        have hlive : ∃ a ∈ live ++ [⟨blockAddress b, size⟩], InRun a page :=
          ⟨_, List.mem_append_right _ (List.mem_singleton_self _), hrun⟩
        exact ⟨fun _ => rfl, fun hnot => absurd hlive hnot, fun hnot => absurd hlive hnot⟩
      · rw [if_neg hrun]
        have hlive : (∃ a ∈ live ++ [⟨blockAddress b, size⟩], InRun a page) ↔
            ∃ a ∈ live, InRun a page := by
          simp [List.mem_append, or_and_right, exists_or, hrun]
        exact hold.congr hlive (and_iff_left hrun)

/-- `process_free` of a recorded pointer unmaps its run and releases it. -/
theorem processFree_returns (h : RequestInv process base live freed k pr t ptrs m)
    {a : ProcessAllocation} (ha : a ∈ live) :
    Returns (processFree process a.ptr) k fun _ k' => ∃ pr' m',
      RequestInv process base (live.filter fun b => b.ptr ≠ a.ptr)
        (fun page => freed page ∨ InRun a page) k' pr' t ptrs m' := by
  obtain ⟨n, hn⟩ := h.process_alive
  refine Returns.bind (deref_returns hn.ne_zero h.process_eq rfl) ?_
  rintro _ _ ⟨rfl, rfl⟩
  cases hindex : processGetAllocationByAddress pr.allocations a.ptr with
  | none =>
    obtain ⟨i, hi, hslot⟩ := h.records.slot a ha
    exact absurd (congrArg ProcessAllocation.ptr hslot)
      (processGetAllocationByAddress_eq_none hindex hi)
  | some index =>
    obtain ⟨hlt, hptr⟩ := processGetAllocationByAddress_eq_some hindex
    have hslot : pr.allocations index = a :=
      h.records.eq_of_ptr (h.records.recorded index hlt (hptr ▸ h.records.nonzero a ha)) ha hptr
    obtain ⟨b, hb, -, hin, -⟩ := id (h.alive a ha)
    dsimp only
    rw [hslot]
    refine Returns.bind (deref_returns h.task_alive.ne_zero h.task_eq rfl) ?_
    rintro _ _ ⟨rfl, rfl⟩
    have hmapRun := h.space.mapRun hin 0x00
    rw [← hb] at hmapRun
    refine Returns.bind hmapRun ?_
    rintro _ k₁ ⟨rfl, hmaps, honly⟩
    rw [if_neg (lt_irrefl 0)]
    have hpr₁ : k₁.objs process = some (.process pr) :=
      (honly.objs _ h.processAt.process_not_mem).trans h.process_eq
    refine Returns.bind (modifyProcess_returns _ hn.ne_zero hpr₁) ?_
    intro _ k₂ hst
    obtain ⟨hat₂, hkeep⟩ := h.processAt.changed hmaps honly hst rfl
    refine (kfree_spec (hkeep _ _ (h.alive a ha))).mono ?_
    intro _ k₃ hfreed
    have hat := hat₂.freed (h.apart a ha) hfreed
    refine ⟨_, _,
      { process_eq := hat.process_eq
        process_alive := hat.process_alive
        task_eq := hat.task_eq
        task_alive := hat.task_alive
        space := hat.space
        records := h.records.unjoin a.ptr
        size := fun b hb => h.size b (List.mem_filter.mp hb).1
        alive := fun b hb => ?_
        apart := fun b hb => h.apart b (List.mem_filter.mp hb).1
        entry := fun page => ?_ }⟩
    · obtain ⟨hb, hne⟩ := List.mem_filter.mp hb
      exact (hfreed.keeps _ _ (hkeep _ _ (h.alive b hb)) (by simpa using hne)).1
    · have hold := h.entry page
      by_cases hrun : InRun a page
      · -- no other live allocation has the page
        rw [if_pos hrun, Nat.or_zero]
        have hnot : ¬ ∃ b ∈ live.filter fun b => b.ptr ≠ a.ptr, InRun b page := by
          rintro ⟨b, hb, hbrun⟩
          obtain ⟨hb, hne⟩ := List.mem_filter.mp hb
          exact (h.alive b hb).page_disjoint (h.alive a ha) (of_decide_eq_true hne) hbrun hrun
        exact ⟨fun hlive => absurd hlive hnot, fun _ _ => rfl,
          fun _ hf => absurd (Or.inr hrun) hf⟩
      · rw [if_neg hrun]
        have hlive : (∃ b ∈ live.filter fun b => b.ptr ≠ a.ptr, InRun b page) ↔
            ∃ b ∈ live, InRun b page := by
          constructor
          · rintro ⟨b, hb, hbrun⟩
            exact ⟨b, (List.mem_filter.mp hb).1, hbrun⟩
          · rintro ⟨b, hb, hbrun⟩
            refine ⟨b, List.mem_filter.mpr ⟨hb, decide_eq_true fun heq => ?_⟩, hbrun⟩
            exact hrun (h.records.eq_of_ptr hb ha heq ▸ hbrun)
        exact hold.congr hlive (or_iff_left hrun)

/-- `process_free` of any other pointer changes nothing. -/
theorem processFree_unrecorded (h : RequestInv process base live freed k pr t ptrs m) {ptr : Nat}
    (hptr : ptr ≠ 0) (hnot : ∀ a ∈ live, a.ptr ≠ ptr) : processFree process ptr k = .ok (⟨⟩, k) := by
  obtain ⟨n, hn⟩ := h.process_alive
  have hread : deref Obj.process? process k = .ok (pr, k) := deref_ok hn.ne_zero h.process_eq rfl
  unfold processFree
  rw [bind_of_ok hread]
  cases hindex : processGetAllocationByAddress pr.allocations ptr with
  | none => rfl
  | some index =>
    obtain ⟨hlt, heq⟩ := processGetAllocationByAddress_eq_some hindex
    exact absurd heq (hnot _ (h.records.recorded index hlt (heq ▸ hptr)))

end RequestInv

/-! ### Runs -/

/-- The kernel, with the live allocations of the process and the pages of those that
were released and not handed out again. -/
structure RequestRun where
  kernel : Kernel
  live : List ProcessAllocation
  freed : Nat → Prop

inductive RequestCall
  | malloc (size : Nat)
  | free (ptr : Nat)

/-- A call for `process`. What `kzalloc` returns lies inside the pool. -/
inductive RequestStep (process : Nat) : RequestRun → RequestCall → RequestRun → Prop
  | malloc {s : RequestRun} {size ptr : Nat} {k' : Kernel} (hsize : RequestSize size)
      (hpool : ∀ q k₁, kzalloc size s.kernel = .ok (q, k₁) → q ≠ 0 →
        q + 4096 * blocksOf size ≤ PLUMOS_HEAP_ADDRESS + PLUMOS_HEAP_SIZE_BYTES)
      (h : processMalloc process size s.kernel = .ok (ptr, k')) :
      RequestStep process s (.malloc size) (if ptr = 0 then { s with kernel := k' } else
        ⟨k', s.live ++ [⟨ptr, size⟩], fun page => s.freed page ∧ ¬ InRun ⟨ptr, size⟩ page⟩)
  | free {s : RequestRun} {ptr : Nat} {k' : Kernel} (hptr : ptr ≠ 0)
      (h : processFree process ptr s.kernel = .ok (⟨⟩, k')) :
      RequestStep process s (.free ptr) ⟨k', s.live.filter fun a => a.ptr ≠ ptr,
        fun page => s.freed page ∨ ∃ a ∈ s.live, a.ptr = ptr ∧ InRun a page⟩

/-- What the table of allocations and the page tables of the process say. -/
structure RequestsHold (process : Nat) (base : Nat → Nat) (s : RequestRun) (pr : Process)
    (t : Task) (d : Nat) : Prop where
  process_eq : s.kernel.objs process = some (.process pr)
  task_eq : s.kernel.objs pr.task = some (.task t)
  directory : s.kernel.objs t.page_directory = some (.chunk d)
  /-- Each live pointer is in one slot, with its size, and no other one is. -/
  records : Records pr.allocations s.live
  /-- A page of the pool is writeable exactly in the run of a recorded pointer. -/
  writeable : ∀ virt, PLUMOS_HEAP_ADDRESS ≤ virt →
    virt < PLUMOS_HEAP_ADDRESS + PLUMOS_HEAP_SIZE_BYTES → virt % PAGING_PAGE_SIZE = 0 →
      ∃ entry, pagingGet d virt s.kernel = .ok (entry, s.kernel) ∧
        (entry &&& PAGING_IS_WRITEABLE ≠ 0 ↔ ∃ i < PLUMOS_MAX_PROGRAM_ALLOCATIONS,
          (pr.allocations i).ptr ≠ 0 ∧ InRun (pr.allocations i) (virt / PAGING_PAGE_SIZE))
  /-- Freed pages are not present, and pages that were never handed out are as they were. -/
  entry : ∀ virt < 0x100000000, virt % PAGING_PAGE_SIZE = 0 →
    ∃ entry, pagingGet d virt s.kernel = .ok (entry, s.kernel) ∧
      PageEntry base s.live s.freed (virt / PAGING_PAGE_SIZE) entry
  /-- A release of any other pointer changes nothing. -/
  unrecorded : ∀ ptr, ptr ≠ 0 →
    (∀ i < PLUMOS_MAX_PROGRAM_ALLOCATIONS, (pr.allocations i).ptr ≠ ptr) →
      processFree process ptr s.kernel = .ok (⟨⟩, s.kernel)

/-- A process without allocations, whose directory has the pages of the pool as
`paging_new_4gb` made them. `base` are the entries of all its pages. -/
structure FreshProcess (process : Nat) (k : Kernel) (pr : Process) (t : Task) (ptrs : List Nat)
    (base : Nat → Nat) : Prop where
  process_eq : k.objs process = some (.process pr)
  process_alive : ∃ n, k.Alive process n
  task_eq : k.objs pr.task = some (.task t)
  task_alive : k.Alive pr.task 1
  space : MapsSpace k t.page_directory ptrs base
  pool : ∀ page, PLUMOS_HEAP_ADDRESS / PAGING_PAGE_SIZE ≤ page →
    page < (PLUMOS_HEAP_ADDRESS + PLUMOS_HEAP_SIZE_BYTES) / PAGING_PAGE_SIZE →
      base page = page * PAGING_PAGE_SIZE ||| (PAGING_IS_PRESENT ||| PAGING_ACCESS_FROM_ALL)
  empty : ∀ i < PLUMOS_MAX_PROGRAM_ALLOCATIONS, (pr.allocations i).ptr = 0

theorem FreshProcess.inv {process : Nat} {k : Kernel} {pr : Process} {t : Task} {ptrs : List Nat}
    {base : Nat → Nat} (h : FreshProcess process k pr t ptrs base) :
    RequestInv process base [] (fun _ => False) k pr t ptrs base where
  process_eq := h.process_eq
  process_alive := h.process_alive
  task_eq := h.task_eq
  task_alive := h.task_alive
  space := h.space
  records :=
    { recorded := fun i hi hne => absurd (h.empty i hi) hne
      slot := by simp
      nonzero := by simp
      unique := fun i hi _ _ hne => absurd (h.empty i hi) hne }
  size := by simp
  alive := by simp
  apart := by simp
  entry := fun page => ⟨by simp, fun _ hf => hf.elim, fun _ _ => rfl⟩

theorem writeable_or (page : Nat) {flags : Nat} (hf : flags < 4096) :
    (page * 4096 ||| flags) &&& PAGING_IS_WRITEABLE = flags &&& PAGING_IS_WRITEABLE :=
  entry_and (Nat.mul_mod_left _ _) hf (by decide)

theorem PageEntry.writeable_iff {base : Nat → Nat} {live : List ProcessAllocation}
    {freed : Nat → Prop} {page entry : Nat} (h : PageEntry base live freed page entry)
    (hbase : base page = page * 4096 ||| (PAGING_IS_PRESENT ||| PAGING_ACCESS_FROM_ALL)) :
    entry &&& PAGING_IS_WRITEABLE ≠ 0 ↔ ∃ a ∈ live, InRun a page := by
  obtain ⟨hlive, hfreed, hother⟩ := h
  by_cases hrun : ∃ a ∈ live, InRun a page
  · rw [hlive hrun, writeable_or page (by decide)]
    exact ⟨fun _ => hrun, fun _ => by decide⟩
  · refine ⟨fun hne => absurd ?_ hne, fun hr => absurd hr hrun⟩
    by_cases hf : freed page
    · have := writeable_or page (show 0 < 4096 by decide)
      rw [Nat.or_zero] at this
      rw [hfreed hrun hf, this]
      decide
    · rw [hother hrun hf, hbase, writeable_or page (by decide)]
      decide

theorem RequestInv.hold {process : Nat} {base : Nat → Nat} {s : RequestRun} {pr : Process}
    {t : Task} {ptrs : List Nat} {m : Nat → Nat}
    (h : RequestInv process base s.live s.freed s.kernel pr t ptrs m)
    (hpool : ∀ page, PLUMOS_HEAP_ADDRESS / PAGING_PAGE_SIZE ≤ page →
      page < (PLUMOS_HEAP_ADDRESS + PLUMOS_HEAP_SIZE_BYTES) / PAGING_PAGE_SIZE →
        base page = page * PAGING_PAGE_SIZE ||| (PAGING_IS_PRESENT ||| PAGING_ACCESS_FROM_ALL)) :
    ∃ d, RequestsHold process base s pr t d := by
  obtain ⟨d, -, hd, -⟩ := id h.space
  have hslots : ∀ page, (∃ a ∈ s.live, InRun a page) ↔
      ∃ i < PLUMOS_MAX_PROGRAM_ALLOCATIONS, (pr.allocations i).ptr ≠ 0 ∧
        InRun (pr.allocations i) page := by
    intro page
    constructor
    · rintro ⟨a, ha, hrun⟩
      obtain ⟨i, hi, rfl⟩ := h.records.slot a ha
      exact ⟨i, hi, h.records.nonzero _ ha, hrun⟩
    · rintro ⟨i, hi, hne, hrun⟩
      exact ⟨_, h.records.recorded i hi hne, hrun⟩
  refine ⟨d,
    { process_eq := h.process_eq
      task_eq := h.task_eq
      directory := hd
      records := h.records
      writeable := fun virt hle hlt hv => ?_
      entry := fun virt hlt hv => ⟨_, h.space.get hd hv hlt, h.entry _⟩
      unrecorded := fun ptr hptr hnot => ?_ }⟩
  · have hlt' : virt < 0x100000000 := lt_of_lt_of_le hlt (by decide)
    refine ⟨_, h.space.get hd hv hlt', ?_⟩
    have hpage : virt / PAGING_PAGE_SIZE <
        (PLUMOS_HEAP_ADDRESS + PLUMOS_HEAP_SIZE_BYTES) / PAGING_PAGE_SIZE :=
      Nat.div_lt_div_of_lt_of_dvd (by decide) hlt
    exact ((h.entry _).writeable_iff (hpool _ (Nat.div_le_div_right hle) hpage)).trans (hslots _)
  · refine processFree_unrecorded h hptr fun a ha heq => ?_
    obtain ⟨i, hi, rfl⟩ := h.records.slot a ha
    exact hnot i hi heq

theorem RequestInv.freed_congr {process : Nat} {base : Nat → Nat}
    {live : List ProcessAllocation} {freed freed' : Nat → Prop} {k : Kernel} {pr : Process} {t : Task} {ptrs : List Nat}
    {m : Nat → Nat} (h : RequestInv process base live freed k pr t ptrs m)
    (hfreed : ∀ page, freed' page ↔ freed page) :
    RequestInv process base live freed' k pr t ptrs m :=
  { h with entry := fun page => (h.entry page).congr Iff.rfl (hfreed page) }

/-- The invariant of a run. -/
def RequestsInv (process : Nat) (base : Nat → Nat) (s : RequestRun) : Prop :=
  ∃ pr t ptrs m, RequestInv process base s.live s.freed s.kernel pr t ptrs m

theorem RequestsInv.step {process : Nat} {base : Nat → Nat} {s s' : RequestRun}
    {call : RequestCall} (h : RequestsInv process base s) (hstep : RequestStep process s call s') :
    RequestsInv process base s' := by
  obtain ⟨pr, t, ptrs, m, h⟩ := h
  cases hstep with
  | @malloc size ptr k' hsize hpool hmalloc =>
    obtain ⟨q, k₁, hk₁, -⟩ := bind_eq_ok.mp hmalloc
    rcases (processMalloc_returns h hsize hk₁ (hpool q k₁ hk₁)).ensures _ _ hmalloc with
      ⟨rfl, -, h'⟩ | ⟨hne, pr', m', h'⟩
    · rw [if_pos rfl]
      exact ⟨pr, t, ptrs, m, h'⟩
    · rw [if_neg hne]
      exact ⟨pr', t, ptrs, m', h'⟩
  | @free ptr k' hptr hfree =>
    by_cases hrec : ∃ a ∈ s.live, a.ptr = ptr
    · obtain ⟨a, ha, rfl⟩ := hrec
      obtain ⟨pr', m', h'⟩ := (processFree_returns h ha).ensures _ _ hfree
      refine ⟨pr', t, ptrs, m', h'.freed_congr fun page => or_congr_right ⟨?_, ?_⟩⟩
      · rintro ⟨b, hb, heq, hrun⟩
        rwa [h.records.eq_of_ptr hb ha heq] at hrun
      · exact fun hrun => ⟨a, ha, rfl, hrun⟩
    · have hnot : ∀ a ∈ s.live, a.ptr ≠ ptr := fun a ha heq => hrec ⟨a, ha, heq⟩
      rw [processFree_unrecorded h hptr hnot] at hfree
      cases hfree
      have hsame : (s.live.filter fun a => a.ptr ≠ ptr) = s.live :=
        List.filter_eq_self.mpr fun a ha => decide_eq_true (hnot a ha)
      refine ⟨pr, t, ptrs, m, ?_⟩
      dsimp only
      rw [hsame]
      refine h.freed_congr fun page => or_iff_left ?_
      rintro ⟨a, ha, heq, -⟩
      exact hnot a ha heq

/-- In every run of requests and releases from a fresh process, the table of allocations
and the page tables agree. -/
theorem request_run_recorded {process : Nat} {k : Kernel} {pr : Process} {t : Task}
    {ptrs : List Nat} {base : Nat → Nat} {tr : List (RequestCall × RequestRun)}
    (hfresh : FreshProcess process k pr t ptrs base)
    (hrun : Run (RequestStep process) ⟨k, [], fun _ => False⟩ tr) :
    AllStates (fun s => ∃ pr t d, RequestsHold process base s pr t d) ⟨k, [], fun _ => False⟩ tr := by
  have hinit : RequestsInv process base ⟨k, [], fun _ => False⟩ := ⟨pr, t, ptrs, _, hfresh.inv⟩
  have hall := hrun.invariant (C := fun _ _ => True)
    (fun {s c s'} (h : RequestsInv process base s) _ hstep => h.step hstep) hinit
    (allSteps_of_forall (fun _ _ => trivial) _ _)
  have hhold : ∀ {s}, RequestsInv process base s → ∃ pr t d, RequestsHold process base s pr t d := by
    rintro s ⟨pr, t, ptrs, m, h⟩
    exact ⟨pr, t, h.hold hfresh.pool⟩
  exact ⟨hhold hall.1, fun x hx => hhold (hall.2 x hx)⟩

/-- With enough memory there is a fresh process. -/
theorem boot_freshProcess : ∃ process k pr t ptrs base, FreshProcess process k pr t ptrs base ∧
    k.FreeFrom 1028 ∧ pr.allocations = fun _ => ⟨0, 0⟩ := by
  obtain ⟨chunk, k₁, hnew, hfree₁⟩ := pagingNew4gb_returns
    (PAGING_IS_PRESENT ||| PAGING_ACCESS_FROM_ALL) (boot_freeFrom Disk.blank) (by decide)
  obtain ⟨-, -, ptrs, hmaps, -⟩ := pagingNew4gb_maps (by decide) _ _ _ hnew
  obtain ⟨task, k₂, -, hfree₂, hal₂, -, ho₂, hkeep₂, -⟩ := kzallocObj_small_returns hfree₁
    (show 1 ≤ 64 by decide) (by decide) (z := .task { Task.zero with page_directory := chunk })
    (by decide)
  obtain ⟨process, k₃, -, hfree₃, hal₃, -, ho₃, hkeep₃, -⟩ := kzallocObj_small_returns hfree₂
    (show 1 ≤ 64 by decide) (by decide) (z := .process { Process.zero with task := task })
    (by decide)
  obtain ⟨hal, ho⟩ := hkeep₃ task 1 hal₂ (by simp)
  refine ⟨process, k₃, _, _, ptrs, _,
    { process_eq := ho₃
      process_alive := ⟨1, hal₃⟩
      task_eq := ho.trans ho₂
      task_alive := hal
      space := hmaps.congr fun p hp => ?_
      pool := fun _ _ _ => rfl
      empty := fun _ _ => rfl }, hfree₃, rfl⟩
  obtain ⟨ha₂, heq₂⟩ := hkeep₂ p 1 (hmaps.owns.alive p hp) (by simp)
  obtain ⟨ha₃, heq₃⟩ := hkeep₃ p 1 ha₂ (by simp)
  exact ⟨ha₃, heq₃.trans heq₂⟩

/-- The run: two pages are handed out and released. -/
theorem request_run_recorded_two : ∃ (process ptr : Nat) (base : Nat → Nat) (k : Kernel)
    (tr : List (RequestCall × RequestRun)),
    tr.map Prod.fst = [.malloc 5000, .free ptr] ∧
      AllStates (fun s => ∃ pr t d, RequestsHold process base s pr t d) ⟨k, [], fun _ => False⟩ tr := by
  obtain ⟨process, k, pr, t, ptrs, base, hfresh, hfree, hempty⟩ := boot_freshProcess
  obtain ⟨q, k₁, hk₁, hz, halive, -⟩ := kzalloc_returns hfree (show 1 ≤ 5000 by decide) (by decide)
  have hpool : ∀ q k₁, kzalloc 5000 k = .ok (q, k₁) → q ≠ 0 →
      q + 4096 * blocksOf 5000 ≤ PLUMOS_HEAP_ADDRESS + PLUMOS_HEAP_SIZE_BYTES := by
    intro q' k' hq' _
    rw [hk₁] at hq'
    cases hq'
    obtain ⟨b, rfl, -, hb, -⟩ := halive
    have hsize : blocksOf 5000 = 2 := rfl
    rw [hsize] at hb ⊢
    unfold blockAddress PLUMOS_HEAP_ADDRESS PLUMOS_HEAP_SIZE_BYTES
    omega
  have hsize : RequestSize 5000 := ⟨by decide, by decide⟩
  obtain ⟨ptr, k₂, hmalloc, hres⟩ := processMalloc_returns hfresh.inv hsize hk₁ (hpool q k₁ hk₁)
  obtain ⟨hne, pr', m', h₂⟩ := hres.resolve_left fun h => by
    have hnone := h.2.1 hz.ne_zero
    rw [hempty] at hnone
    exact List.find?_eq_none.mp hnone 0 (List.mem_range.mpr (by decide)) rfl
  have hmem : (⟨ptr, 5000⟩ : ProcessAllocation) ∈ [] ++ [⟨ptr, 5000⟩] := List.mem_singleton_self _
  obtain ⟨_, k₃, hrelease, -⟩ := processFree_returns h₂ hmem
  have hstep := RequestStep.malloc (s := ⟨k, [], fun _ => False⟩) hsize hpool hmalloc
  rw [if_neg hne] at hstep
  exact ⟨process, ptr, base, k, _, rfl, request_run_recorded hfresh (.cons hstep
    (.cons (.free (s := ⟨k₂, _, _⟩) hne hrelease) (.nil _)))⟩

end PlumOS
