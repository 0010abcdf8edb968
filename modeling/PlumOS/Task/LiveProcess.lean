import PlumOS.Isr80h.ArgumentList
import PlumOS.Task.ProcessMemory
import PlumOS.Task.ProcessOwnership

/-!
# The life of a process

From its load to its end a process has memory of its own: its program, its stack, its task
with the address space, and what it asked for. Its requests and releases, the arguments it
is given and its end change this memory and no other.

## Main definitions

- `Process.requested` — the memory a process asked for and has
- `LiveProcess` — a process with all that belongs to it

## Main results

- `processMalloc_live`, `processFree_live`, `processInjectArguments_live`
- `processTerminate_unlinked` — what the end of a process leaves
-/

namespace PlumOS

open StateExcept ListWalk

-- the rule for a sequence is used once for each statement of a function
set_option synthInstance.maxSize 512

/-! ### Page tables -/

/-- Nothing differs but the words of some page tables. -/
structure WritesTables (k k' : Kernel) : Prop where
  heap_entries : k'.heap_entries = k.heap_entries
  objs : ∀ q, k'.objs q = k.objs q ∨
    ∃ w w', k.objs q = some (.words w) ∧ k'.objs q = some (.words w')

instance : Std.Refl WritesTables := ⟨fun _ => ⟨rfl, fun _ => Or.inl rfl⟩⟩

theorem WritesTables.trans {k₁ k₂ k₃ : Kernel} (h : WritesTables k₁ k₂)
    (h' : WritesTables k₂ k₃) : WritesTables k₁ k₃ where
  heap_entries := h'.heap_entries.trans h.heap_entries
  objs q := by
    rcases h.objs q with heq | ⟨w, w', hw, hw'⟩
    · rw [← heq]
      exact h'.objs q
    rcases h'.objs q with heq | ⟨v, v', -, hv'⟩
    · exact Or.inr ⟨w, w', hw, heq.trans hw'⟩
    · exact Or.inr ⟨w, v', hw, hv'⟩

instance : IsTrans Kernel WritesTables := ⟨fun _ _ _ => WritesTables.trans⟩

/-- A structure of another kind is as it was. -/
theorem WritesTables.eq_some {k k' : Kernel} {q : Nat} {o : Obj} (h : WritesTables k k')
    (ho : k.objs q = some o) (hkind : o.words? = none) : k'.objs q = some o := by
  rcases h.objs q with heq | ⟨w, w', hw, -⟩
  · exact heq.trans ho
  · rw [ho] at hw
    cases hw
    cases hkind

instance pagingSet_writesTables (directory virt val : Nat) :
    Within WritesTables (pagingSet directory virt val) where
  within k := by
    have hrefl : ∀ k, WritesTables k k := Std.Refl.refl
    unfold pagingSet
    split
    · exact .pure (hrefl k)
    dsimp only
    split
    · exact .pure (hrefl k)
    refine .bind (deref_spec _ _ _) ?_
    rintro dir _ ⟨rfl, -, -⟩
    refine .bind (deref_spec _ _ _) ?_
    rintro entries _ ⟨rfl, -, hentries⟩
    rw [Obj.words?_eq_some] at hentries
    refine .bind (storeObj_spec _ _ _).ensures ?_
    intro _ k₁ hst
    refine .pure ⟨hst.heap_entries, fun q => ?_⟩
    by_cases hq : q = pageMask (dir (pagingGetIndexes virt).2.1)
    · subst hq
      exact Or.inr ⟨_, _, hentries, hst.self⟩
    · exact Or.inl (hst.other q hq)

instance deref_writesTables {α : Type} (sel : Obj → Option α) (p : Nat) :
    Within WritesTables (deref sel p) where
  within k := (deref_spec sel p k).mono fun _ _ h => h.1 ▸ Std.Refl.refl _

instance pagingMapRange_writesTables (chunk flags fuel virt phys : Nat) :
    Within WritesTables (pagingMapRange chunk flags fuel virt phys) := by
  induction fuel generalizing virt phys with
  | zero => exact inferInstanceAs (Within _ (pure 0))
  | succ fuel ih =>
    unfold pagingMapRange pagingMap
    infer_instance

instance pagingMapTo_writesTables (chunk virt phys phys_end flags : Nat) :
    Within WritesTables (pagingMapTo chunk virt phys phys_end flags) := by
  unfold pagingMapTo
  infer_instance

/-! ### What belongs to a process -/

/-- The memory the process asked for and has. -/
def Process.requested (p : Process) : Set Nat :=
  { q | q ≠ 0 ∧ ∃ i < PLUMOS_MAX_PROGRAM_ALLOCATIONS, (p.allocations i).ptr = q }

theorem Process.requested_congr {p p' : Process} (h : p'.allocations = p.allocations) :
    p'.requested = p.requested := by
  unfold Process.requested
  rw [h]

/-- The process at `process` has the number `slot`. Its program, its stack and its task are
in `S` and what it asked for is beside that. -/
structure LiveProcess (S : Set Nat) (k : Kernel) (process slot : Nat) (p : Process) : Prop where
  guards : Guards (insert process (S ∪ p.requested)) k
  obj : k.objs process = some (.process p)
  notMem : process ∉ S
  apart : ∀ q ∈ p.requested, q ≠ process ∧ q ∉ S
  id : p.id = slot
  empty : ∀ i < PLUMOS_MAX_PROGRAM_ALLOCATIONS, (p.allocations i).ptr = 0 → (p.allocations i).size = 0
  program : OwnsProgram S k p
  stack : p.stack ∈ S
  task_mem : p.task ∈ S
  task : OwnsTask S k p.task

/-- All the memory of a process. -/
def Process.memory (p : Process) (process : Nat) (S : Set Nat) : Set Nat :=
  insert process (S ∪ p.requested)

section Live

variable {P S : Set Nat} {k k' : Kernel} {process slot : Nat} {p : Process}

theorem LiveProcess.held (h : LiveProcess S k process slot p) : k.Held process :=
  h.guards.held _ (Set.mem_insert _ _)

theorem LiveProcess.own (h : LiveProcess S k process slot p) : Guards S k :=
  h.guards.mono fun _ hq => Or.inr (Or.inl hq)

theorem LiveProcess.deref {α : Type} {f : Process → KM α} {R : Kernel → Kernel → Prop}
    {Q : α → Kernel → Prop} (h : LiveProcess S k process slot p) (hf : Framed R (f p) k Q) :
    Framed R (deref Obj.process? process >>= f) k Q := by
  refine Ensures.bind (deref_spec _ _ _) ?_
  rintro p' _ ⟨rfl, -, hp'⟩
  rw [Obj.process?_eq_some, h.obj] at hp'
  cases hp'
  exact hf

/-- What leaves the memory of the process as it is. -/
theorem LiveProcess.stays (h : LiveProcess S k process slot p)
    (hk : Stays (p.memory process S) k k') : LiveProcess S k' process slot p := by
  have hS : Stays S k k' := hk.mono fun _ hq => Or.inr (Or.inl hq)
  have hobj := hk.objs process (Set.mem_insert _ _)
  rw [h.obj] at hobj
  exact
    { guards := hk.guards
      obj := hobj.eq_some fun _ h => by cases h
      notMem := h.notMem
      apart := h.apart
      id := h.id
      empty := h.empty
      program := h.program.stays hS
      stack := h.stack
      task_mem := h.task_mem
      task := h.task.stays (hS.objs _ h.task_mem) hS }

/-- What writes the page tables of the process. -/
theorem LiveProcess.mapped (h : LiveProcess S k process slot p) (hk : WritesTables k k') {t : Task}
    (ht : k.objs p.task = some (.task t)) (hs : HoldsSpace S k' t.page_directory) :
    LiveProcess S k' process slot p where
  guards := ⟨h.guards.tidy.congr hk.heap_entries,
    fun q hq => (h.guards.held q hq).congr hk.heap_entries⟩
  obj := hk.eq_some h.obj rfl
  notMem := h.notMem
  apart := h.apart
  id := h.id
  empty := h.empty
  program := by
    refine h.program.imp_right ?_
    rintro ⟨htype, hmem, f, hf, hmemory⟩
    exact ⟨htype, hmem, f, hk.eq_some hf rfl, hmemory⟩
  stack := h.stack
  task_mem := h.task_mem
  task := ⟨t, hk.eq_some ht rfl, hs⟩

/-- The process with other allocations and arguments. -/
theorem LiveProcess.stored (h : LiveProcess S k process slot p) {p' : Process}
    (hst : Stored k process (.process p') k')
    (hp' : p' = { p with allocations := p'.allocations, arguments := p'.arguments })
    (hreq : ∀ q ∈ p'.requested, k.Held q ∧ q ≠ process ∧ q ∉ S)
    (hempty : ∀ i < PLUMOS_MAX_PROGRAM_ALLOCATIONS,
      (p'.allocations i).ptr = 0 → (p'.allocations i).size = 0) :
    LiveProcess S k' process slot p' := by
  have hother : ∀ q ∈ S, k'.objs q = k.objs q := fun q hq =>
    hst.other q fun heq => h.notMem (heq ▸ hq)
  have hS : Stays S k k' := (Intact.stored h.own hst h.notMem).stays
  have hheld : ∀ q, k.Held q → k'.Held q := fun q hq => hq.congr hst.heap_entries
  have hprogram : OwnsProgram S k p' := by
    rw [hp']
    exact h.program
  have htask_eq : p'.task = p.task := by rw [hp']
  refine
    { guards := ⟨h.guards.tidy.congr hst.heap_entries, ?_⟩
      obj := hst.self
      notMem := h.notMem
      apart := fun q hq => (hreq q hq).2
      id := by rw [hp', h.id]
      empty := hempty
      program := hprogram.stays hS
      stack := by
        rw [hp']
        exact h.stack
      task_mem := htask_eq ▸ h.task_mem
      task := ?_ }
  · rintro q (rfl | hq | hq)
    · exact hheld _ h.held
    · exact hheld q (h.own.held q hq)
    · exact hheld q (hreq q hq).1
  · rw [htask_eq]
    exact h.task.stays (hS.objs _ h.task_mem) hS

end Live

/-! ### Requests and releases -/

section Requests

variable {P S : Set Nat} {k k' : Kernel} {process slot : Nat} {p : Process}

/-- What a function leaves that works for the process alone. -/
def LeavesLive (P S : Set Nat) (process slot : Nat) (k' : Kernel) : Prop :=
  ∃ p, LiveProcess S k' process slot p ∧ Beside P (p.memory process S) k'

/-- The process and the others are apart, and the allocations are at most what they were. -/
theorem Beside.smaller {p' : Process} (h : Beside P (p.memory process S) k)
    (hl : LiveProcess S k' process slot p')
    (hreq : ∀ q ∈ p'.requested, q ∈ p.requested ∨ q ∉ P) :
    Beside P (p'.memory process S) k' := by
  refine ⟨hl.guards, ?_⟩
  rintro q (rfl | hq | hq)
  · exact h.apart _ (Set.mem_insert _ _)
  · exact h.apart _ (Or.inr (Or.inl hq))
  · exact (hreq q hq).elim (fun hold => h.apart _ (Or.inr (Or.inr hold))) id

/-- Mapping pages for the process writes its page tables. -/
theorem LiveProcess.maps (h : LiveProcess S k process slot p) (hP : Guards P k)
    (hb : Beside P (p.memory process S) k) {t : Task} (ht : k.objs p.task = some (.task t))
    {virt : Nat} (hv : virt < 0x100000000) (phys phys_end flags : Nat) :
    Framed (Intact P) (pagingMapTo t.page_directory virt phys phys_end flags) k fun _ k' =>
      LiveProcess S k' process slot p ∧ Beside P (p.memory process S) k' ∧
        k'.heap_entries = k.heap_entries := by
  obtain ⟨t', ht', hs⟩ := h.task
  rw [ht] at ht'
  cases ht'
  have hS : ∀ q ∈ S, q ∉ P := fun q hq => hb.apart q (Or.inr (Or.inl hq))
  refine Ensures.mono ((pagingMapTo_intact hP hS hs hv phys phys_end flags).and
    (Within.ensures (R := WritesTables) _ k)) ?_
  rintro _ k' ⟨⟨hk', hs', he⟩, hw⟩
  exact ⟨hk', h.mapped hw ht hs', hb.congr he, he⟩

/-- The slot that `process_malloc` found holds the new memory. -/
theorem Process.requested_update {index : Nat} {a : ProcessAllocation} {p' : Process}
    (hp' : p'.allocations = Function.update p.allocations index a) :
    ∀ q ∈ p'.requested, q = a.ptr ∨ q ∈ p.requested := by
  rintro _ ⟨hne, i, hi, rfl⟩
  rw [hp'] at hne ⊢
  by_cases heq : i = index
  · subst heq
    exact Or.inl (by rw [Function.update_self])
  · rw [Function.update_of_ne heq] at hne ⊢
    exact Or.inr ⟨hne, i, hi, rfl⟩

/-- A request that is for something gives the process new memory, or none. -/
theorem processMalloc_live {size : Nat} (hP : Guards P k) (h : LiveProcess S k process slot p)
    (hb : Beside P (p.memory process S) k) (hsize : 1 ≤ size) :
    Framed (Intact P) (processMalloc process size) k fun _ k' =>
      LeavesLive P S process slot k' := by
  have hall : Guards { q | k.Held q } k := ⟨hP.tidy, fun _ hq => hq⟩
  refine Framed.bind ((kzalloc_obtained hall size).weaken fun _ hk => hk.mono hP.held) ?_
  rintro ptr k₁ hk₁ ⟨hall₁, halloc⟩
  have h₁ : LiveProcess S k₁ process slot p := h.stays (hall₁.mono h.guards.held).stays
  have hb₁ : Beside P (p.memory process S) k₁ := ⟨h₁.guards, hb.apart⟩
  split
  · exact .pure (.refl hk₁.guards) ⟨p, h₁, hb₁⟩
  next hne =>
  obtain ⟨-, hnew, hobt⟩ := halloc.resolve_left fun h0 => hne h0.1
  have hheld := hobt.held hsize
  refine h₁.deref ?_
  split
  · exact .pure (.refl hk₁.guards) ⟨p, h₁, hb₁⟩
  next index hindex =>
  obtain ⟨hlt, hslot⟩ := processFindFreeAllocationIndex_eq_some hindex
  refine Ensures.bind (deref_spec _ _ _) ?_
  rintro t _ ⟨rfl, -, ht⟩
  rw [Obj.task?_eq_some] at ht
  refine Framed.bind (h₁.maps hk₁.guards hb₁ ht hheld.aligned.2 _ _ _) ?_
  rintro res k₂ hk₂ ⟨h₂, hb₂, he⟩
  split
  · exact .pure (.refl hk₂.guards) ⟨p, h₂, hb₂⟩
  refine Framed.bind (P := fun _ k' => LeavesLive P S process slot k') ?_
    fun _ k₃ hk₃ hl => .pure (.refl hk₃.guards) hl
  refine h₂.deref ((intact_storeObj hk₂.guards (hb₂.apart _ (Set.mem_insert _ _)) _).mono ?_)
  intro _ k₃ hk₃ hst
  have hcases : ∀ q ∈ Process.requested
      { p with allocations := Function.update p.allocations index ⟨ptr, size⟩ },
      q = ptr ∨ q ∈ p.requested := Process.requested_update (a := ⟨ptr, size⟩) rfl
  have hout : ptr ≠ process ∧ ptr ∉ S := by
    refine ⟨?_, fun hmem => hnew (h.own.held _ hmem)⟩
    rintro rfl
    exact hnew h.held
  have h₃ := h₂.stored hst rfl (fun q hq => ?_) (fun i hi hzero => ?_)
  · refine ⟨_, h₃, hb₂.smaller h₃ fun q hq => (hcases q hq).symm.imp_right ?_⟩
    rintro rfl
    exact fun hmem => hnew (hP.held _ hmem)
  · rcases hcases q hq with rfl | hold
    · exact ⟨hheld.congr he, hout⟩
    · exact ⟨h₂.guards.held q (Or.inr (Or.inr hold)), h₂.apart q hold⟩
  · dsimp only at hzero ⊢
    by_cases heq : i = index
    · subst heq
      rw [Function.update_self] at hzero
      exact absurd hzero hne
    · rw [Function.update_of_ne heq] at hzero ⊢
      exact h₂.empty i hi hzero

/-- What is left when a pointer is taken off the list. -/
theorem Process.requested_unjoin {ptr : Nat} {p' : Process}
    (hp' : p'.allocations = processAllocationUnjoin p.allocations ptr) :
    ∀ q ∈ p'.requested, q ≠ ptr ∧ q ∈ p.requested := by
  rintro _ ⟨hne, i, hi, rfl⟩
  rw [hp'] at hne ⊢
  unfold processAllocationUnjoin at hne ⊢
  split at hne
  · exact absurd rfl hne
  · next hcond =>
    rw [if_neg hcond]
    exact ⟨fun heq => hcond ⟨hi, heq⟩, hne, i, hi, rfl⟩

/-- A release ends the allocation at the pointer, if the process has it, and no other one. -/
theorem processFree_live {ptr : Nat} (hP : Guards P k) (h : LiveProcess S k process slot p)
    (hb : Beside P (p.memory process S) k) :
    Framed (Intact P) (processFree process ptr) k fun _ k' => LeavesLive P S process slot k' := by
  refine h.deref ?_
  split
  · exact .pure (.refl hP) ⟨p, h, hb⟩
  next index hindex =>
  obtain ⟨hlt, hptr⟩ := processGetAllocationByAddress_eq_some hindex
  -- the pointer is NULL, from a slot that is empty, or an allocation of the process
  have hcases : ptr = 0 ∨ ptr ∈ p.requested := by
    by_cases h0 : ptr = 0
    · exact Or.inl h0
    · exact Or.inr ⟨h0, index, hlt, hptr⟩
  have hlt32 : ptr < 0x100000000 := by
    rcases hcases with rfl | hmem
    · decide
    · exact (h.guards.held ptr (Or.inr (Or.inr hmem))).aligned.2
  refine Ensures.bind (deref_spec _ _ _) ?_
  rintro t _ ⟨rfl, -, ht⟩
  rw [Obj.task?_eq_some] at ht
  refine Framed.bind (h.maps hP hb ht (hptr ▸ hlt32) _ _ _) ?_
  rintro res k₁ hk₁ ⟨h₁, hb₁, -⟩
  split
  · exact .pure (.refl hk₁.guards) ⟨p, h₁, hb₁⟩
  have hout : process ∉ P := hb.apart _ (Set.mem_insert _ _)
  have hleft : ∀ q ∈ Process.requested
      { p with allocations := processAllocationUnjoin p.allocations ptr },
      q ≠ ptr ∧ q ∈ p.requested := Process.requested_unjoin rfl
  refine Framed.bind (P := fun _ k' => k'.heap_entries = k₁.heap_entries ∧
    LiveProcess S k' process slot
      { p with allocations := processAllocationUnjoin p.allocations ptr }) ?_ ?_
  · refine h₁.deref ((intact_storeObj hk₁.guards hout _).mono ?_)
    intro _ k₂ hk₂ hst
    refine ⟨hst.heap_entries, h₁.stored hst rfl (fun q hq => ?_) fun i hi hzero => ?_⟩
    · have hold := (hleft q hq).2
      exact ⟨h₁.guards.held q (Or.inr (Or.inr hold)), h₁.apart q hold⟩
    · dsimp only at hzero ⊢
      unfold processAllocationUnjoin at hzero ⊢
      split
      · rfl
      · next hcond =>
        rw [if_neg hcond] at hzero
        exact h₁.empty i hi hzero
  rintro _ k₂ hk₂ ⟨he₂, h₂⟩
  have hrel : k₂.Releasable ptr := by
    rcases hcases with rfl | hmem
    · exact releasable_zero k₂
    · exact ((h₁.guards.held ptr (Or.inr (Or.inr hmem))).congr he₂).releasable
  -- all that is left is at another address
  have hself : ∀ q ∈ Process.memory { p with
      allocations := processAllocationUnjoin p.allocations ptr } process S, q ≠ ptr := by
    have hzero : ∀ q ∈ insert process S, q ≠ ptr := by
      rintro q hq rfl
      rcases hcases with rfl | hmem
      · exact (h₂.guards.held 0 (Set.insert_subset_insert Set.subset_union_left hq)).ne_zero rfl
      · obtain ⟨hne, hnot⟩ := h.apart q hmem
        exact hq.elim hne hnot
    rintro q (hq | hq | hq)
    · exact hzero q (Or.inl hq)
    · exact hzero q (Or.inr hq)
    · exact (hleft q hq).1
  have hothers : ∀ q ∈ P, q ≠ ptr := by
    rintro q hq rfl
    rcases hcases with rfl | hmem
    · exact (hP.held 0 hq).ne_zero rfl
    · exact hb.apart q (Or.inr (Or.inr hmem)) hq
  have hguards : Guards { q | k₂.Held q ∧ q ≠ ptr } k₂ := ⟨hk₂.guards.tidy, fun _ hq => hq.1⟩
  refine Framed.ensures (released_kfree hguards hrel fun hmem => hmem.2 rfl) ?_
  intro _ k₃ hk₃ _
  have hk₃' := hk₃.toIntact
  have h₃ := h₂.stays (hk₃'.mono fun q hq => ⟨h₂.guards.held q hq, hself q hq⟩).stays
  exact ⟨hk₃'.mono fun q hq => ⟨hk₂.guards.held q hq, hothers q hq⟩, _, h₃,
    hb.smaller h₃ fun q hq => Or.inl (hleft q hq).2⟩

/-! ### Arguments -/

theorem commandArgumentNext_keeps (current : Nat) (k : Kernel) :
    Ensures (commandArgumentNext current) k fun _ k' => k = k' := .reads rfl

theorem processCountCommandArguments_length (fuel current : Nat) (k : Kernel) :
    Ensures (processCountCommandArguments fuel current) k fun argc k' =>
      k = k' ∧ k.ListLength current argc := by
  induction fuel generalizing current with
  | zero => exact .fails
  | succ fuel ih =>
    unfold processCountCommandArguments
    split
    · next h0 => exact .pure ⟨rfl, h0, fun _ hj => absurd hj (Nat.not_lt_zero _)⟩
    next hne =>
    refine .bind (R := fun next k' => k = k' ∧ k.nextArgument current = next) (.reads ⟨rfl, rfl⟩) ?_
    rintro _ _ ⟨rfl, rfl⟩
    refine .bind (ih _) ?_
    rintro argc _ ⟨rfl, hlen⟩
    exact .pure ⟨rfl, stops_succ_iff.mpr ⟨hne, hlen⟩⟩

/-- Bytes are no structures. -/
theorem LiveProcess.storeBytes (h : LiveProcess S k process slot p) (hP : Guards P k)
    (hb : Beside P (p.memory process S) k) (a : Nat) (bytes : List UInt8) :
    Framed (Intact P) (storeBytes a bytes) k fun _ k' =>
      LiveProcess S k' process slot p ∧ Beside P (p.memory process S) k' := by
  refine .modifies (.of_same hP rfl rfl ⟨rfl, rfl, rfl, rfl, rfl⟩) ?_
  have hsame : Intact (p.memory process S) k { k with mem := writeBytes k.mem a bytes } :=
    .of_same h.guards rfl rfl ⟨rfl, rfl, rfl, rfl, rfl⟩
  have h' := h.stays hsame.stays
  exact ⟨h', h'.guards, hb.apart⟩

theorem LiveProcess.strncpyKernel (dest src fuel : Nat) :
    ∀ (i : Nat) {k : Kernel}, LiveProcess S k process slot p → Guards P k →
      Beside P (p.memory process S) k →
      Framed (Intact P) (strncpyKernel dest src fuel i) k fun _ k' =>
        LiveProcess S k' process slot p ∧ Beside P (p.memory process S) k' := by
  induction fuel with
  | zero => exact fun i k h hP hb => h.storeBytes hP hb _ _
  | succ fuel ih =>
    intro i k h hP hb
    refine Framed.bind (intact_reads hP _) ?_
    rintro c _ - ⟨rfl, -⟩
    split
    · exact h.storeBytes hP hb _ _
    refine Framed.bind (h.storeBytes hP hb _ _) ?_
    rintro _ k₁ hk₁ ⟨h₁, hb₁⟩
    exact ih (i + 1) h₁ hk₁.guards hb₁

theorem processInjectLoop_live (argv fuel : Nat) :
    ∀ (current i : Nat) {k : Kernel}, Guards P k → LeavesLive P S process slot k →
      Framed (Intact P) (processInjectLoop process argv fuel current i) k fun _ k' =>
        LeavesLive P S process slot k' := by
  induction fuel with
  | zero => exact fun _ _ _ _ _ => .fails
  | succ fuel ih =>
    rintro current i k hP ⟨p, h, hb⟩
    unfold processInjectLoop
    split
    · exact .pure (.refl hP) ⟨p, h, hb⟩
    refine Framed.bind (processMalloc_live hP h hb (by decide)) ?_
    rintro argument_str k₁ hk₁ ⟨p₁, h₁, hb₁⟩
    split
    · exact .pure (.refl hk₁.guards) ⟨p₁, h₁, hb₁⟩
    refine Framed.bind (h₁.strncpyKernel _ _ _ _ hk₁.guards hb₁) ?_
    rintro _ k₂ hk₂ ⟨h₂, hb₂⟩
    refine Framed.bind (h₂.storeBytes hk₂.guards hb₂ _ _) ?_
    rintro _ k₃ hk₃ ⟨h₃, hb₃⟩
    refine Framed.bind (P := fun _ k' => k₃ = k')
      ((commandArgumentNext_keeps _ _).mono fun _ _ hk => ⟨hk ▸ .refl hk₃.guards, hk⟩) ?_
    rintro next _ - rfl
    exact ih next (i + 1) hk₃.guards ⟨p₁, h₃, hb₃⟩

/-- The arguments of a process are in memory of its own. -/
theorem processInjectArguments_live {root_argument : Nat} (hP : Guards P k)
    (h : LiveProcess S k process slot p) (hb : Beside P (p.memory process S) k)
    (hshort : ∀ n, k.ListLength root_argument n → n < 0x40000000) :
    Framed (Intact P) (processInjectArguments process root_argument) k fun _ k' =>
      LeavesLive P S process slot k' := by
  rw [processInjectArguments_eq]
  generalize commandArgumentFuel = fuel
  refine Framed.bind (P := fun argc k' => k = k' ∧ argc < 0x40000000)
    ((processCountCommandArguments_length fuel root_argument k).mono ?_) ?_
  · rintro argc _ ⟨rfl, hlen⟩
    exact ⟨.refl hP, rfl, hshort argc hlen⟩
  rintro argc _ - ⟨rfl, hlt⟩
  split
  · exact .pure (.refl hP) ⟨p, h, hb⟩
  next hargc =>
  refine Framed.bind (processMalloc_live hP h hb (by unfold u32; omega)) ?_
  rintro argv k₁ hk₁ hl₁
  refine Framed.bind (processInjectLoop_live _ _ _ _ hk₁.guards hl₁) ?_
  rintro complete k₂ hk₂ ⟨p₂, h₂, hb₂⟩
  split
  · exact .pure (.refl hk₂.guards) ⟨p₂, h₂, hb₂⟩
  refine Framed.bind (P := fun _ k' => LeavesLive P S process slot k') ?_
    fun _ k₃ hk₃ hl => .pure (.refl hk₃.guards) hl
  refine h₂.deref ((intact_storeObj hk₂.guards (hb₂.apart _ (Set.mem_insert _ _)) _).mono ?_)
  intro _ k₃ hk₃ hst
  have hsame : Process.requested { p₂ with arguments := ⟨i32 argc, argv⟩ } = p₂.requested :=
    Process.requested_congr rfl
  have h₃ := h₂.stored hst rfl (fun q hq => by
    rw [hsame] at hq
    exact ⟨h₂.guards.held q (Or.inr (Or.inr hq)), h₂.apart q hq⟩) h₂.empty
  exact ⟨_, h₃, hb₂.smaller h₃ fun q hq => Or.inl (hsame ▸ hq)⟩

end Requests

/-! ### The end -/

section Terminate

variable {P S : Set Nat} {k k' : Kernel} {process slot : Nat} {p : Process}

theorem processTerminateAllocationsLoop_live :
    ∀ (fuel i : Nat) (k : Kernel), Guards P k → LeavesLive P S process slot k →
      Framed (Intact P) (processTerminateAllocationsLoop process fuel i) k fun _ k' =>
        LeavesLive P S process slot k' := by
  intro fuel
  induction fuel with
  | zero => exact fun i k hP hl => .pure (.refl hP) hl
  | succ fuel ih =>
    rintro i k hP ⟨p, h, hb⟩
    refine h.deref (Framed.bind (processFree_live hP h hb) ?_)
    intro _ k₁ hk₁ hl₁
    exact ih (i + 1) k₁ hk₁.guards hl₁

theorem Unlinked.after (h : Unlinked P k' slot process k) {k₀ : Kernel} (hk : Intact P k₀ k') :
    Unlinked P k₀ slot process k where
  guards := h.guards
  objs q hq := by
    rw [← hk.objs q hq]
    exact h.objs q hq
  processes := by rw [h.processes, hk.lists.processes]
  other := by
    rw [← hk.lists.current_process]
    exact h.other
  current := by
    rw [← hk.lists.current_process]
    exact h.current

theorem Unlinked.mono {P' : Set Nat} (h : Unlinked P k slot process k') (hP : P' ⊆ P) :
    Unlinked P' k slot process k' where
  guards := h.guards.mono hP
  objs q hq := h.objs q (hP hq)
  processes := h.processes
  other := h.other
  current := h.current

/-- The end of a process releases its own memory and no other, and the process itself not. -/
theorem processTerminate_unlinked (hP : Guards P k) (h : LiveProcess S k process slot p)
    (hb : Beside P (p.memory process S) k) :
    Ensures (processTerminate process) k fun res k' =>
      res = 0 ∧ k'.Held process ∧ Unlinked P k slot process k' := by
  refine .bind (processTerminateAllocationsLoop_live _ _ k hP ⟨p, h, hb⟩) ?_
  rintro _ k₁ ⟨hk₁, p₁, h₁, hb₁⟩
  -- the process is not released with the rest
  have hmem : process ∈ insert process P := Set.mem_insert _ _
  have hguards : Guards (insert process P) k₁ := hk₁.guards.insert h₁.held
  have hdisp : ∀ q ∈ S, k₁.Disposable (insert process P) q := by
    refine fun q hq => ⟨(h₁.own.held q hq).releasable, ?_⟩
    rintro (rfl | hmem)
    · exact h₁.notMem hq
    · exact hb₁.apart q (Or.inr (Or.inl hq)) hmem
  refine .bind (processFreeProgramData_released hdisp hmem h₁.obj h₁.program (.refl hguards)) ?_
  rintro _ k₂ ⟨hk₂, rfl⟩
  rw [if_neg (lt_irrefl 0)]
  refine .bind (deref_spec _ _ _) ?_
  rintro p' _ ⟨rfl, -, hp'⟩
  rw [Obj.process?_eq_some, hk₂.objs process hmem, h₁.obj] at hp'
  cases hp'
  refine .bind (released_kfree hk₂.guards (hk₂.releasable _ (hdisp _ h₁.stack).1)
    (hdisp _ h₁.stack).2) ?_
  rintro _ k₃ ⟨hk₃, -⟩
  have hk₃ := hk₂.trans hk₃
  refine .bind (taskFree_stays hdisp (hdisp _ h₁.task_mem) h₁.task hk₃) ?_
  rintro _ k₄ ⟨hk₄, -⟩
  refine .bind (processUnlink_unlinked (hk₃.toIntact.stays.trans hk₄) hmem h₁.obj) ?_
  intro _ k₅ hk₅
  rw [h₁.id] at hk₅
  exact .pure ⟨rfl, hk₅.guards.held _ hmem, (hk₅.mono (Set.subset_insert _ _)).after hk₁⟩

end Terminate

end PlumOS
