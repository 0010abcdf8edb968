import PlumOS.Memory.SpaceOwnership
import PlumOS.Task.LoadOwnership
import PlumOS.Task.ProcessMallocFail

/-!
# What a process owns

A process that is loaded has its program, its stack, its task and the address space of the
task in memory of its own, apart from all that was allocated before. Loading and
terminating it leaves all other allocations as they are, but for the links between tasks.
The block of the process itself is released by no path.

## Main definitions

- `Relinked` — only the links between tasks differ
- `Stays` — allocations that are left as they are, but for these links
- `OwnsProcess` — what belongs to a process

## Main results

- `taskNew_stays`, `taskFree_stays` — a new task has its own memory, and gives it back
- `processLoadForSlot_leaves` — what a load leaves, whether it succeeds or fails
- `processFreeProgramData_released`, `processUnlink_unlinked` — the last steps of a process
-/

namespace PlumOS

open StateExcept

-- the rule for a sequence is used once for each statement of a function
set_option synthInstance.maxSize 512

/-! ### Links between tasks -/

/-- The structure is the same, or the same task with other neighbours. -/
def SameButLinks (o o' : Option Obj) : Prop :=
  o' = o ∨ ∃ (t : Task) (next prev : Nat),
    o = some (.task t) ∧ o' = some (.task { t with next, prev })

theorem SameButLinks.trans {o₁ o₂ o₃ : Option Obj} (h : SameButLinks o₁ o₂)
    (h' : SameButLinks o₂ o₃) : SameButLinks o₁ o₃ := by
  rcases h with rfl | ⟨t, next, prev, ho₁, ho₂⟩
  · exact h'
  rcases h' with rfl | ⟨t', next', prev', ho₂', ho₃⟩
  · exact Or.inr ⟨t, next, prev, ho₁, ho₂⟩
  · rw [ho₂] at ho₂'
    cases ho₂'
    exact Or.inr ⟨t, next', prev', ho₁, ho₃⟩

/-- A structure that is no task is the same. -/
theorem SameButLinks.eq_some {o : Obj} {o' : Option Obj} (h : SameButLinks (some o) o')
    (ho : ∀ t, o ≠ .task t) : o' = some o := by
  rcases h with rfl | ⟨t, -, -, ht, -⟩
  · rfl
  · cases ht
    exact absurd rfl (ho t)

theorem SameButLinks.task {t : Task} {o' : Option Obj} (h : SameButLinks (some (.task t)) o') :
    ∃ t' : Task, o' = some (.task t') ∧ t'.page_directory = t.page_directory := by
  rcases h with rfl | ⟨t, next, prev, ⟨⟩, rfl⟩
  · exact ⟨t, rfl, rfl⟩
  · exact ⟨_, rfl, rfl⟩

/-- Nothing is allocated or released, and of the structures the links alone differ. -/
structure Relinked (k k' : Kernel) : Prop where
  heap_entries : k'.heap_entries = k.heap_entries
  objs : ∀ p, SameButLinks (k.objs p) (k'.objs p)
  processes : k'.processes = k.processes
  current_process : k'.current_process = k.current_process

instance : Std.Refl Relinked := ⟨fun _ => ⟨rfl, fun _ => Or.inl rfl, rfl, rfl⟩⟩

instance : IsTrans Kernel Relinked where
  trans _ _ _ h h' :=
    ⟨h'.heap_entries.trans h.heap_entries, fun p => (h.objs p).trans (h'.objs p),
      h'.processes.trans h.processes, h'.current_process.trans h.current_process⟩

/-- Storing other links. -/
theorem modifyTask_relinked (p : Nat) {f : Task → Task}
    (hf : ∀ t, ∃ next prev, f t = { t with next, prev }) : Within Relinked (modifyTask p f) where
  within k := by
    refine .bind (deref_spec _ _ _) ?_
    rintro t _ ⟨rfl, -, ht⟩
    rw [Obj.task?_eq_some] at ht
    refine (storeObj_spec _ _ _).ensures.mono fun _ k' hst => ?_
    refine ⟨hst.heap_entries, fun q => ?_, hst.globals.processes, hst.globals.current_process⟩
    by_cases hq : q = p
    · subst hq
      obtain ⟨next, prev, hlinks⟩ := hf t
      rw [hst.self, hlinks]
      exact Or.inr ⟨t, next, prev, ht, rfl⟩
    · exact Or.inl (hst.other q hq)

instance modifyTask_next_relinked (p next : Nat) :
    Within Relinked (modifyTask p fun t => { t with next := next }) :=
  modifyTask_relinked p fun t => ⟨next, t.prev, rfl⟩

instance modifyTask_prev_relinked (p prev : Nat) :
    Within Relinked (modifyTask p fun t => { t with prev := prev }) :=
  modifyTask_relinked p fun t => ⟨t.next, prev, rfl⟩

/-- The ends of the list and the current task are no structures. -/
theorem modifies_relinked {f : Kernel → Kernel} (he : ∀ k, (f k).heap_entries = k.heap_entries)
    (ho : ∀ k, (f k).objs = k.objs) (hp : ∀ k, (f k).processes = k.processes)
    (hc : ∀ k, (f k).current_process = k.current_process) :
    Within Relinked (modifies f : KM PUnit) :=
  .modifies fun k => ⟨he k, fun _ => Or.inl (by rw [ho]), hp k, hc k⟩

instance taskListRemove_relinked (task : Nat) : Within Relinked (taskListRemove task) := by
  have hhead (p : Nat) : Within Relinked
      (modifies fun k : Kernel => { k with task_head := p } : KM PUnit) :=
    modifies_relinked (fun _ => rfl) (fun _ => rfl) (fun _ => rfl) fun _ => rfl
  have htail (p : Nat) : Within Relinked
      (modifies fun k : Kernel => { k with task_tail := p } : KM PUnit) :=
    modifies_relinked (fun _ => rfl) (fun _ => rfl) (fun _ => rfl) fun _ => rfl
  have hcurrent (p : Nat) : Within Relinked
      (modifies fun k : Kernel => { k with current_task := p } : KM PUnit) :=
    modifies_relinked (fun _ => rfl) (fun _ => rfl) (fun _ => rfl) fun _ => rfl
  unfold taskListRemove taskGetNext
  infer_instance

instance taskAppend_relinked (task : Nat) : Within Relinked (taskAppend task) := by
  have hall (p : Nat) : Within Relinked (modifies fun k : Kernel =>
      { k with task_head := p, task_tail := p, current_task := p } : KM PUnit) :=
    modifies_relinked (fun _ => rfl) (fun _ => rfl) (fun _ => rfl) fun _ => rfl
  have htail (p : Nat) : Within Relinked
      (modifies fun k : Kernel => { k with task_tail := p } : KM PUnit) :=
    modifies_relinked (fun _ => rfl) (fun _ => rfl) (fun _ => rfl) fun _ => rfl
  unfold taskAppend
  infer_instance

/-- The allocations `P` are there in `k'` as they were in `k`, but for the links of the
tasks among them. -/
structure Stays (P : Set Nat) (k k' : Kernel) : Prop where
  guards : Guards P k'
  objs : ∀ p ∈ P, SameButLinks (k.objs p) (k'.objs p)
  processes : k'.processes = k.processes
  current_process : k'.current_process = k.current_process

section Stays

variable {P S : Set Nat} {k k' k₁ k₂ k₃ : Kernel} {p chunk : Nat}

theorem Intact.stays (h : Intact P k k') : Stays P k k' :=
  ⟨h.guards, fun p hp => Or.inl (h.objs p hp), h.lists.processes, h.lists.current_process⟩

theorem Stays.refl (h : Guards P k) : Stays P k k := (Intact.refl h).stays

theorem Stays.trans (h : Stays P k₁ k₂) (h' : Stays P k₂ k₃) : Stays P k₁ k₃ where
  guards := h'.guards
  objs p hp := (h.objs p hp).trans (h'.objs p hp)
  processes := h'.processes.trans h.processes
  current_process := h'.current_process.trans h.current_process

instance : IsTrans Kernel (Stays P) := ⟨fun _ _ _ => Stays.trans⟩

theorem Stays.mono (h : Stays P k k') (hS : S ⊆ P) : Stays S k k' :=
  ⟨h.guards.mono hS, fun p hp => h.objs p (hS hp), h.processes, h.current_process⟩

theorem Relinked.stays (h : Relinked k k') (hk : Guards P k) : Stays P k k' where
  guards := ⟨hk.tidy.congr h.heap_entries, fun p hp => (hk.held p hp).congr h.heap_entries⟩
  objs p _ := h.objs p
  processes := h.processes
  current_process := h.current_process

theorem HoldsSpace.stays (h : HoldsSpace S k chunk) (hk : Stays S k k') :
    HoldsSpace S k' chunk := by
  obtain ⟨hc, d, w, hchunk, hd, hw, htables⟩ := h
  refine ⟨hc, d, w, ?_, hd, ?_, htables⟩
  · have := hk.objs chunk hc
    rw [hchunk] at this
    exact this.eq_some fun _ h => by cases h
  · have := hk.objs d hd
    rw [hw] at this
    exact this.eq_some fun _ h => by cases h

end Stays

/-! ### Tasks -/

section Task

variable {P U : Set Nat} {k k' : Kernel} {task : Nat}

/-- The task has its address space in `U`. -/
def OwnsTask (U : Set Nat) (k : Kernel) (task : Nat) : Prop :=
  ∃ t, k.objs task = some (.task t) ∧ HoldsSpace U k t.page_directory

theorem OwnsTask.stays (h : OwnsTask U k task) (htask : SameButLinks (k.objs task) (k'.objs task))
    (hk : Stays U k k') : OwnsTask U k' task := by
  obtain ⟨t, ht, hs⟩ := h
  rw [ht] at htask
  obtain ⟨t', ht', hd⟩ := htask.task
  exact ⟨t', ht', hd ▸ hs.stays hk⟩

/-- Removing a task releases its own memory and no other, also when some of that was
released before. -/
theorem taskFree_stays {k₁ : Kernel} (hU : ∀ p ∈ U, k.Disposable P p)
    (htask : k.Disposable P task) (ho : OwnsTask U k task) (hk₁ : Released P k k₁) :
    Framed (Stays P) (taskFree task) k₁ fun _ _ => True := by
  obtain ⟨t, ht, hs⟩ := ho
  refine Ensures.bind (deref_spec _ _ _) ?_
  rintro t₁ _ ⟨rfl, -, ht₁⟩
  have htold := hk₁.eq_some (Obj.task?_eq_some.mp ht₁)
  rw [ht] at htold
  cases htold
  refine Framed.bind ((pagingFree4gb_released hU hs hk₁).weaken fun _ hk => hk.toIntact.stays) ?_
  rintro _ k₂ - ⟨hk₂, -⟩
  refine Framed.bind (P := fun _ k₃ => k₃.heap_entries = k₂.heap_entries)
    ((Within.ensures (R := Relinked) _ k₂).mono fun _ _ h => ⟨h.stays hk₂.guards, h.heap_entries⟩) ?_
  intro _ k₃ hk₃ he
  have hrel := ((hk₁.trans hk₂).releasable task htask.1).congr he
  refine Framed.bind ((released_kfree hk₃.guards hrel htask.2).weaken fun _ hk =>
    hk.toIntact.stays) ?_
  rintro _ k₄ - ⟨hk₄, -⟩
  exact .pure (.refl hk₄.guards) trivial

theorem taskEntry_keeps (p : Process) (k : Kernel) : Ensures (taskEntry p) k fun _ k' => k = k' := by
  unfold taskEntry
  split
  · refine .bind (elfHeader_spec _ k) ?_
    rintro header _ rfl
    exact .pure rfl
  · exact .pure rfl

/-- The address space that `task_init` gives to a task is new. -/
theorem taskInit_intact (h : Guards P k) (hout : task ∉ P) (hheld : k.Held task) (process : Nat) :
    Framed (Intact P) (taskInit task process) k fun res k' => res = PLUMOS_ALL_OK ∧
      k'.Held task ∧ ∃ U, Beside (insert task P) U k' ∧ OwnsTask U k' task := by
  refine Framed.bind (intact_storeObj h hout _) ?_
  intro _ k₁ hk₁ hst₁
  have hheld₁ := hheld.congr hst₁.heap_entries
  refine Framed.bind ((pagingNew4gb_intact (by decide) (hk₁.guards.insert hheld₁)).weaken
    fun _ => Intact.tail) ?_
  rintro chunk k₂ - ⟨hk₂, U, hU, hs⟩
  have hnot : task ∉ U := fun hmem => hU.apart task hmem (Set.mem_insert _ _)
  refine Framed.bind (intact_modify Obj.task?_eq_some hk₂.tail.guards hout _) ?_
  rintro _ k₃ hk₃ ⟨t₂, ht₂, hst₃⟩
  have hU₃ : Intact U k₂ k₃ := .stored hU.toGuards hst₃ hnot
  have hs₃ : HoldsSpace U k₃ chunk := hs.stays hU₃.stays
  have hheld₃ := hk₂.head.1.congr hst₃.heap_entries
  split
  · next h0 => exact absurd (h0 ▸ hU₃.guards.held chunk hs₃.1) fun h => h.ne_zero rfl
  refine Framed.bind (intact_deref hk₃.guards _ _) ?_
  rintro p _ - ⟨rfl, -, -⟩
  refine Framed.bind (P := fun _ k' => k₃ = k') ((taskEntry_keeps p k₃).mono ?_) ?_
  · rintro _ _ rfl
    exact ⟨.refl hk₃.guards, rfl⟩
  rintro ip _ - rfl
  refine Framed.bind (intact_modify Obj.task?_eq_some hk₃.guards hout _) ?_
  rintro _ k₄ hk₄ ⟨t₃, ht₃, hst₄⟩
  rw [hst₃.self] at ht₃
  cases ht₃
  have hU₄ : Intact U k₃ k₄ := .stored hU₃.guards hst₄ hnot
  exact .pure (.refl hk₄.guards) ⟨rfl, hheld₃.congr hst₄.heap_entries, U, ⟨hU₄.guards, hU.apart⟩, _,
    hst₄.self, hs₃.stays hU₄.stays⟩

/-- A new task is in new memory with its address space. -/
theorem taskNew_stays (h : Guards P k) (process : Nat) :
    Framed (Stays P) (taskNew process) k fun task k' => task ∉ P ∧ k'.Held task ∧
      ∃ U, Beside (insert task P) U k' ∧ OwnsTask U k' task := by
  refine Framed.bind ((kzallocObj_made h (by decide) _).weaken fun _ => Intact.stays) ?_
  rintro task k₁ - ⟨hk₁, hnew⟩
  split
  · -- the error exit looks into the task that was not allocated
    next h0 =>
    refine Ensures.bind (Ensures.bind (deref_spec _ _ _) ?_) (R := fun _ _ => False)
      fun _ _ hf => hf.elim
    rintro t _ ⟨-, hne, -⟩
    exact absurd h0 hne
  next hne =>
  obtain ⟨hnew, -⟩ := hnew.resolve_left fun h0 => hne h0.1
  refine Framed.bind ((taskInit_intact hk₁.guards hnew.not_mem hnew.held process).weaken
    fun _ => Intact.stays) ?_
  rintro res k₂ - ⟨hk₂, rfl, hheld, U, hU, hown⟩
  rw [if_neg fun h => h rfl]
  refine Framed.bind (P := fun _ k₃ => Relinked k₂ k₃)
    ((Within.ensures (R := Relinked) _ k₂).mono fun _ _ h => ⟨h.stays hk₂.guards, h⟩) ?_
  intro _ k₃ hk₃ hlinks
  exact .pure (.refl hk₃.guards) ⟨hnew.not_mem, hheld.congr hlinks.heap_entries, U,
    hU.congr hlinks.heap_entries, hown.stays (hlinks.objs task) (hlinks.stays hU.toGuards)⟩

end Task

/-! ### Mapping the program -/

section Map

variable {P U : Set Nat} {k k' : Kernel} {process : Nat} {p : Process} {t : Task}

/-- The process and its task are in `P`, and the task's address space is in `U` beside it. -/
structure Mapping (P U : Set Nat) (k : Kernel) (process : Nat) (p : Process) (t : Task) : Prop where
  guards : Guards P k
  mem : process ∈ P
  task_mem : p.task ∈ P
  obj : k.objs process = some (.process p)
  task_obj : k.objs p.task = some (.task t)
  beside : Beside P U k
  space : HoldsSpace U k t.page_directory

theorem Mapping.deref_process {α : Type} {f : Process → KM α} {Q : α → Kernel → Prop}
    (h : Mapping P U k process p t) (hf : Framed (Intact P) (f p) k Q) :
    Framed (Intact P) (deref Obj.process? process >>= f) k Q := by
  refine Framed.bind (intact_deref h.guards _ _) ?_
  rintro p' _ - ⟨rfl, -, hp'⟩
  rw [Obj.process?_eq_some, h.obj] at hp'
  cases hp'
  exact hf

theorem Mapping.deref_task {α : Type} {f : Task → KM α} {Q : α → Kernel → Prop}
    (h : Mapping P U k process p t) (hf : Framed (Intact P) (f t) k Q) :
    Framed (Intact P) (deref Obj.task? p.task >>= f) k Q := by
  refine Framed.bind (intact_deref h.guards _ _) ?_
  rintro t' _ - ⟨rfl, -, ht'⟩
  rw [Obj.task?_eq_some, h.task_obj] at ht'
  cases ht'
  exact hf

theorem Mapping.maps (h : Mapping P U k process p t) {virt : Nat}
    (hv : virt < 0x100000000) (phys phys_end flags : Nat) :
    Framed (Intact P) (pagingMapTo t.page_directory virt phys phys_end flags) k fun _ k' =>
      Mapping P U k' process p t := by
  refine (pagingMapTo_intact h.guards h.beside.apart h.space hv phys phys_end flags).mono ?_
  rintro _ k' hk' ⟨hs, he⟩
  exact
    { guards := hk'.guards
      mem := h.mem
      task_mem := h.task_mem
      obj := (hk'.objs _ h.mem).trans h.obj
      task_obj := (hk'.objs _ h.task_mem).trans h.task_obj
      beside := h.beside.congr he
      space := hs }

theorem processMapElfLoop_intact (phdrs : Nat) (file : ElfFile) :
    ∀ (fuel i : Nat) (k : Kernel), Mapping P U k process p t →
      Framed (Intact P) (processMapElfLoop process phdrs file fuel i) k fun _ k' =>
        Mapping P U k' process p t := by
  intro fuel
  induction fuel with
  | zero => exact fun i k h => .pure (.refl h.guards) h
  | succ fuel ih =>
    intro i k h
    refine Framed.bind (P := fun phdr k' => k = k' ∧ phdr.p_vaddr < 0x100000000) ?_ ?_
    · refine (derefMem_spec _ _ _).mono ?_
      rintro _ _ ⟨rfl, -, rfl⟩
      exact ⟨.refl h.guards, rfl, readWord_lt _ _⟩
    rintro phdr _ - ⟨rfl, hv⟩
    refine h.deref_process (h.deref_task ?_)
    refine Framed.bind (h.maps ((Nat.sub_le _ _).trans_lt hv) _ _ _) ?_
    intro res k₁ hk₁ h₁
    split
    · exact .pure (.refl hk₁.guards) h₁
    · exact ih (i + 1) k₁ h₁

/-- What is mapped behind the program: the stack, if that succeeded. -/
private theorem processMapStack_intact (h : Mapping P U k process p t) (res : Int) :
    Framed (Intact P) (do
      if res < 0 then pure res
      else do
        let p ← deref Obj.process? process
        let t ← deref Obj.task? p.task
        let _ ← pagingMapTo t.page_directory PLUMOS_PROGRAM_VIRTUAL_STACK_ADDRESS_END p.stack
          (pagingAlignAddress (u32 ((p.stack + PLUMOS_USER_PROGRAM_STACK_SIZE : Nat) : Int)))
          userWriteable
        pure res : KM Int) k fun _ k' => Mapping P U k' process p t := by
  split
  · exact .pure (.refl h.guards) h
  refine h.deref_process (h.deref_task ?_)
  refine Framed.bind (h.maps (by decide) _ _ _) ?_
  intro _ k₁ hk₁ h₁
  exact .pure (.refl hk₁.guards) h₁

/-- Mapping a program writes its own page tables, and no other memory. -/
theorem processMapMemory_intact (h : Mapping P U k process p t) :
    Framed (Intact P) (processMapMemory process) k fun _ k' => Mapping P U k' process p t := by
  unfold processMapMemory
  refine h.deref_process ?_
  dsimp only
  split
  · refine Framed.bind (P := fun _ k' => Mapping P U k' process p t) ?_
      fun res k₁ _ h₁ => processMapStack_intact h₁ res
    unfold processMapElf
    refine h.deref_process ?_
    refine Framed.bind (elfHeader_intact h.guards _) ?_
    rintro header _ - rfl
    refine Framed.bind (intact_deref h.guards _ _) ?_
    rintro file _ - ⟨rfl, -, -⟩
    exact processMapElfLoop_intact _ _ _ _ _ h
  split
  · refine Framed.bind (P := fun _ k' => Mapping P U k' process p t) ?_
      fun res k₁ _ h₁ => processMapStack_intact h₁ res
    unfold processMapBinary
    refine h.deref_process (h.deref_task ?_)
    refine Framed.bind (h.maps (by decide) _ _ _) ?_
    intro _ k₁ hk₁ h₁
    exact .pure (.refl hk₁.guards) h₁
  · exact Framed.bind (P := fun _ _ => False) .fails fun _ _ _ hf => hf.elim

end Map

/-! ### Loading -/

section Load

variable {P S T U : Set Nat} {k k' k₁ : Kernel} {process slot : Nat} {p : Process}

theorem OwnsProgram.stays (h : OwnsProgram T k p) (hk : Stays T k k') : OwnsProgram T k' p := by
  refine h.imp_right ?_
  rintro ⟨htype, hmem, f, hf, hmemory⟩
  have hlinks := hk.objs _ hmem
  rw [hf] at hlinks
  exact ⟨htype, hmem, f, hlinks.eq_some (fun _ h => by cases h), hmemory⟩

theorem OwnsProgram.mono (h : OwnsProgram T k p) (hS : T ⊆ S) : OwnsProgram S k p := by
  refine h.imp (fun hbin => ⟨hbin.1, hS hbin.2⟩) ?_
  rintro ⟨htype, hmem, f, hf, hmemory⟩
  exact ⟨htype, hS hmem, f, hf, hmemory.imp_right fun hmem => hS hmem⟩

/-- The process with the number `slot` has no memory but the program, the stack and the
task in `S`. -/
structure OwnsProcess (S : Set Nat) (k : Kernel) (process slot : Nat) (p : Process) : Prop where
  obj : k.objs process = some (.process p)
  id : p.id = slot
  allocations : ∀ i, p.allocations i = ⟨0, 0⟩
  program : OwnsProgram S k p
  stack : p.stack ∈ S
  task_mem : p.task ∈ S
  task : OwnsTask S k p.task

theorem OwnsProcess.congr (h : OwnsProcess S k process slot p) (ho : k'.objs = k.objs) :
    OwnsProcess S k' process slot p where
  obj := by rw [ho, h.obj]
  id := h.id
  allocations := h.allocations
  program := by
    unfold OwnsProgram OwnsElf
    rw [ho]
    exact h.program
  stack := h.stack
  task_mem := h.task_mem
  task := by
    unfold OwnsTask HoldsSpace
    rw [ho]
    exact h.task

/-- A process whose program is mapped owns all that it was given. -/
theorem Mapping.ownsProcess {t : Task} {task : Nat}
    (h : Mapping (insert task (insert process (P ∪ T))) U k process p t) (htask : p.task = task)
    (hT : ∀ q ∈ T, q ∉ insert process P) (hout : task ∉ insert process (P ∪ T))
    (hprogram : OwnsProgram T k p) (hstack : p.stack ∈ T)
    (halloc : ∀ i, p.allocations i = ⟨0, 0⟩) :
    Beside (insert process P) (insert task (T ∪ U)) k ∧
      OwnsProcess (insert task (T ∪ U)) k process p.id p := by
  subst htask
  have hsub : insert process P ⊆ insert process (P ∪ T) :=
    Set.insert_subset_insert Set.subset_union_left
  refine ⟨⟨?_, ?_⟩, h.obj, rfl, halloc, hprogram.mono fun q hq => Or.inr (Or.inl hq),
    Or.inr (Or.inl hstack), Set.mem_insert _ _, t, h.task_obj, ?_⟩
  · have hguard : Guards (insert p.task T) k := by
      refine h.guards.mono ?_
      rintro q (rfl | hq)
      · exact Set.mem_insert _ _
      · exact Or.inr (Or.inr (Or.inr hq))
    rw [← Set.insert_union]
    exact hguard.union h.beside.toGuards
  · rintro q (rfl | hq | hq)
    · exact fun hmem => hout (hsub hmem)
    · exact hT q hq
    · exact fun hmem => h.beside.apart q hq (Set.mem_insert_of_mem _ (hsub hmem))
  · exact h.space.mono fun q hq => Or.inr (Or.inr hq)

/-- `k'` is a state with `process` loaded into `slot`, and `P` left as it was in `k`. -/
structure Loaded (P : Set Nat) (k : Kernel) (slot process : Nat) (k' : Kernel) : Prop where
  held : k'.Held process
  stays : ∃ k₁, Stays P k k₁ ∧
    k' = { k₁ with processes := Function.update k₁.processes slot process }
  owns : ∃ S p, Beside (insert process P) S k' ∧ OwnsProcess S k' process slot p

/-- What a load leaves: the process, or an error with the process still allocated. -/
def LoadLeaves (P : Set Nat) (k : Kernel) (slot process : Nat) (r : Int × Nat) (k' : Kernel) :
    Prop :=
  r.1 < 0 ∧ Stays P k k' ∧ k'.Held process ∨ 0 ≤ r.1 ∧ r.2 = process ∧ Loaded P k slot process k'

theorem LoadLeaves.after {k₀ : Kernel} {r : Int × Nat} (h : LoadLeaves P k slot process r k')
    (hk : Stays P k₀ k) : LoadLeaves P k₀ slot process r k' := by
  rcases h with ⟨hneg, hstays, hheld⟩ | ⟨hnonneg, hr, hheld, ⟨k₁, hstays, hk'⟩, howns⟩
  · exact Or.inl ⟨hneg, hk.trans hstays, hheld⟩
  · exact Or.inr ⟨hnonneg, hr, hheld, ⟨k₁, hk.trans hstays, hk'⟩, howns⟩

/-- The error exit before there is a task. -/
theorem processLoadFail_keeps
    (hobj : k.objs process = some (.process p)) (h0 : p.task = 0) (res : Int) :
    Ensures (processLoadFail process res) k fun r k' => r.1 = res ∧ k = k' := by
  unfold processLoadFail
  split
  · exact .pure ⟨rfl, rfl⟩
  refine .bind (deref_spec _ _ _) ?_
  rintro p' _ ⟨rfl, -, hp'⟩
  rw [Obj.process?_eq_some, hobj] at hp'
  cases hp'
  rw [if_pos h0]
  exact .pure ⟨rfl, rfl⟩

/-- The error exit with a task. -/
theorem processLoadFail_task (hobj : k.objs process = some (.process p)) (hne : p.task ≠ 0)
    (res : Int) (hprocess : process ≠ 0)
    (hfree : Framed (Stays P) (taskFree p.task) k fun _ _ => True) :
    Ensures (processLoadFail process res) k fun r k' => r.1 = res ∧ Stays P k k' := by
  unfold processLoadFail
  rw [if_neg hprocess]
  refine .bind (deref_spec _ _ _) ?_
  rintro p' _ ⟨rfl, -, hp'⟩
  rw [Obj.process?_eq_some, hobj] at hp'
  cases hp'
  rw [if_neg hne]
  refine .bind hfree ?_
  rintro _ k₁ ⟨hk₁, -⟩
  exact .pure ⟨rfl, hk₁⟩

/-- From the stack on. -/
theorem processLoadTask_leaves (h : Guards P k) (hout : process ∉ P) (hheld : k.Held process)
    (hobj : k.objs process = some (.process p)) (halloc : ∀ i, p.allocations i = ⟨0, 0⟩)
    (hT : Beside (insert process P) T k) (hprogram : OwnsProgram T k p) {stack : Nat}
    (hstack : stack ∈ T) (filename : List UInt8) :
    Ensures (processLoadTask filename process stack slot) k (LoadLeaves P k slot process) := by
  have hnot : process ∉ T := fun hmem => hT.apart _ hmem (Set.mem_insert _ _)
  refine .bind (intact_modify Obj.process?_eq_some (h.union hT.toGuards) ?_ _) ?_
  · rintro (hP | hmem)
    · exact hout hP
    · exact hnot hmem
  rintro _ k₁ ⟨hk₁, p₀, hp₀, hst₁⟩
  rw [hobj] at hp₀
  cases hp₀
  have hheld₁ := hheld.congr hst₁.heap_entries
  have hprogram₁ := hprogram.stays hk₁.right.stays
  -- the task is apart from all that the process has so far
  have h₁ : Guards (insert process (P ∪ T)) k₁ := hk₁.guards.insert hheld₁
  refine .bind (taskNew_stays h₁ process) ?_
  rintro task k₂ ⟨hk₂, houtt, hheldt, U, hU, t, ht, hs⟩
  split
  · next h0 =>
    refine absurd h0 ?_
    obtain ⟨b, hb, rfl, -⟩ := hheldt
    unfold ERROR_I blockAddress
    rw [i32_of_range (by omega) (by omega)]
    omega
  have hproct : task ≠ process := fun heq => houtt (heq ▸ Set.mem_insert _ _)
  have hprocU : process ∉ U := fun hmem => hU.apart _ hmem (Or.inr (Set.mem_insert _ _))
  have hproc₂ := hk₂.objs process (Set.mem_insert _ _)
  rw [hst₁.self] at hproc₂
  have hproc₂ := hproc₂.eq_some fun _ h => by cases h
  have hout₂ : process ∉ insert task (P ∪ T) ∪ U := by
    rintro ((heq | hP | hmem) | hmem)
    · exact hproct heq.symm
    · exact hout hP
    · exact hnot hmem
    · exact hprocU hmem
  have h₂ : Guards (insert task (P ∪ T) ∪ U) k₂ :=
    ((hk₂.guards.mono (Set.subset_insert _ _)).insert hheldt).union hU.toGuards
  refine .bind (intact_modify Obj.process?_eq_some h₂ hout₂ _) ?_
  rintro _ k₃ ⟨hk₃, p₂, hp₂, hst₃⟩
  rw [hproc₂] at hp₂
  cases hp₂
  have hheld₃ := (hk₂.guards.held process (Set.mem_insert _ _)).congr hst₃.heap_entries
  have hmap : Mapping (insert task (insert process (P ∪ T))) U k₃ process _ t :=
    { guards := ((hk₃.left.guards.mono (Set.subset_insert _ _)).insert hheld₃).insert
        (hheldt.congr hst₃.heap_entries)
      mem := Set.mem_insert_of_mem _ (Set.mem_insert _ _)
      task_mem := Set.mem_insert _ _
      obj := hst₃.self
      task_obj := (hk₃.left.objs task (Set.mem_insert _ _)).trans ht
      beside := hU.congr hst₃.heap_entries
      space := hs.stays hk₃.right.stays }
  refine .bind (processMapMemory_intact hmap) ?_
  rintro res k₄ ⟨hk₄, hmap₄⟩
  have hmap_stays : Stays (insert process (P ∪ T)) k₃ k₄ := (hk₄.mono (Set.subset_insert _ _)).stays
  have hstays : Stays P k k₄ := hk₁.left.stays.trans <|
    ((hk₂.mono (Set.subset_insert _ _)).mono Set.subset_union_left).trans <|
      (hk₃.left.mono (Set.subset_insert _ _)).left.stays.trans <|
        (hmap_stays.mono (Set.subset_insert _ _)).mono Set.subset_union_left
  split
  · next hneg =>
    have h₄ : Guards (insert process (P ∪ T)) k₄ := hmap₄.guards.mono (Set.subset_insert _ _)
    have hfail := processLoadFail_task hmap₄.obj (show task ≠ 0 from hheldt.ne_zero) res
      (h₄.held process (Set.mem_insert _ _)).ne_zero
      (taskFree_stays (hmap₄.beside.mono (Set.subset_insert _ _)).disposable
        ⟨(hmap₄.guards.held task (Set.mem_insert _ _)).releasable, houtt⟩
        ⟨t, hmap₄.task_obj, hmap₄.space⟩ (.refl h₄))
    refine hfail.mono ?_
    rintro r k₅ ⟨hr, hk₅⟩
    exact Or.inl ⟨hr ▸ hneg, hstays.trans ((hk₅.mono (Set.subset_insert _ _)).mono
      Set.subset_union_left), hk₅.guards.held process (Set.mem_insert _ _)⟩
  · next hnonneg =>
    refine .bind (.modifies (Q := fun _ k₅ => k₅ = { k₄ with
      processes := Function.update k₄.processes slot process }) rfl) ?_
    rintro _ _ rfl
    have hprogram₄ : OwnsProgram T k₄ p := hprogram₁.stays <|
      ((hk₂.mono (Set.subset_insert _ _)).mono Set.subset_union_right).trans <|
        ((hk₃.left.mono (Set.subset_insert _ _)).mono Set.subset_union_right).stays.trans <|
          (hmap_stays.mono (Set.subset_insert _ _)).mono Set.subset_union_right
    obtain ⟨hbeside, howns⟩ := hmap₄.ownsProcess rfl hT.apart houtt hprogram₄ hstack halloc
    exact .pure (Or.inr ⟨not_lt.mp hnonneg, rfl,
      (hmap₄.guards.held process hmap₄.mem).congr rfl, ⟨k₄, hstays, rfl⟩, _, _,
      hbeside.congr rfl, howns.congr rfl⟩)

/-- From the program's file on, with the process allocated. -/
theorem processLoadInto_leaves (h : Guards P k) (hout : process ∉ P) (hheld : k.Held process)
    (hobj : k.objs process = some (.process Process.zero)) (filename : List UInt8) :
    Ensures (do
      let res ← processLoadData filename process
      if res < 0 then processLoadFail process res
      else do
        let program_stack_ptr ← kzalloc PLUMOS_USER_PROGRAM_STACK_SIZE
        if program_stack_ptr = 0 then processLoadFail process (-ENOMEM)
        else processLoadTask filename process program_stack_ptr slot) k
      (LoadLeaves P k slot process) := by
  refine .bind (processLoadData_intact h hout hheld hobj filename) ?_
  rintro res k₁ ⟨hk₁, hheld₁, p, hobj₁, hprogram⟩
  split
  · next hneg =>
    obtain ⟨-, rfl⟩ | ⟨hnonneg, -⟩ := hprogram
    · refine (processLoadFail_keeps hobj₁ rfl res).mono ?_
      rintro r _ ⟨hr, rfl⟩
      exact Or.inl ⟨hr ▸ hneg, hk₁.stays, hheld₁⟩
    · exact absurd hneg (not_lt.mpr hnonneg)
  next hnonneg =>
  obtain ⟨-, filetype, ptr, size, rfl, T, hT, hown⟩ := hprogram.resolve_left fun hr => hnonneg hr.1
  have h₁ : Guards (insert process P ∪ T) k₁ := (hk₁.guards.insert hheld₁).union hT.toGuards
  refine .bind (kzalloc_obtained h₁ _) ?_
  rintro stack k₂ ⟨hk₂, hstack⟩
  have hobj₂ := hk₂.left.head.2.trans hobj₁
  have hstays : Stays P k k₂ := (hk₁.trans hk₂.left.tail).stays
  split
  · refine (processLoadFail_keeps hobj₂ rfl _).mono ?_
    rintro r _ ⟨hr, rfl⟩
    exact Or.inl ⟨by rw [hr]; decide, hstays, hk₂.left.head.1⟩
  next hne =>
  obtain ⟨-, hnot, hobt⟩ := hstack.resolve_left fun h0 => hne h0.1
  have hT₂ : Beside (insert process P) (insert stack T) k₂ :=
    (hT.intact hk₂).insert (hobt.held (by decide)) fun hmem => hnot (Or.inl hmem)
  have hown₂ := (hown.intact hk₂.right).mono (Set.subset_insert stack T)
  refine (processLoadTask_leaves hk₂.left.tail.guards hout hk₂.left.head.1 hobj₂ (fun _ => rfl) hT₂
    hown₂ (Set.mem_insert _ _) filename).mono ?_
  exact fun _ _ hr => hr.after hstays

/-- `process_load_for_slot` returns only where the slot is free. Without memory for the
process nothing changes. -/
theorem processLoadForSlot_leaves (h : Guards P k) (filename : List UInt8) (hslot : slot < 12) :
    Ensures (processLoadForSlot filename slot) k fun r k' => k.processes slot = 0 ∧
      (k.NoRoom sizeofProcess ∧ r = (-ENOMEM, 0) ∧ k' = k ∨ ∃ process, process ∉ P ∧ ¬ k.Held process ∧
        LoadLeaves P k slot process r k') := by
  refine .bind (R := fun taken k' => k = k' ∧ taken = k.processes slot) ?_ ?_
  · unfold processGet
    rw [if_neg (by simp only [PLUMOS_MAX_PROCESSES]; omega), Int.toNat_natCast]
    exact .reads ⟨rfl, rfl⟩
  rintro _ _ ⟨rfl, rfl⟩
  split
  · exact .fails
  next hfree =>
  rw [not_not] at hfree
  have hall : Guards { q | k.Held q } k := ⟨h.tidy, fun _ hq => hq⟩
  refine .bind ((kzallocObj_null k _ _).and ((kzallocObj_made h (by decide) _).and
    (kzallocObj_made hall (by decide) _))) ?_
  rintro process k₁ ⟨hnull, ⟨hk₁, hnew⟩, -, hfresh⟩
  rcases hnew with ⟨rfl, rfl⟩ | ⟨hnew, -⟩
  · exact .pure ⟨hfree, Or.inl ⟨hnull rfl, rfl, rfl⟩⟩
  rw [if_neg hnew.ne_zero, Int.toNat_natCast]
  obtain ⟨hfresh, -⟩ := hfresh.resolve_left fun h0 => hnew.ne_zero h0.1
  refine (processLoadInto_leaves hk₁.guards hnew.not_mem hnew.held hnew.self filename).mono ?_
  exact fun r k' hr => ⟨hfree, Or.inr ⟨process, hnew.not_mem, hfresh.not_mem, hr.after hk₁.stays⟩⟩

end Load

/-! ### Terminating -/

section Terminate

variable {P S : Set Nat} {k k' k₁ : Kernel} {process slot : Nat} {p : Process}

/-- The program goes back to the heap, and nothing else does. -/
theorem processFreeProgramData_released (hS : ∀ q ∈ S, k.Disposable P q) (hmem : process ∈ P)
    (hobj : k.objs process = some (.process p)) (hown : OwnsProgram S k p) (hk₁ : Released P k k₁) :
    Framed (Released P) (processFreeProgramData process) k₁ fun res _ => res = 0 := by
  refine Ensures.bind (deref_spec _ _ _) ?_
  rintro p' _ ⟨rfl, -, hp'⟩
  rw [Obj.process?_eq_some, hk₁.objs process hmem, hobj] at hp'
  cases hp'
  rcases hown with ⟨htype, hptr⟩ | ⟨htype, hfile, f, hf, hmemory⟩
  · rw [if_pos htype]
    refine Framed.bind (released_kfree hk₁.guards (hk₁.releasable _ (hS _ hptr).1) (hS _ hptr).2) ?_
    intro _ k₂ hk₂ _
    exact .pure (.refl hk₂.guards) rfl
  · rw [if_neg (by rw [htype]; decide), if_pos htype]
    refine Framed.bind (P := fun _ _ => True) ?_ fun _ k₂ hk₂ _ => .pure (.refl hk₂.guards) rfl
    unfold elfClose
    split
    · exact .pure (.refl hk₁.guards) trivial
    refine Ensures.bind (deref_spec _ _ _) ?_
    rintro f' _ ⟨rfl, -, hf'⟩
    have hold := hk₁.eq_some (Obj.elfFile?_eq_some.mp hf')
    rw [hf] at hold
    cases hold
    have hdisp : k.Disposable P f.elf_memory := by
      rcases hmemory with h0 | hmemory
      · rw [h0]
        exact ⟨releasable_zero k, fun hmem => (hk₁.guards.held 0 hmem).ne_zero rfl⟩
      · exact hS _ hmemory
    refine Framed.bind (released_kfree hk₁.guards (hk₁.releasable _ hdisp.1) hdisp.2) ?_
    intro _ k₂ hk₂ _
    have hrel := (hk₁.trans hk₂).releasable _ (hS _ hfile).1
    exact (released_kfree hk₂.guards hrel (hS _ hfile).2).mono fun _ _ _ _ => trivial

/-- `k'` is `k` without `process`, which was in `slot`: the current process is another one. -/
structure Unlinked (P : Set Nat) (k : Kernel) (slot process : Nat) (k' : Kernel) : Prop where
  guards : Guards P k'
  objs : ∀ q ∈ P, SameButLinks (k.objs q) (k'.objs q)
  processes : k'.processes = Function.update k.processes slot 0
  other : k.current_process ≠ process → k'.current_process = k.current_process
  current : k.current_process = process →
    ∃ i < 12, k'.processes i ≠ 0 ∧ k'.current_process = k'.processes i

theorem processUnlink_unlinked (hk₁ : Stays P k k₁) (hmem : process ∈ P)
    (hobj : k.objs process = some (.process p)) :
    Ensures (processUnlink process) k₁ fun _ k' => Unlinked P k p.id process k' := by
  refine .bind (deref_spec _ _ _) ?_
  rintro p' _ ⟨rfl, -, hp'⟩
  have hlinks := hk₁.objs process hmem
  rw [hobj] at hlinks
  rw [Obj.process?_eq_some, hlinks.eq_some fun _ h => by cases h] at hp'
  cases hp'
  split
  · exact .fails
  refine .bind (.modifies (Q := fun _ k₂ => k₂ = { k₁ with
    processes := Function.update k₁.processes p.id 0x00 }) rfl) ?_
  rintro _ k₂ hk₂
  have hguards : Guards P k₂ := ⟨hk₁.guards.tidy.congr (by rw [hk₂]),
    fun q hq => (hk₁.guards.held q hq).congr (by rw [hk₂])⟩
  have hobjs : ∀ q ∈ P, SameButLinks (k.objs q) (k₂.objs q) := by
    rw [hk₂]
    exact hk₁.objs
  have hprocs : k₂.processes = Function.update k.processes p.id 0 := by
    rw [hk₂, hk₁.processes]
  have hcur : k₂.current_process = k.current_process := by
    rw [hk₂]
    exact hk₁.current_process
  refine .bind (.reads (Q := fun a k' => k₂ = k' ∧ a = k.current_process) ⟨rfl, hcur⟩) ?_
  rintro _ _ ⟨rfl, rfl⟩
  refine .onlyIf (fun heq => ?_) fun hne =>
    ⟨hguards, hobjs, hprocs, fun _ => hcur, fun heq => absurd heq hne⟩
  refine .bind (.reads (Q := fun a k' => k₂ = k' ∧ a = k₂.processes) ⟨rfl, rfl⟩) ?_
  rintro _ _ ⟨rfl, rfl⟩
  split
  · next i hfind =>
    have hlt := List.mem_of_find?_eq_some hfind
    rw [List.mem_range] at hlt
    have hne := List.find?_some hfind
    refine .modifies ⟨⟨hguards.tidy.congr rfl, fun q hq => (hguards.held q hq).congr rfl⟩, hobjs,
      hprocs, fun hne => absurd heq hne, fun _ => ⟨i, hlt, by simpa using hne, rfl⟩⟩
  · exact .fails

end Terminate

end PlumOS
