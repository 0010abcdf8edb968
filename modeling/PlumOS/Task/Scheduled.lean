import PlumOS.Idt.Idt
import PlumOS.Task.TaskSpec

/-!
# What leaves the scheduler alone

`current_task` and `task_head` are written by the task list and the task switch only, and
a process gets its task from `process_load` only. Every other function of the kernel that
an interrupt can reach leaves these as they are.

## Main definitions

- `SameSchedule` — the relation that those functions keep to
- `SameHeap` — the heap's table is left alone too
- `Inert` — a structure that is no task and gives no process one
-/

namespace PlumOS

open StateExcept

-- the rule for a sequence is used once for each statement of a function
set_option synthInstance.maxSize 512

/-- The scheduler's variables are the same, a task was a task before, and a process
that names a task named it before. -/
structure SameSchedule (k k' : Kernel) : Prop where
  current_task : k'.current_task = k.current_task
  task_head : k'.task_head = k.task_head
  task : ∀ p t', k'.objs p = some (.task t') → ∃ t, k.objs p = some (.task t)
  process : ∀ p pr', k'.objs p = some (.process pr') →
    pr'.task = 0 ∨ ∃ pr, k.objs p = some (.process pr) ∧ pr.task = pr'.task

instance : Std.Refl SameSchedule where
  refl _ := ⟨rfl, rfl, fun _ t' h => ⟨t', h⟩, fun _ pr' h => Or.inr ⟨pr', h, rfl⟩⟩

theorem SameSchedule.refl (k : Kernel) : SameSchedule k k := Std.Refl.refl k

theorem SameSchedule.trans {k₁ k₂ k₃ : Kernel} (h : SameSchedule k₁ k₂)
    (h' : SameSchedule k₂ k₃) : SameSchedule k₁ k₃ where
  current_task := h'.current_task.trans h.current_task
  task_head := h'.task_head.trans h.task_head
  task p t₃ h₃ := by
    obtain ⟨t₂, h₂⟩ := h'.task p t₃ h₃
    exact h.task p t₂ h₂
  process p pr₃ h₃ := by
    rcases h'.process p pr₃ h₃ with h0 | ⟨pr₂, h₂, ht₂⟩
    · exact Or.inl h0
    · rw [← ht₂]
      exact h.process p pr₂ h₂

instance : IsTrans Kernel SameSchedule := ⟨fun _ _ _ => SameSchedule.trans⟩

/-- Every structure was there before. -/
theorem SameSchedule.of_objs {k k' : Kernel} (hc : k'.current_task = k.current_task)
    (hh : k'.task_head = k.task_head) (ho : ∀ p o, k'.objs p = some o → k.objs p = some o) :
    SameSchedule k k' :=
  ⟨hc, hh, fun p t' h => ⟨t', ho p _ h⟩, fun p pr' h => Or.inr ⟨pr', ho p _ h, rfl⟩⟩

/-- A structure that, stored anywhere, is no new task and gives no process one. -/
class Inert (o : Obj) : Prop where
  not_task : ∀ t, o ≠ .task t
  inert : ∀ pr, o = .process pr → pr.task = 0

instance (d : Nat) : Inert (.chunk d) := ⟨nofun, nofun⟩
instance (w : Nat → Nat) : Inert (.words w) := ⟨nofun, nofun⟩
instance (f : ElfFile) : Inert (.elfFile f) := ⟨nofun, nofun⟩
instance (r : PathRoot) : Inert (.pathRoot r) := ⟨nofun, nofun⟩
instance (p : PathPart) : Inert (.pathPart p) := ⟨nofun, nofun⟩
instance (d : FileDescriptor) : Inert (.fileDescriptor d) := ⟨nofun, nofun⟩
instance (d : FatFileDescriptor) : Inert (.fatFileDescriptor d) := ⟨nofun, nofun⟩
instance (i : FatItem) : Inert (.fatItem i) := ⟨nofun, nofun⟩
instance (d : FatDirectory) : Inert (.fatDirectory d) := ⟨nofun, nofun⟩
instance : Inert (.process Process.zero) := ⟨nofun, by rintro _ ⟨⟩; rfl⟩

/-! ### Memory -/

section Memory

variable {α : Type}

/-- Reading keeps to every reflexive relation. -/
instance deref_within {R : Kernel → Kernel → Prop} [Std.Refl R] (sel : Obj → Option α) (p : Nat) :
    Within R (deref sel p) where
  within k := by
    refine (deref_spec sel p k).mono ?_
    rintro _ _ ⟨rfl, -⟩
    exact Std.Refl.refl _

instance derefMem_within {R : Kernel → Kernel → Prop} [Std.Refl R]
    (read : (Nat → UInt8) → Nat → α) (p : Nat) : Within R (derefMem read p) where
  within k := by
    refine (derefMem_spec read p k).mono ?_
    rintro _ _ ⟨rfl, -⟩
    exact Std.Refl.refl _

instance derefItem_within {R : Kernel → Kernel → Prop} [Std.Refl R] (p : Nat) :
    Within R (derefItem p) where
  within k := by
    intro a k' h
    unfold derefItem at h
    split at h
    · cases h
    · cases h
      exact Std.Refl.refl _

/-- A structure is stored that is a task only where one was, and a process only with
the task of the one that was there. -/
theorem SameSchedule.stored {k k' : Kernel} {p : Nat} {o : Obj} (hst : Stored k p o k')
    (ht : ∀ t', o = .task t' → ∃ t, k.objs p = some (.task t))
    (h : ∀ pr', o = .process pr' → pr'.task = 0 ∨ ∃ pr, k.objs p = some (.process pr) ∧
      pr.task = pr'.task) : SameSchedule k k' where
  current_task := hst.globals.current_task
  task_head := hst.globals.task_head
  task q t' hq := by
    by_cases hqp : q = p
    · subst hqp
      rw [hst.self] at hq
      cases hq
      exact ht t' rfl
    · rw [hst.other q hqp] at hq
      exact ⟨t', hq⟩
  process q pr' hq := by
    by_cases hqp : q = p
    · subst hqp
      rw [hst.self] at hq
      cases hq
      exact h pr' rfl
    · rw [hst.other q hqp] at hq
      exact Or.inr ⟨pr', hq, rfl⟩

instance storeObj_within (p : Nat) (o : Obj) [ho : Inert o] :
    Within SameSchedule (storeObj p o) where
  within k := (storeObj_spec k p o).ensures.mono fun _ _ hst =>
    .stored hst (fun t' h => absurd h (ho.not_task t')) fun pr' h => Or.inl (ho.inert pr' h)

instance storeBytes_within (p : Nat) (bytes : List UInt8) :
    Within SameSchedule (storeBytes p bytes) := .modifies fun _ => .of_objs rfl rfl fun _ _ h => h

theorem kfree_within (ptr : Nat) : Within SameSchedule (kfree ptr) := by
  refine .modifies fun k => .of_objs rfl rfl fun p o h => ?_
  by_cases hp : p = ptr
  · subst hp
    dsimp only at h
    rw [Function.update_self] at h
    cases h
  · dsimp only at h
    rwa [Function.update_of_ne hp] at h

attribute [instance] kfree_within

instance kzalloc_within (size : Nat) : Within SameSchedule (kzalloc size) where
  within k := by
    refine (kzalloc_spec k size).mono ?_
    rintro ptr k' (⟨-, rfl⟩ | ha)
    · exact .refl _
    · rw [ha.eq]
      refine .of_objs rfl rfl fun p o h => ?_
      dsimp only at h
      split at h
      · cases h
      · exact h

instance kzallocObj_within (size : Nat) (zero : Obj) [Inert zero] :
    Within SameSchedule (kzallocObj size zero) := by
  unfold kzallocObj
  infer_instance

instance onDisk_within (m : DM α) : Within SameSchedule (onDisk m) where
  within k := by
    refine (onDisk_spec m k).mono ?_
    intro _ k' h
    rw [h]
    exact .of_objs rfl rfl fun _ _ h => h

end Memory

/-! ### Files -/

instance modifyPathRoot_within (p : Nat) (f : PathRoot → PathRoot) :
    Within SameSchedule (modifyPathRoot p f) := by
  unfold modifyPathRoot
  infer_instance

instance modifyPathPart_within (p : Nat) (f : PathPart → PathPart) :
    Within SameSchedule (modifyPathPart p f) := by
  unfold modifyPathPart
  infer_instance

instance pathparserGetPathPart_within (path : List UInt8) :
    Within SameSchedule (pathparserGetPathPart path) := by
  unfold pathparserGetPathPart
  infer_instance

instance pathparserParsePathPart_within (last_part : Nat) (path : List UInt8) :
    Within SameSchedule (pathparserParsePathPart last_part path) := by
  unfold pathparserParsePathPart
  infer_instance

instance pathparserParseLoop_within (fuel part : Nat) (path : List UInt8) :
    Within SameSchedule (pathparserParseLoop fuel part path) := by
  induction fuel generalizing part path with
  | zero => exact inferInstanceAs (Within _ (fails Fault.divergence))
  | succ fuel ih =>
    unfold pathparserParseLoop
    infer_instance

instance pathparserCreateRoot_within (drive_number : Int) :
    Within SameSchedule (pathparserCreateRoot drive_number) := by
  unfold pathparserCreateRoot
  infer_instance

instance pathparserParse_within (path : List UInt8) :
    Within SameSchedule (pathparserParse path) := by
  unfold pathparserParse
  infer_instance

instance fat16CloneDirectoryItem_within (item : Nat) :
    Within SameSchedule (fat16CloneDirectoryItem item) := by
  unfold fat16CloneDirectoryItem
  infer_instance

instance fat16FreeDirectory_within (directory : Nat) :
    Within SameSchedule (fat16FreeDirectory directory) := by
  unfold fat16FreeDirectory
  infer_instance

instance fat16FatItemFree_within (item : Nat) :
    Within SameSchedule (fat16FatItemFree item) := by
  unfold fat16FatItemFree
  infer_instance

instance modifyFatDirectory_within (p : Nat) (f : FatDirectory → FatDirectory) :
    Within SameSchedule (modifyFatDirectory p f) := by
  unfold modifyFatDirectory
  infer_instance

instance fat16LoadFatDirectory_within (item : Nat) :
    Within SameSchedule (fat16LoadFatDirectory item) := by
  unfold fat16LoadFatDirectory
  refine .seq inferInstance fun i => ?_
  split
  · infer_instance
  refine .seq inferInstance fun directory => ?_
  split
  · infer_instance
  refine .seq inferInstance fun i => .seq inferInstance fun fat_private => ?_
  infer_instance

instance modifyFatItem_within (p : Nat) (f : FatItem → FatItem) :
    Within SameSchedule (modifyFatItem p f) := by
  unfold modifyFatItem
  infer_instance

instance fat16NewFatItemForDirectoryItem_within (item : Nat) :
    Within SameSchedule (fat16NewFatItemForDirectoryItem item) := by
  unfold fat16NewFatItemForDirectoryItem
  infer_instance

instance fat16FindItemLoop_within (directory : FatDirectory) (name fuel i f_item : Nat) :
    Within SameSchedule (fat16FindItemLoop directory name fuel i f_item) := by
  induction fuel generalizing i f_item with
  | zero => exact inferInstanceAs (Within _ (pure f_item))
  | succ fuel ih =>
    unfold fat16FindItemLoop
    infer_instance

instance fat16FindItemInDirectory_within (directory : FatDirectory) (name : Nat) :
    Within SameSchedule (fat16FindItemInDirectory directory name) := by
  unfold fat16FindItemInDirectory
  infer_instance

instance fat16GetDirectoryEntryLoop_within (fuel current_item next_part : Nat) :
    Within SameSchedule (fat16GetDirectoryEntryLoop fuel current_item next_part) := by
  induction fuel generalizing current_item next_part with
  | zero => exact inferInstanceAs (Within _ (fails Fault.divergence))
  | succ fuel ih =>
    unfold fat16GetDirectoryEntryLoop
    infer_instance

instance fat16GetDirectoryEntry_within (path : Nat) :
    Within SameSchedule (fat16GetDirectoryEntry path) := by
  unfold fat16GetDirectoryEntry
  infer_instance

instance modifyFatFileDescriptor_within (p : Nat) (f : FatFileDescriptor → FatFileDescriptor) :
    Within SameSchedule (modifyFatFileDescriptor p f) := by
  unfold modifyFatFileDescriptor
  infer_instance

instance fat16Open_within (path mode : Nat) :
    Within SameSchedule (fat16Open path mode) := by
  unfold fat16Open
  infer_instance

instance fat16ReadLoop_within (item size nmemb : Nat) (offset : Int) (out_ptr : Nat) (res : Int) :
    Within SameSchedule (fat16ReadLoop item size nmemb offset out_ptr res) := by
  induction nmemb generalizing offset out_ptr res with
  | zero => exact inferInstanceAs (Within _ (pure res))
  | succ nmemb ih =>
    unfold fat16ReadLoop
    infer_instance

instance fat16Read_within (descriptor size nmemb out_ptr : Nat) :
    Within SameSchedule (fat16Read descriptor size nmemb out_ptr) := by
  unfold fat16Read
  infer_instance

instance fat16Stat_within (descriptor : Nat) :
    Within SameSchedule (fat16Stat descriptor) := by
  unfold fat16Stat
  infer_instance

instance fat16FreeFileDescriptor_within (desc : Nat) :
    Within SameSchedule (fat16FreeFileDescriptor desc) := by
  unfold fat16FreeFileDescriptor
  infer_instance

instance fat16Close_within (descriptor : Nat) :
    Within SameSchedule (fat16Close descriptor) := by
  unfold fat16Close
  infer_instance

instance modifyFileDescriptor_within (p : Nat) (f : FileDescriptor → FileDescriptor) :
    Within SameSchedule (modifyFileDescriptor p f) := by
  unfold modifyFileDescriptor
  infer_instance

instance fileNewDescriptor_within : Within SameSchedule fileNewDescriptor := by
  unfold fileNewDescriptor
  refine .seq inferInstance fun file_descriptors => ?_
  cases freeDescriptorSlot file_descriptors with
  | none => infer_instance
  | some i =>
    have (desc : Nat) : Within SameSchedule (modifies fun k : Kernel =>
        { k with file_descriptors := Function.update k.file_descriptors i desc } : KM PUnit) :=
      .modifies fun _ => .of_objs rfl rfl fun _ _ h => h
    infer_instance

instance fileFreeDescriptor_within (desc : Nat) :
    Within SameSchedule (fileFreeDescriptor desc) := by
  have (slot : Nat) : Within SameSchedule (modifies fun k : Kernel =>
      { k with file_descriptors := Function.update k.file_descriptors slot 0 } : KM PUnit) :=
    .modifies fun _ => .of_objs rfl rfl fun _ _ h => h
  unfold fileFreeDescriptor
  infer_instance

instance fileGetDescriptor_within (fd : Int) :
    Within SameSchedule (fileGetDescriptor fd) := by
  unfold fileGetDescriptor
  infer_instance

instance fopenRes_within (filename mode_str : List UInt8) :
    Within SameSchedule (fopenRes filename mode_str) := by
  unfold fopenRes
  infer_instance

instance fopen_within (filename mode_str : List UInt8) :
    Within SameSchedule (fopen filename mode_str) := by
  unfold fopen
  infer_instance

instance descFilesystem_within (d : FileDescriptor) :
    Within SameSchedule (descFilesystem d) := by
  unfold descFilesystem
  infer_instance

instance fstat_within (fd : Int) :
    Within SameSchedule (fstat fd) := by
  unfold fstat
  infer_instance

instance fclose_within (fd : Int) :
    Within SameSchedule (fclose fd) := by
  unfold fclose
  infer_instance

instance fread_within (ptr size nmemb : Nat) (fd : Int) :
    Within SameSchedule (fread ptr size nmemb fd) := by
  unfold fread
  infer_instance

/-! ### Paging -/

instance pagingSwitch_within (chunk : Nat) : Within SameSchedule (pagingSwitch chunk) := by
  have (directory : Nat) : Within SameSchedule (modifies fun k : Kernel =>
      { k with current_directory := directory } : KM PUnit) := .modifies fun _ => .of_objs rfl rfl fun _ _ h => h
  unfold pagingSwitch
  infer_instance

instance kernelPage_within : Within SameSchedule kernelPage := by
  unfold kernelPage
  infer_instance

instance pagingGet_within (directory virt : Nat) :
    Within SameSchedule (pagingGet directory virt) := by
  unfold pagingGet
  infer_instance

instance pagingGetPhyiscalAddress_within (directory virt : Nat) :
    Within SameSchedule (pagingGetPhyiscalAddress directory virt) := by
  unfold pagingGetPhyiscalAddress
  infer_instance

instance pagingSet_within (directory virt val : Nat) :
    Within SameSchedule (pagingSet directory virt val) := by
  unfold pagingSet
  infer_instance

instance pagingMap_within (chunk virt phys flags : Nat) :
    Within SameSchedule (pagingMap chunk virt phys flags) := by
  unfold pagingMap
  infer_instance

instance pagingMapRange_within (chunk flags fuel virt phys : Nat) :
    Within SameSchedule (pagingMapRange chunk flags fuel virt phys) := by
  induction fuel generalizing virt phys with
  | zero => exact inferInstanceAs (Within _ (pure 0))
  | succ fuel ih =>
    unfold pagingMapRange
    infer_instance

instance pagingMapTo_within (chunk virt phys phys_end flags : Nat) :
    Within SameSchedule (pagingMapTo chunk virt phys phys_end flags) := by
  unfold pagingMapTo
  infer_instance

instance pagingFree4gbLoop_within (chunk fuel i : Nat) :
    Within SameSchedule (pagingFree4gbLoop chunk fuel i) := by
  induction fuel generalizing i with
  | zero => exact inferInstanceAs (Within _ (pure PUnit.unit))
  | succ fuel ih =>
    unfold pagingFree4gbLoop
    infer_instance

instance pagingFree4gb_within (chunk : Nat) :
    Within SameSchedule (pagingFree4gb chunk) := by
  unfold pagingFree4gb
  infer_instance

/-! ### Programs and processes -/

instance elfHeader_within (file : Nat) :
    Within SameSchedule (elfHeader file) := by
  unfold elfHeader
  infer_instance

instance elfProcessPheader_within (elf_file : Nat) (phdr : Elf32Phdr) :
    Within SameSchedule (elfProcessPheader elf_file phdr) := by
  unfold elfProcessPheader
  infer_instance

instance elfProcessPheadersLoop_within (elf_file phdrs fuel i : Nat) :
    Within SameSchedule (elfProcessPheadersLoop elf_file phdrs fuel i) := by
  induction fuel generalizing i with
  | zero => exact inferInstanceAs (Within _ (pure PUnit.unit))
  | succ fuel ih =>
    unfold elfProcessPheadersLoop
    infer_instance

instance elfProcessLoaded_within (elf_file : Nat) :
    Within SameSchedule (elfProcessLoaded elf_file) := by
  unfold elfProcessLoaded
  infer_instance

instance elfLoadOpened_within (elf_file : Nat) (fd : Int) :
    Within SameSchedule (elfLoadOpened elf_file fd) := by
  unfold elfLoadOpened
  refine .seq inferInstance fun r => ?_
  cases r.2 <;> infer_instance

instance elfLoad_within (filename : List UInt8) :
    Within SameSchedule (elfLoad filename) := by
  unfold elfLoad
  infer_instance

instance modifyTask_within (p : Nat) (f : Task → Task) : Within SameSchedule (modifyTask p f) where
  within k := by
    refine (modifyTask_spec k p f).mono ?_
    rintro _ k' ⟨-, t, ht, hst⟩
    rw [Obj.task?_eq_some] at ht
    exact .stored hst (fun _ _ => ⟨t, ht⟩) nofun

/-- A process is changed in other members than its task. -/
theorem modifyProcess_within (p : Nat) {f : Process → Process} (h : ∀ pr, (f pr).task = pr.task) :
    Within SameSchedule (modifyProcess p f) where
  within k := by
    refine Ensures.bind (deref_spec _ _ _) ?_
    rintro pr _ ⟨rfl, -, hpr⟩
    rw [Obj.process?_eq_some] at hpr
    refine (storeObj_spec k p _).ensures.mono fun _ _ hst => .stored hst nofun ?_
    rintro _ ⟨⟩
    exact Or.inr ⟨pr, hpr, (h pr).symm⟩

instance processLoadBinaryOpened_within (process : Nat) (fd : Int) :
    Within SameSchedule (processLoadBinaryOpened process fd) := by
  have (ptr size : Nat) : Within SameSchedule (modifyProcess process fun p =>
      { p with filetype := PROCESS_FILETYPE_BINARY, ptr := ptr, size := size }) :=
    modifyProcess_within process fun _ => rfl
  unfold processLoadBinaryOpened
  refine .seq inferInstance fun r => ?_
  cases r.2 <;> infer_instance

instance processLoadBinary_within (filename : List UInt8) (process : Nat) :
    Within SameSchedule (processLoadBinary filename process) := by
  unfold processLoadBinary
  infer_instance

instance processLoadElf_within (filename : List UInt8) (process : Nat) :
    Within SameSchedule (processLoadElf filename process) := by
  have (ptr : Nat) : Within SameSchedule (modifyProcess process fun p =>
      { p with filetype := PROCESS_FILETYPE_ELF, ptr := ptr }) :=
    modifyProcess_within process fun _ => rfl
  unfold processLoadElf
  infer_instance

instance processLoadData_within (filename : List UInt8) (process : Nat) :
    Within SameSchedule (processLoadData filename process) := by
  unfold processLoadData
  infer_instance

instance processMapBinary_within (process : Nat) :
    Within SameSchedule (processMapBinary process) := by
  unfold processMapBinary
  infer_instance

instance processMapElfLoop_within (process phdrs : Nat) (file : ElfFile) (fuel i : Nat) :
    Within SameSchedule (processMapElfLoop process phdrs file fuel i) := by
  induction fuel generalizing i with
  | zero => exact inferInstanceAs (Within _ (pure 0))
  | succ fuel ih =>
    unfold processMapElfLoop
    infer_instance

instance processMapElf_within (process : Nat) :
    Within SameSchedule (processMapElf process) := by
  unfold processMapElf
  infer_instance

instance processMapMemory_within (process : Nat) :
    Within SameSchedule (processMapMemory process) := by
  unfold processMapMemory
  infer_instance

instance processSwitch_within (process : Nat) :
    Within SameSchedule (processSwitch process) := by
  unfold processSwitch
  exact .modifies fun _ => .of_objs rfl rfl fun _ _ h => h

instance processMalloc_within (process size : Nat) :
    Within SameSchedule (processMalloc process size) := by
  have (index ptr : Nat) : Within SameSchedule (modifyProcess process fun p =>
      { p with allocations := Function.update p.allocations index ⟨ptr, size⟩ }) :=
    modifyProcess_within process fun _ => rfl
  unfold processMalloc
  refine .seq inferInstance fun ptr => ?_
  split
  · infer_instance
  refine .seq inferInstance fun p => ?_
  cases processFindFreeAllocationIndex p.allocations <;> infer_instance

instance processFree_within (process ptr : Nat) :
    Within SameSchedule (processFree process ptr) := by
  have : Within SameSchedule (modifyProcess process fun p =>
      { p with allocations := processAllocationUnjoin p.allocations ptr }) :=
    modifyProcess_within process fun _ => rfl
  unfold processFree
  refine .seq inferInstance fun p => ?_
  cases processGetAllocationByAddress p.allocations ptr <;> infer_instance

instance keyboardPop_within : Within SameSchedule keyboardPop where
  within k := by
    refine .bind (.reads (Q := fun _ k' => k = k') rfl) ?_
    rintro current_task _ rfl
    split
    · exact .pure (.refl k)
    refine .bind (deref_spec _ _ _) ?_
    rintro t _ ⟨rfl, -, -⟩
    refine .bind (deref_spec _ _ _) ?_
    rintro p _ ⟨rfl, -, hp⟩
    rw [Obj.process?_eq_some] at hp
    dsimp only
    split
    · exact .pure (.refl k)
    refine .bind (storeObj_spec _ _ _).ensures ?_
    intro _ k' hst
    refine .pure (.stored hst nofun ?_)
    rintro _ ⟨⟩
    exact Or.inr ⟨p, hp, rfl⟩

instance keyboardPush_within (c : UInt8) : Within SameSchedule (keyboardPush c) := by
  have (process : Nat) : Within SameSchedule (modifyProcess process fun p =>
      { p with keyboard := p.keyboard.pushed c }) := modifyProcess_within process fun _ => rfl
  unfold keyboardPush
  infer_instance

/-! ### Commands -/

instance translate_within {R : Kernel → Kernel → Prop} [Std.Refl R] (virt : Nat) :
    Within R (translate virt) where
  within k := by
    intro a k' h
    unfold translate at h
    split at h
    · cases h
    · cases h
      exact Std.Refl.refl _

instance taskPageTask_within (task : Nat) :
    Within SameSchedule (taskPageTask task) := by
  unfold taskPageTask
  infer_instance

instance mapScratch_within (task tmp : Nat) :
    Within SameSchedule (mapScratch task tmp) := by
  unfold mapScratch
  infer_instance

instance takeScratch_within (task_directory tmp old_entry max : Nat) :
    Within SameSchedule (takeScratch task_directory tmp old_entry max) := by
  unfold takeScratch
  infer_instance

instance taskVirtualAddressToPhysical_within (task virtual_address : Nat) :
    Within SameSchedule (taskVirtualAddressToPhysical task virtual_address) := by
  unfold taskVirtualAddressToPhysical
  infer_instance

instance commandArgumentNext_within (current : Nat) :
    Within SameSchedule (commandArgumentNext current) := by
  unfold commandArgumentNext
  infer_instance

instance processCountCommandArguments_within (fuel current : Nat) :
    Within SameSchedule (processCountCommandArguments fuel current) := by
  induction fuel generalizing current with
  | zero => exact inferInstanceAs (Within _ (fails Fault.divergence))
  | succ fuel ih =>
    unfold processCountCommandArguments
    infer_instance

instance strncpyKernel_within (dest src fuel i : Nat) :
    Within SameSchedule (strncpyKernel dest src fuel i) := by
  induction fuel generalizing i with
  | zero => exact inferInstanceAs (Within _ (storeBytes (dest + i) [0x00]))
  | succ fuel ih =>
    unfold strncpyKernel
    infer_instance

instance processInjectLoop_within (process argv fuel current i : Nat) :
    Within SameSchedule (processInjectLoop process argv fuel current i) := by
  induction fuel generalizing current i with
  | zero => exact inferInstanceAs (Within _ (fails Fault.divergence))
  | succ fuel ih =>
    unfold processInjectLoop
    infer_instance

instance processInjectArguments_within (process root_argument : Nat) :
    Within SameSchedule (processInjectArguments process root_argument) := by
  have (argc : Int) (argv : Nat) : Within SameSchedule (modifyProcess process fun p =>
      { p with arguments := ⟨argc, argv⟩ }) := modifyProcess_within process fun _ => rfl
  unfold processInjectArguments
  infer_instance

instance programPath_within (name : List UInt8) :
    Within SameSchedule (programPath name) := by
  unfold programPath
  infer_instance

instance taskCurrentSaveState_within (frame : InterruptFrame) :
    Within SameSchedule (taskCurrentSaveState frame) := by
  unfold taskCurrentSaveState
  infer_instance

instance currentProcess_within : Within SameSchedule currentProcess := by
  unfold currentProcess taskCurrent
  infer_instance

/-! ### What leaves the heap's table alone -/

/-- The entries of the heap's table are the same. -/
def SameHeap (k k' : Kernel) : Prop := k'.heap_entries = k.heap_entries

instance : Std.Refl SameHeap := ⟨fun _ => rfl⟩

instance : IsTrans Kernel SameHeap := ⟨fun _ _ _ h h' => Eq.trans h' h⟩

instance storeObj_sameHeap (p : Nat) (o : Obj) : Within SameHeap (storeObj p o) :=
  .modifies fun _ => rfl

instance storeBytes_sameHeap (p : Nat) (bytes : List UInt8) : Within SameHeap (storeBytes p bytes) :=
  .modifies fun _ => rfl

instance pagingSwitch_sameHeap (chunk : Nat) : Within SameHeap (pagingSwitch chunk) := by
  have (directory : Nat) : Within SameHeap (modifies fun k : Kernel =>
      { k with current_directory := directory } : KM PUnit) := .modifies fun _ => rfl
  unfold pagingSwitch
  infer_instance

instance kernelPage_sameHeap : Within SameHeap kernelPage := by
  unfold kernelPage
  infer_instance

instance pagingGet_sameHeap (directory virt : Nat) : Within SameHeap (pagingGet directory virt) := by
  unfold pagingGet
  infer_instance

instance pagingSet_sameHeap (directory virt val : Nat) :
    Within SameHeap (pagingSet directory virt val) := by
  unfold pagingSet
  infer_instance

instance pagingMap_sameHeap (chunk virt phys flags : Nat) :
    Within SameHeap (pagingMap chunk virt phys flags) := by
  unfold pagingMap
  infer_instance

instance mapScratch_sameHeap (task tmp : Nat) : Within SameHeap (mapScratch task tmp) := by
  unfold mapScratch
  infer_instance

instance taskPageTask_sameHeap (task : Nat) : Within SameHeap (taskPageTask task) := by
  unfold taskPageTask
  infer_instance

instance taskVirtualAddressToPhysical_sameHeap (task virtual_address : Nat) :
    Within SameHeap (taskVirtualAddressToPhysical task virtual_address) := by
  unfold taskVirtualAddressToPhysical pagingGetPhyiscalAddress
  infer_instance

instance programPath_sameHeap (name : List UInt8) : Within SameHeap (programPath name) := by
  unfold programPath
  infer_instance

instance modifyTask_sameHeap (p : Nat) (f : Task → Task) : Within SameHeap (modifyTask p f) := by
  unfold modifyTask
  infer_instance

instance taskCurrentSaveState_sameHeap (frame : InterruptFrame) :
    Within SameHeap (taskCurrentSaveState frame) := by
  unfold taskCurrentSaveState
  infer_instance

end PlumOS
