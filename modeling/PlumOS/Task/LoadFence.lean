import PlumOS.Fs.FileFence
import PlumOS.Loader.LoadRange
import PlumOS.Task.Scheduled
import PlumOS.Task.TaskList

/-!
# Loading a program beside the running task

`process_load_data` keeps to its own memory: the block of the running task stays
allocated while the file is opened, read and closed, on every path. So the task that
`process_load` makes is another one, and removing it again when a later step fails does
not change which task runs.

## Main results

- `processLoadData_fenced` — loading keeps a fence
- `processLoadSwitch_current` — `process_load_switch` leaves `current_task` alone
-/

namespace PlumOS

open StateExcept

/-! ### Fences around memory alone -/

/-- The fence protects blocks and nothing in them. -/
structure Fence.Bare (F : Fence) : Prop where
  bytes : F.bytes = ∅
  slots : F.slots = ∅
  objects : F.objects = ∅

theorem allocationFence_bare (b n : Nat) : (allocationFence b n).Bare := ⟨rfl, rfl, rfl⟩

section Load

variable {F : Fence} {k : Kernel}

theorem Fence.Bare.clear (h : F.Bare) (p n : Nat) : F.Clear p n := by
  intro a ha
  rw [h.bytes] at ha
  exact absurd ha (Set.notMem_empty a)

theorem Fence.Bare.not_mem (h : F.Bare) (p : Nat) : p ∉ F.objects := by
  rw [h.objects]
  exact Set.notMem_empty p

theorem Fence.Bare.slot {P : Nat → Prop} (h : F.Bare) : ∀ i ∈ F.slots, P i := by
  intro i hi
  rw [h.slots] at hi
  exact absurd hi (Set.notMem_empty i)

theorem modifyProcess_fenced (hF : F.Bare) (h : F.Stands k) (process : Nat) (f : Process → Process) :
    Framed (Fenced F) (modifyProcess process f) k fun _ _ => True := by
  refine Framed.bind (framed_deref h _ _) ?_
  rintro p _ - ⟨rfl, -, -⟩
  refine (framed_storeObj h (hF.not_mem _) ⟨?_, ?_, hF.slot⟩).mono fun _ _ _ _ => trivial
  · simp [Obj.held]
  · simp [Obj.followed]

/-- The size that `fstat` reports is a 32-bit word. -/
theorem fstat_filesize_lt (h : F.Stands k) (fd : Int) :
    Framed (Fenced F) (fstat fd) k fun r k' => k = k' ∧
      ∀ stat, r.2 = some stat → stat.filesize < 0x100000000 := by
  refine Framed.bind (fileGetDescriptor_fenced h fd) ?_
  rintro desc _ - ⟨rfl, -⟩
  split
  · exact .pure (.refl h) ⟨rfl, by rintro _ ⟨⟩⟩
  refine Framed.bind (framed_deref h _ _) ?_
  rintro d _ - ⟨rfl, -, -⟩
  refine Framed.bind (descFilesystem_fenced h d) ?_
  rintro _ _ - rfl
  refine Framed.bind (framed_deref h _ _) ?_
  rintro desc _ - ⟨rfl, -, -⟩
  refine Framed.bind (framed_deref h _ _) ?_
  rintro item _ - ⟨rfl, -, -⟩
  split
  · exact .pure (.refl h) ⟨rfl, by rintro _ ⟨⟩⟩
  refine Framed.bind (P := fun ritem k' => k = k' ∧ ritem.filesize < 0x100000000) ?_ ?_
  · intro ritem k' hr
    obtain ⟨hk', rfl⟩ := derefItem_fenced h _ _ _ hr
    refine ⟨hk', rfl, ?_⟩
    unfold derefItem at hr
    split at hr
    · cases hr
    · cases hr
      exact readWord_lt _ _
  · rintro ritem _ - ⟨rfl, hlt⟩
    refine .pure (.refl h) ⟨rfl, ?_⟩
    rintro _ ⟨⟩
    exact hlt

/-! ### The ELF loader -/

theorem elfHeader_fenced (h : F.Stands k) (file : Nat) :
    Framed (Fenced F) (elfHeader file) k fun _ k' => k = k' := by
  refine (elfHeader_spec file k).mono ?_
  rintro _ _ rfl
  exact ⟨.refl h, rfl⟩

theorem elfProcessPheader_fenced (hF : F.Bare) (h : F.Stands k) {elf_file : Nat}
    (hfile : F.Safe k elf_file) (phdr : Elf32Phdr) :
    Framed (Fenced F) (elfProcessPheader elf_file phdr) k fun _ _ => True := by
  refine .onlyIf (.refl h) (fun _ => ?_) fun _ => trivial
  refine (framed_modify Obj.elfFile?_eq_some h hfile (fun f => elfProcessPhdrPtLoad f phdr)
    fun f h0 ho => ⟨?_, ?_, hF.slot⟩).mono fun _ _ _ _ => trivial
  · intro q hq
    rw [Obj.held, elfProcessPhdrPtLoad_memory] at hq
    exact hfile.held h0 ho hq
  · simp [Obj.followed]

theorem elfProcessPheadersLoop_fenced (hF : F.Bare) (elf_file phdrs : Nat) :
    ∀ (fuel i : Nat) (k : Kernel), F.Stands k → F.Safe k elf_file →
      Framed (Fenced F) (elfProcessPheadersLoop elf_file phdrs fuel i) k fun _ _ => True := by
  intro fuel
  induction fuel with
  | zero =>
    intro i k h _
    exact .pure (.refl h) trivial
  | succ fuel ih =>
    intro i k h hfile
    refine Framed.bind (P := fun _ k' => k = k') ?_ ?_
    · refine (derefMem_spec _ _ _).mono ?_
      rintro _ _ ⟨rfl, -⟩
      exact ⟨.refl h, rfl⟩
    rintro phdr _ - rfl
    refine Framed.bind (elfProcessPheader_fenced hF h hfile phdr) ?_
    rintro _ k₁ hk₁ -
    exact ih _ k₁ hk₁.stands (hk₁.safe _ hfile)

theorem elfProcessLoaded_fenced (hF : F.Bare) (h : F.Stands k) {elf_file : Nat}
    (hfile : F.Safe k elf_file) :
    Framed (Fenced F) (elfProcessLoaded elf_file) k fun _ _ => True := by
  refine Framed.bind (elfHeader_fenced h _) ?_
  rintro header _ - rfl
  dsimp only
  split
  · exact .pure (.refl h) trivial
  refine Framed.bind (framed_deref h _ _) ?_
  rintro f _ - ⟨rfl, -, -⟩
  refine Framed.bind (elfProcessPheadersLoop_fenced hF _ _ _ _ k h hfile) ?_
  rintro _ k₁ hk₁ -
  exact .pure (.refl hk₁.stands) trivial

theorem elfLoadOpened_fenced (hF : F.Bare) (h : F.Stands k) {elf_file : Nat}
    (hfile : F.Safe k elf_file) (fd : Int) :
    Framed (Fenced F) (elfLoadOpened elf_file fd) k fun _ _ => True := by
  refine Framed.bind (fstat_filesize_lt h fd) ?_
  rintro ⟨res, stat⟩ _ - ⟨rfl, hsize⟩
  split
  · exact .pure (.refl h) trivial
  cases stat with
  | none => exact .fails
  | some stat =>
    refine Framed.bind (framed_kzalloc h _) ?_
    rintro memory k₁ hk₁ ⟨hmemory, -, -⟩
    have hfile₁ := hk₁.safe _ hfile
    refine Framed.bind (framed_deref hk₁.stands _ _) ?_
    rintro f _ - ⟨rfl, -, -⟩
    refine Framed.bind (framed_storeObj hk₁.stands (hF.not_mem _) ⟨?_, ?_, hF.slot⟩) ?_
    · intro q hq
      rw [Obj.held, List.mem_singleton] at hq
      rwa [hq]
    · simp [Obj.followed]
    rintro _ k₂ hk₂ -
    refine Framed.bind (fread_fenced hk₂.stands (hsize stat rfl) (hF.clear _ _) fd) ?_
    rintro res₃ k₃ hk₃ -
    split
    · exact .pure (.refl hk₃.stands) trivial
    · exact elfProcessLoaded_fenced hF hk₃.stands (hk₃.safe _ (hk₂.safe _ hfile₁))

theorem elfLoad_fenced (hF : F.Bare) (h : F.Stands k) (filename : List UInt8) :
    Framed (Fenced F) (elfLoad filename) k fun _ _ => True := by
  refine Framed.bind (framed_kzallocObj h _ ?_ ?_ ?_) ?_
  · simp [Obj.held, ElfFile.zero]
  · simp [Obj.followed]
  · simp [Obj.index]
  intro elf_file k₁ hk₁ hfile
  refine Framed.bind (fopen_fenced hk₁.stands hF.slot _ _) ?_
  intro fd k₂ hk₂ hfd
  split
  · refine Framed.bind (fclose_fenced hk₂.stands 0 fun h0 => absurd h0 (lt_irrefl 0)) ?_
    rintro _ k₃ hk₃ -
    exact .pure (.refl hk₃.stands) trivial
  · next hpos =>
    refine Framed.bind (elfLoadOpened_fenced hF hk₂.stands (hk₂.safe _ hfile) fd) ?_
    rintro res k₃ hk₃ -
    refine Framed.bind (fclose_fenced hk₃.stands fd fun _ _ => ?_) ?_
    · obtain ⟨i, -, rfl, hi⟩ := hfd (by omega)
      rw [show ((i : Int) + 1 - 1).toNat = i by omega]
      exact hk₃.opened i hi
    rintro _ k₄ hk₄ -
    exact .pure (.refl hk₄.stands) trivial

/-! ### The process loader -/

theorem processLoadBinaryOpened_fenced (hF : F.Bare) (h : F.Stands k) (process : Nat) (fd : Int) :
    Framed (Fenced F) (processLoadBinaryOpened process fd) k fun r _ => F.Outside r.2 := by
  refine Framed.bind (fstat_filesize_lt h fd) ?_
  rintro ⟨res, stat⟩ _ - ⟨rfl, hsize⟩
  split
  · exact .pure (.refl h) h.outside_zero
  cases stat with
  | none => exact .fails
  | some stat =>
    refine Framed.bind (framed_kzalloc h _) ?_
    rintro program_data_ptr k₁ hk₁ ⟨hout, -, -⟩
    split
    · exact .pure (.refl hk₁.stands) hk₁.stands.outside_zero
    refine Framed.bind (fread_fenced hk₁.stands (hsize stat rfl) (hF.clear _ _) fd) ?_
    rintro read k₂ hk₂ -
    split
    · exact .pure (.refl hk₂.stands) hout
    refine Framed.bind (modifyProcess_fenced hF hk₂.stands _ _) ?_
    rintro _ k₃ hk₃ -
    exact .pure (.refl hk₃.stands) hout

theorem processLoadBinary_fenced (hF : F.Bare) (h : F.Stands k) (filename : List UInt8)
    (process : Nat) : Framed (Fenced F) (processLoadBinary filename process) k fun _ _ => True := by
  refine Framed.bind (fopen_fenced h hF.slot _ _) ?_
  intro fd k₁ hk₁ hfd
  split
  · next h0 =>
    subst h0
    refine Framed.bind (fclose_fenced hk₁.stands 0 fun h0 => absurd h0 (lt_irrefl 0)) ?_
    rintro _ k₂ hk₂ -
    exact .pure (.refl hk₂.stands) trivial
  · next hne =>
    refine Framed.bind (processLoadBinaryOpened_fenced hF hk₁.stands _ _) ?_
    intro r k₂ hk₂ hout
    refine Framed.bind (P := fun _ _ => True) (.onlyIf (.refl hk₂.stands) (fun _ => ?_)
      fun _ => trivial) ?_
    · exact (framed_kfree hk₂.stands hout).mono fun _ _ _ _ => trivial
    rintro _ k₃ hk₃ -
    refine Framed.bind (fclose_fenced hk₃.stands fd fun _ _ => ?_) ?_
    · obtain ⟨i, -, rfl, hi⟩ := hfd hne
      rw [show ((i : Int) + 1 - 1).toNat = i by omega]
      exact hk₃.opened i (hk₂.opened i hi)
    rintro _ k₄ hk₄ -
    exact .pure (.refl hk₄.stands) trivial

theorem processLoadElf_fenced (hF : F.Bare) (h : F.Stands k) (filename : List UInt8)
    (process : Nat) : Framed (Fenced F) (processLoadElf filename process) k fun _ _ => True := by
  refine Framed.bind (elfLoad_fenced hF h filename) ?_
  rintro r k₁ hk₁ -
  split
  · exact .pure (.refl hk₁.stands) trivial
  refine Framed.bind (modifyProcess_fenced hF hk₁.stands _ _) ?_
  rintro _ k₂ hk₂ -
  exact .pure (.refl hk₂.stands) trivial

/-- Reading a program from its file keeps the fence. -/
theorem processLoadData_fenced (hF : F.Bare) (h : F.Stands k) (filename : List UInt8)
    (process : Nat) : Framed (Fenced F) (processLoadData filename process) k fun _ _ => True := by
  refine Framed.bind (processLoadElf_fenced hF h filename process) ?_
  rintro res k₁ hk₁ -
  split
  · exact processLoadBinary_fenced hF hk₁.stands filename process
  · exact .pure (.refl hk₁.stands) trivial

end Load

/-! ### The running task -/

section Running

variable {k k' : Kernel}

/-- The block of a live task has a fence. -/
theorem Kernel.Alive.fenced {b : Nat} (h : k.Alive (blockAddress b) 1) (hk : k.HeapSound)
    (hb : b < 25600) : (allocationFence b 1).Stands k where
  inside := by
    rintro i ⟨h₁, h₂, -⟩
    rw [Kernel.heap_total]
    omega
  kept := fun _ _ => rfl
  taken := by
    rintro i ⟨h₁, h₂, -⟩
    obtain ⟨c, hc, -, -, hm⟩ := h
    obtain rfl := blockAddress_inj.mp hc
    obtain rfl : i = ((b + 0 : Nat) : Int) := by omega
    rw [← Kernel.heap_entries_eq, hm 0 (by omega)]
    exact runEntry_taken 1 0
  sealed := by
    rintro i h0 hi hnext ⟨h₁, h₂, h₃⟩
    obtain ⟨c, hc, -, -, hm⟩ := h
    obtain rfl := blockAddress_inj.mp hc
    have hfirst := (hk.next_taken i h0 (by rw [Kernel.heap_total]; omega) hnext).2
    rw [show i + 1 = ((b + 0 : Nat) : Int) by omega, hm 0 (by omega)] at hfirst
    exact (runEntry_isFirst 1 0).mpr rfl hfirst
  barrier := hk.barrier

/-- The fence keeps the task's block allocated. -/
theorem Fenced.alive {b : Nat} (hf : Fenced (allocationFence b 1) k k')
    (h : k.Alive (blockAddress b) 1) : k'.Alive (blockAddress b) 1 := by
  obtain ⟨c, hc, hn, hin, hm⟩ := h
  obtain rfl := blockAddress_inj.mp hc
  refine ⟨b, rfl, hn, hin, fun j hj => ?_⟩
  rw [hf.guarded.kept _ ⟨by omega, by omega, by omega⟩]
  exact hm j hj

/-- The task in block `b` is running, its block is allocated, and the task list is not
empty. -/
structure RunsTask (b : Nat) (k : Kernel) : Prop where
  current : k.current_task = blockAddress b
  alive : k.Alive (blockAddress b) 1
  stands : (allocationFence b 1).Stands k
  head : k.task_head ≠ 0

variable {b : Nat}

theorem RunsTask.fenced (h : RunsTask b k) (hs : SameSchedule k k')
    (hf : Fenced (allocationFence b 1) k k') : RunsTask b k' where
  current := hs.current_task.trans h.current
  alive := hf.alive h.alive
  stands := hf.stands
  head := by
    rw [hs.task_head]
    exact h.head

theorem RunsTask.same (h : RunsTask b k) (hs : SameSchedule k k')
    (he : k'.heap_entries = k.heap_entries) : RunsTask b k' where
  current := hs.current_task.trans h.current
  alive := h.alive.congr he
  stands := by
    unfold Fence.Stands
    rw [he, show k'.heap.table = k.heap.table by unfold Kernel.heap; rw [he]]
    exact h.stands
  head := by
    rw [hs.task_head]
    exact h.head

/-- Removing another task does not change which task runs. -/
theorem taskListRemove_current {task : Nat} (h : task ≠ k.current_task) :
    Ensures (taskListRemove task) k fun _ k' => k'.current_task = k.current_task := by
  unfold taskListRemove
  split
  · exact .pure rfl
  refine .bind (deref_spec _ _ _) ?_
  rintro t _ ⟨rfl, -, -⟩
  refine .bind (Within.ensures (R := SameSchedule) _ k) ?_
  intro _ k₁ hk₁
  refine .bind (.reads (Q := fun _ k' => k₁ = k') rfl) ?_
  rintro head _ rfl
  refine .bind (R := fun _ k' => k'.current_task = k₁.current_task) (.onlyIf (fun _ => ?_)
    fun _ => rfl) ?_
  · refine .bind (deref_spec _ _ _) ?_
    rintro t _ ⟨rfl, -, -⟩
    exact .modifies rfl
  intro _ k₂ hk₂
  refine .bind (.reads (Q := fun _ k' => k₂ = k') rfl) ?_
  rintro tail _ rfl
  refine .bind (R := fun _ k' => k'.current_task = k₂.current_task) (.onlyIf (fun _ => ?_)
    fun _ => rfl) ?_
  · refine .bind (deref_spec _ _ _) ?_
    rintro t _ ⟨rfl, -, -⟩
    exact .modifies rfl
  intro _ k₃ hk₃
  have hcur : k₃.current_task = k.current_task := hk₃.trans (hk₂.trans hk₁.current_task)
  refine .bind (.reads (Q := fun a k' => k₃ = k' ∧ a = k₃.current_task) ⟨rfl, rfl⟩) ?_
  rintro _ _ ⟨rfl, rfl⟩
  refine .onlyIf (fun heq => ?_) fun _ => hcur
  exact absurd (heq.trans hcur) h

theorem taskFree_current {task : Nat} (h : task ≠ k.current_task) :
    Ensures (taskFree task) k fun _ k' => k'.current_task = k.current_task := by
  refine .bind (deref_spec _ _ _) ?_
  rintro t _ ⟨rfl, -, -⟩
  refine .bind (Within.ensures (R := SameSchedule) _ k) ?_
  intro _ k₁ hk₁
  refine .bind (taskListRemove_current (by rwa [hk₁.current_task])) ?_
  intro _ k₂ hk₂
  refine .bind (Within.ensures (R := SameSchedule) _ k₂) ?_
  intro _ k₃ hk₃
  exact .pure (hk₃.current_task.trans (hk₂.trans hk₁.current_task))

/-- A new task is not the running one. -/
theorem taskNew_current (h : RunsTask b k) (process : Nat) :
    Ensures (taskNew process) k fun task k' =>
      k'.current_task = blockAddress b ∧ task ≠ blockAddress b := by
  refine (taskNew_spec k process).mono ?_
  rintro task k' ⟨k₁, t, ptrs, -, hglob, -, hnew, -, -, -, -, -, -, happend⟩
  refine ⟨?_, fun heq => hnew 1 (heq ▸ h.alive)⟩
  unfold taskAppend at happend
  rw [bind_of_ok (m := reads id) (t := k₁) rfl, if_neg] at happend
  · obtain ⟨_, k₂, hmod₁, happend⟩ := bind_eq_ok.mp happend
    obtain ⟨_, k₃, hmod₂, happend⟩ := bind_eq_ok.mp happend
    cases happend
    have hk₂ := Within.ensures (R := SameSchedule) _ _ _ _ hmod₁
    have hk₃ := Within.ensures (R := SameSchedule) _ _ _ _ hmod₂
    exact hk₃.current_task.trans (hk₂.current_task.trans (hglob.current_task.trans h.current))
  · rw [id, hglob.task_head]
    exact h.head

/-- The error exit of `process_load_for_slot` removes the new task, if there is one. -/
theorem processLoadFail_current {process : Nat} (res : Int) (h : ∀ pr,
    k.objs process = some (.process pr) → pr.task = 0 ∨ pr.task ≠ k.current_task) :
    Ensures (processLoadFail process res) k fun _ k' => k'.current_task = k.current_task := by
  unfold processLoadFail
  split
  · exact .pure rfl
  refine .bind (deref_spec _ _ _) ?_
  rintro pr _ ⟨rfl, -, hpr⟩
  rw [Obj.process?_eq_some] at hpr
  split
  · exact .pure rfl
  next hne =>
  refine .bind (taskFree_current ((h pr hpr).resolve_left hne)) ?_
  intro _ k₁ hk₁
  exact .pure hk₁

theorem modifyProcess_spec (process : Nat) (f : Process → Process) (k : Kernel) :
    Ensures (modifyProcess process f) k fun _ k' => ∃ pr, k.objs process = some (.process pr) ∧
      Stored k process (.process (f pr)) k' := by
  refine .bind (deref_spec _ _ _) ?_
  rintro pr _ ⟨rfl, -, hpr⟩
  rw [Obj.process?_eq_some] at hpr
  exact (storeObj_spec _ _ _).ensures.mono fun _ _ hst => ⟨pr, hpr, hst⟩

theorem processLoadTask_current (h : RunsTask b k) (filename : List UInt8)
    (process program_stack_ptr process_slot : Nat) :
    Ensures (processLoadTask filename process program_stack_ptr process_slot) k
      fun _ k' => k'.current_task = blockAddress b := by
  refine .bind (modifyProcess_spec _ _ _) ?_
  rintro _ k₁ ⟨pr₁, hpr₁, hst₁⟩
  have hs₁ : SameSchedule k k₁ := by
    refine .stored hst₁ nofun ?_
    rintro _ ⟨⟩
    exact Or.inr ⟨pr₁, hpr₁, rfl⟩
  have h₁ := h.same hs₁ hst₁.heap_entries
  refine .bind (taskNew_current h₁ process) ?_
  rintro task k₂ ⟨hcur₂, hne⟩
  split
  · exact .pure hcur₂
  refine .bind (modifyProcess_spec _ _ _) ?_
  rintro _ k₃ ⟨pr₃, -, hst₃⟩
  have hcur₃ := hst₃.globals.current_task.trans hcur₂
  refine .bind (Within.ensures (R := SameSchedule) _ k₃) ?_
  intro res k₄ hk₄
  have hcur₄ := hk₄.current_task.trans hcur₃
  split
  · refine (processLoadFail_current res fun pr hpr => ?_).mono fun _ _ hk₅ => hk₅.trans hcur₄
    rcases hk₄.process process pr hpr with h0 | ⟨pr', hpr', htask⟩
    · exact Or.inl h0
    · rw [hst₃.self] at hpr'
      cases hpr'
      rw [← htask, hcur₄]
      exact Or.inr hne
  · refine .bind (.modifies (Q := fun _ k' => k'.current_task = blockAddress b) hcur₄) ?_
    intro _ k₅ hk₅
    exact .pure hk₅

theorem processLoadForSlot_current (h : RunsTask b k) (filename : List UInt8) (process_slot : Int) : Ensures (processLoadForSlot filename process_slot) k
      fun _ k' => k'.current_task = blockAddress b := by
  refine .bind (R := fun _ k' => k = k') ?_ ?_
  · unfold processGet
    split
    · exact .pure rfl
    · exact .reads rfl
  rintro taken _ rfl
  split
  · exact .fails
  refine .bind ((kzallocObj_spec k _ _).and ((Within.ensures (R := SameSchedule) _ k).and
    (framed_kzallocObj h.stands _ (z := .process Process.zero) (by simp [Obj.held])
      (by simp [Obj.followed]) (by simp [Obj.index])))) ?_
  rintro process k₁ ⟨hnew₁, hs₁, hk₁, -⟩
  have h₁ := h.fenced hs₁ hk₁
  split
  · exact .pure h₁.current
  next hne =>
  refine .bind ((Within.ensures (R := SameSchedule) _ k₁).and
    (processLoadData_fenced (allocationFence_bare b 1) hk₁.stands filename process)) ?_
  rintro res k₂ ⟨hs₂, hk₂, -⟩
  have h₂ := h₁.fenced hs₂ hk₂
  -- the process has no task yet
  have hfail : ∀ {k₃ : Kernel}, SameSchedule k₁ k₃ → ∀ pr, k₃.objs process = some (.process pr) →
      pr.task = 0 := by
    intro k₃ hs₃ pr hpr
    rcases hs₃.process process pr hpr with h0 | ⟨pr', hpr', htask⟩
    · exact h0
    · rcases hnew₁ with ⟨h0, -⟩ | ⟨k₀, -, rfl⟩
      · exact absurd h0 hne
      · dsimp only at hpr'
        rw [Function.update_self] at hpr'
        cases hpr'
        exact htask.symm
  split
  · exact (processLoadFail_current res fun pr hpr => Or.inl (hfail hs₂ pr hpr)).mono
      fun _ _ hk₃ => hk₃.trans h₂.current
  refine .bind ((Within.ensures (R := SameSchedule) _ k₂).and (framed_kzalloc hk₂.stands _)) ?_
  rintro program_stack_ptr k₃ ⟨hs₃, hk₃, -⟩
  have h₃ := h₂.fenced hs₃ hk₃
  split
  · exact (processLoadFail_current _ fun pr hpr => Or.inl (hfail (hs₂.trans hs₃) pr hpr)).mono
      fun _ _ hk₄ => hk₄.trans h₃.current
  · exact processLoadTask_current h₃ _ _ _ _

/-- Loading a program does not change which task runs, whether it succeeds or fails. -/
theorem processLoadSwitch_current (h : RunsTask b k) (filename : List UInt8) :
    Ensures (processLoadSwitch filename) k fun _ k' => k'.current_task = blockAddress b := by
  refine .bind (R := fun _ k' => k'.current_task = blockAddress b) ?_ ?_
  · refine .bind (.reads (Q := fun _ k' => k = k') rfl) ?_
    rintro processes _ rfl
    dsimp only
    split
    · exact .pure h.current
    · exact processLoadForSlot_current h _ _
  · intro r k₁ hk₁
    refine .bind (.onlyIf (Q := fun _ k' => k'.current_task = blockAddress b) (fun _ => .modifies hk₁)
      fun _ => hk₁) ?_
    intro _ k₂ hk₂
    exact .pure hk₂

end Running

end PlumOS
