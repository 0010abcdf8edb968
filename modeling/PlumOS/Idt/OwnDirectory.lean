import PlumOS.Isr80h.ProgramArguments

/-!
# User mode in the task's own address space

Whatever brings the kernel in, it goes back to user mode with the frame and the page
directory of `current_task`: every handler comes back with the same current task, or
leaves by a task switch. The exception is command 8, whose stores may overwrite
`current_task` itself.

## Main definitions

- `Multitasking` — the kernel while tasks run
- `Redirects` — the stores of command 8 make another task the current one

## Main results

- `raise_resumes_iff`
-/

namespace PlumOS

open StateExcept

/-! ### Commands that load a program -/

section Running

variable {b : Nat} {s : System}

/-- What leaves the heap's table alone keeps the running task. -/
theorem RunsTask.ends {α : Type} {m : HM α} (h : RunsTask b s.kernel)
    [Keeping Resumes (OnKernel SameSchedule) m] [Keeping Resumes (OnKernel SameHeap) m] :
    Ends m s Resumes fun _ s' => RunsTask b s'.kernel := by
  intro r s' hr
  have h₁ := Keeping.ends (E := Resumes) (R := OnKernel SameSchedule) m s r s' hr
  have h₂ := Keeping.ends (E := Resumes) (R := OnKernel SameHeap) m s r s' hr
  cases r with
  | error r => exact h₁
  | ok a => exact h.same h₁ h₂

theorem takeScratch_runsTask {k : Kernel} {tmp : Nat} (h : RunsTask b k)
    (htmp : (allocationFence b 1).Outside tmp) (task_directory old_entry max : Nat) :
    Ensures (takeScratch task_directory tmp old_entry max) k fun _ k' => RunsTask b k' := by
  have hkfree : ∀ {k₁ : Kernel}, RunsTask b k₁ →
      Ensures (kfree tmp) k₁ fun _ k' => RunsTask b k' := by
    intro k₁ h₁
    refine ((Within.ensures (R := SameSchedule) _ k₁).and (framed_kfree h₁.stands htmp)).mono ?_
    rintro _ k₂ ⟨hs, hf, -⟩
    exact h₁.fenced hs hf
  refine .bind ((Within.ensures (R := SameSchedule) _ k).and
    (Within.ensures (R := SameHeap) _ k)) ?_
  rintro _ k₁ ⟨hs₁, hh₁⟩
  have h₁ := h.same hs₁ hh₁
  refine .bind ((Within.ensures (R := SameSchedule) _ k₁).and
    (Within.ensures (R := SameHeap) _ k₁)) ?_
  rintro res k₂ ⟨hs₂, hh₂⟩
  have h₂ := h₁.same hs₂ hh₂
  split
  · refine .bind (hkfree h₂) ?_
    intro _ k₃ h₃
    exact .pure h₃
  · refine .bind (.reads (Q := fun _ k' => k₂ = k') rfl) ?_
    rintro _ _ rfl
    refine .bind (hkfree h₂) ?_
    intro _ k₃ h₃
    exact .pure h₃

/-- The scratch memory is new, so releasing it leaves the running task allocated. -/
theorem copyStringFromTask_runsTask (h : RunsTask b s.kernel) (e : Entry) (task virt max : Nat) :
    Ends (copyStringFromTask e task virt max) s Resumes fun _ s' => RunsTask b s'.kernel := by
  unfold copyStringFromTask
  split
  · exact .pure h
  refine .bind (inKernel_ends ((Within.ensures (R := SameSchedule) _ s.kernel).and
    (framed_kzalloc h.stands _))) ?_
  rintro tmp s₁ ⟨-, hs₁, hf₁, htmp, -⟩
  have h₁ := h.fenced hs₁ hf₁
  split
  · exact .pure h₁
  refine .bind h₁.ends ?_
  intro r s₂ h₂
  refine .bind h₂.ends ?_
  intro _ s₃ h₃
  refine .bind (inKernel_ends (takeScratch_runsTask h₃ htmp _ _ _)) ?_
  rintro r s₄ ⟨-, h₄⟩
  exact .pure h₄

end Running

/-! ### What a command comes back with -/

/-- The current task is `task`, or nothing that can be switched to. -/
def Kernel.StaysWith (k : Kernel) (task : Nat) : Prop :=
  k.current_task = task ∨ ∀ t, k.objs k.current_task ≠ some (.task t)

/-- Every task is in a block of the heap. -/
def Kernel.TasksInBlocks (k : Kernel) : Prop := ∀ p t, k.objs p = some (.task t) → IsBlock p

section Commands

variable {b : Nat} {s : System}

theorem SameSchedule.staysWith {k k' : Kernel} {task : Nat} (h : SameSchedule k k')
    (hcur : k.current_task = task) : k'.StaysWith task :=
  Or.inl (h.current_task.trans hcur)

/-- What is written on the terminal does not make another task the current one. -/
theorem Scribbled.staysWith {k k' : Kernel} {task : Nat} (h : Scribbled k k')
    (hcur : k.current_task = task) (hlt : task < 0x100000000) (ht : k.TasksInBlocks) :
    k'.StaysWith task := by
  subst hcur
  obtain ⟨-, heq | hno⟩ := h.current_task hlt
  · exact Or.inl heq
  · refine Or.inr fun t hk' => hno (ht _ t ?_)
    rw [← h.objs]
    exact hk'

theorem SameSchedule.tasksInBlocks {k k' : Kernel} (h : SameSchedule k k')
    (ht : k.TasksInBlocks) : k'.TasksInBlocks := by
  intro p t' hp
  obtain ⟨t, hp⟩ := h.task p t' hp
  exact ht p t hp

theorem RunsTask.lt (h : RunsTask b s.kernel) : blockAddress b < 0x100000000 := by
  have := h.alive.aligned.2
  omega

/-- A command that leaves the scheduler alone comes back with the current task. -/
theorem RunsTask.staysWith {α : Type} {m : HM α} (h : RunsTask b s.kernel)
    [Keeping Resumes (OnKernel SameSchedule) m] :
    Ends m s Resumes fun _ s' => s'.kernel.StaysWith (blockAddress b) := by
  refine (Keeping.ends (R := OnKernel SameSchedule) m s).mono ?_
  intro a s' hs'
  exact SameSchedule.staysWith hs' h.current

theorem isr80hCommand1Print_ends (h : RunsTask b s.kernel) (ht : s.kernel.TasksInBlocks)
    (L : Layout) (e : Entry) : Ends (isr80hCommand1Print L e) s Resumes
      fun _ s' => s'.kernel.StaysWith (blockAddress b) := by
  refine .bind (Keeping.ends (R := OnKernel SameSchedule) _ s) ?_
  intro user_space_msg_buffer s₁ hs₁
  refine .bind (inKernel_looks_ends (.reads ⟨rfl, rfl⟩)) ?_
  rintro task _ ⟨rfl, rfl⟩
  refine .bind (Keeping.ends (R := OnKernel SameSchedule) _ s₁) ?_
  intro r s₂ hs₂
  have hs : SameSchedule s.kernel s₂.kernel := SameSchedule.trans hs₁ hs₂
  refine .bind (.stays (Within.ensures (R := OnKernel Scribbled) _ s₂)) ?_
  intro _ s₃ hs₃
  exact .pure (Scribbled.staysWith hs₃ (hs.current_task.trans h.current) h.lt (hs.tasksInBlocks ht))

theorem isr80hCommand3Putchar_ends (h : RunsTask b s.kernel) (ht : s.kernel.TasksInBlocks)
    (L : Layout) (e : Entry) : Ends (isr80hCommand3Putchar L e) s Resumes
      fun _ s' => s'.kernel.StaysWith (blockAddress b) := by
  refine .bind (Keeping.ends (R := OnKernel SameSchedule) _ s) ?_
  intro c s₁ hs₁
  have hs : SameSchedule s.kernel s₁.kernel := hs₁
  refine .bind (.stays (Within.ensures (R := OnKernel Scribbled) _ s₁)) ?_
  intro _ s₂ hs₂
  exact .pure (Scribbled.staysWith hs₂ (hs.current_task.trans h.current) h.lt (hs.tasksInBlocks ht))

theorem isr80hCommand6ProcessLoadStart_ends (h : RunsTask b s.kernel) (e : Entry) :
    Ends (isr80hCommand6ProcessLoadStart e) s Resumes
      fun _ s' => s'.kernel.StaysWith (blockAddress b) := by
  refine .bind h.ends ?_
  intro filename_user_ptr s₁ h₁
  refine .bind (inKernel_looks_ends (.reads ⟨rfl, rfl⟩)) ?_
  rintro task _ ⟨rfl, rfl⟩
  refine .bind (copyStringFromTask_runsTask h₁ e _ _ _) ?_
  intro r s₂ h₂
  split
  · exact .pure (Or.inl h₂.current)
  refine .bind h₂.ends ?_
  intro path s₃ h₃
  refine .bind (inKernel_ends (processLoadSwitch_current h₃ path)) ?_
  rintro r s₄ ⟨-, hcur⟩
  split
  · exact .pure (Or.inl hcur)
  · exact startProcess_ends e _

theorem isr80hCommand7InvokeSystemCommand_ends (h : RunsTask b s.kernel) (e : Entry) :
    Ends (isr80hCommand7InvokeSystemCommand e) s Resumes
      fun _ s' => s'.kernel.StaysWith (blockAddress b) := by
  refine .bind h.ends ?_
  intro argument s₁ h₁
  refine .bind (inKernel_looks_ends (.reads ⟨rfl, rfl⟩)) ?_
  rintro task _ ⟨rfl, rfl⟩
  refine .bind h₁.ends ?_
  intro arguments s₂ h₂
  refine .bind (inKernel_looks_ends (.reads ⟨rfl, rfl⟩)) ?_
  rintro k _ ⟨rfl, rfl⟩
  split
  · exact .pure (Or.inl h₂.current)
  refine .bind h₂.ends ?_
  intro path s₃ h₃
  refine .bind (inKernel_ends (processLoadSwitch_current h₃ path)) ?_
  rintro r s₄ ⟨-, hcur⟩
  split
  · exact .pure (Or.inl hcur)
  refine .bind (Keeping.ends (R := OnKernel SameSchedule) _ s₄) ?_
  intro res s₅ hs₅
  split
  · exact .pure (SameSchedule.staysWith hs₅ hcur)
  · exact startProcess_ends e _

instance isr80hCommand0Sum_keeping (e : Entry) :
    Keeping Resumes (OnKernel SameSchedule) (isr80hCommand0Sum e) := by
  unfold isr80hCommand0Sum
  infer_instance

instance isr80hCommand2Getkey_keeping :
    Keeping Resumes (OnKernel SameSchedule) isr80hCommand2Getkey := by
  unfold isr80hCommand2Getkey
  infer_instance

instance isr80hCommand4Malloc_keeping (e : Entry) :
    Keeping Resumes (OnKernel SameSchedule) (isr80hCommand4Malloc e) := by
  unfold isr80hCommand4Malloc
  infer_instance

instance isr80hCommand5Free_keeping (e : Entry) :
    Keeping Resumes (OnKernel SameSchedule) (isr80hCommand5Free e) := by
  unfold isr80hCommand5Free
  infer_instance

theorem isr80hCommand9Exit_ends {Q : Nat → System → Prop} (e : Entry) :
    Ends (isr80hCommand9Exit e) s Resumes Q := by
  refine .bind (R := fun _ _ => True) (.stays fun _ _ _ => trivial) ?_
  intro _ s₁ _
  exact switchNext_ends e

/-- Every command but the eighth comes back with the same task, or leaves for another. -/
theorem isr80hHandleCommand_ends (h : RunsTask b s.kernel) (ht : s.kernel.TasksInBlocks)
    (L : Layout) (e : Entry) {command : Int} (h8 : command ≠ 8) :
    Ends (isr80hHandleCommand L e command) s Resumes
      fun _ s' => s'.kernel.StaysWith (blockAddress b) := by
  unfold isr80hHandleCommand
  split
  · exact .pure (Or.inl h.current)
  next hrange =>
  have hn : command.toNat ≠ 8 := by omega
  generalize command.toNat = n at hn
  match n with
  | 0 => exact h.staysWith (m := isr80hCommand0Sum e)
  | 1 => exact isr80hCommand1Print_ends h ht L e
  | 2 => exact h.staysWith (m := isr80hCommand2Getkey)
  | 3 => exact isr80hCommand3Putchar_ends h ht L e
  | 4 => exact h.staysWith (m := isr80hCommand4Malloc e)
  | 5 => exact h.staysWith (m := isr80hCommand5Free e)
  | 6 => exact isr80hCommand6ProcessLoadStart_ends h e
  | 7 => exact isr80hCommand7InvokeSystemCommand_ends h e
  | 8 => exact absurd rfl hn
  | 9 => exact isr80hCommand9Exit_ends e
  | n + 10 => exact .pure (Or.inl h.current)

end Commands

/-! ### The frame is saved -/

/-- The kernel with its own page directory loaded and `frame` saved in the current task. -/
def Kernel.saved (k : Kernel) (t : Task) (directory : Nat) (frame : InterruptFrame) : Kernel :=
  { k with
    current_directory := directory
    objs := Function.update k.objs k.current_task
      (some (.task { t with registers := savedRegisters frame })) }

section Saved

variable {k : Kernel} {t : Task} {directory : Nat} {frame : InterruptFrame}

theorem taskCurrentSaveState_eq (k : Kernel) (frame : InterruptFrame) :
    Ensures (taskCurrentSaveState frame) k fun _ k' => ∃ t,
      k.objs k.current_task = some (.task t) ∧ k' = k.saved t k.current_directory frame := by
  refine .bind (reads_spec Kernel.current_task).ensures ?_
  rintro _ _ ⟨rfl, rfl⟩
  split
  · exact .fails
  refine .bind (deref_spec _ _ _) ?_
  rintro t _ ⟨rfl, -, ht⟩
  exact .modifies ⟨t, Obj.task?_eq_some.mp ht, rfl⟩

theorem taskCurrentSaveState_returns (h0 : k.current_task ≠ 0)
    (ht : k.objs k.current_task = some (.task t)) (frame : InterruptFrame) :
    Returns (taskCurrentSaveState frame) k fun _ k' => k' = k.saved t k.current_directory frame := by
  refine .bind (reads_spec Kernel.current_task) ?_
  rintro _ _ ⟨rfl, rfl⟩
  rw [if_neg h0]
  refine .bind (deref_returns h0 ht rfl) ?_
  rintro _ _ ⟨rfl, rfl⟩
  exact .modifies rfl

/-- The task's structure is the only one that is changed, and it stays a task. -/
theorem Kernel.saved_objs (directory : Nat) (frame : InterruptFrame) (ht : k.objs k.current_task = some (.task t)) (p : Nat) :
    (k.saved t directory frame).objs p = k.objs p ∨
      ∃ t₁ t₂, k.objs p = some (.task t₁) ∧ (k.saved t directory frame).objs p = some (.task t₂) ∧
        t₂.page_directory = t₁.page_directory ∧ t₂.process = t₁.process := by
  by_cases hp : p = k.current_task
  · subst hp
    exact Or.inr ⟨t, _, ht, Function.update_self .., rfl, rfl⟩
  · exact Or.inl (Function.update_of_ne hp _ _)

theorem Kernel.saved_sameSchedule (directory : Nat) (frame : InterruptFrame)
    (ht : k.objs k.current_task = some (.task t)) :
    SameSchedule k (k.saved t directory frame) where
  current_task := rfl
  task_head := rfl
  task p t' hp := by
    rcases Kernel.saved_objs directory frame ht p with
      heq | ⟨t₁, -, h₁, -⟩
    · exact ⟨t', heq.symm.trans hp⟩
    · exact ⟨t₁, h₁⟩
  process p pr' hp := by
    rcases Kernel.saved_objs directory frame ht p with
      heq | ⟨-, t₂, -, h₂, -⟩
    · exact Or.inr ⟨pr', heq.symm.trans hp, rfl⟩
    · cases h₂.symm.trans hp

/-- Structures other than tasks are as before. -/
theorem Kernel.saved_other (ht : k.objs k.current_task = some (.task t)) {p : Nat} {o : Obj}
    (ho : k.objs p = some o) (hno : ∀ t, o ≠ .task t) :
    (k.saved t directory frame).objs p = some o := by
  rcases Kernel.saved_objs directory frame ht p with
    heq | ⟨t₁, -, h₁, -⟩
  · exact heq.trans ho
  · rw [h₁] at ho
    cases ho
    exact absurd rfl (hno t₁)

/-- Structures other than tasks are read as before. -/
theorem Kernel.saved_bind {α : Type} (ht : k.objs k.current_task = some (.task t)) (p : Nat)
    {f : Obj → Option α} (hf : ∀ t, f (.task t) = none) :
    ((k.saved t directory frame).objs p).bind f = (k.objs p).bind f := by
  rcases Kernel.saved_objs _ _ ht p with heq | ⟨t₁, t₂, h₁, h₂, -⟩
  · rw [heq]
  · rw [h₁, h₂, Option.bind_some, Option.bind_some, hf, hf]

theorem Kernel.saved_walk (ht : k.objs k.current_task = some (.task t)) (d virt : Nat) :
    (k.saved t directory frame).walk d virt = k.walk d virt := by
  unfold Kernel.walk
  simp only [Kernel.saved_bind ht _ (f := Obj.words?) fun _ => rfl]

theorem Kernel.saved_userWord (ht : k.objs k.current_task = some (.task t)) (d virt : Nat) :
    (k.saved t directory frame).userWord d virt = k.userWord d virt := by
  unfold Kernel.userWord Kernel.userByte
  simp only [Kernel.saved_walk ht]
  rfl

theorem Kernel.saved_argumentsPointer (ht : k.objs k.current_task = some (.task t)) (esp : Nat) :
    (k.saved t directory frame).argumentsPointer esp = k.argumentsPointer esp := by
  have hcur : (k.saved t directory frame).objs (k.saved t directory frame).current_task =
      some (.task { t with registers := savedRegisters frame }) := Function.update_self ..
  unfold Kernel.argumentsPointer Kernel.physicalAddress
  simp only [Kernel.saved_userWord ht, Kernel.saved_walk ht,
    Kernel.saved_bind ht _ (f := Obj.chunk?) fun _ => rfl]
  rw [hcur, ht]
  rfl

theorem Kernel.saved_currentArguments (ht : k.objs k.current_task = some (.task t)) :
    (k.saved t directory frame).currentArguments = k.currentArguments := by
  have hcur : (k.saved t directory frame).objs (k.saved t directory frame).current_task =
      some (.task { t with registers := savedRegisters frame }) := Function.update_self ..
  unfold Kernel.currentArguments
  simp only [Kernel.saved_bind ht _ (f := Obj.process?) fun _ => rfl]
  rw [hcur, ht]
  rfl

theorem Kernel.saved_forbids (L : Layout) (ht : k.objs k.current_task = some (.task t))
    (p n : Nat) : L.forbids (k.saved t directory frame) p n = L.forbids k p n := by
  have hcovers : ∀ q a, (k.saved t directory frame).structureCovers q a =
      k.structureCovers q a := by
    intro q a
    unfold Kernel.structureCovers
    rcases Kernel.saved_objs _ _ ht q with heq | ⟨t₁, t₂, h₁, h₂, -⟩
    · rw [heq]
    · rw [h₁, h₂]
      rfl
  unfold Layout.forbids Kernel.structureAt
  simp only [hcovers]

theorem Kernel.saved_admits (L : Layout) (ht : k.objs k.current_task = some (.task t)) (p : Nat) :
    L.Admits (k.saved t directory frame) p ↔ L.Admits k p := by
  unfold Layout.Admits
  rw [Kernel.saved_forbids L ht, Kernel.saved_forbids L ht]

end Saved

/-! ### The handlers -/

/-- The pointer that command 8 gets leads to `current_task`, and `argc` and `argv` make
it another task there. -/
def Redirects (L : Layout) (k : Kernel) (frame : InterruptFrame) : Prop :=
  ∃ p a, k.argumentsPointer frame.esp.toNat = some p ∧ k.currentArguments = some a ∧
    L.Admits k p ∧ (L.storeArguments k p a).current_task ≠ k.current_task ∧
    ∃ t, k.objs (L.storeArguments k p a).current_task = some (.task t)

section Handlers

variable {b : Nat} {s : System}

/-- `task_page` loads the directory of the task that was interrupted. -/
theorem taskPage_ensures {k : Kernel} {task : Nat} (h : k.StaysWith task) :
    Ensures taskPage k fun _ k' => k'.current_task = task ∧ k'.OwnDirectory := by
  refine .bind (reads_spec Kernel.current_task).ensures ?_
  rintro _ _ ⟨rfl, rfl⟩
  refine .bind (taskSwitch_spec _ _) ?_
  rintro _ k' ⟨hobjs, hcur, hdir⟩
  refine .pure ⟨?_, hdir⟩
  rcases h with heq | hno
  · exact hcur.trans heq
  · obtain ⟨t, ht, -⟩ := hdir
    rw [hobjs, hcur] at ht
    exact absurd ht (hno t)

theorem taskPage_returns {k : Kernel} {t : Task} {d : Nat} (h : k.TaskSpace k.current_task t d) :
    Returns taskPage k fun _ k' => k'.current_task = k.current_task := by
  refine .bind (reads_spec Kernel.current_task) ?_
  rintro _ _ ⟨rfl, rfl⟩
  refine .bind (R := fun _ k' => k'.current_task = k.current_task) ?_ ?_
  · refine .bind (modifies_spec _) ?_
    rintro _ _ rfl
    refine .bind (deref_returns h.task_ne_zero h.task rfl) ?_
    rintro _ _ ⟨rfl, rfl⟩
    refine .bind (pagingSwitch_returns h.chunk_ne_zero h.chunk) ?_
    rintro _ _ rfl
    exact .pure rfl
  · intro _ k' hk'
    exact .pure hk'

/-- Command 8 comes back with the same task when its stores do not redirect. -/
theorem isr80hCommand8_staysWith {L : Layout} {e : Entry} {t : Task} {d : Nat}
    (ht : s.kernel.objs s.kernel.current_task = some (.task t))
    (h : ¬ Redirects L s.kernel e.frame) :
    Ends (isr80hCommand8GetProgramArguments L e)
      { s with kernel := s.kernel.saved t d e.frame } Resumes
      fun _ s' => s'.kernel.StaysWith s.kernel.current_task := by
  refine (isr80hCommand8GetProgramArguments_ends L e (Function.update_self ..)).mono ?_
  rintro _ s' ⟨p, a, kd, hp, ha, hadmits, hk'⟩
  rw [Kernel.saved_argumentsPointer ht] at hp
  rw [Kernel.saved_currentArguments ht] at ha
  rw [Kernel.saved_admits L ht] at hadmits
  have hcur : s'.kernel.current_task = (L.storeArguments s.kernel p a).current_task := by
    rw [hk']
    rfl
  by_cases hsame : s'.kernel.current_task = s.kernel.current_task
  · exact Or.inl hsame
  refine Or.inr fun t' ht' => h ⟨p, a, hp, ha, hadmits, ?_, ?_⟩
  · rwa [← hcur]
  · rw [← hcur]
    have hobjs : s'.kernel.objs = (s.kernel.saved t d e.frame).objs := by
      rw [hk']
      rfl
    rw [hobjs] at ht'
    rcases Kernel.saved_objs d e.frame ht s'.kernel.current_task with
      heq | ⟨t₁, -, h₁, -⟩
    · exact ⟨t', heq.symm.trans ht'⟩
    · exact ⟨t₁, h₁⟩

/-- Both handlers begin so: the kernel's directory is loaded, and the frame is saved. -/
theorem enter_ends {α : Type} {m : HM α} {Q : α → System → Prop} (frame : InterruptFrame)
    (h : ∀ t d, s.kernel.objs s.kernel.current_task = some (.task t) →
      Ends m { s with kernel := s.kernel.saved t d frame } Resumes Q) :
    Ends (do
      inKernel kernelPage
      inKernel (taskCurrentSaveState frame)
      m) s Resumes Q := by
  refine .bind (inKernel_ends (kernelPage_eq _)) ?_
  rintro _ s₁ ⟨hs₁, d, hk₁⟩
  rw [hk₁] at hs₁
  subst hs₁
  refine .bind (inKernel_ends (taskCurrentSaveState_eq _ _)) ?_
  rintro _ s₂ ⟨hs₂, t, ht, hk₂⟩
  rw [hk₂] at hs₂
  subst hs₂
  exact h t d ht

/-- Interrupt 0x80, when command 8 is not called or does not redirect. -/
theorem isr80hWrapper_ends {L : Layout} {e : Entry} (h : RunsTask b s.kernel)
    (ht : s.kernel.TasksInBlocks)
    (hcommand : i32 e.frame.eax.toNat = 8 → ¬ Redirects L s.kernel e.frame) :
    Ends (isr80hWrapper L e) s Resumes Resumes := by
  refine .bind (inKernel_looks_ends (.reads ⟨rfl, rfl⟩)) ?_
  rintro interrupted _ ⟨rfl, rfl⟩
  refine .bind (R := fun _ s' => s'.kernel.current_task = s.kernel.current_task ∧
    s'.kernel.OwnDirectory) (enter_ends e.frame fun t d htask => ?_) ?_
  · have hsame := Kernel.saved_sameSchedule d e.frame htask
    refine .bind (R := fun _ s' => s'.kernel.StaysWith s.kernel.current_task) ?_ ?_
    · by_cases h8 : i32 e.frame.eax.toNat = 8
      · rw [h8]
        exact isr80hCommand8_staysWith htask (hcommand h8)
      · rw [h.current]
        exact isr80hHandleCommand_ends (s := { s with kernel := s.kernel.saved t d e.frame })
          (h.same hsame rfl) (hsame.tasksInBlocks ht) L e h8
    · intro res s₁ hs₁
      refine .bind (inKernel_ends (taskPage_ensures hs₁)) ?_
      rintro _ s₂ ⟨-, hcur, hdir⟩
      exact .pure ⟨hcur, hdir⟩
  · rintro tmp_res s' ⟨hcur, hdir⟩
    exact .pure ⟨hcur.symm, hdir⟩

/-- The keyboard driver does not change which task runs. -/
theorem classicKeyboardHandleInterrupt_ensures (scancode : UInt8) :
    Ensures (classicKeyboardHandleInterrupt scancode) s fun _ s' =>
      s'.kernel.current_task = s.kernel.current_task := by
  refine .bind (Within.ensures (R := OnKernel SameSchedule) _ s) ?_
  intro _ s₁ hs₁
  have hcur₁ : s₁.kernel.current_task = s.kernel.current_task := SameSchedule.current_task hs₁
  split
  · exact .pure hcur₁
  refine .bind (R := fun _ s' => s'.kernel = s₁.kernel) (.onlyIf (fun _ => .modifies rfl)
    fun _ => rfl) ?_
  intro _ s₂ hs₂
  refine .bind (.reads (Q := fun _ s' => s₂ = s') rfl) ?_
  rintro _ _ rfl
  refine .bind (Within.ensures (R := OnKernel SameSchedule) _ s₂) ?_
  intro _ s₃ hs₃
  have hcur₃ : s₃.kernel.current_task = s₂.kernel.current_task := SameSchedule.current_task hs₃
  refine (onKernel_ensures (taskPage_ensures (Or.inl rfl))).mono ?_
  rintro _ s₄ ⟨-, hcur₄, -⟩
  rw [hcur₄, hcur₃, hs₂, hcur₁]

theorem InterruptCallback.run_ends (e : Entry) (callback : InterruptCallback) :
    Ends (callback.run e) s Resumes fun _ s' =>
      s'.kernel.current_task = s.kernel.current_task := by
  cases callback with
  | exception => exact idtHandleException_ends e
  | clock => exact switchNext_ends e
  | keyboard => exact .stays (classicKeyboardHandleInterrupt_ensures _)

/-- Every other interrupt. -/
theorem interruptEntry_ends (e : Entry) (interrupt : Nat) :
    Ends (interruptEntry e interrupt) s Resumes Resumes := by
  refine .bind (inKernel_looks_ends (.reads ⟨rfl, rfl⟩)) ?_
  rintro interrupted _ ⟨rfl, rfl⟩
  refine .bind (R := fun _ s' => s'.kernel.current_task = s.kernel.current_task ∧
    s'.kernel.OwnDirectory) ?_ ?_
  · refine .bind (inKernel_ends (kernelPage_eq _)) ?_
    rintro _ s₁ ⟨hs₁, d, hk₁⟩
    rw [hk₁] at hs₁
    subst hs₁
    split
    · exact inKernel_fails_ends
    have hpage : ∀ {s₂ : System}, s₂.kernel.current_task = s.kernel.current_task →
        Ends (inKernel taskPage) s₂ Resumes fun _ s' =>
          s'.kernel.current_task = s.kernel.current_task ∧ s'.kernel.OwnDirectory := by
      intro s₂ hs₂
      refine (inKernel_ends (taskPage_ensures (Or.inl hs₂))).mono ?_
      rintro _ s₃ ⟨-, h⟩
      exact h
    cases interruptCallbacks interrupt with
    | none => exact hpage rfl
    | some callback =>
      refine .bind (inKernel_ends (Within.ensures (R := SameSchedule) _ _)) ?_
      rintro _ s₂ ⟨-, hs₂⟩
      refine .bind (callback.run_ends e) ?_
      intro _ s₃ hs₃
      exact hpage (hs₃.trans hs₂.current_task)
  · rintro _ s' ⟨hcur, hdir⟩
    exact .pure ⟨hcur.symm, hdir⟩

end Handlers

/-! ### Interrupts -/

/-- Tasks run: the list of the tasks is well formed, each has an address space of its
own and a process, and so has the kernel; the marks in the heap's table are sound. -/
structure Multitasking (k : Kernel) (ts : List Nat) : Prop where
  list : TaskList k ts
  owned : ∃ own, TasksOwned k own ts
  some_task : ts ≠ []
  tasks : ∀ p t, k.objs p = some (.task t) → p ∈ ts
  process : ∀ p t, k.objs p = some (.task t) →
    t.process ≠ 0 ∧ ∃ pr, k.objs t.process = some (.process pr)
  kernel_chunk : ∃ d, k.KernelSpace d
  heap : k.HeapSound

section Interrupts

variable {k : Kernel} {ts : List Nat} {s : System}

theorem Multitasking.current_mem (h : Multitasking k ts) : k.current_task ∈ ts :=
  h.list.current.resolve_left fun hnil => h.some_task hnil.1

theorem Multitasking.tasksInBlocks (h : Multitasking k ts) : k.TasksInBlocks := by
  obtain ⟨own, hown⟩ := h.owned
  intro p t hp
  exact (hown.task p (h.tasks p t hp)).1.aligned

theorem Multitasking.runsTask (h : Multitasking k ts) : ∃ b, RunsTask b k := by
  obtain ⟨own, hown⟩ := h.owned
  obtain ⟨ha, -⟩ := hown.task _ h.current_mem
  obtain ⟨b, hb, -, hin, -⟩ := id ha
  rw [hb] at ha
  refine ⟨b, hb, ha, ha.fenced h.heap (by omega), ?_⟩
  exact fun h0 => h.some_task (h.list.head_eq_zero.mp h0)

/-- Each task of the list has its page directory and page tables. -/
theorem Multitasking.taskSpace (h : Multitasking k ts) {task : Nat} (hmem : task ∈ ts) :
    ∃ t d w, k.TaskSpace task t d ∧ d ≠ 0 ∧ k.objs d = some (.words w) ∧
      ∀ i < 1024, pageMask (w i) ≠ 0 := by
  obtain ⟨own, hown⟩ := h.owned
  obtain ⟨ha, t, ht, hsp⟩ := hown.task task hmem
  have halive := hsp.alive
  have hchunk := hsp.chunk_mem
  obtain ⟨d, w, hd, hw, hptrs, -, -⟩ := hsp
  refine ⟨t, d, w, ⟨ha.ne_zero, ht, (halive _ hchunk).ne_zero, hd⟩, (halive d ?_).ne_zero, hw,
    fun i hi => (halive _ ?_).ne_zero⟩
  · rw [hptrs]
    simp
  · rw [hptrs]
    refine List.mem_cons_of_mem _ (List.mem_cons_of_mem _ (List.mem_map.mpr ⟨i, ?_, rfl⟩))
    rw [List.mem_range'_1]
    omega

theorem raise_ensures {L : Layout} {interrupt : Nat} {e : Entry}
    (h : Ends (if interrupt = 0x80 then isr80hWrapper L e else interruptEntry e interrupt) s
      Resumes Resumes) : Ensures (raise L interrupt e) s Resumes := by
  refine .bind h ?_
  intro r s' hr
  cases r with
  | ok r => exact .pure hr
  | error r => exact .pure hr

/-- When the stores redirect, interrupt 0x80 goes back to the interrupted task while
another one is the current task. -/
theorem isr80hWrapper_passes {L : Layout} {e : Entry} (h : Multitasking s.kernel ts)
    (h8 : i32 e.frame.eax.toNat = 8) (hr : Redirects L s.kernel e.frame) :
    Passes (isr80hWrapper L e) s fun r s' => r.frame = .stacked s.kernel.current_task ∧
      s'.kernel.current_task ≠ s.kernel.current_task := by
  obtain ⟨t, d, w, hspace, hd0, hw, htables⟩ := h.taskSpace h.current_mem
  obtain ⟨kd, hkernel⟩ := h.kernel_chunk
  obtain ⟨p, a, hp, ha, hadmits, hne, t', ht'⟩ := hr
  obtain ⟨t₂, d₂, -, hspace₂, -⟩ := h.taskSpace (h.tasks _ _ ht')
  have htask := hspace.task
  -- the kernel behind `kernel_page` and `task_current_save_state`
  obtain ⟨k₂, hk₂⟩ : ∃ k₂, k₂ = s.kernel.saved t kd e.frame := ⟨_, rfl⟩
  have hself : k₂.objs k₂.current_task =
      some (.task { t with registers := savedRegisters e.frame }) := by
    rw [hk₂]
    exact Function.update_self ..
  have hother : ∀ {q : Nat} {o : Obj}, s.kernel.objs q = some o → (∀ t, o ≠ .task t) →
      k₂.objs q = some o := by
    intro q o ho hno
    rw [hk₂]
    exact Kernel.saved_other htask ho hno
  refine .bind (inKernel_looks_passes (.reads ⟨rfl, rfl⟩)) ?_
  rintro interrupted _ ⟨rfl, rfl⟩
  refine .bind (R := fun _ s' => s'.kernel.current_task ≠ s.kernel.current_task) ?_ ?_
  · refine .bind (inKernel_passes (kernelPage_returns hkernel.ne_zero hkernel.chunk)) ?_
    rintro _ s₁ ⟨hs₁, hk₁⟩
    rw [hk₁] at hs₁
    subst hs₁
    refine .bind (inKernel_passes (taskCurrentSaveState_returns hspace.task_ne_zero
      (k := { s.kernel with current_directory := kd }) htask _)) ?_
    rintro _ s₂ ⟨hs₂, hs₂k⟩
    have hs₂k : s₂.kernel = k₂ := hs₂k.trans hk₂.symm
    refine .bind (R := fun _ s' => s'.kernel.objs = k₂.objs ∧
      s'.kernel.current_task = (L.storeArguments s.kernel p a).current_task) ?_ ?_
    · have hspace' : s₂.kernel.TaskSpace s₂.kernel.current_task
          { t with registers := savedRegisters e.frame } d := by
        rw [hs₂k]
        exact ⟨hk₂ ▸ hspace.task_ne_zero, hself, hspace.chunk_ne_zero,
          hother hspace.chunk Inert.not_task⟩
      have hkernel' : s₂.kernel.KernelSpace kd := by
        rw [hs₂k, hk₂]
        exact ⟨hkernel.ne_zero, Kernel.saved_other htask hkernel.chunk Inert.not_task⟩
      have hw' : s₂.kernel.objs d = some (.words w) := by
        rw [hs₂k]
        exact hother hw Inert.not_task
      have hp' : s₂.kernel.argumentsPointer e.frame.esp.toNat = some p := by
        rw [hs₂k, hk₂, Kernel.saved_argumentsPointer htask]
        exact hp
      have ha' : s₂.kernel.currentArguments = some a := by
        rw [hs₂k, hk₂, Kernel.saved_currentArguments htask]
        exact ha
      have hadmits' : L.Admits s₂.kernel p := by
        rw [hs₂k, hk₂, Kernel.saved_admits L htask]
        exact hadmits
      rw [h8]
      refine Passes.mono (isr80hCommand8GetProgramArguments_passes e hspace' hkernel' hd0 hw'
        htables (h.process _ _ htask).1 hp' ha' hadmits') ?_
      intro _ s₃ hs₃
      rw [hs₃]
      refine ⟨?_, ?_⟩
      · rw [← hs₂k]
        rfl
      · unfold System.loaded
        rw [hs₂k, hk₂]
        rfl
    · rintro res s₃ ⟨hobjs₃, hcur₃⟩
      have hspace₃ : s₃.kernel.TaskSpace (L.storeArguments s.kernel p a).current_task t₂ d₂ := by
        refine ⟨hspace₂.task_ne_zero, ?_, hspace₂.chunk_ne_zero, ?_⟩
        · rw [hobjs₃, hk₂]
          exact (Function.update_of_ne hne _ _).trans hspace₂.task
        · rw [hobjs₃]
          exact hother hspace₂.chunk Inert.not_task
      refine .bind (inKernel_passes (taskPage_returns (hcur₃ ▸ hspace₃))) ?_
      rintro _ s₄ ⟨-, hcur₄⟩
      refine .pure ?_
      rw [hcur₄, hcur₃]
      exact hne
  · intro tmp_res s' hs'
    exact .pure ⟨rfl, hs'⟩

theorem commandNumber_eq_eight {eax : UInt32} : i32 eax.toNat = 8 ↔ eax = 8 := by
  have hlt := eax.toNat_lt
  rw [← UInt32.toNat_inj, show (8 : UInt32).toNat = 8 by decide]
  unfold i32
  omega

end Interrupts

/-! ### Two programs -/

/-- The structures of a program in the 1030 blocks from `g` on: its process, its task, and
an address space that maps every page to itself. -/
def programObjs (g : Nat) (p : Process) (t : Task) (b : Nat) : Option Obj :=
  if b = g then some (.process p)
  else if b = g + 3 then some (.task t)
  else if b = g + 4 then some (.chunk (blockAddress (g + 5)))
  else if b = g + 5 then some (.words fun i => blockAddress (g + 6 + i) ||| 7)
  else if g + 6 ≤ b ∧ b < g + 1030 then
    some (.words fun i => ((b - (g + 6)) * 1024 + i) * 4096 ||| 7)
  else none

/-- The marks of these blocks: the process has three. -/
def programEntries (g : Nat) (i : Int) : UInt8 :=
  if g ≤ i ∧ i < g + 3 then runEntry 3 (i - g).toNat
  else if g + 3 ≤ i ∧ i < g + 1030 then runEntry 1 0
  else 0

/-- The task of the program in the blocks from `g` on. -/
def programTask (g next prev : Nat) : Task :=
  { Task.zero with
    page_directory := blockAddress (g + 4), process := blockAddress g, next := next, prev := prev }

/-- Two programs run, in the blocks from 1277 and from 5373 on; the first has two
arguments. On top of the stack of the first is the pointer 0x200003. -/
def Kernel.twoPrograms : Kernel :=
  { Kernel.boot Disk.blank with
    heap_entries := fun i => if i = 0 then runEntry 1 0
      else if i < 5373 then programEntries 1277 i else programEntries 5373 i
    mem := fun a => if a = 0x3feffc then 0x03 else if a = 0x3feffe then 0x20 else 0
    objs := fun a =>
      let b := (a - 0x1000000) / 4096
      if a % 4096 ≠ 0 ∨ a < 0x1000000 then none
      else if b = 0 then some (.chunk (blockAddress 1))
      else if b < 5373 then programObjs 1277 { Process.zero with
          task := 0x1500000, arguments := ⟨2, blockAddress 900⟩ } (programTask 1277 0x2500000 0) b
      else programObjs 5373 { Process.zero with id := 1, task := 0x2500000 }
        (programTask 5373 0 0x1500000) b
    processes := fun i => if i = 0 then blockAddress 1277 else if i = 1 then blockAddress 5373 else 0
    current_process := blockAddress 1277
    task_head := 0x1500000
    task_tail := 0x2500000
    current_task := 0x1500000
    kernel_chunk := 0x1000000 }

/-- The program calls command 8. -/
def Entry.command8 : Entry where
  frame := ⟨0, 0, 0, 0, 0, 0, 0, 8, 0x400000, 0x1b, 0x202, 0x3feffc, 0x23⟩
  cpu := Cpu.zero
  scancode := 0
  fault_frame := ⟨0, 0, 0, 0, 0, 0, 0, 0, 0, 0, 0, 0, 0⟩
  buffer := []

def System.twoPrograms : System := ⟨Kernel.twoPrograms, 0, 0, false⟩

section TwoPrograms

variable {k : Kernel} {g : Nat} {p : Process} {t : Task}

theorem programObjs_task {b : Nat} {t' : Task} (h : programObjs g p t b = some (.task t')) :
    b = g + 3 ∧ t' = t := by
  unfold programObjs at h
  split at h
  · cases h
  split at h
  · next hb =>
    cases h
    exact ⟨hb, rfl⟩
  split at h
  · cases h
  split at h
  · cases h
  split at h
  · cases h
  · cases h

theorem programObjs_table {i : Nat} (hi : i < 1024) :
    programObjs g p t (g + 6 + i) = some (.words fun j => (i * 1024 + j) * 4096 ||| 7) := by
  unfold programObjs
  rw [if_neg (by omega), if_neg (by omega), if_neg (by omega), if_neg (by omega),
    if_pos (by omega), show g + 6 + i - (g + 6) = i by omega]

/-- The blocks of the program's address space. -/
def programSpace (g : Nat) : List Nat := (List.range' (g + 4) 1026).map blockAddress

theorem program_alive (hin : g + 1030 ≤ 25600)
    (hentries : ∀ i : Int, g ≤ i → i < g + 1030 → k.heap_entries i = programEntries g i) {b : Nat}
    (h₁ : g + 3 ≤ b) (h₂ : b < g + 1030) : k.Alive (blockAddress b) 1 := by
  refine ⟨b, rfl, by omega, by omega, fun j hj => ?_⟩
  rw [Kernel.heap_entries_eq, hentries _ (by omega) (by omega)]
  unfold programEntries
  rw [if_neg (by omega), if_pos (by omega), show j = 0 by omega]

theorem programSpace_nodup (g : Nat) : (blockAddress (g + 3) :: programSpace g).Nodup := by
  have h : (List.map blockAddress (List.range' (g + 3) 1027)).Nodup :=
    List.Nodup.map (fun _ _ => blockAddress_inj.mp) List.nodup_range'
  exact h

theorem program_ownsSpace (hin : g + 1030 ≤ 25600)
    (hobjs : ∀ b, g ≤ b → b < g + 1030 → k.objs (blockAddress b) = programObjs g p t b)
    (hentries : ∀ i : Int, g ≤ i → i < g + 1030 → k.heap_entries i = programEntries g i) :
    OwnsSpace k (blockAddress (g + 4)) (programSpace g) := by
  refine ⟨blockAddress (g + 5), fun i => blockAddress (g + 6 + i) ||| 7, ?_, ?_, ?_,
    (List.nodup_cons.mp (programSpace_nodup g)).2, fun q hq => ?_⟩
  · rw [hobjs _ (by omega) (by omega)]
    unfold programObjs
    rw [if_neg (by omega), if_neg (by omega), if_pos rfl]
  · rw [hobjs _ (by omega) (by omega)]
    unfold programObjs
    rw [if_neg (by omega), if_neg (by omega), if_neg (by omega), if_pos rfl]
  · have htables : tablePtrs (fun i => blockAddress (g + 6 + i) ||| 7) 0 1024 =
        (List.range' (g + 6) 1024).map blockAddress := by
      rw [← Nat.add_zero (g + 6), ← List.map_add_range', List.map_map]
      refine List.map_congr_left fun i hi => ?_
      rw [List.mem_range'_1] at hi
      refine pageMask_or_flags (blockAddress_aligned _) ?_ (by omega)
      unfold blockAddress
      omega
    rw [htables]
    rfl
  · obtain ⟨b, hb, rfl⟩ := List.mem_map.mp hq
    rw [List.mem_range'_1] at hb
    exact program_alive hin hentries (by omega) (by omega)

end TwoPrograms

theorem twoPrograms_objs (b : Nat) : Kernel.twoPrograms.objs (blockAddress b) =
    if b = 0 then some (.chunk (blockAddress 1))
    else if b < 5373 then programObjs 1277 { Process.zero with
      task := 0x1500000, arguments := ⟨2, blockAddress 900⟩ } (programTask 1277 0x2500000 0) b
    else programObjs 5373 { Process.zero with id := 1, task := 0x2500000 }
      (programTask 5373 0 0x1500000) b := by
  have hblock : (blockAddress b - 0x1000000) / 4096 = b := by
    unfold blockAddress
    omega
  have haligned : ¬ (blockAddress b % 4096 ≠ 0 ∨ blockAddress b < 0x1000000) := by
    unfold blockAddress
    omega
  unfold Kernel.twoPrograms
  dsimp only
  rw [if_neg haligned, hblock]

theorem twoPrograms_task {a : Nat} {t : Task} (h : Kernel.twoPrograms.objs a = some (.task t)) :
    (a = 0x1500000 ∧ t = programTask 1277 0x2500000 0) ∨
      (a = 0x2500000 ∧ t = programTask 5373 0 0x1500000) := by
  by_cases haligned : a % 4096 ≠ 0 ∨ a < 0x1000000
  · unfold Kernel.twoPrograms at h
    dsimp only at h
    rw [if_pos haligned] at h
    cases h
  obtain ⟨b, rfl⟩ : ∃ b, a = blockAddress b := ⟨(a - 0x1000000) / 4096, by
    unfold blockAddress
    omega⟩
  rw [twoPrograms_objs] at h
  split at h
  · cases h
  split at h
  · obtain ⟨rfl, rfl⟩ := programObjs_task h
    exact Or.inl ⟨rfl, rfl⟩
  · obtain ⟨rfl, rfl⟩ := programObjs_task h
    exact Or.inr ⟨rfl, rfl⟩

theorem twoPrograms_heapSound : Kernel.twoPrograms.HeapSound where
  next_taken i h0 hlt hnext := by
    have hentry : ∀ j, Kernel.twoPrograms.heap.table.entries j = if j = 0 then runEntry 1 0
        else if j < 5373 then programEntries 1277 j else programEntries 5373 j := fun _ => rfl
    have hcases : i = 1277 ∨ i = 1278 ∨ i = 5373 ∨ i = 5374 := by
      by_contra hno
      rw [hentry] at hnext
      unfold programEntries at hnext
      split at hnext
      · exact absurd hnext (by decide)
      split at hnext
      · split at hnext
        · rw [show (i - (1277 : Nat)).toNat = 2 by omega] at hnext
          exact absurd hnext (by decide)
        split at hnext
        · exact absurd hnext (by decide)
        · exact absurd hnext (by decide)
      · split at hnext
        · rw [show (i - (5373 : Nat)).toNat = 2 by omega] at hnext
          exact absurd hnext (by decide)
        split at hnext
        · exact absurd hnext (by decide)
        · exact absurd hnext (by decide)
    unfold HeapTable.IsFree
    rw [hentry]
    rcases hcases with rfl | rfl | rfl | rfl
    all_goals decide
  barrier := by decide

theorem twoPrograms_multitasking : Multitasking Kernel.twoPrograms [0x1500000, 0x2500000] where
  list := {
    ne_zero := by simp
    links := ⟨⟨_, twoPrograms_objs 1280, rfl, rfl⟩, ⟨_, twoPrograms_objs 5376, rfl, rfl⟩, trivial⟩
    head := rfl
    tail := rfl
    current := Or.inr (by decide) }
  owned := by
    have hobjs₁ : ∀ b, 1277 ≤ b → b < 1277 + 1030 → Kernel.twoPrograms.objs (blockAddress b) =
        programObjs 1277 { Process.zero with
          task := 0x1500000, arguments := ⟨2, blockAddress 900⟩ } (programTask 1277 0x2500000 0) b := by
      intro b h₁ h₂
      rw [twoPrograms_objs, if_neg (by omega), if_pos (by omega)]
    have hobjs₂ : ∀ b, 5373 ≤ b → b < 5373 + 1030 → Kernel.twoPrograms.objs (blockAddress b) =
        programObjs 5373 { Process.zero with id := 1, task := 0x2500000 }
          (programTask 5373 0 0x1500000) b := by
      intro b h₁ h₂
      rw [twoPrograms_objs, if_neg (by omega), if_neg (by omega)]
    have hentries₁ : ∀ i : Int, (1277 : Nat) ≤ i → i < (1277 : Nat) + 1030 →
        Kernel.twoPrograms.heap_entries i = programEntries 1277 i := by
      intro i h₁ h₂
      unfold Kernel.twoPrograms
      dsimp only
      rw [if_neg (by omega), if_pos (by omega)]
    have hentries₂ : ∀ i : Int, (5373 : Nat) ≤ i → i < (5373 : Nat) + 1030 →
        Kernel.twoPrograms.heap_entries i = programEntries 5373 i := by
      intro i h₁ h₂
      unfold Kernel.twoPrograms
      dsimp only
      rw [if_neg (by omega), if_neg (by omega)]
    refine ⟨fun u => if u = 0x1500000 then programSpace 1277 else programSpace 5373, ?_, ?_⟩
    · intro u hu
      rcases List.mem_pair.mp hu with rfl | rfl
      · refine ⟨program_alive (b := 1280) (by omega) hentries₁ (by omega) (by omega), _,
          twoPrograms_objs 1280, ?_⟩
        rw [if_pos rfl]
        exact program_ownsSpace (by omega) hobjs₁ hentries₁
      · refine ⟨program_alive (b := 5376) (by omega) hentries₂ (by omega) (by omega), _,
          twoPrograms_objs 5376, ?_⟩
        rw [if_neg (by decide)]
        exact program_ownsSpace (by omega) hobjs₂ hentries₂
    · change ((blockAddress (1277 + 3) :: programSpace 1277) ++
        ((blockAddress (5373 + 3) :: programSpace 5373) ++ [])).Nodup
      rw [List.append_nil]
      refine List.nodup_append'.mpr ⟨programSpace_nodup _, programSpace_nodup _, ?_⟩
      have hblocks : ∀ g, blockAddress (g + 3) :: programSpace g =
          (List.range' (g + 3) 1027).map blockAddress := fun _ => rfl
      rw [hblocks, hblocks]
      intro q hq₁ hq₂
      obtain ⟨b₁, hb₁, rfl⟩ := List.mem_map.mp hq₁
      obtain ⟨b₂, hb₂, heq⟩ := List.mem_map.mp hq₂
      rw [List.mem_range'_1] at hb₁ hb₂
      have := blockAddress_inj.mp heq
      omega
  some_task := by simp
  tasks p t h := by
    rcases twoPrograms_task h with ⟨rfl, -⟩ | ⟨rfl, -⟩
    · decide
    · decide
  process p t h := by
    rcases twoPrograms_task h with ⟨-, rfl⟩ | ⟨-, rfl⟩
    · exact ⟨by decide, _, twoPrograms_objs 1277⟩
    · exact ⟨by decide, _, twoPrograms_objs 5373⟩
  kernel_chunk := ⟨blockAddress 1, by decide, twoPrograms_objs 0⟩
  heap := twoPrograms_heapSound

theorem twoPrograms_freeFrom : Kernel.twoPrograms.FreeFrom 6403 := by
  intro i h₁ h₂
  unfold HeapTable.IsFree Kernel.twoPrograms
  simp only [Kernel.heap_entries_eq]
  rw [if_neg (by omega), if_neg (by omega)]
  unfold programEntries
  rw [if_neg (by omega), if_neg (by omega)]
  rfl

end PlumOS
