import PlumOS.Task.LoadFence
import PlumOS.Task.Preempt

/-!
# Which task is resumed

The kernel resumes its current task when the frame that is popped is that task's and the
page directory that is loaded is that task's. The exits through `task_return` do so from
every state: they load the directory of the task whose registers they pop. The reads of
a task's memory end in such an exit, or leave the scheduler alone.

## Main definitions

- `Resumes` — the frame and the directory are those of the current task
- `OnKernel` — a relation on the kernel, between systems

## Main results

- `switchNext_ends`, `idtHandleException_ends`, `pageFault_ends`, `startProcess_ends`
- `taskGetStackItem_keeping`, `copyStringFromTask_keeping`
-/

namespace PlumOS

open StateExcept

/-- The frame is the one pushed when `task` was interrupted, or its saved registers. -/
def PoppedFrame.BelongsTo (task : Nat) : PoppedFrame → Prop
  | .stacked interrupted => interrupted = task
  | .saved regs => regs = taskRegisters task

/-- The page directory that is loaded is the one of `current_task`. -/
def Kernel.OwnDirectory (k : Kernel) : Prop :=
  ∃ t, k.objs k.current_task = some (.task t) ∧
    k.objs t.page_directory = some (.chunk k.current_directory)

/-- User mode is entered with the frame and the page directory of `current_task`. -/
structure Resumes (r : UserReturn) (s : System) : Prop where
  frame : r.frame.BelongsTo s.kernel.current_task
  directory : s.kernel.OwnDirectory

/-! ### Programs of the kernel on the system -/

/-- The kernels of two systems are related. -/
def OnKernel (R : Kernel → Kernel → Prop) (s s' : System) : Prop := R s.kernel s'.kernel

instance {R : Kernel → Kernel → Prop} [Std.Refl R] : Std.Refl (OnKernel R) :=
  ⟨fun s => Std.Refl.refl s.kernel⟩

instance {R : Kernel → Kernel → Prop} [IsTrans Kernel R] : IsTrans System (OnKernel R) :=
  ⟨fun _ _ _ h h' => IsTrans.trans (r := R) _ _ _ h h'⟩

section

variable {α : Type} {s : System} {E : UserReturn → System → Prop}

theorem inKernel_ends {m : KM α} {Q : α → Kernel → Prop} (h : Ensures m s.kernel Q) :
    Ends (inKernel m) s E
      fun a s' => s' = { s with kernel := s'.kernel } ∧ Q a s'.kernel :=
  .stays (onKernel_ensures h)

theorem inKernel_passes {m : KM α} {Q : α → Kernel → Prop} (h : Returns m s.kernel Q) :
    Passes (inKernel m) s fun a s' => s' = { s with kernel := s'.kernel } ∧ Q a s'.kernel :=
  .stays (onKernel_returns h)

/-- A function that only looks at the kernel. -/
theorem inKernel_looks_ends {m : KM α} {P : α → Prop}
    (h : Ensures m s.kernel fun a k' => s.kernel = k' ∧ P a) :
    Ends (inKernel m) s E fun a s' => s = s' ∧ P a := by
  refine (inKernel_ends h).mono ?_
  rintro a s' ⟨hs', hk', hP⟩
  rw [← hk'] at hs'
  exact ⟨hs'.symm, hP⟩

theorem inKernel_looks_passes {m : KM α} {P : α → Prop}
    (h : Returns m s.kernel fun a k' => s.kernel = k' ∧ P a) :
    Passes (inKernel m) s fun a s' => s = s' ∧ P a := by
  refine (inKernel_passes h).mono ?_
  rintro a s' ⟨hs', hk', hP⟩
  rw [← hk'] at hs'
  exact ⟨hs'.symm, hP⟩

/-- A failure is neither of the two endings. -/
theorem inKernel_fails_ends {e : Fault} {Q : α → System → Prop} :
    Ends (inKernel (fails e)) s E Q := .stays fun _ _ h => by cases h

instance onKernel_within {R : Kernel → Kernel → Prop} (m : KM α) [Within R m] :
    Within (OnKernel R) (onKernel m) where
  within s := (onKernel_ensures (Within.ensures m s.kernel)).mono fun _ _ h => h.2

instance inKernel_keeping {R : Kernel → Kernel → Prop} (m : KM α) [Within R m] :
    Keeping E (OnKernel R) (inKernel m) :=
  inferInstanceAs (Keeping E (OnKernel R) (stays (onKernel m)))

end

/-! ### Leaving through `task_return` -/

/-- A task switch loads the directory of the task it switches to. -/
theorem taskSwitch_spec (task : Nat) (k : Kernel) :
    Ensures (taskSwitch task) k fun _ k' => k'.objs = k.objs ∧ k'.current_task = task ∧
      k'.OwnDirectory := by
  refine .bind (modifies_spec _).ensures ?_
  rintro _ _ rfl
  refine .bind (deref_spec _ _ _) ?_
  rintro t _ ⟨rfl, -, ht⟩
  rw [Obj.task?_eq_some] at ht
  refine .bind (R := fun _ k' => k'.objs = k.objs ∧ k'.current_task = task ∧ k'.OwnDirectory)
    ?_ ?_
  · refine .bind (deref_spec _ _ _) ?_
    rintro d _ ⟨rfl, -, hd⟩
    rw [Obj.chunk?_eq_some] at hd
    exact .modifies ⟨rfl, rfl, t, ht, hd⟩
  · rintro _ k' hk'
    exact .pure hk'

section Exits

variable {α : Type} {s : System} {Q : α → System → Prop}

theorem returnTo_ends {task : Nat} (e : Entry) (hcur : s.kernel.current_task = task)
    (h : s.kernel.OwnDirectory) : Ends (returnTo e task : HM α) s Resumes Q := by
  refine .bind (inKernel_looks_ends (deref_spec _ _ _)) ?_
  rintro t _ ⟨rfl, -, -⟩
  exact .leaves ⟨congrArg taskRegisters hcur.symm, h⟩

theorem switchNext_ends (e : Entry) : Ends (switchNext e : HM α) s Resumes Q := by
  refine .bind (inKernel_ends (taskGetNext_spec _)) ?_
  rintro next_task s₁ -
  split
  · exact inKernel_fails_ends
  refine .bind (inKernel_ends (taskSwitch_spec _ _)) ?_
  rintro _ s₂ ⟨-, -, hcur, hdir⟩
  exact returnTo_ends e hcur hdir

theorem idtHandleException_ends (e : Entry) :
    Ends (idtHandleException e : HM α) s Resumes Q := by
  refine .bind (R := fun _ _ => True) (.stays fun _ _ _ => trivial) ?_
  intro _ s₁ _
  exact switchNext_ends e

/-- Where the kernel runs into a page that is not present, another task is resumed. -/
theorem pageFault_ends (e : Entry) : Ends (pageFault e : HM α) s Resumes Q := by
  refine .bind (R := fun _ _ => True) (.stays fun _ _ _ => trivial) ?_
  intro _ s₁ _
  refine .bind (R := fun _ _ => True) (.stays fun _ _ _ => trivial) ?_
  intro _ s₂ _
  exact idtHandleException_ends e

/-- Both reads of `process->task` give the same task. -/
theorem startProcess_ends (e : Entry) (process : Nat) :
    Ends (startProcess e process : HM α) s Resumes Q := by
  refine .bind (inKernel_looks_ends (deref_spec _ _ _)) ?_
  rintro p _ ⟨rfl, -, hp⟩
  refine .bind (inKernel_ends (taskSwitch_spec _ _)) ?_
  rintro _ s₁ ⟨-, hobjs, hcur, hdir⟩
  refine .bind (inKernel_looks_ends (deref_spec _ _ _)) ?_
  rintro p' _ ⟨rfl, -, hp'⟩
  rw [hobjs, hp] at hp'
  cases hp'
  exact returnTo_ends e hcur hdir

end Exits

/-! ### Reading the memory of a task -/

section Reads

variable {R : Kernel → Kernel → Prop}

instance loadByte_keeping [Std.Refl R] [IsTrans Kernel R] (e : Entry) (virt : Nat) :
    Keeping Resumes (OnKernel R) (loadByte e virt) := by
  have (phys : Option Nat) : Keeping Resumes (OnKernel R) (match phys with
      | none => pageFault e
      | some phys => inKernel (reads fun k => k.mem phys) : HM UInt8) := by
    cases phys with
    | none => exact ⟨fun s => pageFault_ends e⟩
    | some phys => infer_instance
  unfold loadByte
  infer_instance

instance loadWord_keeping [Std.Refl R] [IsTrans Kernel R] (e : Entry) (virt : Nat) :
    Keeping Resumes (OnKernel R) (loadWord e virt) := by
  unfold loadWord
  infer_instance

/-- Between the two switches the scheduler's variables and the heap stay as they are. -/
instance taskGetStackItem_keeping [Std.Refl R] [IsTrans Kernel R] [Within R kernelPage]
    [∀ task, Within R (taskPageTask task)] (e : Entry) (task index : Nat) :
    Keeping Resumes (OnKernel R) (taskGetStackItem e task index) := by
  unfold taskGetStackItem
  infer_instance

instance stackItem_keeping [Std.Refl R] [IsTrans Kernel R] [Within R kernelPage]
    [∀ task, Within R (taskPageTask task)] (e : Entry) (index : Nat) :
    Keeping Resumes (OnKernel R) (stackItem e index) := by
  unfold stackItem taskCurrent
  infer_instance

instance strncpyLoop_keeping [Std.Refl R] [IsTrans Kernel R]
    [∀ p bytes, Within R (storeBytes p bytes)] (e : Entry) (tmp virt fuel i : Nat) :
    Keeping Resumes (OnKernel R) (strncpyLoop e tmp virt fuel i) := by
  induction fuel generalizing i with
  | zero => exact inferInstanceAs (Keeping _ _ (inKernel (storeBytes (tmp + i) [0x00])))
  | succ fuel ih =>
    unfold strncpyLoop
    infer_instance

instance copyStringFromTask_keeping (e : Entry) (task virt max : Nat) :
    Keeping Resumes (OnKernel SameSchedule) (copyStringFromTask e task virt max) := by
  unfold copyStringFromTask
  infer_instance

end Reads

end PlumOS
