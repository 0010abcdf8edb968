import PlumOS.Lib.LabelledRun
import PlumOS.Task.TaskSpec
import PlumOS.Task.TaskReturn

/-!
# Preemption over runs

Runs of clock interrupts over any number of tasks. A task is resumed with what was
saved of it exactly when its saved `ecx` equals its saved `ebx` and the kernel's
arithmetic flags equal its own.

## Main definitions

- `Faithful` — the registers received are those of the frame
- `ClockStep` — one clock interrupt, with the frames of the last preemptions as history
-/

namespace PlumOS

open StateExcept LabelledRun

/-- CF, PF, AF, ZF, SF and OF. -/
def arithmeticFlags : UInt32 := 0x8D5

/-- The registers `u` a task receives are those of its frame `f`. -/
structure Faithful (f : InterruptFrame) (u : Registers) : Prop where
  edi : u.edi = f.edi
  esi : u.esi = f.esi
  ebp : u.ebp = f.ebp
  ebx : u.ebx = f.ebx
  edx : u.edx = f.edx
  ecx : u.ecx = f.ecx
  eax : u.eax = f.eax
  ip : u.ip = f.ip
  cs : u.cs = f.cs
  esp : u.esp = f.esp
  ss : u.ss = f.ss
  flags : u.flags &&& arithmeticFlags = f.flags &&& arithmeticFlags

/-- The registers saved from a frame. -/
def savedRegisters (f : InterruptFrame) : Registers := taskSaveState Registers.zero f

theorem or_interrupt_flag (flags : UInt32) :
    (flags ||| 0x200) &&& arithmeticFlags = flags &&& arithmeticFlags := by
  apply UInt32.toBitVec_inj.mp
  simp only [arithmeticFlags, UInt32.toBitVec_and, UInt32.toBitVec_or]
  rw [BitVec.and_or_distrib_right]
  have hdisjoint : (0x200#32 : BitVec 32) &&& 0x8D5#32 = 0#32 := by decide
  simp [hdisjoint]

/-- The round trip through `task_save_state` and `task_return` is the identity on
exactly these frames. -/
theorem faithful_taskReturn_iff (ptr : UInt32) (f : InterruptFrame) (c : Cpu) :
    Faithful f (taskReturn ptr (savedRegisters f) c) ↔
      f.ecx = f.ebx ∧ f.flags &&& arithmeticFlags = c.eflags &&& arithmeticFlags := by
  rw [taskReturn_eq]
  constructor
  · intro h
    refine ⟨h.ecx.symm, ?_⟩
    rw [← h.flags, or_interrupt_flag]
  · rintro ⟨hecx, hflags⟩
    exact ⟨rfl, rfl, rfl, rfl, rfl, hecx.symm, rfl, rfl, rfl, rfl, rfl,
      (or_interrupt_flag _).trans hflags.symm⟩

/-! ### Runs -/

/-- The kernel, for each task the frame of its last preemption, and the task
resumed last with the registers it received. -/
structure Preempted where
  kernel : Kernel
  last : Nat → Option InterruptFrame
  resumed : Option (Nat × Registers)

/-- One clock interrupt: the running task is preempted with a frame, and `c` is the
processor when the kernel is left. -/
inductive ClockStep : Preempted → InterruptFrame × Cpu → Preempted → Prop
  | tick {s : Preempted} {frame : InterruptFrame} {c : Cpu} {u : Registers} {k' : Kernel} :
      interruptHandlerClock frame c s.kernel = .ok (u, k') →
      ClockStep s (frame, c)
        { kernel := k'
          last := Function.update s.last s.kernel.current_task (some frame)
          resumed := some (k'.current_task, u) }

/-- The task resumed last has the registers of its last preemption, if it had one. -/
def ResumedFaithfully (s : Preempted) : Prop :=
  ∀ t u f, s.resumed = some (t, u) → s.last t = some f → Faithful f u

/-- The task `task_next` picks. -/
def nextTask (k : Kernel) : Nat :=
  match (k.objs k.current_task).bind Obj.task? with
  | some t => if t.next = 0 then k.task_head else t.next
  | none => 0

/-- The interrupts after which the task picked is resumed with its own registers:
if it was ever preempted, its frame has equal `ecx` and `ebx`, and the arithmetic
flags of the processor. -/
def ClockAdmits (s : Preempted) (l : InterruptFrame × Cpu) : Prop :=
  ∀ f, Function.update s.last s.kernel.current_task (some l.1) (nextTask s.kernel) = some f →
    f.ecx = f.ebx ∧ f.flags &&& arithmeticFlags = l.2.eflags &&& arithmeticFlags

theorem taskGetNext_spec (k : Kernel) :
    Ensures taskGetNext k fun next k' => k = k' ∧ next = nextTask k := by
  refine Ensures.bind (reads_spec Kernel.current_task).ensures ?_
  rintro _ _ ⟨rfl, rfl⟩
  refine Ensures.bind (deref_spec _ _ _) ?_
  rintro t _ ⟨rfl, -, ht⟩
  unfold nextTask
  rw [ht]
  dsimp only
  split
  · exact Ensures.reads ⟨rfl, rfl⟩
  · exact Ensures.pure ⟨rfl, rfl⟩

theorem pagingSwitch_spec (k : Kernel) (chunk : Nat) :
    Ensures (pagingSwitch chunk) k fun _ k' => k'.objs = k.objs ∧ SameGlobals k k' := by
  refine Ensures.bind (deref_spec _ _ _) ?_
  rintro d _ ⟨rfl, -, -⟩
  exact Ensures.modifies ⟨rfl, rfl, rfl, rfl, rfl, rfl, rfl⟩

/-- A clock interrupt saves the frame in the current task, makes the next task the
current one and resumes it with what `task_return` gives it. -/
theorem interruptHandlerClock_spec (frame : InterruptFrame) (c : Cpu) (k : Kernel) :
    Ensures (interruptHandlerClock frame c) k fun u k' => k'.current_task = nextTask k ∧
      ∃ t, k.objs k.current_task = some (.task t) ∧
        k'.objs = Function.update k.objs k.current_task
          (some (.task { t with registers := savedRegisters frame })) ∧
        ∃ n, k'.objs (nextTask k) = some (.task n) ∧
          u = taskReturn (UInt32.ofNat (nextTask k + 4)) n.registers c := by
  refine Ensures.bind (R := fun _ k₁ => k₁.objs = k.objs ∧ SameGlobals k k₁) ?_ ?_
  · refine Ensures.bind (reads_spec Kernel.kernel_chunk).ensures ?_
    rintro _ _ ⟨rfl, rfl⟩
    exact pagingSwitch_spec _ _
  rintro _ k₁ ⟨hobjs₁, hglob₁⟩
  have hnext₁ : nextTask k₁ = nextTask k := by
    unfold nextTask
    rw [hobjs₁, hglob₁.current_task, hglob₁.task_head]
  -- the frame is saved
  refine Ensures.bind (R := fun _ k₂ => ∃ t, k.objs k.current_task = some (.task t) ∧
      Stored k₁ k.current_task (.task { t with registers := savedRegisters frame }) k₂) ?_ ?_
  · refine Ensures.bind (reads_spec Kernel.current_task).ensures ?_
    rintro _ _ ⟨rfl, rfl⟩
    split
    · exact Ensures.fails
    · rw [hglob₁.current_task]
      refine (modifyTask_spec _ _ _).mono ?_
      rintro _ k₂ ⟨-, t, ht, hst⟩
      rw [hobjs₁, Obj.task?_eq_some] at ht
      exact ⟨t, ht, hst⟩
  rintro _ k₂ ⟨t, ht, hst₂⟩
  have hobjs₂ : k₂.objs = Function.update k.objs k.current_task
      (some (.task { t with registers := savedRegisters frame })) := by
    funext q
    by_cases hq : q = k.current_task
    · subst hq
      rw [hst₂.self, Function.update_self]
    · rw [hst₂.other q hq, hobjs₁, Function.update_of_ne hq]
  have hnext₂ : nextTask k₂ = nextTask k := by
    unfold nextTask
    rw [hst₂.globals.current_task, hglob₁.current_task, hobjs₂, Function.update_self, ht,
      hst₂.globals.task_head, hglob₁.task_head]
    rfl
  -- the next task is resumed
  refine Ensures.bind (taskGetNext_spec k₂) ?_
  rintro _ _ ⟨rfl, rfl⟩
  rw [hnext₂]
  split
  · exact Ensures.fails
  · refine Ensures.bind (R := fun _ k₃ => k₃.objs = k₂.objs ∧ k₃.current_task = nextTask k) ?_ ?_
    · refine Ensures.bind (modifies_spec _).ensures ?_
      rintro _ _ rfl
      refine Ensures.bind (deref_spec _ _ _) ?_
      rintro n _ ⟨rfl, -, -⟩
      refine Ensures.bind (pagingSwitch_spec _ _) ?_
      rintro _ k₃ ⟨hobjs₃, hglob₃⟩
      exact Ensures.pure ⟨hobjs₃, hglob₃.current_task⟩
    rintro _ k₃ ⟨hobjs₃, hcur₃⟩
    refine Ensures.bind (deref_spec _ _ _) ?_
    rintro n _ ⟨rfl, -, hn⟩
    rw [Obj.task?_eq_some] at hn
    exact Ensures.pure ⟨hcur₃, t, ht, hobjs₃.trans hobjs₂, n, hn, rfl⟩

/-- Each task that was preempted holds the registers of its last frame. -/
def SavedFrames (s : Preempted) : Prop :=
  ∀ t f, s.last t = some f → ∃ tk, s.kernel.objs t = some (.task tk) ∧
    tk.registers = savedRegisters f

private theorem savedFrames_step {s s' : Preempted} {l : InterruptFrame × Cpu}
    (h : SavedFrames s) (hst : ClockStep s l s') :
    SavedFrames s' ∧ (ResumedFaithfully s' ↔ ClockAdmits s l) := by
  cases hst with
  | @tick frame c u k' hok =>
    obtain ⟨hcur, t, ht, hobjs, n, hn, rfl⟩ := interruptHandlerClock_spec frame c s.kernel _ _ hok
    have hsaved : ∀ q f, Function.update s.last s.kernel.current_task (some frame) q = some f →
        ∃ tk, k'.objs q = some (.task tk) ∧ tk.registers = savedRegisters f := by
      intro q f hq
      rw [hobjs]
      by_cases hqc : q = s.kernel.current_task
      · subst hqc
        rw [Function.update_self] at hq ⊢
        cases hq
        exact ⟨_, rfl, rfl⟩
      · rw [Function.update_of_ne hqc] at hq ⊢
        exact h q f hq
    refine ⟨hsaved, ?_⟩
    have hregs : ∀ f, Function.update s.last s.kernel.current_task (some frame)
        (nextTask s.kernel) = some f → n.registers = savedRegisters f := by
      intro f hf
      obtain ⟨tk, htk, hr⟩ := hsaved _ f hf
      rw [hn] at htk
      cases htk
      exact hr
    constructor
    · intro hfaith f hf
      have hfu := hfaith _ _ f rfl (by rw [hcur]; exact hf)
      rw [hregs f hf] at hfu
      exact (faithful_taskReturn_iff _ f c).mp hfu
    · intro hadmit t' u' f hres hlast
      cases hres
      dsimp only at hlast
      rw [hcur] at hlast
      rw [hregs f hlast]
      exact (faithful_taskReturn_iff _ f c).mpr ( hadmit f hlast)

/-- In a run of clock interrupts every preempted task is resumed with the registers
of its last frame exactly when, at every interrupt, the task picked was never
preempted or was preempted with equal `ecx` and `ebx` and with the arithmetic flags
the kernel has when it is left. -/
theorem clock_run_faithful_iff {k : Kernel} {tr : List ((InterruptFrame × Cpu) × Preempted)}
    (hrun : Run ClockStep ⟨k, fun _ => none, none⟩ tr) :
    AllStates ResumedFaithfully ⟨k, fun _ => none, none⟩ tr ↔
      AllSteps ClockAdmits ⟨k, fun _ => none, none⟩ tr := by
  refine hrun.allStates_iff_allSteps
    (fun {s} (h : SavedFrames s ∧ ResumedFaithfully s) => h.2) ?_ ?_ ?_
  · intro s l s' h hadmit hst
    obtain ⟨hsaved, hiff⟩ := savedFrames_step h.1 hst
    exact ⟨hsaved, hiff.mpr hadmit⟩
  · intro s l s' h hadmit hst hfaith
    exact hadmit ((savedFrames_step h.1 hst).2.mp hfaith)
  · exact ⟨fun _ _ h => (by simp at h), fun _ _ _ h => (by simp at h)⟩

/-- A kernel with one task, at address 4096. -/
def Kernel.oneTask : Kernel :=
  { Kernel.boot Disk.blank with
    objs := fun p => if p = 4096 then some (.task { Task.zero with page_directory := 8192 })
      else if p = 8192 then some (.chunk 12288) else none
    task_head := 4096
    task_tail := 4096
    current_task := 4096
    kernel_chunk := 8192 }

/-- A frame with 1 in `ecx` and zero elsewhere. -/
def frameEcx : InterruptFrame := ⟨0, 0, 0, 0, 0, 0, 1, 0, 0, 0, 0, 0, 0⟩

def Cpu.zero : Cpu := ⟨0, 0, 0, 0, 0, 0, 0, 0, []⟩

/-- The only task is preempted with 1 in `ecx` and 0 in `ebx`, and resumed with 0 in
`ecx`. -/
theorem clock_run_ecx_lost :
    ∃ tr : List ((InterruptFrame × Cpu) × Preempted),
      Run ClockStep ⟨Kernel.oneTask, fun _ => none, none⟩ tr ∧
        ¬ AllStates ResumedFaithfully ⟨Kernel.oneTask, fun _ => none, none⟩ tr := by
  have hok : ∃ k', interruptHandlerClock frameEcx Cpu.zero Kernel.oneTask =
      .ok (taskReturn 4100 (savedRegisters frameEcx) Cpu.zero, k') ∧ k'.current_task = 4096 :=
    ⟨_, rfl, rfl⟩
  obtain ⟨k', hok, hcur⟩ := hok
  have hst : ClockStep ⟨Kernel.oneTask, fun _ => none, none⟩ (frameEcx, Cpu.zero) _ := .tick hok
  refine ⟨[(_, _)], .cons hst (.nil _), fun hall => ?_⟩
  have hlast : Function.update (fun _ => none) 4096 (some frameEcx) k'.current_task =
      some frameEcx := by
    rw [hcur, Function.update_self]
  have hfaith := (allStates_cons.mp hall).2.1 k'.current_task _ frameEcx rfl hlast
  have hecx := ((faithful_taskReturn_iff _ _ _).mp hfaith).1
  revert hecx
  decide

/-- The equivalence on a run of one interrupt. -/
theorem clock_run_one :
    ∃ tr : List ((InterruptFrame × Cpu) × Preempted), tr ≠ [] ∧
      (AllStates ResumedFaithfully ⟨Kernel.oneTask, fun _ => none, none⟩ tr ↔
        AllSteps ClockAdmits ⟨Kernel.oneTask, fun _ => none, none⟩ tr) := by
  have hok : ∃ u k', interruptHandlerClock frameEcx Cpu.zero Kernel.oneTask = .ok (u, k') :=
    ⟨_, _, rfl⟩
  obtain ⟨u, k', hok⟩ := hok
  have hst : ClockStep ⟨Kernel.oneTask, fun _ => none, none⟩ (frameEcx, Cpu.zero) _ := .tick hok
  exact ⟨[(_, _)], by simp, clock_run_faithful_iff (.cons hst (.nil _))⟩

end PlumOS
