import Mathlib.Data.List.Iterate
import Mathlib.Data.List.Rotate
import PlumOS.Task.Preempt
import PlumOS.Task.TaskList

/-!
# The order of the tasks

`task_next` goes through the task list in its order and from the tail back to the head:
as many calls as there are tasks switch to each of them once.

## Main definitions

- `taskNexts` — calls of `task_next` in a row, with the tasks they switch to
- `Schedulable` — tasks that can be switched to

## Main results

- `iterate_rotate` — walking round a list
- `taskNext_rotation` — `n` calls on the list of `n` tasks
-/

namespace PlumOS

open StateExcept LabelledRun

/-- Walking round a list from its entry `i` visits the entries behind it, and then those
from the head up to it. -/
theorem iterate_rotate {α : Type*} {l : List α} {next : α → α}
    (hnext : ∀ i (h : i < l.length), next l[i] =
      l.get ⟨(i + 1) % l.length, Nat.mod_lt _ (by omega)⟩)
    {i : Nat} (hi : i < l.length) :
    List.iterate next (next l[i]) l.length = l.rotate (i + 1) := by
  have hwalk : ∀ j, next^[j] l[i] = l.get ⟨(i + j) % l.length, Nat.mod_lt _ (by omega)⟩ := by
    intro j
    induction j with
    | zero => simp [Nat.mod_eq_of_lt hi]
    | succ j ih =>
      rw [Function.iterate_succ_apply', ih, List.get_eq_getElem, hnext]
      simp [Nat.add_assoc]
  apply List.ext_getElem
  · simp
  · intro j h₁ h₂
    rw [List.getElem_iterate, List.getElem_rotate, ← Function.iterate_succ_apply, hwalk]
    have hij : i + j.succ = j + (i + 1) := by omega
    simp only [hij, List.get_eq_getElem]

/-! ### task_next -/

/-- Calls of `task_next`, one for each state the processor is in when `task_return` is
entered: the tasks they switch to. -/
def taskNexts : List Cpu → KM (List Nat)
  | [] => pure []
  | c :: cs => do
    let _ ← taskNext c
    let task ← reads Kernel.current_task
    let tasks ← taskNexts cs
    pure (task :: tasks)

/-- The task `task_next` picks when `task` is the current one. -/
def succTask (k : Kernel) (task : Nat) : Nat := nextTask { k with current_task := task }

/-- The tasks `ts` can be switched to, and `next` of one of them leads to another. -/
structure Schedulable (k : Kernel) (ts : List Nat) : Prop where
  ne_zero : ∀ t ∈ ts, t ≠ 0
  task : ∀ t ∈ ts, ∃ tk d, k.objs t = some (.task tk) ∧ tk.page_directory ≠ 0 ∧
    k.objs tk.page_directory = some (.chunk d)
  succ : ∀ t ∈ ts, succTask k t ∈ ts

/-- `k'` is `k` with another current task. -/
structure SwitchedTo (k : Kernel) (task : Nat) (k' : Kernel) : Prop where
  objs : k'.objs = k.objs
  task_head : k'.task_head = k.task_head
  current_task : k'.current_task = task

theorem SwitchedTo.succTask {k k' : Kernel} {task : Nat} (h : SwitchedTo k task k') :
    succTask k' = PlumOS.succTask k := by
  funext t
  unfold PlumOS.succTask nextTask
  rw [h.objs, h.task_head]

theorem Schedulable.switchedTo {k k' : Kernel} {ts : List Nat} {task : Nat}
    (h : Schedulable k ts) (hk : SwitchedTo k task k') : Schedulable k' ts where
  ne_zero := h.ne_zero
  task := fun t ht => by
    rw [hk.objs]
    exact h.task t ht
  succ := fun t ht => by
    rw [hk.succTask]
    exact h.succ t ht

/-- `task_next` comes back in user mode, with the next task as the current one. -/
theorem taskNext_returns {k : Kernel} {ts : List Nat} (h : Schedulable k ts)
    (hcur : k.current_task ∈ ts) (c : Cpu) :
    Returns (taskNext c) k fun _ k' => SwitchedTo k (succTask k k.current_task) k' := by
  obtain ⟨tk, d, htk, -, -⟩ := h.task _ hcur
  have hnext : succTask k k.current_task ∈ ts := h.succ _ hcur
  obtain ⟨tn, dn, htn, hpd, hdn⟩ := h.task _ hnext
  have hget : Returns taskGetNext k fun next k' => k = k' ∧ next = succTask k k.current_task := by
    have hr : Returns taskGetNext k fun _ _ => True := by
      refine Returns.bind (R := fun t k₁ => k.current_task = t ∧ k = k₁) (.reads ⟨rfl, rfl⟩) ?_
      rintro _ _ ⟨rfl, rfl⟩
      refine Returns.bind (deref_returns (h.ne_zero _ hcur) htk rfl) ?_
      rintro _ _ ⟨rfl, rfl⟩
      split
      · exact Returns.reads trivial
      · exact Returns.pure trivial
    exact (hr.and_ensures (taskGetNext_spec k)).mono fun _ _ hk => hk.2
  refine Returns.bind hget ?_
  rintro _ _ ⟨rfl, rfl⟩
  rw [if_neg (h.ne_zero _ hnext)]
  have hswitch : Returns (taskSwitch (succTask k k.current_task)) k fun _ k' =>
      SwitchedTo k (succTask k k.current_task) k' := by
    refine Returns.bind (R := fun _ k₁ =>
      k₁ = { k with current_task := succTask k k.current_task }) (.modifies rfl) ?_
    rintro _ _ rfl
    refine Returns.bind (deref_returns (h.ne_zero _ hnext) htn rfl) ?_
    rintro _ _ ⟨rfl, rfl⟩
    refine Returns.bind (R := fun _ k' => SwitchedTo k (succTask k k.current_task) k') ?_
      fun _ _ hk => .pure hk
    refine Returns.bind (deref_returns hpd hdn rfl) ?_
    rintro _ _ ⟨rfl, rfl⟩
    exact Returns.modifies ⟨rfl, rfl, rfl⟩
  refine Returns.bind hswitch ?_
  intro _ k' hk'
  refine Returns.bind (deref_returns (h.ne_zero _ hnext) (hk'.objs ▸ htn) rfl) ?_
  rintro _ _ ⟨rfl, rfl⟩
  exact .pure hk'

/-- Calls of `task_next` walk from the current task on. -/
theorem taskNexts_returns {ts : List Nat} : ∀ (cs : List Cpu) {k : Kernel}, Schedulable k ts →
    k.current_task ∈ ts → Returns (taskNexts cs) k fun tasks k' =>
      tasks = List.iterate (succTask k) (succTask k k.current_task) cs.length ∧
        SwitchedTo k (tasks.getLastD k.current_task) k' := by
  intro cs
  induction cs with
  | nil => exact fun _ _ => .pure ⟨rfl, rfl, rfl, rfl⟩
  | cons c cs ih =>
    intro k h hcur
    refine Returns.bind (taskNext_returns h hcur c) ?_
    intro _ k₁ hk₁
    refine Returns.bind (R := fun t k₂ => k₁.current_task = t ∧ k₁ = k₂) (.reads ⟨rfl, rfl⟩) ?_
    rintro _ _ ⟨rfl, rfl⟩
    have hcur₁ : k₁.current_task ∈ ts := by
      rw [hk₁.current_task]
      exact h.succ _ hcur
    refine Returns.bind (ih (h.switchedTo hk₁) hcur₁) ?_
    rintro tasks k₂ ⟨htasks, hk₂⟩
    refine .pure ⟨?_, hk₂.objs.trans hk₁.objs, hk₂.task_head.trans hk₁.task_head, ?_⟩
    · rw [htasks, hk₁.succTask, hk₁.current_task]
      rfl
    · rw [List.getLastD_cons]
      exact hk₂.current_task

/-! ### Clock interrupts -/

/-- A clock interrupt leaves the head of the list alone. -/
theorem interruptHandlerClock_task_head (frame : InterruptFrame) (c : Cpu) (k : Kernel) :
    Ensures (interruptHandlerClock frame c) k fun _ k' => k'.task_head = k.task_head := by
  refine Ensures.bind (R := fun _ k₁ => k₁.task_head = k.task_head) ?_ ?_
  · refine Ensures.bind (reads_spec Kernel.kernel_chunk).ensures ?_
    rintro _ _ ⟨rfl, rfl⟩
    exact (pagingSwitch_spec _ _).mono fun _ _ h => h.2.task_head
  intro _ k₁ h₁
  refine Ensures.bind (R := fun _ k₂ => k₂.task_head = k.task_head) ?_ ?_
  · refine Ensures.bind (reads_spec Kernel.current_task).ensures ?_
    rintro _ _ ⟨rfl, rfl⟩
    split
    · exact Ensures.fails
    · refine (modifyTask_spec _ _ _).mono ?_
      rintro _ k₂ ⟨-, t, -, hst⟩
      exact hst.globals.task_head.trans h₁
  intro _ k₂ h₂
  refine Ensures.bind (taskGetNext_spec k₂) ?_
  rintro _ _ ⟨rfl, rfl⟩
  split
  · exact Ensures.fails
  · refine Ensures.bind (R := fun _ k₃ => k₃.task_head = k.task_head) ?_ ?_
    · refine Ensures.bind (modifies_spec _).ensures ?_
      rintro _ _ rfl
      refine Ensures.bind (deref_spec _ _ _) ?_
      rintro n _ ⟨rfl, -, -⟩
      refine Ensures.bind (pagingSwitch_spec _ _) ?_
      rintro _ k₃ ⟨-, hglob⟩
      exact Ensures.pure (hglob.task_head.trans h₂)
    intro _ k₃ h₃
    refine Ensures.bind (deref_spec _ _ _) ?_
    rintro n _ ⟨rfl, -, -⟩
    exact Ensures.pure h₃

/-- A clock interrupt resumes the next task and keeps the order of the tasks. -/
theorem ClockStep.succTask {s s' : Preempted} {l : InterruptFrame × Cpu} (h : ClockStep s l s') :
    s'.kernel.current_task = PlumOS.succTask s.kernel s.kernel.current_task ∧
      PlumOS.succTask s'.kernel = PlumOS.succTask s.kernel := by
  cases h with
  | @tick frame c u k' hok =>
    obtain ⟨hcur, t, ht, hobjs, -⟩ := interruptHandlerClock_spec frame c s.kernel _ _ hok
    have hhead := interruptHandlerClock_task_head frame c s.kernel _ _ hok
    refine ⟨hcur, funext fun q => ?_⟩
    unfold PlumOS.succTask nextTask
    dsimp only
    rw [hhead, hobjs]
    -- only the registers of the interrupted task changed
    by_cases hq : q = s.kernel.current_task
    · subst hq
      rw [Function.update_self, ht]
      rfl
    · rw [Function.update_of_ne hq]

/-- A run of clock interrupts walks from the current task on. -/
theorem clockRun_iterate {s : Preempted} {tr : List ((InterruptFrame × Cpu) × Preempted)}
    (hrun : Run ClockStep s tr) : tr.map (fun x => x.2.kernel.current_task) =
      List.iterate (succTask s.kernel) (succTask s.kernel s.kernel.current_task) tr.length := by
  induction hrun with
  | nil s => rfl
  | @cons s s' l tr hst _ ih =>
    obtain ⟨hcur, hsucc⟩ := hst.succTask
    rw [List.map_cons, ih, hsucc, hcur]
    rfl

/-! ### A list made by task_new -/

/-- Task `i` of the list is followed by task `i + 1`, the last one by the first. -/
theorem TaskList.succTask_getElem {k : Kernel} {ts : List Nat} (h : TaskList k ts) {i : Nat}
    (hi : i < ts.length) :
    succTask k ts[i] = ts.get ⟨(i + 1) % ts.length, Nat.mod_lt _ (by omega)⟩ := by
  have hsplit : ts = ts.take i ++ ts[i] :: ts.drop (i + 1) := by simp
  obtain ⟨tk, htk, -, hnext⟩ := (hsplit ▸ h.links : Linked k 0 (ts.take i ++ ts[i] :: ts.drop (i + 1)) 0).split
  unfold succTask nextTask
  dsimp only
  rw [htk]
  simp only [Option.bind_some, Obj.task?, hnext]
  by_cases hlast : i + 1 < ts.length
  · have hhead : (ts.drop (i + 1)).headD 0 = ts[i + 1] := by
      rw [List.drop_eq_getElem_cons hlast]
      rfl
    rw [hhead, if_neg (h.ne_zero _ (List.getElem_mem hlast))]
    simp [Nat.mod_eq_of_lt hlast]
  · have hend : i + 1 = ts.length := by omega
    have hnil : ts.drop (i + 1) = [] := List.drop_eq_nil_of_le (by omega)
    rw [hnil]
    simp only [List.headD_nil, if_true, h.head, hend, Nat.mod_self]
    cases ts with
    | nil => simp at hi
    | cons t ts => rfl

/-- The tasks of a list can be switched to, whichever is the current one. -/
theorem TasksInv.schedulable {k : Kernel} {ts : List Nat} (h : TasksInv (k, ts)) :
    Schedulable k ts := by
  obtain ⟨hlist, own, hown⟩ := h
  refine ⟨hlist.ne_zero, fun t ht => ?_, fun t ht => ?_⟩
  · obtain ⟨-, tk, htk, hsp⟩ := hown.task t ht
    have hchunk := (hsp.alive _ hsp.chunk_mem).ne_zero
    obtain ⟨d, w, hc, -⟩ := hsp
    exact ⟨tk, d, htk, hchunk, hc⟩
  · obtain ⟨i, hi, rfl⟩ := List.mem_iff_getElem.mp ht
    rw [hlist.succTask_getElem hi]
    exact List.getElem_mem _

/-- Creations alone keep the list well formed, and add one task each. -/
theorem taskRun_new {s : Kernel × List Nat} {tr : List (TaskCall × (Kernel × List Nat))}
    (hrun : Run TaskStep s tr) (hnew : ∀ x ∈ tr, ∃ process, x.1 = .new process)
    (h : TasksInv s) :
    TasksInv (lastState s tr) ∧ (lastState s tr).2.length = s.2.length + tr.length := by
  induction hrun with
  | nil s => exact ⟨h, rfl⟩
  | @cons s s' l tr hst _ ih =>
    obtain ⟨process, hl⟩ := hnew _ List.mem_cons_self
    dsimp only at hl
    subst hl
    cases hst with
    | new hok _ =>
      obtain ⟨hinv, hlen⟩ := ih (fun x hx => hnew x (List.mem_cons_of_mem _ hx)) (tasksInv_new h hok)
      refine ⟨hinv, hlen.trans ?_⟩
      simp only [List.length_append, List.length_cons, List.length_nil]
      omega

end PlumOS
