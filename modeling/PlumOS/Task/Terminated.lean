import PlumOS.Task.Scheduled

/-!
# The end of a task

What `process_terminate` does to the task list, in every run that comes back: it releases
structures, but the tasks that are still there are as they were, except that
`task_list_remove` moves the pointers on to the task behind the one that it removes.

## Main definitions

- `OnlyReleases` — the part that leaves the list alone
- `Removed` — the list behind `task_list_remove`

## Main results

- `terminateCurrent_removed`
-/

namespace PlumOS

open StateExcept

/-! ### Releasing memory -/

/-- Structures may be gone. The scheduler's variables are the same, a task is as it was,
and a process has the task and the file type that it had. -/
structure OnlyReleases (k k' : Kernel) : Prop where
  current_task : k'.current_task = k.current_task
  task_head : k'.task_head = k.task_head
  task : ∀ p t, k'.objs p = some (.task t) → k.objs p = some (.task t)
  process : ∀ p pr', k'.objs p = some (.process pr') →
    ∃ pr, k.objs p = some (.process pr) ∧ pr.task = pr'.task ∧ pr.filetype = pr'.filetype

instance : Std.Refl OnlyReleases where
  refl _ := ⟨rfl, rfl, fun _ _ h => h, fun _ pr' h => ⟨pr', h, rfl, rfl⟩⟩

theorem OnlyReleases.trans {k₁ k₂ k₃ : Kernel} (h : OnlyReleases k₁ k₂)
    (h' : OnlyReleases k₂ k₃) : OnlyReleases k₁ k₃ where
  current_task := h'.current_task.trans h.current_task
  task_head := h'.task_head.trans h.task_head
  task p t h₃ := h.task p t (h'.task p t h₃)
  process p pr₃ h₃ := by
    obtain ⟨pr₂, h₂, ht₂, hf₂⟩ := h'.process p pr₃ h₃
    obtain ⟨pr₁, h₁, ht₁, hf₁⟩ := h.process p pr₂ h₂
    exact ⟨pr₁, h₁, ht₁.trans ht₂, hf₁.trans hf₂⟩

instance : IsTrans Kernel OnlyReleases := ⟨fun _ _ _ => OnlyReleases.trans⟩

theorem OnlyReleases.stored {k k' : Kernel} {p : Nat} {o : Obj} (hst : Stored k p o k')
    (ht : ∀ t, o ≠ .task t) (h : ∀ pr', o = .process pr' →
      ∃ pr, k.objs p = some (.process pr) ∧ pr.task = pr'.task ∧ pr.filetype = pr'.filetype) :
    OnlyReleases k k' where
  current_task := hst.globals.current_task
  task_head := hst.globals.task_head
  task q t hq := by
    by_cases hqp : q = p
    · subst hqp
      rw [hst.self] at hq
      cases hq
      exact absurd rfl (ht t)
    · rwa [hst.other q hqp] at hq
  process q pr' hq := by
    by_cases hqp : q = p
    · subst hqp
      rw [hst.self] at hq
      cases hq
      exact h pr' rfl
    · rw [hst.other q hqp] at hq
      exact ⟨pr', hq, rfl, rfl⟩

instance kfree_onlyReleases (ptr : Nat) : Within OnlyReleases (kfree ptr) := by
  refine .modifies fun k => ?_
  have hobjs : ∀ p o, Function.update k.objs ptr none p = some o → k.objs p = some o := by
    intro p o h
    by_cases hp : p = ptr
    · subst hp
      rw [Function.update_self] at h
      cases h
    · rwa [Function.update_of_ne hp] at h
  exact ⟨rfl, rfl, fun p t h => hobjs p _ h, fun p pr' h => ⟨pr', hobjs p _ h, rfl, rfl⟩⟩

instance storeWords_onlyReleases (p : Nat) (w : Nat → Nat) :
    Within OnlyReleases (storeObj p (.words w)) where
  within k := (storeObj_spec k p _).ensures.mono fun _ _ hst => .stored hst nofun nofun

instance pagingSet_onlyReleases (directory virt val : Nat) :
    Within OnlyReleases (pagingSet directory virt val) := by
  unfold pagingSet
  infer_instance

instance pagingMapRange_onlyReleases (chunk flags fuel virt phys : Nat) :
    Within OnlyReleases (pagingMapRange chunk flags fuel virt phys) := by
  induction fuel generalizing virt phys with
  | zero => exact inferInstanceAs (Within _ (pure 0))
  | succ fuel ih =>
    unfold pagingMapRange pagingMap
    infer_instance

instance pagingMapTo_onlyReleases (chunk virt phys phys_end flags : Nat) :
    Within OnlyReleases (pagingMapTo chunk virt phys phys_end flags) := by
  unfold pagingMapTo
  infer_instance

instance pagingFree4gbLoop_onlyReleases (chunk fuel i : Nat) :
    Within OnlyReleases (pagingFree4gbLoop chunk fuel i) := by
  induction fuel generalizing i with
  | zero => exact inferInstanceAs (Within _ (pure PUnit.unit))
  | succ fuel ih =>
    unfold pagingFree4gbLoop
    infer_instance

instance pagingFree4gb_onlyReleases (chunk : Nat) :
    Within OnlyReleases (pagingFree4gb chunk) := by
  unfold pagingFree4gb
  infer_instance

instance processFree_onlyReleases (process ptr : Nat) :
    Within OnlyReleases (processFree process ptr) := by
  have : Within OnlyReleases (modifyProcess process fun p =>
      { p with allocations := processAllocationUnjoin p.allocations ptr }) := by
    constructor
    intro k
    refine .bind (deref_spec _ _ _) ?_
    rintro pr _ ⟨rfl, -, hpr⟩
    rw [Obj.process?_eq_some] at hpr
    refine (storeObj_spec _ _ _).ensures.mono fun _ _ hst => .stored hst nofun ?_
    rintro _ ⟨⟩
    exact ⟨pr, hpr, rfl, rfl⟩
  unfold processFree
  refine .seq inferInstance fun p => ?_
  cases processGetAllocationByAddress p.allocations ptr <;> infer_instance

instance processTerminateAllocationsLoop_onlyReleases (process fuel i : Nat) :
    Within OnlyReleases (processTerminateAllocationsLoop process fuel i) := by
  induction fuel generalizing i with
  | zero => exact inferInstanceAs (Within _ (pure PUnit.unit))
  | succ fuel ih =>
    unfold processTerminateAllocationsLoop
    infer_instance

instance processTerminateAllocations_onlyReleases (process : Nat) :
    Within OnlyReleases (processTerminateAllocations process) :=
  processTerminateAllocationsLoop_onlyReleases _ _ _

instance elfClose_onlyReleases (file : Nat) : Within OnlyReleases (elfClose file) := by
  unfold elfClose
  infer_instance

/-! ### Removing a task -/

/-- Task `c`, which was `t`, has been removed from the list: of the tasks that are left the
one before it leads to the one behind it, and so do the scheduler's variables. -/
structure Removed (k : Kernel) (c : Nat) (t : Task) (k' : Kernel) : Prop where
  task : ∀ p t', p ≠ 0 → k'.objs p = some (.task t') → ∃ tp, k.objs p = some (.task tp) ∧
    t'.next = if p = t.prev then t.next else tp.next
  task_head : k'.task_head = if c = k.task_head then t.next else k.task_head
  current_task : k'.current_task = if c = k.current_task then
    (if t.next = 0 then k'.task_head else t.next) else k.current_task

theorem Removed.released {k k₁ k₂ k₃ : Kernel} {c : Nat} {t : Task} (h₁ : OnlyReleases k k₁)
    (h : Removed k₁ c t k₂) (h₂ : OnlyReleases k₂ k₃) : Removed k c t k₃ where
  task p t' h0 hp := by
    obtain ⟨tp, htp, hnext⟩ := h.task p t' h0 (h₂.task p t' hp)
    exact ⟨tp, h₁.task p tp htp, hnext⟩
  task_head := by rw [h₂.task_head, h.task_head, h₁.task_head]
  current_task := by rw [h₂.current_task, h.current_task, h₂.task_head, h₁.current_task]

/-- The predecessor is read, so it is a task. -/
theorem taskListRemove_removed {k : Kernel} {c : Nat} {t : Task} (hc : c ≠ 0)
    (ho : k.objs c = some (.task t)) (hself : t.prev ≠ c) :
    Ensures (taskListRemove c) k fun _ k' => Removed k c t k' := by
  intro a k' hrun
  have hprev : t.prev ≠ 0 → ∃ p, k.objs t.prev = some (.task p) := by
    intro hne
    have hread : deref Obj.task? c k = .ok (t, k) := deref_ok hc ho rfl
    unfold taskListRemove at hrun
    rw [if_neg hc, bind_of_ok hread] at hrun
    obtain ⟨_, k₁, hmodify, -⟩ := bind_eq_ok.mp hrun
    unfold onlyIf at hmodify
    rw [if_pos hne] at hmodify
    obtain ⟨-, p, hp, -⟩ := modifyTask_spec k t.prev _ _ _ hmodify
    exact ⟨p, Obj.task?_eq_some.mp hp⟩
  obtain ⟨-, hother, hlink, hhead, -, hcur⟩ :=
    (taskListRemove_spec hc ho fun hne => ⟨hself, hprev hne⟩).ensures a k' hrun
  refine ⟨fun p t' h0 hp => ?_, hhead, hcur⟩
  by_cases hpp : p = t.prev
  · subst hpp
    obtain ⟨tp, htp⟩ := hprev h0
    rw [hlink h0 tp htp] at hp
    cases hp
    exact ⟨tp, htp, (if_pos rfl).symm⟩
  · rw [hother p hpp] at hp
    exact ⟨t', hp, (if_neg hpp).symm⟩

theorem taskFree_removed {k : Kernel} {c : Nat} {t : Task} (hc : c ≠ 0)
    (ho : k.objs c = some (.task t)) (hself : t.prev ≠ c) :
    Ensures (taskFree c) k fun _ k' => Removed k c t k' := by
  refine .bind (deref_spec _ _ _) ?_
  rintro _ _ ⟨rfl, -, -⟩
  refine .bind (Within.ensures (R := OnlyReleases) _ k) ?_
  rintro _ k₁ h₁
  -- a run that comes back finds the task where it was
  have hremove : Ensures (taskListRemove c) k₁ fun _ k' => Removed k₁ c t k' := by
    intro a k₂ hrun
    have hrun' := hrun
    unfold taskListRemove at hrun'
    rw [if_neg hc] at hrun'
    obtain ⟨t', _, hread, -⟩ := bind_eq_ok.mp hrun'
    obtain ⟨-, ht', -⟩ := deref_eq_ok.mp hread
    rw [Obj.task?_eq_some] at ht'
    have hsame := h₁.task c t' ht'
    rw [ho] at hsame
    cases hsame
    exact taskListRemove_removed hc ht' hself a k₂ hrun
  refine .bind hremove ?_
  rintro _ k₂ h₂
  refine .bind (Within.ensures (R := OnlyReleases) _ k₂) ?_
  rintro _ k₃ h₃
  exact .pure (h₂.released h₁ h₃)

/-- What leaves the structures and the scheduler's variables alone. -/
theorem modifies_onlyReleases {g : Kernel → Kernel} (ho : ∀ k, (g k).objs = k.objs)
    (hc : ∀ k, (g k).current_task = k.current_task) (hh : ∀ k, (g k).task_head = k.task_head) :
    Within OnlyReleases (modifies g : KM PUnit) :=
  .modifies fun k => ⟨hc k, hh k, fun _ _ h => ho k ▸ h, fun _ pr' h => ⟨pr', ho k ▸ h, rfl, rfl⟩⟩

instance processUnlink_onlyReleases (process : Nat) :
    Within OnlyReleases (processUnlink process) := by
  have hswitch (p : Nat) : Within OnlyReleases (processSwitch p) :=
    modifies_onlyReleases (fun _ => rfl) (fun _ => rfl) fun _ => rfl
  have hany : Within OnlyReleases processSwtichToAny := by
    unfold processSwtichToAny
    refine .seq inferInstance fun processes => ?_
    split <;> infer_instance
  unfold processUnlink
  refine .seq inferInstance fun p => ?_
  have hclear : Within OnlyReleases (modifies fun k : Kernel =>
      { k with processes := Function.update k.processes p.id 0x00 }) :=
    modifies_onlyReleases (fun _ => rfl) (fun _ => rfl) fun _ => rfl
  infer_instance

/-! ### process_terminate -/

/-- The current task is that of its process, which is of a known file type. -/
structure RunsProgram (k : Kernel) (t : Task) (pr : Process) : Prop where
  task_eq : k.objs k.current_task = some (.task t)
  process_eq : k.objs t.process = some (.process pr)
  own_task : pr.task = k.current_task
  filetype : pr.filetype = PROCESS_FILETYPE_ELF ∨ pr.filetype = PROCESS_FILETYPE_BINARY

theorem terminateCurrent_removed {k : Kernel} {t : Task} {pr : Process} (h : RunsProgram k t pr)
    (hc : k.current_task ≠ 0) (hself : t.prev ≠ k.current_task) :
    Ensures terminateCurrent k fun _ k' => Removed k k.current_task t k' := by
  refine .bind (.reads (Q := fun c k' => k = k' ∧ k.current_task = c) ⟨rfl, rfl⟩) ?_
  rintro _ _ ⟨rfl, rfl⟩
  refine .bind (deref_spec _ _ _) ?_
  rintro t₀ _ ⟨rfl, -, ht₀⟩
  rw [Obj.task?_eq_some, h.task_eq] at ht₀
  cases ht₀
  refine .bind (Within.ensures (R := OnlyReleases) _ k) ?_
  rintro _ k₁ h₁
  -- the program's data
  have hdata : Ensures (processFreeProgramData t.process) k₁ fun res k' =>
      res = 0 ∧ OnlyReleases k₁ k' := by
    refine .bind (deref_spec _ _ _) ?_
    rintro pr₁ _ ⟨rfl, -, hpr₁⟩
    rw [Obj.process?_eq_some] at hpr₁
    obtain ⟨pr₀, hpr₀, -, hfile⟩ := h₁.process _ _ hpr₁
    rw [h.process_eq] at hpr₀
    cases hpr₀
    have htype := h.filetype
    rw [hfile] at htype
    split
    · refine .bind (Within.ensures (R := OnlyReleases) _ k₁) ?_
      rintro _ k₂ h₂
      exact .pure ⟨rfl, h₂⟩
    · next hbinary =>
      rw [if_pos (htype.resolve_right hbinary)]
      refine .bind (Within.ensures (R := OnlyReleases) _ k₁) ?_
      rintro _ k₂ h₂
      exact .pure ⟨rfl, h₂⟩
  refine .bind hdata ?_
  rintro res k₂ ⟨rfl, h₂⟩
  rw [if_neg (lt_irrefl 0)]
  refine .bind (deref_spec _ _ _) ?_
  rintro pr₂ _ ⟨rfl, -, hpr₂⟩
  rw [Obj.process?_eq_some] at hpr₂
  refine .bind (Within.ensures (R := OnlyReleases) _ k₂) ?_
  rintro _ k₃ h₃
  have h₁₃ := (h₁.trans h₂).trans h₃
  -- its task
  obtain ⟨pr₀, hpr₀, htask, -⟩ := (h₁.trans h₂).process _ _ hpr₂
  rw [h.process_eq] at hpr₀
  cases hpr₀
  rw [← htask, h.own_task]
  refine .bind (R := fun _ k' => Removed k k.current_task t k') ?_ ?_
  · intro a k₄ hrun
    have hrun' := hrun
    obtain ⟨t', _, hread, -⟩ := bind_eq_ok.mp hrun'
    obtain ⟨-, ht', -⟩ := deref_eq_ok.mp hread
    rw [Obj.task?_eq_some] at ht'
    have hsame := h₁₃.task _ t' ht'
    rw [h.task_eq] at hsame
    cases hsame
    exact (taskFree_removed hc ht' hself a k₄ hrun).released h₁₃ (Std.Refl.refl k₄)
  rintro _ k₄ h₄
  refine .bind (Within.ensures (R := OnlyReleases) _ k₄) ?_
  rintro _ k₅ h₅
  exact .pure (h₄.released (Std.Refl.refl k) h₅)

end PlumOS
