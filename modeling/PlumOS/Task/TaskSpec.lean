import PlumOS.Task.Task

/-!
# What the functions of `task.c` do

`task_init` and `task_new` on a new block, and the pointers that
`task_list_remove` and `task_free` write.
-/

namespace PlumOS

open StateExcept

theorem modifyTask_returns {k : Kernel} {p : Nat} {t : Task} (f : Task → Task) (hp : p ≠ 0)
    (ho : k.objs p = some (.task t)) :
    Returns (modifyTask p f) k fun _ k' => Stored k p (.task (f t)) k' := by
  refine Returns.bind (deref_returns hp ho rfl) ?_
  rintro _ _ ⟨rfl, rfl⟩
  exact storeObj_spec _ _ _

theorem modifyTask_spec (k : Kernel) (p : Nat) (f : Task → Task) :
    Ensures (modifyTask p f) k fun _ k' => p ≠ 0 ∧ ∃ t, (k.objs p).bind Obj.task? = some t ∧
      Stored k p (.task (f t)) k' := by
  refine Ensures.bind (deref_spec _ _ _) ?_
  rintro t _ ⟨rfl, hp, ht⟩
  exact (storeObj_spec _ _ _).ensures.mono fun _ _ h => ⟨hp, t, ht, h⟩

/-! ### task_init -/

theorem taskEntry_spec (p : Process) (k : Kernel) :
    Ensures (taskEntry p) k fun _ k' => k = k' := by
  unfold taskEntry
  split
  · refine Ensures.bind (elfHeader_spec _ _) ?_
    rintro _ _ rfl
    exact Ensures.pure rfl
  · exact Ensures.pure rfl

/-- A new task owns a new address space and is not linked yet. -/
theorem taskInit_spec {k : Kernel} {task process : Nat} (ha : k.Alive task 1) :
    Ensures (taskInit task process) k fun res k' => res = 0 ∧ Keeps [task] k k' ∧
      SameGlobals k k' ∧ k'.Alive task 1 ∧ ∃ t ptrs, k'.objs task = some (.task t) ∧
        t.next = 0 ∧ t.prev = 0 ∧ OwnsSpace k' t.page_directory ptrs ∧
        ∀ p ∈ ptrs, ∀ n, ¬ k.Alive p n := by
  refine Ensures.bind (storeObj_spec _ _ _).ensures ?_
  intro _ k₁ hst₁
  have ha₁ := hst₁.alive ha
  refine Ensures.bind (pagingNew4gb_spec (by decide) k₁) ?_
  rintro chunk k₂ ⟨hkeep₂, hglob₂, ptrs, hown, hnew⟩
  obtain ⟨ha₂, ho₂⟩ := hkeep₂ task 1 ha₁ (by simp)
  have htask : task ∉ ptrs := fun hmem => hnew task hmem 1 ha₁
  refine Ensures.bind (modifyTask_returns _ ha.ne_zero (ho₂.trans hst₁.self)).ensures ?_
  intro _ k₃ hst₃
  have hchunk : chunk ≠ 0 := (hown.alive chunk hown.chunk_mem).ne_zero
  rw [if_neg hchunk]
  refine Ensures.bind (deref_spec _ _ _) ?_
  rintro proc _ ⟨rfl, -, -⟩
  refine Ensures.bind (taskEntry_spec _ _) ?_
  rintro ip _ rfl
  refine Ensures.bind (modifyTask_returns _ ha.ne_zero hst₃.self).ensures ?_
  intro _ k₄ hst₄
  refine Ensures.pure ⟨rfl, ?_, ?_, hst₄.alive (hst₃.alive ha₂), _, ptrs, hst₄.self, rfl, rfl,
    hown.congr ?_, ?_⟩
  · exact (((hst₁.keeps.trans hkeep₂).trans hst₃.keeps).trans hst₄.keeps).mono (by simp)
  · exact hst₁.globals.trans (hglob₂.trans (hst₃.globals.trans hst₄.globals))
  · intro p hp
    have hne : p ≠ task := fun h => htask (h ▸ hp)
    exact ⟨hst₄.alive (hst₃.alive (hown.alive p hp)),
      (hst₄.other p hne).trans (hst₃.other p hne)⟩
  · exact fun p hp n hpn => hnew p hp n (hst₁.alive hpn)

/-- With 1026 free blocks and a process that is no ELF program, `task_init` returns. -/
theorem taskInit_returns {k : Kernel} {task process m n : Nat} {p : Process}
    (hfree : k.FreeFrom m) (hm : m + 1026 ≤ 25600) (ha : k.Alive task 1)
    (hpa : k.Alive process n) (hne : process ≠ task) (hp : k.objs process = some (.process p))
    (hbin : p.filetype ≠ PROCESS_FILETYPE_ELF) :
    Returns (taskInit task process) k fun _ k' => k'.FreeFrom (m + 1026) := by
  refine Returns.bind (storeObj_spec _ _ _) ?_
  intro _ k₁ hst₁
  refine Returns.bind ((pagingNew4gb_returns _ (hfree.congr hst₁.heap_entries) hm).and_ensures
    (pagingNew4gb_spec (by decide) k₁)) ?_
  rintro chunk k₂ ⟨hfree₂, hkeep₂, -, ptrs, hown, -⟩
  obtain ⟨-, ho₂⟩ := hkeep₂ task 1 (hst₁.alive ha) (by simp)
  obtain ⟨-, hpo₂⟩ := hkeep₂ process n (hst₁.alive hpa) (by simp)
  refine Returns.bind (modifyTask_returns _ ha.ne_zero (ho₂.trans hst₁.self)) ?_
  intro _ k₃ hst₃
  rw [if_neg (hown.alive chunk hown.chunk_mem).ne_zero]
  have hp₃ : k₃.objs process = some (.process p) :=
    (hst₃.other _ hne).trans (hpo₂.trans ((hst₁.other _ hne).trans hp))
  refine Returns.bind (deref_returns hpa.ne_zero hp₃ rfl) ?_
  rintro _ _ ⟨rfl, rfl⟩
  refine Returns.bind (R := fun _ k' => k₃ = k') ?_ ?_
  · unfold taskEntry
    rw [if_neg hbin]
    exact Returns.pure rfl
  · rintro ip _ rfl
    refine Returns.bind (modifyTask_returns _ ha.ne_zero hst₃.self) ?_
    intro _ k₄ hst₄
    exact Returns.pure (hfree₂.congr (hst₄.heap_entries.trans hst₃.heap_entries))

/-- `task_new` prepares a new task, then appends it. -/
theorem taskNew_spec (k : Kernel) (process : Nat) :
    Ensures (taskNew process) k fun task k' => ∃ k₁ t ptrs, Keeps [] k k₁ ∧ SameGlobals k k₁ ∧
      k₁.Alive task 1 ∧ (∀ n, ¬ k.Alive task n) ∧ k₁.objs task = some (.task t) ∧
      t.next = 0 ∧ t.prev = 0 ∧ OwnsSpace k₁ t.page_directory ptrs ∧ task ∉ ptrs ∧
      (∀ p ∈ ptrs, ∀ n, ¬ k.Alive p n) ∧ taskAppend task k₁ = .ok (⟨⟩, k') := by
  refine Ensures.bind (kzallocObj_small (by decide) (by decide)) ?_
  rintro task k₁ (⟨rfl, rfl⟩ | ⟨ha₁, hnew₁, -, hkeep₁, hglob₁⟩)
  · -- no block: `task_free` dereferences NULL
    rw [if_pos rfl]
    refine Ensures.bind (Ensures.bind (deref_spec _ _ _) ?_) fun _ _ (h : False) => h.elim
    rintro _ _ ⟨-, hne, -⟩
    exact absurd rfl hne
  rw [if_neg ha₁.ne_zero]
  refine Ensures.bind (taskInit_spec ha₁) ?_
  rintro _ k₂ ⟨rfl, hkeep₂, hglob₂, ha₂, t, ptrs, ho, hnext, hprev, hown, hnew₂⟩
  rw [if_neg (by simp [PLUMOS_ALL_OK])]
  intro task' k₃ h
  obtain ⟨_, k₃', happ, hpure⟩ := bind_eq_ok.mp h
  obtain ⟨rfl, rfl⟩ := pure_eq_ok.mp hpure
  refine ⟨k₂, t, ptrs, ?_, hglob₁.trans hglob₂, ha₂, hnew₁, ho, hnext, hprev, hown, ?_, ?_, happ⟩
  · intro p n hp _
    obtain ⟨hp₁, ho₁⟩ := hkeep₁ p n hp (by simp)
    obtain ⟨hp₂, ho₂⟩ := hkeep₂ p n hp₁ (by simpa using fun h : p = task => hnew₁ n (h ▸ hp))
    exact ⟨hp₂, ho₂.trans ho₁⟩
  · exact fun hmem => hnew₂ task hmem 1 ha₁
  · exact fun p hp n hpn => hnew₂ p hp n (hkeep₁ p n hpn (by simp)).1

/-- The pointers `taskAppend` writes. -/
theorem taskAppend_spec {k : Kernel} {task : Nat} {t : Task} (hne : task ≠ k.task_tail)
    (ho : k.objs task = some (.task t)) :
    Ensures (taskAppend task) k fun _ k' => k'.heap_entries = k.heap_entries ∧
      k'.task_tail = task ∧
      (k.task_head = 0 → k'.objs = k.objs ∧ k'.task_head = task ∧ k'.current_task = task) ∧
      (k.task_head ≠ 0 → k'.task_head = k.task_head ∧ k'.current_task = k.current_task ∧
        k'.objs task = some (.task { t with prev := k.task_tail }) ∧
        (∀ l, k.objs k.task_tail = some (.task l) →
          k'.objs k.task_tail = some (.task { l with next := task })) ∧
        ∀ q, q ≠ task → q ≠ k.task_tail → k'.objs q = k.objs q) := by
  refine Ensures.bind (Ensures.reads (Q := fun a k' => k = k' ∧ a = k) ⟨rfl, rfl⟩) ?_
  rintro _ _ ⟨rfl, rfl⟩
  split
  · next hhead =>
    refine Ensures.modifies ⟨rfl, rfl, fun _ => ⟨rfl, rfl, rfl⟩, fun h => absurd hhead h⟩
  · next hhead =>
    refine Ensures.bind (modifyTask_spec _ _ _) ?_
    rintro _ k₁ ⟨-, l, hl, hst₁⟩
    rw [Obj.task?_eq_some] at hl
    refine Ensures.bind (modifyTask_spec _ _ _) ?_
    rintro _ k₂ ⟨-, t', ht', hst₂⟩
    rw [Obj.task?_eq_some, hst₁.other _ hne, ho] at ht'
    cases ht'
    refine Ensures.modifies ⟨?_, rfl, fun h => absurd h hhead, fun _ => ⟨?_, ?_, hst₂.self, ?_, ?_⟩⟩
    · exact hst₂.heap_entries.trans hst₁.heap_entries
    · exact hst₂.globals.task_head.trans hst₁.globals.task_head
    · exact hst₂.globals.current_task.trans hst₁.globals.current_task
    · intro l' hl'
      rw [hl] at hl'
      cases hl'
      exact (hst₂.other _ hne.symm).trans hst₁.self
    · exact fun q h₁ h₂ => (hst₂.other q h₁).trans (hst₁.other q h₂)

/-- `taskAppend` returns when the tail of the list is a task. -/
theorem taskAppend_returns {k : Kernel} {task : Nat} {t : Task} (hne : task ≠ 0)
    (ho : k.objs task = some (.task t)) (htail : k.task_head = 0 ∨
      k.task_tail ≠ 0 ∧ k.task_tail ≠ task ∧ ∃ l, k.objs k.task_tail = some (.task l)) :
    Returns (taskAppend task) k fun _ k' => k'.heap_entries = k.heap_entries ∧
      ∀ q, q ≠ task → q ≠ k.task_tail → k'.objs q = k.objs q := by
  refine Returns.bind (Returns.reads (Q := fun a k' => k = k' ∧ a = k) ⟨rfl, rfl⟩) ?_
  rintro _ _ ⟨rfl, rfl⟩
  split
  · exact Returns.modifies ⟨rfl, fun _ _ _ => rfl⟩
  · next hhead =>
    obtain ⟨htz, htne, l, hl⟩ := htail.resolve_left hhead
    refine Returns.bind (modifyTask_returns _ htz hl) ?_
    intro _ k₁ hst₁
    refine Returns.bind (modifyTask_returns _ hne ((hst₁.other _ htne.symm).trans ho)) ?_
    intro _ k₂ hst₂
    exact Returns.modifies ⟨hst₂.heap_entries.trans hst₁.heap_entries, fun q h₁ h₂ =>
      (hst₂.other q h₁).trans (hst₁.other q h₂)⟩

/-- With 1027 free blocks, a process that is no ELF program and a well-formed tail,
`task_new` returns a task; the process is as it was. -/
theorem taskNew_returns {k : Kernel} {process m n : Nat} {p : Process}
    (hfree : k.FreeFrom m) (hm : m + 1027 ≤ 25600) (hpa : k.Alive process n)
    (hp : k.objs process = some (.process p)) (hbin : p.filetype ≠ PROCESS_FILETYPE_ELF)
    (hptail : process ≠ k.task_tail) (htail : k.task_head = 0 ∨
      k.Alive k.task_tail 1 ∧ ∃ l, k.objs k.task_tail = some (.task l)) :
    Returns (taskNew process) k fun task k' => ISERR task = false ∧ k'.FreeFrom (m + 1027) ∧
      k'.Alive process n ∧ k'.objs process = some (.process p) ∧ process ≠ task := by
  refine Returns.bind (kzallocObj_small_returns hfree (by decide) (by decide) (by omega)) ?_
  rintro task k₁ ⟨hfree₁, ha₁, hnew₁, -, hkeep₁, hglob₁⟩
  rw [if_neg ha₁.ne_zero]
  obtain ⟨hpa₁, hpo₁⟩ := hkeep₁ process n hpa (by simp)
  have hpne : process ≠ task := fun h => hnew₁ n (h ▸ hpa)
  refine Returns.bind ((taskInit_returns hfree₁ (by omega) ha₁ hpa₁ hpne (hpo₁.trans hp)
    hbin).and_ensures (taskInit_spec ha₁)) ?_
  rintro _ k₂ ⟨hfree₂, rfl, hkeep₂, hglob₂, ha₂, t, ptrs, ho₂, -, -, -, -⟩
  rw [if_neg (by simp [PLUMOS_ALL_OK])]
  have hkeep : ∀ q c, k.Alive q c → k₂.Alive q c ∧ k₂.objs q = k.objs q := by
    intro q c hq
    obtain ⟨hq₁, hqo₁⟩ := hkeep₁ q c hq (by simp)
    obtain ⟨hq₂, hqo₂⟩ := hkeep₂ q c hq₁ (by simpa using fun h : q = task => hnew₁ c (h ▸ hq))
    exact ⟨hq₂, hqo₂.trans hqo₁⟩
  have hglob := hglob₁.trans hglob₂
  refine Returns.bind (taskAppend_returns ha₁.ne_zero ho₂ ?_) ?_
  · rw [hglob.task_head, hglob.task_tail]
    refine htail.imp_right ?_
    rintro ⟨hta, l, hl⟩
    exact ⟨hta.ne_zero, fun h => hnew₁ 1 (h ▸ hta), l, (hkeep _ _ hta).2.trans hl⟩
  rintro _ k₃ ⟨hheap₃, hother₃⟩
  obtain ⟨hpa₂, hpo₂⟩ := hkeep process n hpa
  refine Returns.pure ⟨?_, ?_, hpa₂.congr hheap₃, ?_, hpne⟩
  · have := ha₁.aligned.2
    unfold ISERR ERROR_I
    rw [i32_of_range (by omega) (by omega)]
    simp
  · exact (hfree₂.congr hheap₃).mono (by omega)
  · rw [hother₃ process hpne (by rw [hglob.task_tail]; exact hptail), hpo₂, hp]

/-! ### task_list_remove and task_free -/

theorem modifies_spec {k : Kernel} (f : Kernel → Kernel) :
    Returns (modifies f : KM PUnit) k fun _ k' => f k = k' := Returns.modifies rfl

theorem reads_spec {α : Type} {k : Kernel} (f : Kernel → α) :
    Returns (reads f : KM α) k fun a k' => k = k' ∧ f k = a := Returns.reads ⟨rfl, rfl⟩

/-- The pointers `task_list_remove` writes: the predecessor's `next`, the head, the
tail and the current task. -/
theorem taskListRemove_spec {k : Kernel} {task : Nat} {t : Task} (htask : task ≠ 0)
    (ho : k.objs task = some (.task t)) (hprev : t.prev ≠ 0 →
      t.prev ≠ task ∧ ∃ p, k.objs t.prev = some (.task p)) :
    Returns (taskListRemove task) k fun _ k' => k'.heap_entries = k.heap_entries ∧
      (∀ q, q ≠ t.prev → k'.objs q = k.objs q) ∧
      (t.prev ≠ 0 → ∀ p, k.objs t.prev = some (.task p) →
        k'.objs t.prev = some (.task { p with next := t.next })) ∧
      k'.task_head = (if task = k.task_head then t.next else k.task_head) ∧
      k'.task_tail = (if task = k.task_tail then t.prev else k.task_tail) ∧
      k'.current_task = (if task = k.current_task then
        (if t.next = 0 then k'.task_head else t.next) else k.current_task) := by
  unfold taskListRemove
  rw [if_neg htask]
  refine Returns.bind (deref_returns htask ho rfl) ?_
  rintro _ _ ⟨rfl, rfl⟩
  -- the predecessor
  refine Returns.bind (R := fun _ k' => k'.heap_entries = k.heap_entries ∧ SameGlobals k k' ∧
      (∀ q, q ≠ t.prev → k'.objs q = k.objs q) ∧
      (t.prev ≠ 0 → ∀ p, k.objs t.prev = some (.task p) →
        k'.objs t.prev = some (.task { p with next := t.next })) ∧
      k'.objs task = some (.task t)) (Returns.onlyIf ?_ ?_) ?_
  · intro hne
    obtain ⟨hpt, p, hp⟩ := hprev hne
    refine (modifyTask_returns _ hne hp).mono fun _ k₁ hst => ⟨hst.heap_entries, hst.globals,
      hst.other, fun _ p' hp' => ?_, (hst.other _ hpt.symm).trans ho⟩
    rw [hp] at hp'
    cases hp'
    exact hst.self
  · intro hzero
    exact ⟨rfl, SameGlobals.refl k, fun _ _ => rfl, fun h => absurd h hzero, ho⟩
  rintro _ k₁ ⟨hheap₁, hglob₁, hother₁, hprev₁, ho₁⟩
  -- the head
  refine Returns.bind (reads_spec Kernel.task_head) ?_
  rintro head _ ⟨rfl, rfl⟩
  refine Returns.bind (R := fun _ k' => k' = { k₁ with
      task_head := if task = k₁.task_head then t.next else k₁.task_head })
    (Returns.onlyIf ?_ ?_) ?_
  · intro h
    refine Returns.bind (deref_returns htask ho₁ rfl) ?_
    rintro _ _ ⟨rfl, rfl⟩
    exact Returns.modifies (by rw [if_pos h])
  · intro h
    rw [if_neg h]
  rintro _ k₂ rfl
  -- the tail
  refine Returns.bind (reads_spec Kernel.task_tail) ?_
  rintro tail _ ⟨rfl, rfl⟩
  refine Returns.bind (R := fun _ k' => k' = { k₁ with
      task_head := if task = k₁.task_head then t.next else k₁.task_head
      task_tail := if task = k₁.task_tail then t.prev else k₁.task_tail })
    (Returns.onlyIf ?_ ?_) ?_
  · intro h
    refine Returns.bind (deref_returns htask ho₁ rfl) ?_
    rintro _ _ ⟨rfl, rfl⟩
    exact Returns.modifies (by rw [if_pos h])
  · intro h
    rw [if_neg h]
  rintro _ k₃ rfl
  -- the current task
  refine Returns.bind (reads_spec Kernel.current_task) ?_
  rintro current _ ⟨rfl, rfl⟩
  dsimp only
  rw [← hglob₁.task_head, ← hglob₁.task_tail, ← hglob₁.current_task]
  refine Returns.onlyIf ?_ ?_
  · intro h
    refine Returns.bind (R := fun a k' => k' = { k₁ with
        task_head := if task = k₁.task_head then t.next else k₁.task_head
        task_tail := if task = k₁.task_tail then t.prev else k₁.task_tail } ∧
      a = if t.next = 0 then (if task = k₁.task_head then t.next else k₁.task_head)
        else t.next) ?_ ?_
    · refine Returns.bind (reads_spec Kernel.current_task) ?_
      rintro current _ ⟨rfl, rfl⟩
      rw [h] at htask ho₁
      refine Returns.bind (deref_returns htask ho₁ rfl) ?_
      rintro _ _ ⟨rfl, rfl⟩
      split
      · exact Returns.reads ⟨rfl, rfl⟩
      · exact Returns.pure ⟨rfl, rfl⟩
    · rintro _ _ ⟨rfl, rfl⟩
      refine Returns.modifies ⟨hheap₁, hother₁, hprev₁, rfl, rfl, ?_⟩
      rw [if_pos h]
  · intro h
    rw [if_neg h]
    exact ⟨hheap₁, hother₁, hprev₁, rfl, rfl, rfl⟩

/-- `task_free` releases the task and its address space, and writes the pointers
`task_list_remove` writes. -/
theorem taskFree_spec {k : Kernel} {task : Nat} {t : Task} {ptrs : List Nat}
    (ho : k.objs task = some (.task t)) (ha : k.Alive task 1)
    (hown : OwnsSpace k t.page_directory ptrs) (hnot : task ∉ ptrs)
    (hprev : t.prev ≠ 0 → t.prev ≠ task ∧ t.prev ∉ ptrs ∧ k.Alive t.prev 1 ∧
      ∃ p, k.objs t.prev = some (.task p)) :
    Returns (taskFree task) k fun res k' => res = 0 ∧
      (∀ q n, k.Alive q n → q ∉ task :: ptrs →
        k'.Alive q n ∧ (q ≠ t.prev → k'.objs q = k.objs q)) ∧
      (t.prev ≠ 0 → ∀ p, k.objs t.prev = some (.task p) →
        k'.objs t.prev = some (.task { p with next := t.next })) ∧
      k'.task_head = (if task = k.task_head then t.next else k.task_head) ∧
      k'.task_tail = (if task = k.task_tail then t.prev else k.task_tail) ∧
      k'.current_task = (if task = k.current_task then
        (if t.next = 0 then k'.task_head else t.next) else k.current_task) := by
  refine Returns.bind (deref_returns ha.ne_zero ho rfl) ?_
  rintro _ _ ⟨rfl, rfl⟩
  refine Returns.bind (pagingFree4gb_spec hown) ?_
  rintro _ k₁ ⟨hkeep₁, hglob₁⟩
  obtain ⟨ha₁, ho₁⟩ := hkeep₁ task 1 ha hnot
  have hprev₁ : t.prev ≠ 0 → k₁.objs t.prev = k.objs t.prev := fun h => by
    obtain ⟨-, hp, hpa, -⟩ := hprev h
    exact (hkeep₁ t.prev 1 hpa hp).2
  refine Returns.bind (taskListRemove_spec ha.ne_zero (ho₁.trans ho) fun h => ?_) ?_
  · obtain ⟨hne, -, -, p, hp⟩ := hprev h
    exact ⟨hne, p, (hprev₁ h).trans hp⟩
  rintro _ k₂ ⟨hheap₂, hother₂, hpo₂, hhead₂, htail₂, hcur₂⟩
  refine Returns.bind (kfree_spec (ha₁.congr hheap₂)) ?_
  intro _ k₃ hfree₃
  refine Returns.pure ⟨rfl, fun q n hq hqn => ?_, fun h p hp => ?_, ?_, ?_, ?_⟩
  · simp only [List.mem_cons, not_or] at hqn
    obtain ⟨hq₁, hqo₁⟩ := hkeep₁ q n hq hqn.2
    obtain ⟨hq₃, hqo₃⟩ := hfree₃.keeps q n (hq₁.congr hheap₂) (by simpa using hqn.1)
    exact ⟨hq₃, fun hne => hqo₃.trans ((hother₂ q hne).trans hqo₁)⟩
  · obtain ⟨hne, hnp, hpa, -⟩ := hprev h
    have hpa₁ := (hkeep₁ t.prev 1 hpa hnp).1
    rw [(hfree₃.keeps t.prev 1 (hpa₁.congr hheap₂) (by simpa using hne)).2]
    exact hpo₂ h p ((hprev₁ h).trans hp)
  · rw [hfree₃.globals.task_head, hhead₂, hglob₁.task_head]
  · rw [hfree₃.globals.task_tail, htail₂, hglob₁.task_tail]
  · rw [hfree₃.globals.current_task, hcur₂, hfree₃.globals.task_head, hglob₁.current_task]

end PlumOS
