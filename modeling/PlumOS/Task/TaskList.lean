import Mathlib.Data.List.Nodup
import Mathlib.Data.List.Pairwise
import PlumOS.Lib.LabelledRun
import PlumOS.Task.TaskSpec

/-!
# The task list over runs

Sequences of `task_new` and `task_free`. The list stays well formed exactly as
long as every task released is the last of the list: a removal in front of
another task leaves that task's `prev` on the released one.

## Main definitions

- `Linked`, `TaskList` — a well-formed list
- `TasksOwned` — the blocks of each task
- `TaskStep`, `TasksAdmit` — one call, and the calls that keep the list well formed
-/

namespace PlumOS

open StateExcept LabelledRun

/-- The tasks `ts` are linked in this order, between `prev` and `next`. -/
def Linked (k : Kernel) : (prev : Nat) → (ts : List Nat) → (next : Nat) → Prop
  | _, [], _ => True
  | prev, t :: ts, next =>
    (∃ tk, k.objs t = some (.task tk) ∧ tk.prev = prev ∧ tk.next = ts.headD next) ∧
      Linked k t ts next

/-- The list of the kernel holds the tasks `ts`, in this order: `next` leads from
`task_head` through all of them to NULL, `prev` leads back, `task_tail` is the
last, and `current_task` is one of them. -/
structure TaskList (k : Kernel) (ts : List Nat) : Prop where
  ne_zero : ∀ t ∈ ts, t ≠ 0
  links : Linked k 0 ts 0
  head : k.task_head = ts.headD 0
  tail : k.task_tail = ts.getLastD 0
  current : (ts = [] ∧ k.current_task = 0) ∨ k.current_task ∈ ts

theorem linked_append {k : Kernel} {xs ys : List Nat} {prev next : Nat} :
    Linked k prev (xs ++ ys) next ↔
      Linked k prev xs (ys.headD next) ∧ Linked k (xs.getLastD prev) ys next := by
  induction xs generalizing prev with
  | nil => simp [Linked]
  | cons x xs ih =>
    have hhead : (xs ++ ys).headD next = xs.headD (ys.headD next) := by cases xs <;> rfl
    rw [List.cons_append, Linked, Linked, ih, List.getLastD_cons, and_assoc, hhead]

theorem Linked.congr {k k' : Kernel} {ts : List Nat} {prev next : Nat}
    (h : Linked k prev ts next) (ho : ∀ t ∈ ts, k'.objs t = k.objs t) : Linked k' prev ts next := by
  induction ts generalizing prev with
  | nil => trivial
  | cons t ts ih =>
    obtain ⟨⟨tk, htk, hp, hn⟩, hrest⟩ := h
    exact ⟨⟨tk, (ho t (by simp)).trans htk, hp, hn⟩,
      ih hrest fun u hu => ho u (List.mem_cons_of_mem _ hu)⟩

/-- Each task of a linked list is a task, linked to its neighbours. -/
theorem Linked.split {k : Kernel} {xs ys : List Nat} {t prev next : Nat}
    (h : Linked k prev (xs ++ t :: ys) next) : ∃ tk, k.objs t = some (.task tk) ∧
      tk.prev = xs.getLastD prev ∧ tk.next = ys.headD next := by
  obtain ⟨-, hsome, -⟩ := linked_append.mp h
  exact hsome

/-- Rewriting `next` of the last task. -/
theorem Linked.setNext {k k' : Kernel} {xs : List Nat} {l prev next next' : Nat} {tl : Task}
    (h : Linked k prev (xs ++ [l]) next) (hl : k.objs l = some (.task tl))
    (hl' : k'.objs l = some (.task { tl with next := next' }))
    (ho : ∀ t ∈ xs, k'.objs t = k.objs t) : Linked k' prev (xs ++ [l]) next' := by
  obtain ⟨hxs, ⟨tl', htl', hp, -⟩, -⟩ := linked_append.mp h
  rw [hl] at htl'
  cases htl'
  exact linked_append.mpr ⟨hxs.congr ho, ⟨_, hl', hp, rfl⟩, trivial⟩

/-! ### The blocks of the tasks -/

/-- The blocks of the tasks `ts`. -/
def taskBlocks (own : Nat → List Nat) (ts : List Nat) : List Nat := ts.flatMap fun t => t :: own t

/-- Each task of `ts` lives in a block of its own and owns an address space of the
blocks `own`; no two of all these blocks are the same. -/
structure TasksOwned (k : Kernel) (own : Nat → List Nat) (ts : List Nat) : Prop where
  task : ∀ t ∈ ts, k.Alive t 1 ∧
    ∃ tk, k.objs t = some (.task tk) ∧ OwnsSpace k tk.page_directory (own t)
  nodup : (taskBlocks own ts).Nodup

theorem mem_taskBlocks {own : Nat → List Nat} {ts : List Nat} {p : Nat} :
    p ∈ taskBlocks own ts ↔ ∃ t ∈ ts, p = t ∨ p ∈ own t := by
  simp [taskBlocks, List.mem_flatMap]

theorem taskBlocks_append (own : Nat → List Nat) (xs ys : List Nat) :
    taskBlocks own (xs ++ ys) = taskBlocks own xs ++ taskBlocks own ys := by
  simp [taskBlocks]

theorem TasksOwned.alive {k : Kernel} {own : Nat → List Nat} {ts : List Nat}
    (h : TasksOwned k own ts) : ∀ p ∈ taskBlocks own ts, k.Alive p 1 := by
  intro p hp
  obtain ⟨t, ht, rfl | hpt⟩ := mem_taskBlocks.mp hp
  · exact (h.task _ ht).1
  · obtain ⟨-, tk, -, hown⟩ := h.task t ht
    exact hown.alive p hpt

/-- Ownership survives a step that keeps the blocks, and of the tasks at least
their page directories. -/
theorem TasksOwned.step {k k' : Kernel} {own : Nat → List Nat} {ts : List Nat}
    (h : TasksOwned k own ts)
    (hown : ∀ t ∈ ts, ∀ p ∈ own t, k'.Alive p 1 ∧ k'.objs p = k.objs p)
    (htask : ∀ t ∈ ts, k'.Alive t 1 ∧ ∀ tk, k.objs t = some (.task tk) →
      ∃ tk', k'.objs t = some (.task tk') ∧ tk'.page_directory = tk.page_directory) :
    TasksOwned k' own ts where
  task := by
    intro t ht
    obtain ⟨-, tk, htk, hsp⟩ := h.task t ht
    obtain ⟨ha', hk'⟩ := htask t ht
    obtain ⟨tk', htk', hdir⟩ := hk' tk htk
    exact ⟨ha', tk', htk', hdir ▸ hsp.congr (hown t ht)⟩
  nodup := h.nodup

theorem TasksOwned.task_nodup {k : Kernel} {own : Nat → List Nat} {ts : List Nat}
    (h : TasksOwned k own ts) : ts.Nodup := by
  obtain ⟨-, hdis⟩ := List.nodup_flatMap.mp h.nodup
  refine hdis.imp fun {a b} hab hne => ?_
  exact List.disjoint_left.mp hab List.mem_cons_self (hne ▸ List.mem_cons_self)

/-- A block of an address space is no task. -/
theorem TasksOwned.block_ne_task {k : Kernel} {own : Nat → List Nat} {ts : List Nat} {t u p : Nat}
    (h : TasksOwned k own ts) (ht : t ∈ ts) (hu : u ∈ ts) (hp : p ∈ own t) : p ≠ u := by
  rintro rfl
  obtain ⟨heach, hdis⟩ := List.nodup_flatMap.mp h.nodup
  by_cases htp : t = p
  · subst htp
    exact (List.nodup_cons.mp (heach t ht)).1 hp
  · have : Std.Symm (Function.onFun List.Disjoint fun t => t :: own t) := ⟨fun _ _ hd _ ha hb => hd hb ha⟩
    have hd := hdis.forall ht hu htp
    exact List.disjoint_left.mp hd (List.mem_cons_of_mem _ hp) List.mem_cons_self

/-! ### Calls -/

inductive TaskCall
  | new (process : Nat)
  | free (task : Nat)

/-- One call that comes back: `task_new` with a task, `task_free` of a task of the
list. The list beside the kernel is that of the tasks created and not yet freed. -/
inductive TaskStep : Kernel × List Nat → TaskCall → Kernel × List Nat → Prop
  | new {k k' : Kernel} {ts : List Nat} {process task : Nat} :
      taskNew process k = .ok (task, k') → ISERR task = false →
      TaskStep (k, ts) (.new process) (k', ts ++ [task])
  | free {k k' : Kernel} {ts : List Nat} {task : Nat} {res : Int} :
      task ∈ ts → taskFree task k = .ok (res, k') →
      TaskStep (k, ts) (.free task) (k', ts.erase task)

/-- The calls that keep the list well formed: any creation, and the release of the
last task. -/
def TasksAdmit (s : Kernel × List Nat) : TaskCall → Prop
  | .new _ => True
  | .free task => task = s.1.task_tail

/-- The list is well formed and its tasks own their blocks. -/
def TasksInv (s : Kernel × List Nat) : Prop :=
  TaskList s.1 s.2 ∧ ∃ own, TasksOwned s.1 own s.2

theorem TaskList.tail_mem {k : Kernel} {ts : List Nat} (h : TaskList k ts) (hne : ts ≠ []) :
    k.task_tail ∈ ts := by
  obtain ⟨xs, l, rfl⟩ := List.eq_nil_or_concat ts |>.resolve_left hne
  rw [h.tail]
  simp

theorem TaskList.head_eq_zero {k : Kernel} {ts : List Nat} (h : TaskList k ts) :
    k.task_head = 0 ↔ ts = [] := by
  rw [h.head]
  cases ts with
  | nil => simp
  | cons t ts => simpa using h.ne_zero t (by simp)

private theorem tasksOwned_new {k₁ k' : Kernel} {ts : List Nat} {own : Nat → List Nat} {task : Nat}
    {t' : Task} {ptrs : List Nat} (hown : TasksOwned k' own ts) (htask : task ∉ taskBlocks own ts)
    (ha : k'.Alive task 1) (ho : k'.objs task = some (.task t'))
    (hsp : OwnsSpace k₁ t'.page_directory ptrs)
    (hkeep : ∀ p ∈ ptrs, k'.Alive p 1 ∧ k'.objs p = k₁.objs p) (hnotin : task ∉ ptrs)
    (hdis : ∀ p ∈ ptrs, p ∉ taskBlocks own ts) :
    TasksOwned k' (Function.update own task ptrs) (ts ++ [task]) := by
  have hsame : ∀ t ∈ ts, Function.update own task ptrs t = own t := fun t ht =>
    Function.update_of_ne (fun h => htask (mem_taskBlocks.mpr ⟨t, ht, Or.inl h.symm⟩)) _ _
  have hold : taskBlocks (Function.update own task ptrs) ts = taskBlocks own ts := by
    unfold taskBlocks
    refine List.flatMap_congr fun t ht => ?_
    rw [hsame t ht]
  refine ⟨fun t ht => ?_, ?_⟩
  · rcases List.mem_append.mp ht with ht | ht
    · rw [hsame t ht]
      exact hown.task t ht
    · obtain rfl := List.mem_singleton.mp ht
      rw [Function.update_self]
      exact ⟨ha, t', ho, hsp.congr hkeep⟩
  · rw [taskBlocks_append, hold]
    refine List.nodup_append'.mpr ⟨hown.nodup, ?_, ?_⟩
    · simpa [taskBlocks] using ⟨hnotin, hsp.nodup⟩
    · intro p hp hp'
      simp only [taskBlocks, List.flatMap_cons, List.flatMap_nil, Function.update_self,
        List.append_nil, List.mem_cons] at hp'
      rcases hp' with rfl | hp'
      · exact htask hp
      · exact hdis p hp' hp

theorem tasksInv_new {k k' : Kernel} {ts : List Nat} {process task : Nat}
    (h : TasksInv (k, ts)) (hnew : taskNew process k = .ok (task, k')) :
    TasksInv (k', ts ++ [task]) := by
  obtain ⟨hlist, own, hown⟩ := h
  obtain ⟨k₁, t, ptrs, hkeep, hglob, ha₁, hfresh, ho₁, hnext, hprev, hsp, hnotin, hpfresh, happ⟩ :=
    taskNew_spec k process _ _ hnew
  dsimp only at hlist hown
  have hkeep' : ∀ p ∈ taskBlocks own ts, k₁.Alive p 1 ∧ k₁.objs p = k.objs p :=
    fun p hp => hkeep p 1 (hown.alive p hp) (by simp)
  have htask : task ∉ taskBlocks own ts := fun hmem => hfresh 1 (hown.alive _ hmem)
  have htask_ts : ∀ u ∈ ts, u ≠ task := fun u hu heq =>
    htask (mem_taskBlocks.mpr ⟨u, hu, Or.inl heq.symm⟩)
  have hdis : ∀ p ∈ ptrs, p ∉ taskBlocks own ts := fun p hp hmem =>
    hpfresh p hp 1 (hown.alive p hmem)
  have hmem_ts : ∀ u ∈ ts, u ∈ taskBlocks own ts := fun u hu =>
    mem_taskBlocks.mpr ⟨u, hu, Or.inl rfl⟩
  have hmem_own : ∀ u ∈ ts, ∀ p ∈ own u, p ∈ taskBlocks own ts := fun u hu p hp =>
    mem_taskBlocks.mpr ⟨u, hu, Or.inr hp⟩
  have hne_tail : task ≠ k₁.task_tail := by
    rw [hglob.task_tail]
    by_cases hnil : ts = []
    · rw [hlist.tail, hnil]
      exact ha₁.ne_zero
    · exact fun heq => htask_ts _ (hlist.tail_mem hnil) heq.symm
  obtain ⟨hheap, htail', hempty, hcons⟩ := taskAppend_spec hne_tail ho₁ _ _ happ
  have ha' : ∀ {p n}, k₁.Alive p n → k'.Alive p n := fun hp => hp.congr hheap
  rcases List.eq_nil_or_concat ts with rfl | ⟨xs, l, rfl⟩
  · -- the first task
    obtain ⟨hobjs, hhead', hcur'⟩ := hempty (by rw [hglob.task_head, hlist.head]; rfl)
    refine ⟨⟨?_, ?_, hhead', htail', Or.inr ?_⟩, _, tasksOwned_new (show TasksOwned k' own [] from ?_)
      htask (ha' ha₁) (show k'.objs task = some (.task t) by rw [hobjs]; exact ho₁) hsp ?_ hnotin hdis⟩
    · simpa using ha₁.ne_zero
    · exact ⟨⟨t, by rw [hobjs]; exact ho₁, hprev, hnext⟩, trivial⟩
    · rw [hcur']
      simp
    · exact ⟨by simp, List.nodup_nil⟩
    · exact fun p hp => ⟨ha' (hsp.alive p hp), by rw [hobjs]⟩
  · -- behind the last task `l`
    rw [List.concat_eq_append] at *
    have htail : k.task_tail = l := by
      rw [hlist.tail]
      simp
    have hl : l ∈ xs ++ [l] := by simp
    have hhead_ne : k₁.task_head ≠ 0 := by
      rw [hglob.task_head]
      exact fun h => by simpa using hlist.head_eq_zero.mp h
    obtain ⟨hhead', hcur', hself, hlast, hother⟩ := hcons hhead_ne
    rw [hglob.task_tail, htail] at hself hlast hother
    obtain ⟨tl, htl, -, -⟩ := hlist.links.split
    have htl₁ : k₁.objs l = some (.task tl) := (hkeep' l (hmem_ts l hl)).2.trans htl
    have hnodup := hown.task_nodup
    have hxs : ∀ u ∈ xs, k'.objs u = k₁.objs u := by
      intro u hu
      refine hother u (htask_ts u (by simp [hu])) ?_
      rintro rfl
      exact (List.nodup_append'.mp hnodup).2.2 hu (by simp)
    have hlinks₁ : Linked k₁ 0 (xs ++ [l]) 0 :=
      hlist.links.congr fun u hu => (hkeep' u (hmem_ts u hu)).2
    have howned : TasksOwned k' own (xs ++ [l]) := by
      refine hown.step (fun u hu p hp => ?_) fun u hu => ?_
      · obtain ⟨hp₁, hpo₁⟩ := hkeep' p (hmem_own u hu p hp)
        refine ⟨ha' hp₁, (hother p ?_ ?_).trans hpo₁⟩
        · exact fun heq => htask (heq ▸ hmem_own u hu p hp)
        · exact hown.block_ne_task hu hl hp
      · obtain ⟨hu₁, huo₁⟩ := hkeep' u (hmem_ts u hu)
        refine ⟨ha' hu₁, fun tk htk => ?_⟩
        by_cases hul : u = l
        · subst hul
          rw [htl] at htk
          cases htk
          exact ⟨_, hlast tl htl₁, rfl⟩
        · exact ⟨tk, by rw [hother u (htask_ts u hu) hul, huo₁, htk], rfl⟩
    refine ⟨⟨?_, ?_, ?_, ?_, ?_⟩, _, tasksOwned_new howned htask (ha' ha₁) hself hsp ?_ hnotin hdis⟩
    · intro u hu
      rcases List.mem_append.mp hu with hu | hu
      · exact hlist.ne_zero u hu
      · obtain rfl := List.mem_singleton.mp hu
        exact ha₁.ne_zero
    · refine linked_append.mpr ⟨hlinks₁.setNext htl₁ (hlast tl htl₁) hxs, ⟨_, hself, ?_, hnext⟩,
        trivial⟩
      simp
    · rw [hhead', hglob.task_head, hlist.head]
      cases xs <;> rfl
    · rw [htail']
      simp
    · right
      rw [hcur', hglob.current_task]
      exact List.mem_append_left _ (hlist.current.resolve_left (by simp))
    · intro p hp
      refine ⟨ha' (hsp.alive p hp), hother p ?_ ?_⟩
      · exact fun heq => hnotin (heq ▸ hp)
      · exact fun heq => hdis p hp (heq ▸ hmem_ts l hl)

theorem getLastD_mem {xs : List Nat} (h : xs ≠ []) (d : Nat) : xs.getLastD d ∈ xs := by
  obtain ⟨ys, l, rfl⟩ := List.eq_nil_or_concat xs |>.resolve_left h
  simp

private theorem getLastD_after (xs zs : List Nat) (t l : Nat) :
    (xs ++ t :: (zs ++ [l])).getLastD 0 = l := by
  rw [show xs ++ t :: (zs ++ [l]) = (xs ++ t :: zs) ++ [l] by simp]
  exact List.getLastD_concat ..

/-- Releasing the task between `xs` and `ys`: the others keep their blocks and,
but for the predecessor's `next`, their links. -/
private theorem taskFree_between {k : Kernel} {own : Nat → List Nat} {xs ys : List Nat} {t : Nat}
    (hlist : TaskList k (xs ++ t :: ys)) (hown : TasksOwned k own (xs ++ t :: ys)) :
    Returns (taskFree t) k fun _ k' => TasksOwned k' own (xs ++ ys) ∧
      (∀ u ∈ xs ++ ys, u ≠ xs.getLastD 0 → k'.objs u = k.objs u) ∧
      (xs ≠ [] → ∀ p, k.objs (xs.getLastD 0) = some (.task p) →
        k'.objs (xs.getLastD 0) = some (.task { p with next := ys.headD 0 })) ∧
      k'.task_head = (if xs = [] then ys.headD 0 else k.task_head) ∧
      k'.task_tail = (if ys = [] then xs.getLastD 0 else k.task_tail) ∧
      k'.current_task = (if t = k.current_task then
        (if ys.headD 0 = 0 then k'.task_head else ys.headD 0) else k.current_task) := by
  have ht : t ∈ xs ++ t :: ys := by simp
  have hnodup := hown.task_nodup
  obtain ⟨hxn, htyn, hxty⟩ := List.nodup_append'.mp hnodup
  obtain ⟨hty, hyn⟩ := List.nodup_cons.mp htyn
  have htx : t ∉ xs := fun h => hxty h List.mem_cons_self
  obtain ⟨hta, tk, htk, hsp⟩ := hown.task t ht
  obtain ⟨tk', htk', hprev, hnext⟩ := hlist.links.split
  rw [htk] at htk'
  cases htk'
  have hsub : ∀ u ∈ xs ++ ys, u ∈ xs ++ t :: ys ∧ u ≠ t := by
    intro u hu
    rcases List.mem_append.mp hu with hu | hu
    · exact ⟨by simp [hu], fun h => htx (h ▸ hu)⟩
    · exact ⟨by simp [hu], fun h => hty (h ▸ hu)⟩
  have hlastmem : xs ≠ [] → xs.getLastD 0 ∈ xs ++ ys := fun h =>
    List.mem_append_left _ (getLastD_mem h 0)
  have hpnil : tk.prev ≠ 0 → xs ≠ [] := by
    rintro h rfl
    exact h hprev
  refine (taskFree_spec htk hta hsp (fun h => hown.block_ne_task ht ht h rfl) fun h => ?_).mono ?_
  · obtain ⟨hu, hne⟩ := hsub _ (hlastmem (hpnil h))
    rw [hprev]
    obtain ⟨hua, pk, hpk, -⟩ := hown.task _ hu
    exact ⟨hne, fun hmem => hown.block_ne_task ht hu hmem rfl, hua, pk, hpk⟩
  rintro _ k' ⟨-, hkeep, hplink, hhead, htail, hcur⟩
  rw [hprev] at hkeep hplink htail
  rw [hnext] at hplink hhead hcur
  have hkeep' : ∀ u ∈ xs ++ ys, k'.Alive u 1 ∧ (u ≠ xs.getLastD 0 → k'.objs u = k.objs u) := by
    intro u hu
    obtain ⟨hu', hne⟩ := hsub u hu
    refine hkeep u 1 (hown.task u hu').1 ?_
    simp only [List.mem_cons, not_or]
    exact ⟨hne, fun hmem => hown.block_ne_task ht hu' hmem rfl⟩
  have hplink' : xs ≠ [] → ∀ p, k.objs (xs.getLastD 0) = some (.task p) →
      k'.objs (xs.getLastD 0) = some (.task { p with next := ys.headD 0 }) := fun h =>
    hplink (hlist.ne_zero _ (hsub _ (hlastmem h)).1)
  have hhead_iff : t = k.task_head ↔ xs = [] := by
    rw [hlist.head]
    cases xs with
    | nil => simp
    | cons x xs => simpa using fun h : t = x => htx (h ▸ List.mem_cons_self)
  have htail_iff : t = k.task_tail ↔ ys = [] := by
    rw [hlist.tail]
    rcases List.eq_nil_or_concat ys with rfl | ⟨zs, l, rfl⟩
    · simp
    · rw [List.concat_eq_append, getLastD_after]
      simpa using fun h : t = l => hty (by simp [h])
  refine ⟨?_, fun u hu => (hkeep' u hu).2, hplink', ?_, ?_, hcur⟩
  · -- what the others own is unchanged
    have hrest : TasksOwned k own (xs ++ ys) := by
      refine ⟨fun u hu => hown.task u (hsub u hu).1, ?_⟩
      refine hown.nodup.sublist ?_
      rw [taskBlocks_append, taskBlocks_append]
      refine List.Sublist.append (List.Sublist.refl _) ?_
      simp only [taskBlocks, List.flatMap_cons]
      exact List.sublist_append_right _ _
    refine hrest.step (fun u hu p hp => ?_) fun u hu => ⟨(hkeep' u hu).1, fun uk huk => ?_⟩
    · obtain ⟨hu', hne⟩ := hsub u hu
      obtain ⟨-, uk, huk, husp⟩ := hown.task u hu'
      have hpt : p ∉ t :: own t := by
        intro hmem
        have := (List.nodup_flatMap.mp hown.nodup).2
        have hsymm : Std.Symm (Function.onFun List.Disjoint fun t => t :: own t) :=
          ⟨fun _ _ hd _ ha hb => hd hb ha⟩
        exact this.forall hu' ht hne (List.mem_cons_of_mem _ hp) hmem
      obtain ⟨hpa, hpo⟩ := hkeep p 1 (husp.alive p hp) hpt
      refine ⟨hpa, hpo ?_⟩
      by_cases hxs : xs = []
      · subst hxs
        exact (husp.alive p hp).ne_zero
      · exact hown.block_ne_task hu' (hsub _ (hlastmem hxs)).1 hp
    · by_cases hul : u = xs.getLastD 0
      · by_cases hxs : xs = []
        · subst hxs
          exact absurd hul (hlist.ne_zero u (hsub u hu).1)
        · subst hul
          exact ⟨_, hplink' hxs uk huk, rfl⟩
      · exact ⟨uk, ((hkeep' u hu).2 hul).trans huk, rfl⟩
  · rw [hhead]
    exact if_congr hhead_iff rfl rfl
  · rw [htail]
    exact if_congr htail_iff rfl rfl

private theorem erase_between {xs ys : List Nat} {t : Nat} (h : (xs ++ t :: ys).Nodup) :
    (xs ++ t :: ys).erase t = xs ++ ys := by
  have htx : t ∉ xs := fun hmem => (List.nodup_append'.mp h).2.2 hmem List.mem_cons_self
  rw [List.erase_append_right _ htx, List.erase_cons_head]

private theorem tasksInv_free {k k' : Kernel} {ts : List Nat} {task : Nat} {res : Int}
    (h : TasksInv (k, ts)) (hmem : task ∈ ts) (hlast : task = k.task_tail)
    (hfree : taskFree task k = .ok (res, k')) : TasksInv (k', ts.erase task) := by
  obtain ⟨hlist, own, hown⟩ := h
  dsimp only at hlist hown
  obtain ⟨xs, ys, rfl⟩ := List.append_of_mem hmem
  have hnodup := hown.task_nodup
  obtain rfl : ys = [] := by
    rcases List.eq_nil_or_concat ys with rfl | ⟨zs, l, rfl⟩
    · rfl
    · rw [List.concat_eq_append] at *
      rw [hlist.tail, getLastD_after] at hlast
      have hcons := (List.nodup_append'.mp hnodup).2.1
      exact absurd (show task ∈ zs ++ [l] by simp [hlast]) (List.nodup_cons.mp hcons).1
  obtain ⟨hown', hkeep, hplink, hhead, htail, hcur⟩ :=
    (taskFree_between hlist hown).ensures _ _ hfree
  rw [erase_between hnodup]
  simp only [List.append_nil, List.headD_nil, if_pos] at hown' hkeep hplink hhead htail hcur ⊢
  have htx : task ∉ xs := fun h => (List.nodup_append'.mp hnodup).2.2 h List.mem_cons_self
  refine ⟨⟨fun u hu => hlist.ne_zero u (by simp [hu]), ?_, ?_, htail, ?_⟩, own, hown'⟩
  · rcases List.eq_nil_or_concat xs with rfl | ⟨zs, l, rfl⟩
    · trivial
    · rw [List.concat_eq_append] at *
      have hlinks := (linked_append.mp hlist.links).1
      obtain ⟨tl, htl, -, -⟩ := hlinks.split
      simp only [List.getLastD_concat] at hkeep hplink
      refine hlinks.setNext htl (hplink (by simp) tl htl) fun u hu => hkeep u (by simp [hu]) ?_
      rintro rfl
      exact (List.nodup_append'.mp (List.nodup_append'.mp hnodup).1).2.2 hu (by simp)
  · rw [hhead]
    cases xs with
    | nil => rfl
    | cons x xs => simpa using hlist.head
  · rw [hcur]
    split
    · rw [hhead]
      cases xs with
      | nil => exact Or.inl ⟨rfl, by simp⟩
      | cons x xs => exact Or.inr (by simp [hlist.head])
    · next hne =>
      have hc := hlist.current.resolve_left (by simp)
      right
      have : k.current_task ∈ xs ∨ k.current_task = task := by simpa using hc
      exact this.resolve_right fun h => hne h.symm

private theorem tasksBreak_free {k k' : Kernel} {ts : List Nat} {task : Nat} {res : Int}
    (h : TasksInv (k, ts)) (hmem : task ∈ ts) (hinner : task ≠ k.task_tail)
    (hfree : taskFree task k = .ok (res, k')) : ¬ TaskList k' (ts.erase task) := by
  obtain ⟨hlist, own, hown⟩ := h
  dsimp only at hlist hown
  obtain ⟨xs, ys, rfl⟩ := List.append_of_mem hmem
  have hnodup := hown.task_nodup
  obtain ⟨-, hkeep, -⟩ := (taskFree_between hlist hown).ensures _ _ hfree
  cases ys with
  | nil =>
    rw [hlist.tail] at hinner
    simp at hinner
  | cons u ys =>
    rw [erase_between hnodup]
    intro hlist'
    have hxs : ∀ v ∈ xs, v ≠ u ∧ v ≠ task := fun v hv =>
      ⟨fun h => (List.nodup_append'.mp hnodup).2.2 hv (by simp [h]),
        fun h => (List.nodup_append'.mp hnodup).2.2 hv (by simp [h])⟩
    have hu0 : u ≠ 0 := hlist.ne_zero u (by simp)
    have ht0 : task ≠ 0 := hlist.ne_zero task (by simp)
    have hlastne : ∀ v, v ≠ 0 → (∀ w ∈ xs, w ≠ v) → v ≠ xs.getLastD 0 := by
      intro v hv hw heq
      by_cases hnil : xs = []
      · subst hnil
        exact hv heq
      · exact hw _ (getLastD_mem hnil 0) heq.symm
    -- `u` keeps its `prev`, the task released
    obtain ⟨uk, huk, hup, -⟩ :=
      (show Linked k 0 ((xs ++ [task]) ++ u :: ys) 0 by simpa using hlist.links).split
    obtain ⟨uk', huk', hup', -⟩ := hlist'.links.split
    rw [hkeep u (by simp) (hlastne u hu0 fun w hw => (hxs w hw).1), huk] at huk'
    cases huk'
    rw [hup] at hup'
    simp only [List.getLastD_concat] at hup'
    exact hlastne task ht0 (fun w hw => (hxs w hw).2) hup'

/-- A run of task creations and releases, from an empty list, keeps the list well
formed exactly when every task released is the last of the list. -/
theorem task_run_list_iff {k : Kernel} {tr : List (TaskCall × (Kernel × List Nat))}
    (hhead : k.task_head = 0) (htail : k.task_tail = 0) (hcur : k.current_task = 0)
    (hrun : Run TaskStep (k, []) tr) :
    AllStates (fun s => TaskList s.1 s.2) (k, []) tr ↔ AllSteps TasksAdmit (k, []) tr := by
  refine hrun.allStates_iff_allSteps (fun (h : TasksInv _) => h.1) ?_ ?_ ?_
  · intro s c s' h hadmit hst
    cases hst with
    | new hnew _ => exact tasksInv_new h hnew
    | free hmem hfree => exact tasksInv_free h hmem hadmit hfree
  · intro s c s' h hadmit hst
    cases hst with
    | new hnew _ => exact absurd trivial hadmit
    | free hmem hfree => exact tasksBreak_free h hmem hadmit hfree
  · exact ⟨⟨by simp, trivial, hhead, htail, Or.inl ⟨rfl, hcur⟩⟩, fun _ => [], by simp,
      List.nodup_nil⟩

/-- A kernel whose heap holds one process, a binary program, in its first blocks. -/
def Kernel.oneProcess : Kernel :=
  { Kernel.boot Disk.blank with
    heap_entries := fun i => if i = 0 then runEntry 3 0 else if i = 1 then runEntry 3 1
      else if i = 2 then runEntry 3 2 else 0
    objs := Function.update (fun _ => none) (blockAddress 0)
      (some (.process { Process.zero with filetype := PROCESS_FILETYPE_BINARY })) }

private theorem oneProcess_alive : Kernel.oneProcess.Alive (blockAddress 0) 3 := by
  refine ⟨0, rfl, by omega, by omega, fun j hj => ?_⟩
  have : j = 0 ∨ j = 1 ∨ j = 2 := by omega
  rcases this with rfl | rfl | rfl <;> rfl

private theorem oneProcess_freeFrom : Kernel.oneProcess.FreeFrom 3 := by
  intro i h₁ h₂
  unfold HeapTable.IsFree Kernel.oneProcess
  simp only [Kernel.heap_entries_eq]
  rw [if_neg (by omega), if_neg (by omega), if_neg (by omega)]
  rfl

/-- A first task of the process of `Kernel.oneProcess`. -/
theorem oneProcess_new : ∃ a k₁, taskNew (blockAddress 0) Kernel.oneProcess = .ok (a, k₁) ∧
    ISERR a = false ∧ k₁.FreeFrom 1030 ∧ k₁.Alive (blockAddress 0) 3 ∧ ∃ p : Process,
      k₁.objs (blockAddress 0) = some (.process p) ∧ p.filetype ≠ PROCESS_FILETYPE_ELF ∧
      blockAddress 0 ≠ a := by
  obtain ⟨a, k₁, hnew, herr, hfree, hal, ho, hne⟩ := taskNew_returns oneProcess_freeFrom (by omega)
    oneProcess_alive rfl (show PROCESS_FILETYPE_BINARY ≠ PROCESS_FILETYPE_ELF by decide)
    (show blockAddress 0 ≠ 0 by decide) (Or.inl rfl)
  exact ⟨a, k₁, hnew, herr, hfree, hal, _, ho, by decide, hne⟩

private theorem oneProcess_inv : TasksInv (Kernel.oneProcess, []) :=
  ⟨⟨by simp, trivial, rfl, rfl, Or.inl ⟨rfl, rfl⟩⟩, fun _ => [], by simp, List.nodup_nil⟩

/-- Two tasks are created and the first is released: `prev` of the second is left on
the released task. -/
theorem task_run_list_dangling :
    ∃ (k : Kernel) (tr : List (TaskCall × (Kernel × List Nat))), k.task_head = 0 ∧
      k.task_tail = 0 ∧ k.current_task = 0 ∧ Run TaskStep (k, []) tr ∧
      ¬ AllStates (fun s => TaskList s.1 s.2) (k, []) tr := by
  obtain ⟨a, k₁, hnew₁, herr₁, hfree₁, hal₁, p, hp, hbin, hpa⟩ := oneProcess_new
  have hinv₁ : TasksInv (k₁, [a]) := tasksInv_new oneProcess_inv hnew₁
  have htail₁ : k₁.task_tail = a := hinv₁.1.tail
  obtain ⟨own, hown⟩ := hinv₁.2
  obtain ⟨ha₁, ta, hta, -⟩ := hown.task a (by simp)
  obtain ⟨b, k₂, hnew₂, herr₂, -⟩ := taskNew_returns hfree₁ (by omega) hal₁ hp hbin
    (by rw [htail₁]; exact hpa) (Or.inr (by rw [htail₁]; exact ⟨ha₁, ta, hta⟩))
  have hinv₂ : TasksInv (k₂, [a] ++ [b]) := tasksInv_new hinv₁ hnew₂
  obtain ⟨own₂, hown₂⟩ := hinv₂.2
  obtain ⟨res, k₃, hfree₃, -⟩ := taskFree_between (show TaskList k₂ ([] ++ a :: [b]) from hinv₂.1) hown₂
  have hab : a ≠ b := by
    have := hown₂.task_nodup
    rintro rfl
    simp at this
  refine ⟨_, [(.new _, _), (.new _, _), (.free a, _)], rfl, rfl, rfl,
    .cons (.new hnew₁ herr₁) (.cons (.new hnew₂ herr₂) (.cons (.free (by simp) hfree₃) (.nil _))),
    fun hall => ?_⟩
  refine tasksBreak_free hinv₂ (by simp) ?_ hfree₃
    (hall.2 (.free a, k₃, ([a] ++ [b]).erase a) (by simp))
  rw [hinv₂.1.tail]
  simpa using hab

/-- The equivalence on a run that creates one task. -/
theorem task_run_list_one :
    ∃ tr : List (TaskCall × (Kernel × List Nat)), tr ≠ [] ∧
      (AllStates (fun s => TaskList s.1 s.2) (Kernel.oneProcess, []) tr ↔
        AllSteps TasksAdmit (Kernel.oneProcess, []) tr) := by
  obtain ⟨a, k₁, hnew₁, herr₁, -⟩ := oneProcess_new
  exact ⟨[(.new _, _)], by simp, task_run_list_iff rfl rfl rfl (.cons (.new hnew₁ herr₁) (.nil _))⟩

end PlumOS
