import PlumOS.Idt.OwnDirectory
import PlumOS.Task.RoundRobin
import PlumOS.Task.Terminated

/-!
# The task that runs after an exit

A task that exits or faults is removed from the list and `task_next` is called. Both move
on by one task: `task_list_remove` makes the task behind the removed one the current one,
and `task_next` leaves that one for the next.

## Main definitions

- `nextInList` — the task behind another one, and behind the last one the first
- `RunsSuccessor` — that task is resumed

## Main results

- `exit_runs_successor_iff`
-/

namespace PlumOS

open StateExcept

/-! ### The list -/

/-- The task behind `c` in the list; behind the last one comes the head. -/
def nextInList (ts : List Nat) (c : Nat) : Nat := (ts.rotate (ts.idxOf c + 1)).headD 0

theorem nextInList_split {xs ys : List Nat} {c : Nat} (h : c ∉ xs) :
    nextInList (xs ++ c :: ys) c = (ys ++ (xs ++ [c])).headD 0 := by
  have hindex : (xs ++ c :: ys).idxOf c + 1 = (xs ++ [c]).length := by
    rw [List.idxOf_append_of_notMem h]
    simp
  unfold nextInList
  rw [hindex, List.append_cons, List.rotate_append_length_eq]

/-- The tasks behind one are determined by it. -/
theorem Linked.unique {k : Kernel} : ∀ {xs ys : List Nat} {t p q : Nat}, (∀ u ∈ xs, u ≠ 0) →
    (∀ u ∈ ys, u ≠ 0) → Linked k p (t :: xs) 0 → Linked k q (t :: ys) 0 → xs = ys := by
  intro xs
  induction xs with
  | nil =>
    intro ys t p q _ hy hx' hy'
    obtain ⟨⟨tk, htk, -, hnext⟩, -⟩ := hx'
    obtain ⟨⟨tk', htk', -, hnext'⟩, -⟩ := hy'
    rw [htk] at htk'
    cases htk'
    cases ys with
    | nil => rfl
    | cons y ys => exact absurd (hnext'.symm.trans hnext) (hy y (by simp))
  | cons x xs ih =>
    intro ys t p q hx hy hx' hy'
    obtain ⟨⟨tk, htk, -, hnext⟩, hrest⟩ := hx'
    obtain ⟨⟨tk', htk', -, hnext'⟩, hrest'⟩ := hy'
    rw [htk] at htk'
    cases htk'
    cases ys with
    | nil => exact absurd (hnext.symm.trans hnext') (hx x (by simp))
    | cons y ys =>
      obtain rfl : x = y := hnext.symm.trans hnext'
      rw [ih (fun u hu => hx u (List.mem_cons_of_mem _ hu))
        (fun u hu => hy u (List.mem_cons_of_mem _ hu)) hrest hrest']

theorem Linked.nodup {k : Kernel} {ts : List Nat} : ∀ {p : Nat}, (∀ u ∈ ts, u ≠ 0) →
    Linked k p ts 0 → ts.Nodup := by
  induction ts with
  | nil => exact fun _ _ => List.nodup_nil
  | cons t ts ih =>
    intro p hne h
    have hne' : ∀ u ∈ ts, u ≠ 0 := fun u hu => hne u (List.mem_cons_of_mem _ hu)
    refine List.nodup_cons.mpr ⟨fun hmem => ?_, ih hne' h.2⟩
    -- the rest of the list would be its own rest
    obtain ⟨xs, ys, rfl⟩ := List.append_of_mem hmem
    have hrest := (linked_append.mp h.2).2
    have heq := Linked.unique hne' (fun u hu => hne' u (by simp [hu])) h hrest
    have hlen := congrArg List.length heq
    simp at hlen
    omega

/-! ### The next task -/

section Removed

variable {k k' : Kernel} {xs ys : List Nat} {c : Nat} {t : Task}

/-- The current task after the removal is the one behind the removed task. -/
theorem Removed.current_eq (h : Removed k c t k') (hlist : TaskList k (xs ++ c :: ys))
    (hc : k.current_task = c) (ht : k.objs c = some (.task t)) (hne : ys ++ xs ≠ []) :
    k'.current_task = (ys ++ xs).headD 0 := by
  obtain ⟨t', ht', hprev, hnext⟩ := hlist.links.split
  rw [ht] at ht'
  cases ht'
  have hcur := h.current_task
  have hhead := h.task_head
  rw [if_pos hc.symm] at hcur
  cases ys with
  | cons y ys =>
    have hy := hlist.ne_zero y (by simp)
    rw [hnext] at hcur
    rwa [List.headD_cons, if_neg hy] at hcur
  | nil =>
    rw [hnext, List.headD_nil, if_pos rfl] at hcur
    cases xs with
    | nil => exact absurd rfl hne
    | cons x xs =>
      have hnodup := Linked.nodup hlist.ne_zero hlist.links
      have hcx : c ≠ x := by
        rintro rfl
        simp at hnodup
      rw [hlist.head, List.cons_append, List.headD_cons, if_neg hcx] at hhead
      rw [hcur, hhead]
      rfl

/-- `task_get_next` goes on from there, to the second task behind the removed one. -/
theorem Removed.nextTask_eq (h : Removed k c t k') (hlist : TaskList k (xs ++ c :: ys))
    (hc : k.current_task = c) (ht : k.objs c = some (.task t)) (hne : ys ++ xs ≠ [])
    (hnext : nextTask k' ≠ 0) :
    nextTask k' = (ys ++ xs).tail.headD ((ys ++ xs).headD 0) := by
  have hcur := h.current_eq hlist hc ht hne
  obtain ⟨t', ht', hprev, hnext'⟩ := hlist.links.split
  rw [ht] at ht'
  cases ht'
  have hnodup := Linked.nodup hlist.ne_zero hlist.links
  have hhead := h.task_head
  rw [hlist.head] at hhead
  -- the current task is there, or nothing would be next
  obtain ⟨s, hs⟩ : ∃ s, k'.objs k'.current_task = some (.task s) := by
    unfold nextTask at hnext
    cases hobj : (k'.objs k'.current_task).bind Obj.task? with
    | none =>
      rw [hobj] at hnext
      exact absurd rfl hnext
    | some s => exact ⟨s, Obj.task?_eq_some.mp hobj⟩
  have hvalue : nextTask k' = if s.next = 0 then k'.task_head else s.next := by
    unfold nextTask
    rw [hs]
    rfl
  rw [hvalue]
  rw [hcur] at hs
  cases ys with
  | cons y ys =>
    have hy := hlist.ne_zero y (by simp)
    have hlinks : Linked k 0 ((xs ++ [c]) ++ y :: ys) 0 := by simpa using hlist.links
    obtain ⟨sy, hsy, -, hynext⟩ := hlinks.split
    obtain ⟨s', hs', hsnext⟩ := h.task y s hy hs
    rw [hsy] at hs'
    cases hs'
    have hyprev : y ≠ t.prev := by
      rw [hprev]
      by_cases hxs : xs = []
      · rwa [hxs]
      · intro heq
        have hmem : y ∈ xs := heq ▸ getLastD_mem hxs 0
        exact (List.nodup_append'.mp hnodup).2.2 hmem (by simp)
    rw [if_neg hyprev, hynext] at hsnext
    rw [hsnext]
    cases ys with
    | cons y' ys => exact if_neg (hlist.ne_zero y' (by simp))
    | nil =>
      rw [List.headD_nil, if_pos rfl, hhead, hnext']
      cases xs with
      | nil => simp
      | cons x xs =>
        have hcx : c ≠ x := by
          rintro rfl
          simp at hnodup
        exact if_neg hcx
  | nil =>
    cases xs with
    | nil => exact absurd rfl hne
    | cons x xs =>
      have hcx : c ≠ x := by
        rintro rfl
        simp at hnodup
      have hx := hlist.ne_zero x (by simp)
      rw [List.cons_append, List.headD_cons, if_neg hcx] at hhead
      obtain ⟨⟨sx, hsx, -, hxnext⟩, -⟩ := hlist.links
      obtain ⟨s', hs', hsnext⟩ := h.task x s hx hs
      rw [hsx] at hs'
      cases hs'
      rw [hprev, hnext', hxnext] at hsnext
      rw [hsnext, hhead]
      cases xs with
      | nil => simp
      | cons x' xs =>
        have hlast : x ≠ (x :: x' :: xs).getLastD 0 := by
          intro heq
          have hmem : x ∈ x' :: xs := by
            rw [List.getLastD_cons] at heq
            exact heq ▸ getLastD_mem (List.cons_ne_nil _ _) x
          have hnotin := (List.nodup_cons.mp hnodup).1
          exact hnotin (List.mem_append_left _ hmem)
        rw [if_neg hlast]
        exact if_neg (hlist.ne_zero x' (by simp))

end Removed

/-! ### Exits and faults -/

/-- The task behind `c` goes on, with its own registers. -/
def RunsSuccessor (ts : List Nat) (c : Nat) (r : UserReturn) (s : System) : Prop :=
  s.kernel.current_task = nextInList ts c ∧ r.frame = .saved (taskRegisters (nextInList ts c))

theorem switchNext_leaves {α : Type} {s : System} (e : Entry) : Ends (switchNext e : HM α) s
    (fun r s' => nextTask s.kernel ≠ 0 ∧ s'.kernel.current_task = nextTask s.kernel ∧
      r.frame = .saved (taskRegisters (nextTask s.kernel))) fun _ _ => False := by
  refine .bind (inKernel_ends (taskGetNext_spec s.kernel)) ?_
  rintro _ s₁ ⟨-, hk₁, rfl⟩
  split
  · exact inKernel_fails_ends
  · next hne =>
    refine .bind (inKernel_ends (taskSwitch_spec _ _)) ?_
    rintro _ s₂ ⟨-, -, hcur, -⟩
    refine .bind (inKernel_looks_ends (deref_spec _ _ _)) ?_
    rintro t _ ⟨rfl, -, -⟩
    exact .leaves ⟨hne, hcur, rfl⟩

/-- The task that goes on is the second one behind the task that ended. -/
theorem idtHandleException_leaves {α : Type} {s : System} (e : Entry) {xs ys : List Nat} {c : Nat}
    {t : Task} {pr : Process} (hlist : TaskList s.kernel (xs ++ c :: ys))
    (hc : s.kernel.current_task = c) (hne : ys ++ xs ≠ []) (hprogram : RunsProgram s.kernel t pr) :
    Ends (idtHandleException e : HM α) s (fun r s' =>
      s'.kernel.current_task = (ys ++ xs).tail.headD ((ys ++ xs).headD 0) ∧
        r.frame = .saved (taskRegisters s'.kernel.current_task)) fun _ _ => False := by
  have ht : s.kernel.objs c = some (.task t) := hc ▸ hprogram.task_eq
  have hc0 : s.kernel.current_task ≠ 0 := hc ▸ hlist.ne_zero c (by simp)
  have hnodup := Linked.nodup hlist.ne_zero hlist.links
  have hself : t.prev ≠ s.kernel.current_task := by
    obtain ⟨t', ht', hprev, -⟩ := hlist.links.split
    rw [ht] at ht'
    cases ht'
    rw [hprev, hc]
    by_cases hxs : xs = []
    · rw [hxs, List.getLastD_nil]
      exact (hc ▸ hc0).symm
    · intro heq
      have hmem : c ∈ xs := heq ▸ getLastD_mem hxs 0
      exact (List.nodup_append'.mp hnodup).2.2 hmem (by simp)
  refine .bind (inKernel_ends (terminateCurrent_removed hprogram hc0 hself)) ?_
  rintro _ s₁ ⟨-, hremoved⟩
  rw [hc] at hremoved
  refine (switchNext_leaves e).conseq ?_ fun _ _ h => h
  rintro r s' ⟨hnext, hcur, hframe⟩
  rw [hcur]
  exact ⟨hremoved.nextTask_eq hlist hc ht hne hnext, hframe⟩

/-- Of a list without duplicates the second entry is the first one only if there is no
second one. -/
theorem tail_headD_eq_headD_iff {l : List Nat} (h : l.Nodup) (hne : l ≠ []) :
    l.tail.headD (l.headD 0) = l.headD 0 ↔ l.length = 1 := by
  match l with
  | [] => exact absurd rfl hne
  | [x] => simp
  | x :: y :: l =>
    have hxy : y ≠ x := by
      rintro rfl
      simp at h
    simpa using hxy

/-- When the running task exits or faults, the task behind it in the list goes on exactly if
the list has two tasks: of more tasks, one is skipped. -/
theorem exit_runs_successor_iff {s s' : System} {ts : List Nat} {t : Task} {pr : Process}
    {e : Entry} {m : HM Nat} {r : UserReturn} (hlist : TaskList s.kernel ts)
    (hn : 2 ≤ ts.length) (hprogram : RunsProgram s.kernel t pr)
    (hm : m = isr80hCommand9Exit e ∨ m = idtHandleException e)
    (hrun : m.run s = .ok (.error r, s')) :
    RunsSuccessor ts s.kernel.current_task r s' ↔ ts.length = 2 := by
  have hexit : (idtHandleException e : HM Nat).run s = .ok (.error r, s') := by
    rcases hm with rfl | rfl
    · exact hrun
    · exact hrun
  have hmem : s.kernel.current_task ∈ ts := by
    refine hlist.current.resolve_left fun hnil => ?_
    rw [hnil.1] at hn
    simp at hn
  obtain ⟨xs, ys, hsplit⟩ := List.append_of_mem hmem
  generalize hc : s.kernel.current_task = c at hsplit
  subst hsplit
  have hnodup := Linked.nodup hlist.ne_zero hlist.links
  have hcxs : c ∉ xs := fun h => (List.nodup_append'.mp hnodup).2.2 h (by simp)
  have hlen : (xs ++ c :: ys).length = (ys ++ xs).length + 1 := by
    simp
    omega
  have hne : ys ++ xs ≠ [] := by
    intro hnil
    rw [hlen, hnil] at hn
    simp at hn
  have hothers : (ys ++ xs).Nodup := by
    refine (List.perm_append_comm.nodup_iff).mp ?_
    exact hnodup.sublist (List.Sublist.append_left (List.sublist_cons_self c ys) xs)
  have hnext : nextInList (xs ++ c :: ys) c = (ys ++ xs).headD 0 := by
    rw [nextInList_split hcxs, ← List.append_assoc]
    cases hys : ys ++ xs with
    | nil => exact absurd hys hne
    | cons x l => rfl
  obtain ⟨hcur, hframe⟩ := idtHandleException_leaves e hlist hc hne hprogram _ _ hexit
  unfold RunsSuccessor
  rw [hnext, hframe, hcur, hlen]
  have hsame := tail_headD_eq_headD_iff hothers hne
  constructor
  · rintro ⟨heq, -⟩
    rw [hsame.mp heq]
  · intro h
    have heq := hsame.mpr (by omega)
    exact ⟨heq, by rw [heq]⟩

/-! ### Programs without memory requests -/

/-- `process_terminate` behind `process_terminate_allocations`. -/
def processTerminateRest (process : Nat) : KM Int := do
  let res ← processFreeProgramData process
  if res < 0 then pure res
  else do
    let p ← deref Obj.process? process
    kfree p.stack
    let _ ← taskFree p.task
    processUnlink process
    pure res

section Empty

variable {k : Kernel} {process : Nat} {pr : Process} {t : Task}

/-- An empty slot has the address 0, which is released for each of them. -/
theorem processFree_empty (hne : process ≠ 0) (hpr : k.objs process = some (.process pr))
    (hempty : pr.allocations = fun _ => ⟨0, 0⟩) (htask : pr.task ≠ 0)
    (ht : k.objs pr.task = some (.task t)) (h0 : k.objs 0 = none)
    (hentry : k.heap_entries (-4096) = HEAP_BLOCK_TABLE_ENTRY_FREE) :
    processFree process 0 k = .ok (⟨⟩, k) := by
  have hread : deref Obj.process? process k = .ok (pr, k) := deref_ok hne hpr rfl
  have htaskRead : deref Obj.task? pr.task k = .ok (t, k) := deref_ok htask ht rfl
  have hmap : pagingMapTo t.page_directory 0 0 (pagingAlignAddress (u32 ((0 + 0 : Nat) : Int))) 0 k =
      .ok (0, k) := rfl
  have hunjoin : processAllocationUnjoin pr.allocations 0 = pr.allocations := by
    rw [hempty]
    funext i
    exact ite_self _
  have hmodify : modifyProcess process (fun p =>
      { p with allocations := processAllocationUnjoin p.allocations 0 }) k = .ok (⟨⟩, k) := by
    unfold modifyProcess
    rw [bind_of_ok hread]
    dsimp only
    rw [hunjoin]
    unfold storeObj modifies
    dsimp only
    rw [← hpr, Function.update_eq_self]
  have hfree : kfree 0 k = .ok (⟨⟩, k) := by
    have hblock : heapAddressToBlock k.heap 0 = -4096 := by
      rw [heapAddressToBlock_eq, pointerBlock_zero]
    have hentries : (heapFree k.heap 0).table.entries = k.heap_entries := by
      unfold heapFree heapMarkBlocksFree
      rw [hblock]
      change heapMarkBlocksFreeLoop (29695 + 1) (-4096) k.heap_entries = k.heap_entries
      unfold heapMarkBlocksFreeLoop
      dsimp only
      rw [hentry, if_pos (by decide), ← hentry, Function.update_eq_self]
    unfold kfree modifies
    dsimp only
    rw [hentries, ← h0, Function.update_eq_self]
  unfold processFree
  rw [bind_of_ok hread]
  cases processGetAllocationByAddress pr.allocations 0 with
  | none => rfl
  | some index =>
    have hzero : pr.allocations index = ⟨0, 0⟩ := by rw [hempty]
    dsimp only
    rw [bind_of_ok htaskRead, hzero, bind_of_ok hmap, if_neg (lt_irrefl 0), bind_of_ok hmodify,
      hfree]

theorem processTerminate_empty (hne : process ≠ 0) (hpr : k.objs process = some (.process pr))
    (hempty : pr.allocations = fun _ => ⟨0, 0⟩) (htask : pr.task ≠ 0)
    (ht : k.objs pr.task = some (.task t)) (h0 : k.objs 0 = none)
    (hentry : k.heap_entries (-4096) = HEAP_BLOCK_TABLE_ENTRY_FREE) :
    processTerminate process k = processTerminateRest process k := by
  have hread : deref Obj.process? process k = .ok (pr, k) := deref_ok hne hpr rfl
  have hloop : ∀ fuel i, processTerminateAllocationsLoop process fuel i k = .ok (⟨⟩, k) := by
    intro fuel
    induction fuel with
    | zero => exact fun _ => rfl
    | succ fuel ih =>
      intro i
      unfold processTerminateAllocationsLoop
      rw [bind_of_ok hread, hempty]
      rw [bind_of_ok (processFree_empty hne hpr hempty htask ht h0 hentry), ih]
  have hall : processTerminateAllocations process k = .ok (⟨⟩, k) := hloop _ _
  unfold processTerminate processTerminateRest
  rw [bind_of_ok hall]

end Empty

/-! ### Two programs, and three -/

/-- The first block of program `j`. -/
def programBlock (j : Nat) : Nat := 1 + 1040 * j

/-- A binary program, with its data and its stack behind its page tables. -/
def binaryProcess (j : Nat) : Process :=
  { Process.zero with
    id := j
    task := blockAddress (programBlock j + 3)
    filetype := PROCESS_FILETYPE_BINARY
    ptr := blockAddress (programBlock j + 1030)
    stack := blockAddress (programBlock j + 1031)
    size := 4096 }

/-- The task of program `j` of `n`. -/
def binaryTask (n j : Nat) : Task :=
  programTask (programBlock j) (if j + 1 < n then blockAddress (programBlock (j + 1) + 3) else 0)
    (if j = 0 then 0 else blockAddress (programBlock (j - 1) + 3))

/-- `n` programs run, each with its structures in 1040 blocks; the first is the current one. -/
def Kernel.running (n : Nat) : Kernel :=
  { Kernel.boot Disk.blank with
    heap_entries := fun i =>
      let j := ((i - 1) / 1040).toNat
      let g : Int := programBlock j
      if i < 1 ∨ n ≤ j then 0
      else if g + 1030 = i then runEntry 1 0
      else if g + 1031 ≤ i ∧ i < g + 1035 then runEntry 4 (i - (g + 1031)).toNat
      else programEntries (programBlock j) i
    objs := fun a =>
      let b := (a - 0x1000000) / 4096
      let j := (b - 1) / 1040
      if a % 4096 ≠ 0 ∨ a < 0x1001000 ∨ n ≤ j then none
      else programObjs (programBlock j) (binaryProcess j) (binaryTask n j) b
    processes := fun j => if j < n then blockAddress (programBlock j) else 0
    current_process := blockAddress (programBlock 0)
    task_head := blockAddress (programBlock 0 + 3)
    task_tail := blockAddress (programBlock (n - 1) + 3)
    current_task := blockAddress (programBlock 0 + 3) }

def System.running (n : Nat) : System := ⟨Kernel.running n, 0, 0, false⟩

/-- The tasks of the first `n` programs. -/
def runningTasks (n : Nat) : List Nat :=
  (List.range n).map fun j => blockAddress (programBlock j + 3)

section Running

variable {n : Nat}

theorem running_objs {j b : Nat} (hj : j < n) (h₁ : programBlock j ≤ b)
    (h₂ : b < programBlock j + 1040) : (Kernel.running n).objs (blockAddress b) =
      programObjs (programBlock j) (binaryProcess j) (binaryTask n j) b := by
  unfold programBlock at h₁ h₂
  have hblock : (blockAddress b - 0x1000000) / 4096 = b := by
    unfold blockAddress
    omega
  have hindex : (b - 1) / 1040 = j := by omega
  unfold Kernel.running
  dsimp only
  rw [hblock, hindex, if_neg]
  unfold blockAddress
  omega

theorem running_task {j : Nat} (hj : j < n) :
    (Kernel.running n).objs (blockAddress (programBlock j + 3)) = some (.task (binaryTask n j)) := by
  rw [running_objs hj (by omega) (by omega)]
  unfold programObjs
  rw [if_neg (by omega), if_pos rfl]

theorem running_process {j : Nat} (hj : j < n) :
    (Kernel.running n).objs (blockAddress (programBlock j)) = some (.process (binaryProcess j)) := by
  rw [running_objs hj le_rfl (by omega)]
  exact if_pos rfl

theorem running_runsProgram (hn : 0 < n) :
    RunsProgram (Kernel.running n) (binaryTask n 0) (binaryProcess 0) :=
  ⟨running_task hn, running_process hn, rfl, Or.inr rfl⟩

/-- The process of program 0 made no memory request. -/
theorem running_terminateCurrent (hn : 0 < n) :
    terminateCurrent (Kernel.running n) =
      processTerminateRest (blockAddress (programBlock 0)) (Kernel.running n) := by
  have hread : deref Obj.task? (blockAddress (programBlock 0 + 3)) (Kernel.running n) =
      .ok (binaryTask n 0, Kernel.running n) := deref_ok (by decide) (running_task hn) rfl
  have hterminate := processTerminate_empty (by decide) (running_process hn) rfl (by decide)
    (running_task hn) rfl rfl
  have hcurrent : (reads Kernel.current_task : KM Nat) (Kernel.running n) =
      .ok (blockAddress (programBlock 0 + 3), Kernel.running n) := rfl
  unfold terminateCurrent
  rw [bind_of_ok hcurrent, bind_of_ok hread]
  exact hterminate

/-- The exit of program 0 comes back with another task. -/
theorem running_exits (hn : 0 < n) (e : Entry)
    (hrest : checks (inKernel (processTerminateRest (blockAddress (programBlock 0))) >>= fun _ =>
      (switchNext e : HM Nat)).run (System.running n) (fun r _ => !r.isOk) = true) :
    ∃ r s', (isr80hCommand9Exit e).run (System.running n) = .ok (.error r, s') := by
  have hkernel : onKernel terminateCurrent (System.running n) =
      onKernel (processTerminateRest (blockAddress (programBlock 0))) (System.running n) := by
    unfold onKernel
    rw [show (System.running n).kernel = Kernel.running n from rfl, running_terminateCurrent hn]
  have hrun : (isr80hCommand9Exit e).run (System.running n) =
      (inKernel (processTerminateRest (blockAddress (programBlock 0))) >>= fun _ =>
        (switchNext e : HM Nat)).run (System.running n) := by
    unfold isr80hCommand9Exit inKernel
    rw [run_bind, run_bind, run_stays, run_stays, hkernel]
  obtain ⟨r, s', hr, hok⟩ := Returns.of_checks hrest
  cases r with
  | error r => exact ⟨r, s', hrun.trans hr⟩
  | ok a => cases hok

end Running

theorem runningTasks_list_two : TaskList (Kernel.running 2) (runningTasks 2) where
  ne_zero := by decide
  links := ⟨⟨_, running_task (by decide), rfl, rfl⟩, ⟨_, running_task (by decide), rfl, rfl⟩, trivial⟩
  head := rfl
  tail := rfl
  current := Or.inr (by decide)

theorem runningTasks_list_three : TaskList (Kernel.running 3) (runningTasks 3) where
  ne_zero := by decide
  links := ⟨⟨_, running_task (by decide), rfl, rfl⟩, ⟨_, running_task (by decide), rfl, rfl⟩,
    ⟨_, running_task (by decide), rfl, rfl⟩, trivial⟩
  head := rfl
  tail := rfl
  current := Or.inr (by decide)

/-- Of two programs one exits, and the other one goes on. -/
theorem exit_runs_successor_iff_two : ∃ r s',
    (isr80hCommand9Exit Entry.command8).run (System.running 2) = .ok (.error r, s') ∧
      RunsSuccessor (runningTasks 2) (Kernel.running 2).current_task r s' := by
  obtain ⟨r, s', hrun⟩ := running_exits (n := 2) (by decide) Entry.command8 (by decide +kernel)
  exact ⟨r, s', hrun, (exit_runs_successor_iff (s := System.running 2) runningTasks_list_two
    (by decide) (running_runsProgram (by decide)) (Or.inl rfl) hrun).mpr (by decide)⟩

/-- Of three programs the first one exits, and the third one goes on. -/
theorem exit_skips_second : ∃ r s',
    (isr80hCommand9Exit Entry.command8).run (System.running 3) = .ok (.error r, s') ∧
      s'.kernel.current_task = blockAddress (programBlock 2 + 3) ∧
      ¬ RunsSuccessor (runningTasks 3) (Kernel.running 3).current_task r s' := by
  obtain ⟨r, s', hrun⟩ := running_exits (n := 3) (by decide) Entry.command8 (by decide +kernel)
  obtain ⟨hcur, -⟩ := @idtHandleException_leaves _ (System.running 3) Entry.command8 [] _ _ _ _
    runningTasks_list_three rfl (by decide) (running_runsProgram (by decide)) _ _ hrun
  refine ⟨r, s', hrun, hcur, fun h => ?_⟩
  have hsecond := hcur.symm.trans h.1
  exact absurd hsecond (by decide)

end PlumOS
