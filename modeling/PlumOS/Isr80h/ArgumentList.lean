import PlumOS.Isr80h.ArgumentStores
import PlumOS.Lib.Avoidance
import PlumOS.Lib.ListWalk
import PlumOS.Memory.HeapRequest
import PlumOS.Task.ProcessMallocFail
import PlumOS.Task.ProcessMemory

/-!
# Whether command 7 ends

`isr80h_command7_invoke_system_command` walks the list of arguments that a program built, in
`process_count_command_arguments` and again in `process_inject_arguments`. The second walk
takes a slot of the process for each node, and there are 1024 of them. The first one ends
only when the list does, and nothing checks that.

## Main definitions

- `Kernel.nextArgument`, `Kernel.ListEnds` — the list in memory
- `processInjectArgumentsWithin`, `isr80hCommand7Inject` — the two walks, for lists of any length
- `Command7Terminates` — what a caller expects

## Main results

- `isr80hCommand7InvokeSystemCommand_eq`, `isr80hCommand7_terminates_iff`
-/

namespace PlumOS

open StateExcept ListWalk

/-! ### The list -/

/-- `current->next`, in memory. -/
def Kernel.nextArgument (k : Kernel) (current : Nat) : Nat :=
  readWord k.mem (u32 ((current + commandArgumentSize : Nat) : Int))

/-- The list from `root` on gets to NULL. -/
def Kernel.ListEnds (k : Kernel) (root : Nat) : Prop := ∃ n, k.nextArgument^[n] root = 0

/-- The list from `root` on has `n` nodes. -/
def Kernel.ListLength (k : Kernel) (root n : Nat) : Prop :=
  Stops k.nextArgument (fun a => a = 0) root n

section Counting

variable {k : Kernel}

theorem Kernel.listEnds_iff {root : Nat} : k.ListEnds root ↔ ∃ n, k.ListLength root n :=
  @exists_stops Nat k.nextArgument (fun a => a = 0) root

/-- With enough fuel, a list of `n` nodes is counted. -/
theorem processCountCommandArguments_of_length : ∀ {n root fuel : Nat}, k.ListLength root n →
    n < fuel → processCountCommandArguments fuel root k = .ok (n, k)
  | n, root, 0, _, hlt => absurd hlt (Nat.not_lt_zero n)
  | 0, root, fuel + 1, h, _ => by
    obtain rfl : root = 0 := h.stops
    rfl
  | n + 1, root, fuel + 1, h, hlt => by
    obtain ⟨hroot, hnext⟩ := stops_succ_iff.mp h
    have hrun := processCountCommandArguments_of_length hnext (Nat.lt_of_succ_lt_succ hlt)
    unfold processCountCommandArguments
    rw [if_neg hroot]
    refine (bind_of_ok (a := k.nextArgument root) (t := k) rfl).trans ?_
    exact (bind_of_ok hrun).trans rfl

/-- A list that does not end is counted for ever. -/
theorem processCountCommandArguments_of_endless (fuel : Nat) : ∀ {root : Nat},
    ¬ k.ListEnds root → processCountCommandArguments fuel root k = .error .divergence := by
  induction fuel with
  | zero => exact fun _ => rfl
  | succ fuel ih =>
    intro root h
    have hroot : root ≠ 0 := fun h0 => h ⟨0, h0⟩
    have hnext : ¬ k.ListEnds (k.nextArgument root) := fun ⟨n, hn⟩ => h ⟨n + 1, hn⟩
    unfold processCountCommandArguments
    rw [if_neg hroot]
    refine (bind_of_ok (a := k.nextArgument root) (t := k) rfl).trans ?_
    exact bind_of_error (ih hnext)

/-- A list in memory has at most as many nodes as there are addresses. -/
theorem Kernel.ListLength.le {root n : Nat} (h : k.ListLength root n) (hroot : root < 0x100000000) :
    n ≤ 0x100000000 := by
  have hnode : ∀ j, k.nextArgument^[j] root < 0x100000000 := by
    intro j
    cases j with
    | zero => exact hroot
    | succ j =>
      rw [Function.iterate_succ_apply']
      exact readWord_lt _ _
  have hcard := h.le_card (S := Finset.range 0x100000000) fun j _ => Finset.mem_range.mpr (hnode j)
  rwa [Finset.card_range] at hcard

end Counting

/-! ### Requests do not run for ever -/

/-- Something is allocated in the heap. -/
def Kernel.HeapInUse (k : Kernel) : Prop := ∃ p n, k.Alive p n

/-- How many slots are left in the table of the process. -/
def freeSlots (k : Kernel) (process : Nat) : Nat :=
  match allocationsOf k process with
  | none => 0
  | some allocations =>
    ((Finset.range PLUMOS_MAX_PROGRAM_ALLOCATIONS).filter fun i => (allocations i).ptr = 0).card

/-- A process is as it was. -/
def NoNewProcess (k k' : Kernel) : Prop :=
  ∀ q pr, k'.objs q = some (.process pr) → k.objs q = some (.process pr)

instance : Std.Refl NoNewProcess := ⟨fun _ _ _ h => h⟩

instance : IsTrans Kernel NoNewProcess := ⟨fun _ _ _ h h' q pr h₃ => h q pr (h' q pr h₃)⟩

instance storeWords_noNewProcess (p : Nat) (w : Nat → Nat) :
    Within NoNewProcess (storeObj p (.words w)) where
  within k := by
    refine (storeObj_spec k p _).ensures.mono ?_
    intro _ k' hst q pr hq
    by_cases hqp : q = p
    · subst hqp
      rw [hst.self] at hq
      cases hq
    · rwa [hst.other q hqp] at hq

instance pagingSet_noNewProcess (directory virt val : Nat) :
    Within NoNewProcess (pagingSet directory virt val) := by
  unfold pagingSet
  infer_instance

instance pagingMapRange_noNewProcess (chunk flags fuel virt phys : Nat) :
    Within NoNewProcess (pagingMapRange chunk flags fuel virt phys) := by
  induction fuel generalizing virt phys with
  | zero => exact inferInstanceAs (Within _ (pure 0))
  | succ fuel ih =>
    unfold pagingMapRange pagingMap
    infer_instance

instance pagingMapTo_noNewProcess (chunk virt phys phys_end flags : Nat) :
    Within NoNewProcess (pagingMapTo chunk virt phys phys_end flags) := by
  unfold pagingMapTo
  infer_instance

theorem Kzalloced.noNewProcess {k k' : Kernel} {size ptr : Nat} (h : Kzalloced k size ptr k') :
    NoNewProcess k k' := by
  intro q pr hq
  rw [h.eq] at hq
  dsimp only at hq
  split at hq
  · cases hq
  · exact hq

instance deref_neverFails {α : Type} (sel : Obj → Option α) (p : Nat) :
    NeverFails Fault.divergence (deref sel p) where
  avoids k := by
    unfold Avoids deref pointerFault
    split
    · nofun
    · split
      · nofun
      · split
        · nofun
        · nofun

instance storeObj_neverFails (p : Nat) (o : Obj) : NeverFails Fault.divergence (storeObj p o) :=
  inferInstanceAs (NeverFails _ (modifies _))

instance storeBytes_neverFails (p : Nat) (bytes : List UInt8) :
    NeverFails Fault.divergence (storeBytes p bytes) :=
  inferInstanceAs (NeverFails _ (modifies _))

instance modifyProcess_neverFails (p : Nat) (f : Process → Process) :
    NeverFails Fault.divergence (modifyProcess p f) := by
  unfold modifyProcess
  infer_instance

instance pagingSet_neverFails (directory virt val : Nat) :
    NeverFails Fault.divergence (pagingSet directory virt val) := by
  unfold pagingSet
  infer_instance

instance pagingMapRange_neverFails (chunk flags fuel virt phys : Nat) :
    NeverFails Fault.divergence (pagingMapRange chunk flags fuel virt phys) := by
  induction fuel generalizing virt phys with
  | zero => exact inferInstanceAs (NeverFails _ (pure 0))
  | succ fuel ih =>
    unfold pagingMapRange pagingMap
    infer_instance

instance pagingMapTo_neverFails (chunk virt phys phys_end flags : Nat) :
    NeverFails Fault.divergence (pagingMapTo chunk virt phys phys_end flags) := by
  unfold pagingMapTo
  infer_instance

instance memsetZero_neverFails (ptr size : Nat) :
    NeverFails Fault.divergence (memsetZero ptr size) where
  avoids k := by
    unfold Avoids memsetZero
    split
    · nofun
    · nofun

instance strncpyKernel_neverFails (dest src fuel i : Nat) :
    NeverFails Fault.divergence (strncpyKernel dest src fuel i) := by
  induction fuel generalizing i with
  | zero => exact inferInstanceAs (NeverFails _ (storeBytes _ _))
  | succ fuel ih =>
    unfold strncpyKernel
    infer_instance

instance commandArgumentNext_neverFails (current : Nat) :
    NeverFails Fault.divergence (commandArgumentNext current) :=
  inferInstanceAs (NeverFails _ (reads _))

/-- Only a request for nothing, in an empty heap, would run for ever. -/
theorem heapMalloc_avoids {k : Kernel} (h : k.HeapInUse) (size : Nat) :
    heapMalloc k.heap size ≠ .error .divergence := by
  obtain ⟨p, n, b, rfl, hpos, hin, hmarked⟩ := h
  unfold heapMalloc
  rcases Nat.eq_zero_or_pos (heapTotalBlocks size) with h0 | hblocks
  · rw [h0]
    rcases heapMallocBlcoks_zero k.heap with ⟨-, hrun⟩ | ⟨b', -, -, hfree, -, hcases⟩
    · rw [hrun]
      rintro ⟨⟩
    rcases hcases with ⟨rfl, -⟩ | ⟨_, -, -, hrun⟩
    · exact absurd (hfree b (by omega) (by change b < 0 + (25600 - 0); omega))
        (hmarked.not_free le_rfl (by omega))
    · rw [hrun]
      rintro ⟨⟩
  · unfold heapMallocBlcoks heapMarkBlocksTaken
    dsimp only
    split
    · rintro ⟨⟩
    · rw [if_neg (by omega)]
      rintro ⟨⟩

theorem kzalloc_avoids {k : Kernel} (h : k.HeapInUse) (size : Nat) :
    Avoids Fault.divergence (kzalloc size) k := by
  refine Avoids.bind (R := fun _ _ => True) ?_ (fun _ _ _ => trivial) fun ptr k' _ => ?_
  · have hmalloc := heapMalloc_avoids h size
    unfold Avoids kmalloc
    cases hrun : heapMalloc k.heap size with
    | error f =>
      rintro ⟨⟩
      exact hmalloc hrun
    | ok r => rintro ⟨⟩
  · split
    · exact Avoids.of_ok rfl
    · exact NeverFails.run _ (do
        memsetZero ptr size
        pure ptr) k'

theorem Kernel.HeapInUse.congr {k k' : Kernel} (h : k.HeapInUse)
    (hk : k'.heap_entries = k.heap_entries) : k'.HeapInUse := by
  obtain ⟨p, n, ha⟩ := h
  exact ⟨p, n, ha.congr hk⟩

/-- A request leaves the heap in use, and takes a slot when it succeeds. -/
theorem processMalloc_takesSlot {k : Kernel} (h : k.HeapInUse) (process size : Nat) :
    Ensures (processMalloc process size) k fun ptr k' => k'.HeapInUse ∧
      (ptr ≠ 0 → freeSlots k' process < freeSlots k process) := by
  refine .bind (kzalloc_spec k size) ?_
  rintro ptr k₁ (⟨rfl, rfl⟩ | halloc)
  · rw [if_pos rfl]
    exact .pure ⟨h, fun h0 => absurd rfl h0⟩
  obtain ⟨q, n, hq⟩ := h
  have hused : k₁.HeapInUse := ⟨q, n, halloc.alive hq⟩
  rw [if_neg halloc.ne_zero]
  refine .bind (deref_spec _ _ _) ?_
  rintro p _ ⟨rfl, -, hp⟩
  have hbefore := halloc.noNewProcess _ _ (Obj.process?_eq_some.mp hp)
  cases hindex : processFindFreeAllocationIndex p.allocations with
  | none => exact .pure ⟨hused, fun h0 => absurd rfl h0⟩
  | some index =>
    obtain ⟨hlt, hfree⟩ := processFindFreeAllocationIndex_eq_some hindex
    dsimp only
    refine .bind (deref_spec _ _ _) ?_
    rintro t _ ⟨rfl, -, -⟩
    refine .bind ((pagingMapTo_keepsHeap _ _ _ _ _ k₁).and
      (Within.ensures (R := NoNewProcess) _ k₁)) ?_
    rintro res k₂ ⟨hheap, hkeep⟩
    split
    · exact .pure ⟨hused.congr hheap, fun h0 => absurd rfl h0⟩
    refine .bind (R := fun _ k' => k'.HeapInUse ∧ freeSlots k' process < freeSlots k process)
      (.bind (deref_spec _ _ _) ?_) fun _ _ h' => .pure ⟨h'.1, fun _ => h'.2⟩
    rintro p' _ ⟨rfl, -, hp'⟩
    obtain rfl : p' = p := by
      cases (Obj.process?_eq_some.mp hp).symm.trans (hkeep _ _ (Obj.process?_eq_some.mp hp'))
      rfl
    refine (storeObj_spec _ _ _).ensures.mono fun _ k' hst => ?_
    refine ⟨hused.congr (hst.heap_entries.trans hheap), ?_⟩
    unfold freeSlots allocationsOf
    rw [hst.self, hbefore]
    -- the slot that was found is not free any more
    refine Finset.card_lt_card (Finset.ssubset_iff_of_subset ?_ |>.mpr ⟨index, ?_, ?_⟩)
    · intro i hi
      simp only [Finset.mem_filter, Finset.mem_range] at hi ⊢
      refine ⟨hi.1, ?_⟩
      by_cases heq : i = index
      · rwa [heq]
      · have := hi.2
        rwa [Function.update_of_ne heq] at this
    · exact Finset.mem_filter.mpr ⟨Finset.mem_range.mpr hlt, hfree⟩
    · intro hmem
      have hzero := (Finset.mem_filter.mp hmem).2
      dsimp only at hzero
      rw [Function.update_self] at hzero
      exact halloc.ne_zero hzero

theorem processMalloc_avoids {k : Kernel} (h : k.HeapInUse) (process size : Nat) :
    Avoids Fault.divergence (processMalloc process size) k := by
  refine Avoids.bind (R := fun _ _ => True) (kzalloc_avoids h size) (fun _ _ _ => trivial) ?_
  intro ptr k₁ _
  split
  · exact Avoids.of_ok rfl
  refine Avoids.bind (R := fun _ _ => True) (NeverFails.run _ _ _) (fun _ _ _ => trivial) ?_
  intro p k₂ _
  split
  · exact Avoids.of_ok rfl
  · exact NeverFails.run _ (do
      let t ← deref Obj.task? p.task
      let res ← pagingMapTo _ _ _ _ _
      if res < 0 then _ else _) k₂

/-- Only memory changes. -/
def OnlyMemory (k k' : Kernel) : Prop := k'.objs = k.objs ∧ k'.heap_entries = k.heap_entries

instance : Std.Refl OnlyMemory := ⟨fun _ => ⟨rfl, rfl⟩⟩

instance : IsTrans Kernel OnlyMemory :=
  ⟨fun _ _ _ h h' => ⟨h'.1.trans h.1, h'.2.trans h.2⟩⟩

instance storeBytes_onlyMemory (p : Nat) (bytes : List UInt8) :
    Within OnlyMemory (storeBytes p bytes) := .modifies fun _ => ⟨rfl, rfl⟩

instance strncpyKernel_onlyMemory (dest src fuel i : Nat) :
    Within OnlyMemory (strncpyKernel dest src fuel i) := by
  induction fuel generalizing i with
  | zero => exact inferInstanceAs (Within _ (storeBytes _ _))
  | succ fuel ih =>
    unfold strncpyKernel
    infer_instance

/-- The second walk takes a slot for each node. -/
theorem processInjectLoop_avoids (process argv : Nat) : ∀ {fuel current i : Nat} {k : Kernel},
    k.HeapInUse → freeSlots k process < fuel →
    Avoids Fault.divergence (processInjectLoop process argv fuel current i) k
  | 0, _, _, _, _, hlt => absurd hlt (Nat.not_lt_zero _)
  | fuel + 1, current, i, k, h, hlt => by
    unfold processInjectLoop
    split
    · exact Avoids.of_ok rfl
    refine Avoids.bind (processMalloc_avoids h _ _) (processMalloc_takesSlot h _ _) ?_
    rintro argument_str k₁ ⟨hused₁, hslots⟩
    split
    · exact Avoids.of_ok rfl
    next hne =>
    have hslots₁ := hslots hne
    have hrest : ∀ {k₂}, OnlyMemory k₁ k₂ → k₂.HeapInUse ∧ freeSlots k₂ process < fuel := by
      rintro k₂ ⟨hobjs, hheap⟩
      refine ⟨hused₁.congr hheap, ?_⟩
      have hsame : freeSlots k₂ process = freeSlots k₁ process := by
        unfold freeSlots allocationsOf
        rw [hobjs]
      omega
    refine Avoids.bind (NeverFails.run _ _ _) (Within.ensures (R := OnlyMemory) _ k₁) ?_
    intro _ k₂ h₂
    refine Avoids.bind (NeverFails.run _ _ _) (Within.ensures (R := OnlyMemory) _ k₂) ?_
    intro _ k₃ h₃
    refine Avoids.bind (R := fun _ k' => k₃ = k') (NeverFails.run _ _ _) (.reads rfl) ?_
    rintro next _ rfl
    obtain ⟨hused₃, hlt₃⟩ := hrest (IsTrans.trans _ _ _ h₂ h₃)
    exact processInjectLoop_avoids process argv hused₃ hlt₃

/-! ### The command -/

/-- `process_inject_arguments`, for lists of fewer than `fuel` nodes. -/
def processInjectArgumentsWithin (fuel process root_argument : Nat) : KM Int := do
  let argc ← processCountCommandArguments fuel root_argument
  if argc = 0 then pure (- EIO)
  else do
    let argv ← processMalloc process (u32 ((4 * argc : Nat) : Int))
    let res := if argv = 0 then -ENOMEM else 0
    let complete ← processInjectLoop process argv fuel root_argument 0
    if !complete then pure (res - ENOMEM)
    else do
      modifyProcess process fun p => { p with arguments := ⟨i32 argc, argv⟩ }
      pure res

theorem processInjectArguments_eq :
    processInjectArguments = processInjectArgumentsWithin commandArgumentFuel := rfl

/-- `isr80h_command7_invoke_system_command` up to the arguments: what it returns, or the
process and the list. -/
def isr80hCommand7Loaded (e : Entry) : HM (Except Nat (Nat × Nat)) := do
  let argument ← stackItem e 0
  let task ← inKernel taskCurrent
  let arguments ← inKernel (taskVirtualAddressToPhysical task argument)
  let k ← inKernel (reads id)
  if arguments = 0 ∨ k.mem arguments = 0x00 then pure (.error (ERROR (-EINVARG)))
  else do
    let path ← inKernel (programPath (readString k.mem arguments (PLUMOS_MAX_PATH - 1)))
    let r ← inKernel (processLoadSwitch path)
    if r.1 < 0 then pure (.error (ERROR r.1))
    else pure (.ok (r.2, arguments))

/-- The rest of the command. -/
def isr80hCommand7Inject (fuel : Nat) (e : Entry) (process arguments : Nat) : HM Nat := do
  let res ← inKernel (processInjectArgumentsWithin fuel process arguments)
  if res < 0 then pure (ERROR res)
  else startProcess e process

theorem isr80hCommand7InvokeSystemCommand_eq (e : Entry) :
    isr80hCommand7InvokeSystemCommand e = (do
      match ← isr80hCommand7Loaded e with
      | .error res => pure res
      | .ok (process, arguments) => isr80hCommand7Inject commandArgumentFuel e process arguments) := by
  unfold isr80hCommand7InvokeSystemCommand isr80hCommand7Loaded
  rw [processInjectArguments_eq]
  simp only [bind_assoc]
  refine bind_congr fun argument => bind_congr fun task => bind_congr fun arguments =>
    bind_congr fun k => ?_
  split
  · rw [pure_bind]
  · rw [bind_assoc]
    refine bind_congr fun path => ?_
    rw [bind_assoc]
    refine bind_congr fun r => ?_
    split
    · rw [pure_bind]
    · rw [pure_bind]
      rfl

theorem inKernel_avoids_iff {α : Type} {m : KM α} {s : System} {f : Fault} :
    Avoids f (inKernel m).run s ↔ Avoids f m s.kernel := by
  unfold inKernel
  rw [avoids_stays]
  unfold Avoids onKernel
  cases m s.kernel with
  | error f' =>
    refine not_congr ⟨?_, ?_⟩
    · rintro ⟨⟩
      rfl
    · rintro ⟨⟩
      rfl
  | ok r => exact iff_of_true nofun nofun

/-- What is expected of command 7: counting the arguments of the process, copying them, and
what the command does then come to an end, after some number of nodes. -/
structure Command7Terminates (e : Entry) (process root : Nat) (s : System) : Prop where
  counts : ∃ fuel, Avoids .divergence (processCountCommandArguments fuel root) s.kernel
  injects : ∃ fuel, Avoids .divergence (processInjectArgumentsWithin fuel process root) s.kernel
  goesOn : ∃ fuel, Avoids .divergence (isr80hCommand7Inject fuel e process root).run s

section Command7

variable {k : Kernel} {process root : Nat}

theorem processInjectArgumentsWithin_avoids {n fuel : Nat} (hused : k.HeapInUse)
    (h : k.ListLength root n) (hn : n < fuel) (hslots : PLUMOS_MAX_PROGRAM_ALLOCATIONS < fuel) :
    Avoids Fault.divergence (processInjectArgumentsWithin fuel process root) k := by
  have hcount := processCountCommandArguments_of_length h hn
  refine Avoids.bind (R := fun argc k' => k = k' ∧ argc = n) (.of_ok hcount) ?_ ?_
  · intro argc k' hrun
    cases hcount.symm.trans hrun
    exact ⟨rfl, rfl⟩
  rintro argc _ ⟨rfl, rfl⟩
  split
  · exact Avoids.of_ok rfl
  refine Avoids.bind (processMalloc_avoids hused _ _) (processMalloc_takesSlot hused _ _) ?_
  rintro argv k₁ ⟨hused₁, -⟩
  have hfree : freeSlots k₁ process < fuel := by
    refine lt_of_le_of_lt ?_ hslots
    unfold freeSlots
    split
    · exact Nat.zero_le _
    · refine (Finset.card_filter_le _ _).trans_eq ?_
      exact Finset.card_range _
  refine Avoids.bind (R := fun _ _ => True) (processInjectLoop_avoids process argv hused₁ hfree)
    (fun _ _ _ => trivial) ?_
  intro complete k₂ _
  split
  · exact Avoids.of_ok rfl
  · refine Avoids.bind (R := fun _ _ => True) (NeverFails.run _ _ _) (fun _ _ _ => trivial) ?_
    exact fun _ _ _ => Avoids.of_ok rfl

theorem startProcess_avoids {α : Type} (e : Entry) (process : Nat) (s : System) :
    Avoids Fault.divergence (startProcess e process : HM α).run s := by
  have hderef : ∀ {β : Type} (sel : Obj → Option β) (p : Nat) (s : System),
      Avoids Fault.divergence (inKernel (deref sel p)).run s := fun sel p s =>
    inKernel_avoids_iff.mpr (NeverFails.run _ _ _)
  refine Avoids.run_bind (hderef _ _ _) fun p s₁ => ?_
  refine Avoids.run_bind ?_ fun _ s₂ => ?_
  · unfold taskSwitch pagingSwitch
    exact inKernel_avoids_iff.mpr (NeverFails.run _ _ _)
  refine Avoids.run_bind (hderef _ _ _) fun p s₃ => ?_
  exact Avoids.run_bind (hderef _ _ _) fun t s₄ => avoids_leaves

/-- Whatever is in memory, so whatever list a program builds: the command comes to an end
exactly when the list does. -/
theorem isr80hCommand7_terminates_iff (e : Entry) {s : System} {n : Nat}
    (hprocess : s.kernel.Alive process n) :
    Command7Terminates e process root s ↔ s.kernel.ListEnds root := by
  have hused : s.kernel.HeapInUse := ⟨process, n, hprocess⟩
  constructor
  · rintro ⟨⟨fuel, hcounts⟩, -, -⟩
    by_contra hno
    exact hcounts (processCountCommandArguments_of_endless fuel hno)
  · intro hends
    obtain ⟨m, hlen⟩ := Kernel.listEnds_iff.mp hends
    have hinject : Avoids Fault.divergence
        (processInjectArgumentsWithin (m + 1025) process root) s.kernel :=
      processInjectArgumentsWithin_avoids hused hlen (by omega)
        (by unfold PLUMOS_MAX_PROGRAM_ALLOCATIONS; omega)
    refine ⟨⟨m + 1, ?_⟩, ⟨m + 1025, hinject⟩, ⟨m + 1025, ?_⟩⟩
    · exact .of_ok (processCountCommandArguments_of_length hlen (Nat.lt_succ_self m))
    · refine Avoids.run_bind (inKernel_avoids_iff.mpr hinject) fun res s₁ => ?_
      split
      · exact Avoids.of_ok rfl
      · exact startProcess_avoids e process s₁

/-- The fuel of the command is enough for every list that ends. -/
theorem processInjectArguments_avoids_iff (hused : k.HeapInUse) (hroot : root < 0x100000000) :
    Avoids Fault.divergence (processInjectArguments process root) k ↔ k.ListEnds root := by
  rw [processInjectArguments_eq]
  constructor
  · intro h
    by_contra hno
    exact Avoids.left h (processCountCommandArguments_of_endless _ hno)
  · intro hends
    obtain ⟨m, hlen⟩ := Kernel.listEnds_iff.mp hends
    have hm := hlen.le hroot
    refine processInjectArgumentsWithin_avoids hused hlen ?_ ?_
    · unfold commandArgumentFuel
      omega
    · unfold PLUMOS_MAX_PROGRAM_ALLOCATIONS commandArgumentFuel
      omega

end Command7

/-! ### Two lists -/

/-- Two programs run; the node at 0x3fe000, on the stack of the first, has the argument `a`
and is followed by `next`. -/
def System.argumentNode (next : Nat) : System :=
  ⟨{ Kernel.twoPrograms with
      mem := writeBytes (writeBytes (fun _ => 0) 0x3fe000 [0x61]) 0x3fe200 (wordBytes next) },
    0, 0, false⟩

theorem argumentNode_alive (next : Nat) :
    (System.argumentNode next).kernel.Alive (blockAddress 1277) 3 := by
  refine ⟨1277, rfl, by decide, by decide, fun j hj => ?_⟩
  rcases j with _ | _ | _ | j
  · rfl
  · rfl
  · rfl
  · omega

/-- A list of one argument. -/
theorem isr80hCommand7_terminates_iff_one :
    Command7Terminates Entry.command8 (blockAddress 1277) 0x3fe000 (System.argumentNode 0) :=
  (isr80hCommand7_terminates_iff Entry.command8 (argumentNode_alive 0)).mpr ⟨1, by decide⟩

/-- The node points to itself: the kernel counts for ever. -/
theorem isr80hCommand7_endless :
    ∃ (e : Entry) (s : System) (process root n : Nat), s.kernel.Alive process n ∧
      s.kernel.nextArgument root = root ∧ root ≠ 0 ∧ ¬ Command7Terminates e process root s := by
  have hnext : (System.argumentNode 0x3fe000).kernel.nextArgument 0x3fe000 = 0x3fe000 := by decide
  refine ⟨Entry.command8, System.argumentNode 0x3fe000, blockAddress 1277, 0x3fe000, 3,
    argumentNode_alive _, hnext, by decide, ?_⟩
  rintro ⟨⟨fuel, hcounts⟩, -, -⟩
  refine hcounts (processCountCommandArguments_of_endless fuel ?_)
  rintro ⟨n, hn⟩
  rw [Function.iterate_fixed hnext] at hn
  exact absurd hn (by decide)

end PlumOS
