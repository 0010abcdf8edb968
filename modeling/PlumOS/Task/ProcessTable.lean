import PlumOS.Lib.LabelledRun
import PlumOS.Task.LiveProcess
import PlumOS.Task.LoadedProgram

/-!
# The table of processes over time

Runs of the calls that load processes, give them memory and arguments and end them, in any
order and whatever they return. In every state the processes in the table have memory of
their own, and a call for one of them leaves the memory of the others as it is. What no
call gives back is the memory of `struct process` itself.

## Main definitions

- `ProcessEvent`, `ProcessStep` — the calls, with what they return
- `TableSound` — the table, with the memory of the process in each slot
- `KeepsOthers` — what a call leaves of the processes that it is not for

## Main results

- `process_run_sound`, `process_run_isolated`, `process_run_loads`
-/

namespace PlumOS

open StateExcept LabelledRun

/-! ### The calls -/

/-- A call, with what it returns. -/
inductive ProcessEvent
  | load (filename : List UInt8) (res : Int)
  | loadSwitch (filename : List UInt8) (res : Int)
  | malloc (process size ptr : Nat)
  | free (process ptr : Nat)
  | inject (process root_argument : Nat) (res : Int)
  | terminate (process : Nat) (res : Int)

/-- The process a call is for. A load is for none that is there. -/
def ProcessEvent.process : ProcessEvent → Nat
  | .load .. => 0
  | .loadSwitch .. => 0
  | .malloc process .. => process
  | .free process .. => process
  | .inject process .. => process
  | .terminate process .. => process

/-- The process is in the table. -/
def Kernel.HasProcess (k : Kernel) (process : Nat) : Prop :=
  process ≠ 0 ∧ ∃ slot, k.processes slot = process

/-- A call that returns. All but the loads are made for processes in the table. A request is
for something, as for nothing `process_malloc` gives out a block that stays free; and a list
of arguments has fewer nodes than memory has words. -/
inductive ProcessStep : Kernel → ProcessEvent → Kernel → Prop
  | load {k k' : Kernel} {filename : List UInt8} {r : Int × Nat} :
      processLoad filename k = .ok (r, k') → ProcessStep k (.load filename r.1) k'
  | loadSwitch {k k' : Kernel} {filename : List UInt8} {r : Int × Nat} :
      processLoadSwitch filename k = .ok (r, k') → ProcessStep k (.loadSwitch filename r.1) k'
  | malloc {k k' : Kernel} {process size ptr : Nat} : k.HasProcess process → 1 ≤ size →
      processMalloc process size k = .ok (ptr, k') → ProcessStep k (.malloc process size ptr) k'
  | free {k k' : Kernel} {process ptr : Nat} : k.HasProcess process →
      processFree process ptr k = .ok (⟨⟩, k') → ProcessStep k (.free process ptr) k'
  | inject {k k' : Kernel} {process root_argument : Nat} {res : Int} : k.HasProcess process →
      (∀ n, k.ListLength root_argument n → n < 0x40000000) →
      processInjectArguments process root_argument k = .ok (res, k') →
      ProcessStep k (.inject process root_argument res) k'
  | terminate {k k' : Kernel} {process : Nat} {res : Int} : k.HasProcess process →
      processTerminate process k = .ok (res, k') → ProcessStep k (.terminate process res) k'

/-! ### The table -/

/-- The memory of the process in `slot`, with `S` for what it was loaded with. -/
def Kernel.slotMemory (k : Kernel) (S : Set Nat) (slot : Nat) : Set Nat :=
  { q | k.processes slot ≠ 0 ∧ ∃ p, k.objs (k.processes slot) = some (.process p) ∧
    q ∈ p.memory (k.processes slot) S }

/-- The process in each slot has the number of the slot, and its own memory. -/
structure TableSound (own : Nat → Set Nat) (k : Kernel) : Prop where
  tidy : k.Tidy
  slot_lt : ∀ slot, k.processes slot ≠ 0 → slot < PLUMOS_MAX_PROCESSES
  live : ∀ slot, k.processes slot ≠ 0 → ∃ p, LiveProcess (own slot) k (k.processes slot) slot p
  apart : ∀ slot slot', slot ≠ slot' →
    Disjoint (k.slotMemory (own slot) slot) (k.slotMemory (own slot') slot')
  current : k.current_process = 0 ∨ k.HasProcess k.current_process

/-- The allocations `M` are still there, with the same structures in them but for the links
between tasks. -/
def Undisturbed (M : Set Nat) (k k' : Kernel) : Prop :=
  ∀ q ∈ M, k'.Held q ∧ SameButLinks (k.objs q) (k'.objs q)

section Table

variable {own : Nat → Set Nat} {k₀ k k' : Kernel} {slot process : Nat} {p : Process} {S : Set Nat}

theorem Kernel.slotMemory_eq (hne : k.processes slot ≠ 0)
    (hobj : k.objs (k.processes slot) = some (.process p)) :
    k.slotMemory S slot = p.memory (k.processes slot) S := by
  ext q
  constructor
  · rintro ⟨-, p', hp', hq⟩
    rw [hobj] at hp'
    cases hp'
    exact hq
  · exact fun hq => ⟨hne, p, hobj, hq⟩

theorem Kernel.slotMemory_empty (h0 : k.processes slot = 0) : k.slotMemory S slot = ∅ := by
  ext q
  exact iff_of_false (fun hq => hq.1 h0) (Set.notMem_empty q)

/-- What is held, and does not belong to the process in `slot`. -/
def Kernel.beside (k : Kernel) (S : Set Nat) (slot : Nat) : Set Nat :=
  { q | k.Held q ∧ q ∉ k.slotMemory S slot }

theorem Kernel.beside_guards (h : k.Tidy) : Guards (k.beside S slot) k := ⟨h, fun _ hq => hq.1⟩

theorem TableSound.memory_held (h : TableSound own k) {q : Nat} (hq : q ∈ k.slotMemory (own slot) slot) :
    k.Held q := by
  obtain ⟨p, hp⟩ := h.live slot hq.1
  rw [Kernel.slotMemory_eq hq.1 hp.obj] at hq
  exact hp.guards.held q hq

theorem TableSound.slotMemory_subset (h : TableSound own k) {slot' : Nat} (hne : slot' ≠ slot) :
    k.slotMemory (own slot') slot' ⊆ k.beside (own slot) slot :=
  fun _ hq => ⟨h.memory_held hq, fun hmem => Set.disjoint_left.mp (h.apart slot' slot hne) hq hmem⟩

/-- A process is in one slot only. -/
theorem TableSound.slot_unique (h : TableSound own k) {slot' : Nat} (hne : k.processes slot ≠ 0)
    (heq : k.processes slot' = k.processes slot) : slot' = slot := by
  obtain ⟨p, hp⟩ := h.live slot hne
  obtain ⟨p', hp'⟩ := h.live slot' (heq ▸ hne)
  have hobj := hp'.obj
  rw [heq, hp.obj] at hobj
  cases hobj
  exact hp'.id.symm.trans hp.id

theorem LiveProcess.congr (h : LiveProcess S k process slot p) (he : k'.heap_entries = k.heap_entries)
    (ho : k'.objs = k.objs) : LiveProcess S k' process slot p where
  guards := ⟨h.guards.tidy.congr he, fun q hq => (h.guards.held q hq).congr he⟩
  obj := ho ▸ h.obj
  notMem := h.notMem
  apart := h.apart
  id := h.id
  empty := h.empty
  program := by
    unfold OwnsProgram OwnsElf
    rw [ho]
    exact h.program
  stack := h.stack
  task_mem := h.task_mem
  task := by
    unfold OwnsTask HoldsSpace
    rw [ho]
    exact h.task

/-- Whoever else comes and goes in the table, the process stays as it was. -/
theorem LiveProcess.undisturbed (h : LiveProcess S k process slot p) (ht : k'.Tidy)
    (hk : Undisturbed (p.memory process S) k k') : LiveProcess S k' process slot p := by
  have hstays : Stays (p.memory process S) k
      { k' with processes := k.processes, current_process := k.current_process } :=
    ⟨⟨ht.congr rfl, fun q hq => (hk q hq).1.congr rfl⟩, fun q hq => (hk q hq).2, rfl, rfl⟩
  exact (h.stays hstays).congr rfl rfl

theorem Stays.undisturbed {M : Set Nat} (h : Stays M k k') : Undisturbed M k k' :=
  fun q hq => ⟨h.guards.held q hq, h.objs q hq⟩

theorem Undisturbed.mono {M M' : Set Nat} (h : Undisturbed M k k') (hM : M' ⊆ M) :
    Undisturbed M' k k' := fun q hq => h q (hM hq)

/-! ### A call for one slot -/

/-- The processes in the other slots stay where and as they were. -/
def OtherSlots (own : Nat → Set Nat) (slot : Nat) (k k' : Kernel) : Prop :=
  ∀ slot', slot' ≠ slot → k'.processes slot' = k.processes slot' ∧
    Undisturbed (k.slotMemory (own slot') slot') k k'

theorem TableSound.other_live (h : TableSound own k) (ht : k'.Tidy) (ho : OtherSlots own slot k k')
    {slot' : Nat} (hne : slot' ≠ slot) (hocc : k.processes slot' ≠ 0) :
    ∃ p, k.objs (k.processes slot') = some (.process p) ∧
      LiveProcess (own slot') k' (k.processes slot') slot' p := by
  obtain ⟨p, hp⟩ := h.live slot' hocc
  have hk := (ho slot' hne).2
  rw [Kernel.slotMemory_eq hocc hp.obj] at hk
  exact ⟨p, hp.obj, hp.undisturbed ht hk⟩

theorem TableSound.other_memory (h : TableSound own k) (ht : k'.Tidy)
    (ho : OtherSlots own slot k k') {slot' : Nat} (hne : slot' ≠ slot) :
    k'.slotMemory (own slot') slot' = k.slotMemory (own slot') slot' := by
  have hprocess := (ho slot' hne).1
  by_cases hocc : k.processes slot' = 0
  · rw [Kernel.slotMemory_empty hocc, Kernel.slotMemory_empty (hprocess.trans hocc)]
  · obtain ⟨p, hp, hp'⟩ := h.other_live ht ho hne hocc
    rw [Kernel.slotMemory_eq hocc hp,
      Kernel.slotMemory_eq (by rwa [hprocess]) (by rw [hprocess]; exact hp'.obj), hprocess]

/-- What has to be shown for the slot that a call is for. -/
theorem TableSound.changed (h : TableSound own k) (ht : k'.Tidy) (ho : OtherSlots own slot k k')
    (hslot : k'.processes slot ≠ 0 → slot < PLUMOS_MAX_PROCESSES ∧
      ∃ p, LiveProcess S k' (k'.processes slot) slot p)
    (hapart : ∀ slot', slot' ≠ slot →
      Disjoint (k'.slotMemory S slot) (k.slotMemory (own slot') slot'))
    (hcur : k'.current_process = 0 ∨ k'.HasProcess k'.current_process) :
    TableSound (Function.update own slot S) k' where
  tidy := ht
  slot_lt slot' hocc := by
    by_cases hne : slot' = slot
    · subst hne
      exact (hslot hocc).1
    · rw [(ho slot' hne).1] at hocc
      exact h.slot_lt slot' hocc
  live slot' hocc := by
    by_cases hne : slot' = slot
    · subst hne
      rw [Function.update_self]
      exact (hslot hocc).2
    · rw [(ho slot' hne).1] at hocc ⊢
      rw [Function.update_of_ne hne]
      obtain ⟨p, -, hp⟩ := h.other_live ht ho hne hocc
      exact ⟨p, hp⟩
  apart := by
    -- one of the two is the slot of the call, or both are as they were
    have hone : ∀ slot', slot' ≠ slot → Disjoint (k'.slotMemory S slot)
        (k'.slotMemory (own slot') slot') := fun slot' hne => by
      rw [h.other_memory ht ho hne]
      exact hapart slot' hne
    intro slot₁ slot₂ hne
    by_cases h₁ : slot₁ = slot
    · subst h₁
      rw [Function.update_self, Function.update_of_ne hne.symm]
      exact hone slot₂ hne.symm
    rw [Function.update_of_ne h₁]
    by_cases h₂ : slot₂ = slot
    · subst h₂
      rw [Function.update_self]
      exact (hone slot₁ h₁).symm
    · rw [Function.update_of_ne h₂, h.other_memory ht ho h₁, h.other_memory ht ho h₂]
      exact h.apart slot₁ slot₂ hne
  current := hcur

/-- A call that works for the process in `slot` alone. -/
theorem TableSound.worked (h : TableSound own k) (hocc : k.processes slot ≠ 0)
    (hk : Intact (k.beside (own slot) slot) k k')
    (hl : LeavesLive (k.beside (own slot) slot) (own slot) (k.processes slot) slot k') :
    OtherSlots own slot k k' ∧ TableSound own k' := by
  obtain ⟨p, hp, hb⟩ := hl
  have hprocesses := hk.lists.processes
  have ho : OtherSlots own slot k k' := fun slot' hne =>
    ⟨by rw [hprocesses], hk.stays.undisturbed.mono (h.slotMemory_subset hne)⟩
  have hsame : Function.update own slot (own slot) = own := Function.update_eq_self ..
  refine ⟨ho, hsame ▸ h.changed hk.guards.tidy ho (fun _ => ⟨h.slot_lt slot hocc, p, ?_⟩) ?_ ?_⟩
  · rw [hprocesses]
    exact hp
  · intro slot' hne
    rw [Kernel.slotMemory_eq (by rwa [hprocesses]) (by rw [hprocesses]; exact hp.obj), hprocesses]
    exact Set.disjoint_left.mpr fun q hq hmem => hb.apart q hq (h.slotMemory_subset hne hmem)
  · unfold Kernel.HasProcess
    rw [hprocesses, hk.lists.current_process]
    exact h.current

/-- The end of the process in `slot`. -/
theorem TableSound.ended (h : TableSound own k)
    (hk : Unlinked (k.beside (own slot) slot) k slot (k.processes slot) k') :
    OtherSlots own slot k k' ∧ TableSound own k' := by
  have hcleared : k'.processes slot = 0 := by rw [hk.processes, Function.update_self]
  have ho : OtherSlots own slot k k' := by
    intro slot' hne
    refine ⟨by rw [hk.processes, Function.update_of_ne hne], fun q hq => ?_⟩
    have hmem := h.slotMemory_subset hne hq
    exact ⟨hk.guards.held q hmem, hk.objs q hmem⟩
  have hsame : Function.update own slot (own slot) = own := Function.update_eq_self ..
  refine ⟨ho, hsame ▸ h.changed hk.guards.tidy ho (fun hne => absurd hcleared hne) ?_ ?_⟩
  · intro slot' _
    rw [Kernel.slotMemory_empty hcleared]
    exact Set.empty_disjoint _
  · by_cases heq : k.current_process = k.processes slot
    · obtain ⟨i, -, hne, hcur⟩ := hk.current heq
      exact Or.inr ⟨hcur ▸ hne, i, hcur.symm⟩
    · rw [hk.other heq]
      refine h.current.imp_right ?_
      rintro ⟨hne, i, hi⟩
      refine ⟨hne, i, ?_⟩
      rw [(ho i fun hii => heq (by rw [← hi, hii])).1, hi]

/-! ### Loads -/

/-- A process that was just loaded has asked for nothing. -/
theorem OwnsProcess.requested_eq (h : OwnsProcess S k process slot p) : p.requested = ∅ := by
  refine Set.eq_empty_iff_forall_notMem.mpr ?_
  rintro q ⟨hne, i, -, hq⟩
  rw [h.allocations i] at hq
  exact hne hq.symm

theorem OwnsProcess.live (h : OwnsProcess S k process slot p) (hheld : k.Held process)
    (hb : Beside (insert process { q | k₀.Held q }) S k) : LiveProcess S k process slot p := by
  have hnone := h.requested_eq
  refine
    { guards := by
        rw [hnone, Set.union_empty]
        exact hb.toGuards.insert hheld
      obj := h.obj
      notMem := fun hmem => hb.apart _ hmem (Set.mem_insert _ _)
      apart := fun q hq => absurd (hnone ▸ hq) (Set.notMem_empty q)
      id := h.id
      empty := fun i _ _ => by rw [h.allocations i]
      program := h.program
      stack := h.stack
      task_mem := h.task_mem
      task := h.task }

/-- The table, and processes that were made at some time: each is still allocated, and in the
memory of a process only as that process itself. -/
structure ProcessLedger (own : Nat → Set Nat) (made : List Nat) (k : Kernel) : Prop
    extends TableSound own k where
  nodup : made.Nodup
  held : ∀ q ∈ made, k.Held q
  itself : ∀ q ∈ made, ∀ slot, q ∈ k.slotMemory (own slot) slot → q = k.processes slot

variable {made : List Nat}

/-- The ledger after a call for one slot. -/
theorem ProcessLedger.kept (h : ProcessLedger own made k)
    (hsound : TableSound (Function.update own slot S) k') (ho : OtherSlots own slot k k')
    (hheld : ∀ q ∈ made, k'.Held q)
    (hslot : ∀ q ∈ made, q ∈ k'.slotMemory S slot → q = k'.processes slot) :
    ProcessLedger (Function.update own slot S) made k' where
  toTableSound := hsound
  nodup := h.nodup
  held := hheld
  itself := by
    intro q hq slot' hmem
    by_cases hne : slot' = slot
    · subst hne
      rw [Function.update_self] at hmem
      exact hslot q hq hmem
    · rw [Function.update_of_ne hne, h.other_memory hsound.tidy ho hne] at hmem
      rw [(ho slot' hne).1]
      exact h.itself q hq slot' hmem

/-- A new process is entered. -/
theorem ProcessLedger.enter (h : ProcessLedger own made k) (hnew : process ∉ made)
    (hheld : k.Held process)
    (hself : ∀ slot, process ∈ k.slotMemory (own slot) slot → process = k.processes slot) :
    ProcessLedger own (process :: made) k where
  toTableSound := h.toTableSound
  nodup := List.nodup_cons.mpr ⟨hnew, h.nodup⟩
  held := List.forall_mem_cons.mpr ⟨hheld, h.held⟩
  itself := List.forall_mem_cons.mpr ⟨hself, h.itself⟩

/-- What a call leaves of the processes that it is not for. -/
def KeepsOthers (own : Nat → Set Nat) (k : Kernel) (process : Nat) (k' : Kernel) : Prop :=
  ∀ slot, k.processes slot ≠ 0 → k.processes slot ≠ process →
    k'.processes slot = k.processes slot ∧ Undisturbed (k.slotMemory (own slot) slot) k k'

theorem OtherSlots.keepsOthers (ho : OtherSlots own slot k k')
    (hslot : k.processes slot = 0 ∨ k.processes slot = process) : KeepsOthers own k process k' := by
  intro slot' hocc hne
  refine ho slot' ?_
  rintro rfl
  exact hslot.elim hocc hne

/-- A load makes a process that stays allocated, in a slot or in none, or there was no memory
for it. -/
theorem ProcessLedger.loaded (h : ProcessLedger own made k) {filename : List UInt8} {r : Int × Nat}
    (hrun : processLoad filename k = .ok (r, k')) :
    KeepsOthers own k 0 k' ∧ (r.1 = 0 → k'.HasProcess r.2) ∧ ∃ own' made',
      ProcessLedger own' made' k' ∧ (r.1 ≠ -ENOMEM → made'.length = made.length + 1) ∧
        made.length ≤ made'.length := by
  obtain ⟨slot, hslot, hlt, -⟩ | ⟨-, hnone⟩ := processGetFreeSlot_cases k
  swap
  · rw [processLoad_full filename hnone] at hrun
    cases hrun
  rw [processLoad_eq filename hslot] at hrun
  obtain ⟨hfree, ⟨-, rfl, rfl⟩ | ⟨process, -, hfresh, hleaves⟩⟩ :=
    processLoadForSlot_leaves ⟨h.tidy, fun _ hq => hq⟩ filename hlt _ _ hrun
  · exact ⟨fun slot' _ _ => ⟨rfl, fun q hq => ⟨h.memory_held hq, Or.inl rfl⟩⟩,
      fun h0 => absurd h0 (by decide), own, made, h, fun hne => absurd rfl hne, le_rfl⟩
  have hnew : process ∉ made := fun hmem => hfresh (h.held process hmem)
  have houtside : ∀ slot', process ∉ k.slotMemory (own slot') slot' :=
    fun _ hmem => hfresh (h.memory_held hmem)
  rcases hleaves with ⟨hneg, hstays, hheld⟩ | ⟨-, hr, hheld, ⟨k₁, hstays, hk'⟩, S, p, hb, hown⟩
  · -- the process stays, and is in no slot
    have ho : OtherSlots own slot k k' := fun slot' _ =>
      ⟨by rw [hstays.processes], hstays.undisturbed.mono fun q hq => h.memory_held hq⟩
    have hempty : k'.processes slot = 0 := by rw [hstays.processes, hfree]
    have hsound : TableSound (Function.update own slot (own slot)) k' := by
      refine h.changed hstays.guards.tidy ho (fun hocc => absurd hempty hocc) ?_ ?_
      · intro slot' _
        rw [Kernel.slotMemory_empty hempty]
        exact Set.empty_disjoint _
      · unfold Kernel.HasProcess
        rw [hstays.processes, hstays.current_process]
        exact h.current
    have hkept := h.kept hsound ho (fun q hq => hstays.guards.held q (h.held q hq)) fun q _ hmem =>
      absurd hempty hmem.1
    refine ⟨ho.keepsOthers (Or.inl hfree), fun h0 => by omega, _, _,
      hkept.enter hnew hheld fun slot' hmem => ?_, fun _ => rfl, Nat.le_succ _⟩
    rw [Function.update_eq_self] at hmem
    by_cases hne : slot' = slot
    · subst hne
      exact absurd hempty hmem.1
    · rw [h.other_memory hsound.tidy ho hne] at hmem
      exact absurd hmem (houtside slot')
  · have hprocesses : k'.processes = Function.update k.processes slot process := by
      rw [hk', ← hstays.processes]
    have hslot_eq : k'.processes slot = process := by rw [hprocesses, Function.update_self]
    have hall : Undisturbed { q | k.Held q } k k' := by
      intro q hq
      rw [hk']
      exact ⟨(hstays.guards.held q hq).congr rfl, hstays.objs q hq⟩
    have ho : OtherSlots own slot k k' := fun slot' hne =>
      ⟨by rw [hprocesses, Function.update_of_ne hne], hall.mono fun q hq => h.memory_held hq⟩
    have hlive := hown.live hheld hb
    have hmemory : k'.slotMemory S slot = insert process S := by
      rw [Kernel.slotMemory_eq (hslot_eq ▸ hheld.ne_zero) (hslot_eq ▸ hown.obj), hslot_eq]
      unfold Process.memory
      rw [hown.requested_eq, Set.union_empty]
    -- all of it is new
    have hnewS : ∀ q ∈ insert process S, ¬ k.Held q := by
      rintro q (rfl | hq) hold
      · exact hfresh hold
      · exact hb.apart q hq (Or.inr hold)
    have hsound : TableSound (Function.update own slot S) k' := by
      refine h.changed hb.tidy ho (fun _ => ⟨hlt, p, hslot_eq ▸ hlive⟩) ?_ ?_
      · intro slot' _
        rw [hmemory]
        exact Set.disjoint_left.mpr fun q hq hmem => hnewS q hq (h.memory_held hmem)
      · have hcur : k'.current_process = k.current_process := by
          rw [hk']
          exact hstays.current_process
        rw [hcur]
        refine h.current.imp_right ?_
        rintro ⟨hne, i, hi⟩
        refine ⟨hne, i, ?_⟩
        rw [(ho i fun heq => hne (by rw [← hi, heq, hfree])).1, hi]
    have hkept := h.kept hsound ho (fun q hq => (hall q (h.held q hq)).1) fun q hq hmem =>
      absurd (h.held q hq) (hnewS q (hmemory ▸ hmem))
    refine ⟨ho.keepsOthers (Or.inl hfree), fun _ => ⟨hr ▸ hheld.ne_zero, slot, hr ▸ hslot_eq⟩, _, _,
      hkept.enter hnew hheld fun slot' hmem => ?_, fun _ => rfl, Nat.le_succ _⟩
    by_cases hne : slot' = slot
    · subst hne
      exact hslot_eq.symm
    · rw [Function.update_of_ne hne, h.other_memory hsound.tidy ho hne] at hmem
      exact absurd hmem (houtside slot')

/-! ### Calls for one process -/

/-- A call that works for one process leaves the ledger as it is. -/
theorem ProcessLedger.worked (h : ProcessLedger own made k) (hocc : k.processes slot ≠ 0)
    (hk : Intact (k.beside (own slot) slot) k k')
    (hl : LeavesLive (k.beside (own slot) slot) (own slot) (k.processes slot) slot k') :
    KeepsOthers own k (k.processes slot) k' ∧ ProcessLedger own made k' := by
  obtain ⟨ho, hsound⟩ := h.toTableSound.worked hocc hk hl
  obtain ⟨p, hp, hb⟩ := hl
  have hprocess : k'.processes slot = k.processes slot := by rw [hk.lists.processes]
  have hsame : Function.update own slot (own slot) = own := Function.update_eq_self ..
  refine ⟨ho.keepsOthers (Or.inr rfl), hsame ▸ h.kept (hsame.symm ▸ hsound) ho (fun q hq => ?_) ?_⟩
  · by_cases hmem : q ∈ k.slotMemory (own slot) slot
    · exact (h.itself q hq slot hmem) ▸ hp.held
    · exact hk.guards.held q ⟨h.held q hq, hmem⟩
  · intro q hq hmem
    rw [Kernel.slotMemory_eq (hprocess ▸ hocc) (hprocess ▸ hp.obj), hprocess] at hmem
    rw [hprocess]
    -- what the process got is new, or it had it before
    by_contra hne
    refine hb.apart q hmem ⟨h.held q hq, fun hold => hne (h.itself q hq slot hold)⟩

/-- The end of a process leaves the ledger as it is: the process stays allocated. -/
theorem ProcessLedger.ended (h : ProcessLedger own made k)
    (hk : Unlinked (k.beside (own slot) slot) k slot (k.processes slot) k')
    (hheld : k'.Held (k.processes slot)) :
    KeepsOthers own k (k.processes slot) k' ∧ ProcessLedger own made k' := by
  obtain ⟨ho, hsound⟩ := h.toTableSound.ended hk
  have hcleared : k'.processes slot = 0 := by rw [hk.processes, Function.update_self]
  have hsame : Function.update own slot (own slot) = own := Function.update_eq_self ..
  refine ⟨ho.keepsOthers (Or.inr rfl), hsame ▸ h.kept (hsame.symm ▸ hsound) ho (fun q hq => ?_)
    fun q _ hmem => absurd hcleared hmem.1⟩
  by_cases hmem : q ∈ k.slotMemory (own slot) slot
  · exact (h.itself q hq slot hmem) ▸ hheld
  · exact hk.guards.held q ⟨h.held q hq, hmem⟩

/-! ### Steps and runs -/

/-- Another process becomes the current one. -/
theorem ProcessLedger.switched (h : ProcessLedger own made k) (hprocess : k.HasProcess process) :
    ProcessLedger own made { k with current_process := process } where
  tidy := h.tidy.congr rfl
  slot_lt := h.slot_lt
  live slot hocc := by
    obtain ⟨p, hp⟩ := h.live slot hocc
    exact ⟨p, hp.congr rfl rfl⟩
  apart := h.apart
  current := Or.inr hprocess
  nodup := h.nodup
  held q hq := (h.held q hq).congr rfl
  itself := h.itself

/-- `process_load_switch` loads and, if that worked, switches. -/
theorem processLoadSwitch_eq_ok_iff {filename : List UInt8} {r : Int × Nat} :
    processLoadSwitch filename k = .ok (r, k') ↔ ∃ k₁, processLoad filename k = .ok (r, k₁) ∧
      k' = if r.1 = 0 then { k₁ with current_process := r.2 } else k₁ := by
  have hswitch : ∀ (r : Int × Nat) (k₁ : Kernel),
      (do onlyIf (r.1 = 0) (processSwitch r.2); pure r : KM (Int × Nat)) k₁ =
        .ok (r, if r.1 = 0 then { k₁ with current_process := r.2 } else k₁) := by
    intro r k₁
    unfold onlyIf
    split <;> rfl
  unfold processLoadSwitch
  rw [bind_eq_ok]
  simp only [hswitch, Except.ok.injEq, Prod.mk.injEq]
  constructor
  · rintro ⟨_, k₁, hload, rfl, rfl⟩
    exact ⟨k₁, hload, rfl⟩
  · rintro ⟨k₁, hload, rfl⟩
    exact ⟨r, k₁, hload, rfl, rfl⟩

/-- The call loads a process: it does not fail for want of memory. -/
def ProcessEvent.loads : ProcessEvent → Bool
  | .load _ res => res ≠ -ENOMEM
  | .loadSwitch _ res => res ≠ -ENOMEM
  | _ => false

/-- One call. -/
theorem ProcessLedger.step {event : ProcessEvent} (h : ProcessLedger own made k)
    (hstep : ProcessStep k event k') :
    KeepsOthers own k event.process k' ∧ ∃ own' made', ProcessLedger own' made' k' ∧
      made.length + event.loads.toNat ≤ made'.length := by
  -- what is said of the calls for a process in a slot
  have hslot : ∀ slot, k.processes slot ≠ 0 → ∃ p, LiveProcess (own slot) k (k.processes slot) slot p ∧
      Beside (k.beside (own slot) slot) (p.memory (k.processes slot) (own slot)) k := by
    intro slot hocc
    obtain ⟨p, hp⟩ := h.live slot hocc
    refine ⟨p, hp, hp.guards, fun q hq hmem => hmem.2 ?_⟩
    rwa [Kernel.slotMemory_eq hocc hp.obj]
  have hguards : ∀ slot, Guards (k.beside (own slot) slot) k := fun _ => Kernel.beside_guards h.tidy
  have hgain : ∀ {r : Int} {made' : List Nat}, (r ≠ -ENOMEM → made'.length = made.length + 1) →
      made.length ≤ made'.length → made.length + (decide (r ≠ -ENOMEM)).toNat ≤ made'.length := by
    intro r made' hone hle
    by_cases hr : r = -ENOMEM
    · simpa [hr] using hle
    · simp [hr, hone hr]
  cases hstep with
  | load hrun =>
    obtain ⟨hothers, -, own', made', hledger, hone, hle⟩ := h.loaded hrun
    exact ⟨hothers, own', made', hledger, hgain hone hle⟩
  | loadSwitch hrun =>
    obtain ⟨k₁, hload, rfl⟩ := processLoadSwitch_eq_ok_iff.mp hrun
    obtain ⟨hothers, hhas, own', made', hledger, hone, hle⟩ := h.loaded hload
    split
    · next h0 => exact ⟨hothers, own', made', hledger.switched (hhas h0), hgain hone hle⟩
    · exact ⟨hothers, own', made', hledger, hgain hone hle⟩
  | malloc hhas hsize hrun =>
    obtain ⟨hne, slot, rfl⟩ := hhas
    obtain ⟨p, hp, hb⟩ := hslot slot hne
    obtain ⟨hk, hl⟩ := processMalloc_live (hguards slot) hp hb hsize _ _ hrun
    obtain ⟨hothers, hledger⟩ := h.worked hne hk hl
    exact ⟨hothers, own, made, hledger, le_rfl⟩
  | free hhas hrun =>
    obtain ⟨hne, slot, rfl⟩ := hhas
    obtain ⟨p, hp, hb⟩ := hslot slot hne
    obtain ⟨hk, hl⟩ := processFree_live (hguards slot) hp hb _ _ hrun
    obtain ⟨hothers, hledger⟩ := h.worked hne hk hl
    exact ⟨hothers, own, made, hledger, le_rfl⟩
  | inject hhas hshort hrun =>
    obtain ⟨hne, slot, rfl⟩ := hhas
    obtain ⟨p, hp, hb⟩ := hslot slot hne
    obtain ⟨hk, hl⟩ := processInjectArguments_live (hguards slot) hp hb hshort _ _ hrun
    obtain ⟨hothers, hledger⟩ := h.worked hne hk hl
    exact ⟨hothers, own, made, hledger, le_rfl⟩
  | terminate hhas hrun =>
    obtain ⟨hne, slot, rfl⟩ := hhas
    obtain ⟨p, hp, hb⟩ := hslot slot hne
    obtain ⟨-, hheld, hk⟩ := processTerminate_unlinked (hguards slot) hp hb _ _ hrun
    obtain ⟨hothers, hledger⟩ := h.ended hk hheld
    exact ⟨hothers, own, made, hledger, le_rfl⟩

end Table

section Runs

variable {own : Nat → Set Nat} {k : Kernel} {tr : List (ProcessEvent × Kernel)}

/-- With no process loaded the table is sound. -/
theorem TableSound.none (ht : k.Tidy) (hnone : ∀ slot, k.processes slot = 0)
    (hcur : k.current_process = 0) : TableSound (fun _ => ∅) k where
  tidy := ht
  slot_lt slot hocc := absurd (hnone slot) hocc
  live slot hocc := absurd (hnone slot) hocc
  apart slot slot' _ := by
    rw [Kernel.slotMemory_empty (hnone slot)]
    exact Set.empty_disjoint _
  current := Or.inl hcur

/-- No memory of a process is known to a ledger without entries. -/
theorem TableSound.ledger (h : TableSound own k) : ProcessLedger own [] k where
  toTableSound := h
  nodup := List.nodup_nil
  held := fun _ hq => absurd hq List.not_mem_nil
  itself := fun _ hq => absurd hq List.not_mem_nil

/-- A volume with a program of three bytes. -/
def codeTree : List UInt8 := [0xEB, 0xFE, 0x90]

theorem codeTree_sound : TableSound (fun _ => ∅) (Kernel.withTree codeTree) :=
  .none withTree_tidy (fun _ => rfl) rfl

/-- The program is loaded two times. -/
theorem codeTree_run : ∃ k₁ k₂, Run ProcessStep (Kernel.withTree codeTree)
    [(.load treePath 0, k₁), (.loadSwitch treePath 0, k₂)] := by
  have hno : ∀ image, image = (Disk.tree codeTree).image →
      NoElf (treeFile 3).filesize (FatHeader.oneSector.contents image [3]) := by
    rintro _ rfl
    refine ⟨0, by decide, by decide, ?_⟩
    rw [tree_file (by decide)]
    decide
  have hfile : FileAt .oneSector [treeRoot] [[0x44], [0x41]] (treeFile 3) [3] 5 treePath
      (Kernel.withTree codeTree) := withTree_fileAt codeTree (by decide) (by decide)
  have hslot₀ : processGetFreeSlot (Kernel.withTree codeTree).processes = ((0 : Nat) : Int) := rfl
  obtain ⟨⟨_, process⟩, k₁, hload₁, rfl, p, map, k, stack, task, t, ptrs, d, -, -, hstarted⟩ :=
    processLoad_round withTree_tidy withTree_freeFrom (Or.inl rfl) hslot₀ rfl
      (by decide) (by decide) (hfile.readsBinary withTree_slotFree (hno _ rfl) (by decide))
  have hstep₁ : ProcessStep (Kernel.withTree codeTree) (.load treePath 0) k₁ := .load hload₁
  obtain ⟨-, own', made', hledger, -⟩ := codeTree_sound.ledger.step hstep₁
  have hgrown := hstarted.grown
  rw [show (Kernel.withTree codeTree).linkedTo _ = Kernel.withTree codeTree from if_pos rfl]
    at hgrown
  have hslots : k₁.processes = Function.update (fun _ => 0) 0 process := hstarted.processes
  have hne : process ≠ 0 := by
    obtain ⟨n, hown⟩ := hstarted.own
    exact hown.alive.ne_zero
  have htail : TailSound k₁ := by
    refine Or.inr ?_
    rw [hstarted.tail]
    exact ⟨hstarted.processAt.task_alive, t, hstarted.processAt.task_eq⟩
  have hslot : processGetFreeSlot k₁.processes = ((1 : Nat) : Int) := by
    have hfind : (List.range PLUMOS_MAX_PROCESSES).find? (fun i => k₁.processes i == 0) = some 1 := by
      rw [hslots, List.find?_range_eq_some]
      refine ⟨rfl, by decide, fun j hj => ?_⟩
      obtain rfl := Nat.lt_one_iff.mp hj
      simpa using hne
    unfold processGetFreeSlot
    rw [hfind]
  have hempty : k₁.processes 1 = 0 := by
    rw [hslots]
    rfl
  have hfree : SlotFree (Kernel.withTree codeTree) 0 := withTree_slotFree
  obtain ⟨⟨_, process'⟩, k₂, hload₂, rfl, -⟩ :=
    processLoad_round hledger.tidy hgrown.free htail hslot hempty (by decide) (by decide)
      ((hfile.mono hgrown).readsBinary ⟨hstarted.file_descriptors ▸ hfree.first, hfree.lt⟩
        (hno _ hgrown.volume.image) (by decide))
  exact ⟨k₁, _, .cons hstep₁ (.cons (.loadSwitch (processLoadSwitch_eq_ok_iff.mpr ⟨k₂, hload₂, rfl⟩))
    (.nil _))⟩

/-- Pointers to different allocations are at most as many as there are blocks. -/
theorem length_le_of_held {ptrs : List Nat} (hnodup : ptrs.Nodup) (hheld : ∀ q ∈ ptrs, k.Held q) :
    ptrs.length ≤ 25600 := by
  have hsub : ptrs.toFinset ⊆ (Finset.range 25600).image blockAddress := by
    intro q hq
    obtain ⟨b, hb, rfl, -⟩ := hheld q (List.mem_toFinset.mp hq)
    exact Finset.mem_image_of_mem _ (Finset.mem_range.mpr hb)
  have hcard := (Finset.card_le_card hsub).trans Finset.card_image_le
  rwa [List.toFinset_card_of_nodup hnodup, Finset.card_range] at hcard

end Runs

end PlumOS
