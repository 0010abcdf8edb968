import PlumOS.Memory.SpaceOwnership
import PlumOS.Task.ProgramFile
import PlumOS.Task.SegmentMap

/-!
# Starting a program

A process with a program in memory gets a task with an address space of its own, and the
program and a stack are mapped into it. Apart from the `next` of the last task, all that was
alive before is as it was.

## Main definitions

- `Kernel.linkedTo` — the list of tasks with a new one behind its tail
- `NewTask` — a task that was just made
- `runPatch` — the entries that map an allocation

## Main results

- `taskNew_starts` — the task of a process
- `processMapMemory_round` — the address space of a program and its stack
- `processMapMemory_tables` — mapping writes page tables and nothing else
-/

namespace PlumOS

open StateExcept Patches

/-! ### A new address space -/

/-- The flags of a new address space. -/
def userReadable : Nat := PAGING_IS_PRESENT ||| PAGING_ACCESS_FROM_ALL

/-- Flags with which pages are present. -/
structure PresentFlags (flags : Nat) : Prop where
  lt : flags < 4096
  odd : flags % 2 = 1

theorem presentFlags_userReadable : PresentFlags userReadable := ⟨by decide, by decide⟩

theorem isPresent_directory_entry {a flags : Nat} (hf : PresentFlags flags) :
    isPresent (a ||| flags ||| PAGING_IS_WRITEABLE) = true := by
  have hbit : flags.testBit 0 = true := by
    rw [Nat.testBit_zero, hf.odd]
    rfl
  have hodd : (a ||| flags ||| PAGING_IS_WRITEABLE) % 2 = 1 := by
    rw [Nat.mod_two_eq_one_iff_testBit_zero, Nat.testBit_or, Nat.testBit_or, hbit, Bool.or_true,
      Bool.true_or]
  unfold isPresent PAGING_IS_PRESENT
  rw [bne_iff_ne, Nat.and_one_is_mod, hodd]
  exact Nat.one_ne_zero

/-- The page directory of a chunk, with all its entries present. -/
def PresentDirectory (k : Kernel) (chunk d : Nat) : Prop :=
  k.objs chunk = some (.chunk d) ∧
    ∃ w, k.objs d = some (.words w) ∧ ∀ j < 1024, isPresent (w j) = true

section Space

variable {k₀ k k' : Kernel} {m : Nat}

theorem pagingNew4gbLoop_grown {directory flags : Nat} (hf : PresentFlags flags) : ∀ (fuel i offset m : Nat) (k : Kernel)
    (w : Nat → Nat), Grown k₀ m k → m + fuel ≤ 25600 → Grown.Own k₀ k directory 1 →
      k.objs directory = some (.words w) → (∀ j < i, isPresent (w j) = true) →
      Returns (pagingNew4gbLoop flags directory fuel i offset) k fun _ k' =>
        Grown k₀ (m + fuel) k' ∧ Grown.Own k₀ k' directory 1 ∧
        ∃ w', k'.objs directory = some (.words w') ∧ ∀ j < i + fuel, isPresent (w' j) = true := by
  intro fuel
  induction fuel with
  | zero =>
    intro i offset m k w hg _ hown hobj hw
    exact .pure ⟨hg, hown, w, hobj, hw⟩
  | succ fuel ih =>
    intro i offset m k w hg hm hown hobj hw
    refine .bind ((Grown.refl hg.free).kzallocObj (by decide) le_rfl (by omega)) ?_
    rintro entry k₁ ⟨hne, hk₁, -, hentry, hobj₁⟩
    refine .bind (deref_returns hne hobj₁ rfl) ?_
    rintro _ _ ⟨rfl, rfl⟩
    refine .bind (storeObj_spec _ _ _) ?_
    intro _ k₂ hst₂
    have hk₂ := hk₁.stored hentry hst₂
    have hdir : k₂.objs directory = some (.words w) := (hk₂.obj hown.alive).trans hobj
    refine .bind (deref_returns hown.alive.ne_zero hdir rfl) ?_
    rintro _ _ ⟨rfl, rfl⟩
    refine .bind (storeObj_spec _ _ _) ?_
    intro _ k₃ hst₃
    have hown₂ := hown.mono hk₂
    have hg₃ := (hg.trans hk₂).stored hown₂ hst₃
    refine (ih (i + 1) _ (m + 1) k₃ _ hg₃ (by omega) ⟨hst₃.alive hown₂.alive, hown₂.fresh⟩ hst₃.self
      fun j hj => ?_).mono ?_
    · rw [Function.update_apply]
      split
      · exact isPresent_directory_entry hf
      · exact hw j (by omega)
    · rintro _ k₄ ⟨hg₄, hown₄, w', hobj₄, hw'⟩
      refine ⟨?_, hown₄, w', hobj₄, fun j hj => hw' j (by omega)⟩
      rwa [show m + (fuel + 1) = m + 1 + fuel by omega]

/-- With 1026 free blocks an address space is made, and nothing else is touched. -/
theorem pagingNew4gb_grown {flags : Nat} (hf : PresentFlags flags) (hg : Grown k₀ m k)
    (hm : m + 1026 ≤ 25600) : Returns (pagingNew4gb flags) k fun chunk k' => Grown k₀ (m + 1026) k' ∧
      ∃ d, PresentDirectory k' chunk d := by
  refine .bind (hg.kzallocObj (by decide) le_rfl (by omega)) ?_
  rintro directory k₁ ⟨-, hg₁, -, hown₁, hobj₁⟩
  refine .bind (pagingNew4gbLoop_grown hf 1024 0 0 (m + 1) k₁ _ hg₁ (by omega) hown₁ hobj₁
    fun j hj => absurd hj (Nat.not_lt_zero j)) ?_
  rintro _ k₂ ⟨hg₂, hown₂, w, hobj₂, hw⟩
  refine .bind ((Grown.refl hg₂.free).kzallocObj (by decide) (by decide) (by omega)) ?_
  rintro chunk k₃ ⟨hne, hk₃, -, hown₃, hobj₃⟩
  refine .bind (deref_returns hne hobj₃ rfl) ?_
  rintro _ _ ⟨rfl, rfl⟩
  refine .bind (storeObj_spec _ _ _) ?_
  intro _ k₄ hst₄
  have hk₄ := hk₃.stored hown₃ hst₄
  refine .pure ⟨hg₂.trans hk₄, directory, hst₄.self, w, (hk₄.obj hown₂.alive).trans hobj₂, ?_⟩
  intro j hj
  exact hw j (by omega)

end Space

/-! ### A new task -/

/-- The entries of a new address space: each page is mapped to itself. -/
def identityMap (page : Nat) : Nat := page * PAGING_PAGE_SIZE ||| userReadable

/-- The list of tasks when `task` is linked behind its tail. -/
def Kernel.linkedTo (k : Kernel) (task : Nat) : Kernel :=
  if k.task_head = 0 then k
  else match k.objs k.task_tail with
    | some (.task l) => k.put k.task_tail (.task { l with next := task })
    | _ => k

/-- The list of tasks is empty, or its tail is a task. -/
def TailSound (k : Kernel) : Prop :=
  k.task_head = 0 ∨ k.Alive k.task_tail 1 ∧ ∃ l, k.objs k.task_tail = some (.task l)

/-- A task that is new since `k₀`: it starts at `entry`, and owns a new address space in which
each page is mapped to itself. -/
structure NewTask (k₀ k : Kernel) (task process entry : Nat) (t : Task) (ptrs : List Nat) : Prop where
  own : Grown.Own k₀ k task 1
  obj : k.objs task = some (.task t)
  process_eq : t.process = process
  registers : t.registers = { Task.zero.registers with
    ip := UInt32.ofNat entry
    ss := UInt32.ofNat USER_DATA_SEGMENT
    cs := UInt32.ofNat USER_CODE_SEGMENT
    esp := UInt32.ofNat PLUMOS_PROGRAM_VIRTUAL_STACK_ADDRESS_START }
  space : MapsSpace k t.page_directory ptrs identityMap
  fresh : ∀ p ∈ ptrs, ∀ n, ¬ k₀.Alive p n
  present : ∃ d, PresentDirectory k t.page_directory d

section Task

variable {k₀ k k' : Kernel} {m n task process entry : Nat} {p : Process} {t : Task}
  {ptrs : List Nat}

theorem PresentDirectory.stored {chunk d q : Nat} {o : Obj} (hd : PresentDirectory k chunk d)
    (hst : Stored k q o k') (hchunk : q ≠ chunk) (hdir : q ≠ d) : PresentDirectory k' chunk d := by
  obtain ⟨hobj, w, hw, hall⟩ := hd
  exact ⟨(hst.other _ hchunk.symm).trans hobj, w, (hst.other _ hdir.symm).trans hw, hall⟩

/-- The page directory is among the blocks of the address space. -/
theorem PresentDirectory.mem {chunk d : Nat} {m : Nat → Nat} (hd : PresentDirectory k chunk d)
    (hmaps : MapsSpace k chunk ptrs m) : d ∈ ptrs := by
  obtain ⟨d', w, hc, -, rfl, -⟩ := hmaps
  rw [hd.1] at hc
  cases hc
  simp

theorem taskInit_starts (hg : Grown k₀ m k) (htask : Grown.Own k₀ k task 1)
    (hm : m + 1026 ≤ 25600) (hal : k₀.Alive process n) (hobj : k₀.objs process = some (.process p))
    (hentry : ∀ m k', Grown k₀ m k' → Returns (taskEntry p) k' fun ip k'' => k' = k'' ∧ ip = entry) :
    Returns (taskInit task process) k fun res k' => res = 0 ∧ Grown k₀ (m + 1026) k' ∧
      ∃ t ptrs, NewTask k₀ k' task process entry t ptrs ∧ t.next = 0 ∧ t.prev = 0 := by
  refine .bind (storeObj_spec _ _ _) ?_
  intro _ k₁ hst₁
  have hg₁ := hg.stored htask hst₁
  have htask₁ : Grown.Own k₀ k₁ task 1 := ⟨hst₁.alive htask.alive, htask.fresh⟩
  refine .bind ((pagingNew4gb_grown presentFlags_userReadable (Grown.refl hg₁.free) hm).and_ensures
    (pagingNew4gb_maps (by decide) k₁)) ?_
  rintro chunk k₂ ⟨⟨hk₂, d, hd⟩, -, -, ptrs, hmaps, hnew⟩
  have hout : ∀ q ∈ ptrs, q ≠ task := by
    rintro q hq rfl
    exact hnew q hq 1 htask₁.alive
  have hchunk : chunk ∈ ptrs := hmaps.owns.chunk_mem
  have hg₂ := hg₁.trans hk₂
  have htask₂ := htask₁.mono hk₂
  refine .bind (modifyTask_returns _ htask.alive.ne_zero
    ((hk₂.obj htask₁.alive).trans hst₁.self)) ?_
  intro _ k₃ hst₃
  have hg₃ := hg₂.stored htask₂ hst₃
  have htask₃ : Grown.Own k₀ k₃ task 1 := ⟨hst₃.alive htask₂.alive, htask₂.fresh⟩
  rw [if_neg (hmaps.owns.alive chunk hchunk).ne_zero]
  refine .bind (deref_returns hal.ne_zero ((hg₃.obj hal).trans hobj) rfl) ?_
  rintro _ _ ⟨rfl, rfl⟩
  refine .bind (hentry _ _ hg₃) ?_
  rintro _ _ ⟨rfl, rfl⟩
  refine .bind (modifyTask_returns _ htask.alive.ne_zero hst₃.self) ?_
  intro _ k₄ hst₄
  refine .pure ⟨rfl, hg₃.stored htask₃ hst₄, _, ptrs,
    ⟨⟨hst₄.alive htask₃.alive, htask₃.fresh⟩, hst₄.self, rfl, rfl, ?_, ?_, d, ?_⟩, rfl, rfl⟩
  · refine hmaps.congr fun q hq => ⟨hst₄.alive (hst₃.alive (hmaps.owns.alive q hq)), ?_⟩
    exact (hst₄.other q (hout q hq)).trans (hst₃.other q (hout q hq))
  · exact fun q hq n hn => hnew q hq n (hg₁.alive _ _ hn)
  · have hdir := hd.mem hmaps
    exact (hd.stored hst₃ (hout _ hchunk).symm (hout _ hdir).symm).stored hst₄
      (hout _ hchunk).symm (hout _ hdir).symm

theorem NewTask.stored {q n : Nat} {o : Obj} (hn : NewTask k₀ k task process entry t ptrs)
    (hst : Stored k q o k') (hq : k₀.Alive q n) : NewTask k₀ k' task process entry t ptrs := by
  have hout : ∀ r ∈ ptrs, r ≠ q := by
    rintro r hr rfl
    exact hn.fresh r hr n hq
  have htask : task ≠ q := by
    rintro rfl
    exact hn.own.fresh n hq
  obtain ⟨d, hd⟩ := hn.present
  exact
    { hn with
      own := ⟨hst.alive hn.own.alive, hn.own.fresh⟩
      obj := (hst.other _ htask).trans hn.obj
      space := hn.space.congr fun r hr =>
        ⟨hst.alive (hn.space.owns.alive r hr), hst.other r (hout r hr)⟩
      present := ⟨d, hd.stored hst (hout _ hn.space.owns.chunk_mem).symm
        (hout _ (hd.mem hn.space)).symm⟩ }

/-- The links of a new task may be written. -/
theorem NewTask.relinked {prev : Nat} (hn : NewTask k₀ k task process entry t ptrs)
    (htask : task ∉ ptrs) (hst : Stored k task (.task { t with prev := prev }) k') :
    NewTask k₀ k' task process entry { t with prev := prev } ptrs := by
  have hout : ∀ r ∈ ptrs, r ≠ task := by
    rintro r hr rfl
    exact htask hr
  obtain ⟨d, hd⟩ := hn.present
  exact
    { own := ⟨hst.alive hn.own.alive, hn.own.fresh⟩
      obj := hst.self
      process_eq := hn.process_eq
      registers := hn.registers
      space := hn.space.congr fun r hr =>
        ⟨hst.alive (hn.space.owns.alive r hr), hst.other r (hout r hr)⟩
      fresh := hn.fresh
      present := ⟨d, hd.stored hst (hout _ hn.space.owns.chunk_mem).symm
        (hout _ (hd.mem hn.space)).symm⟩ }

/-- A task is none of the blocks of its address space. -/
theorem NewTask.not_mem (hn : NewTask k₀ k task process entry t ptrs) : task ∉ ptrs := by
  obtain ⟨d, w, hc, hdir, hptrs, -, -, htables⟩ := hn.space
  rw [hptrs]
  intro hmem
  have hobj := hn.obj
  rcases List.mem_cons.mp hmem with rfl | hmem
  · rw [hobj] at hc
    cases hc
  · rcases List.mem_cons.mp hmem with rfl | hmem
    · rw [hobj] at hdir
      cases hdir
    · obtain ⟨j, hj, rfl⟩ := List.mem_map.mp hmem
      obtain ⟨entries, he, -⟩ := htables j (by
        have := List.mem_range'_1.mp hj
        omega)
      rw [hobj] at he
      cases he

/-- The lists of tasks with `task` at the end of them. -/
structure Appended (k : Kernel) (task : Nat) (k' : Kernel) : Prop where
  head : k'.task_head = if k.task_head = 0 then task else k.task_head
  tail : k'.task_tail = task
  current : k'.current_task = if k.task_head = 0 then task else k.current_task
  processes : k'.processes = k.processes
  current_process : k'.current_process = k.current_process
  file_descriptors : k'.file_descriptors = k.file_descriptors

/-- The new task goes to the end of the list. -/
theorem taskAppend_starts (hg : Grown k₀ m k) (hglob : SameGlobals k₀ k) (htail : TailSound k₀)
    (hn : NewTask k₀ k task process entry t ptrs) :
    Returns (taskAppend task) k fun _ k' => Grown (k₀.linkedTo task) m k' ∧ Appended k₀ task k' ∧
      ∃ prev, NewTask k₀ k' task process entry { t with prev := prev } ptrs := by
  refine .bind (.reads (Q := fun a k' => k = k' ∧ a = k) ⟨rfl, rfl⟩) ?_
  rintro _ _ ⟨rfl, rfl⟩
  unfold Kernel.linkedTo
  rw [hglob.task_head, hglob.task_tail]
  split
  · next hhead =>
    refine .modifies ⟨⟨hg.free, hg.alive, hg.mem, hg.objs, hg.volume⟩, ?_, t.prev,
      ⟨⟨hn.own.alive, hn.own.fresh⟩, hn.obj, hn.process_eq, hn.registers, hn.space, hn.fresh,
        hn.present⟩⟩
    exact ⟨(if_pos hhead).symm, rfl, (if_pos hhead).symm, hglob.processes, hglob.current_process,
      hglob.file_descriptors⟩
  · next hhead =>
    obtain ⟨hal, l, hl⟩ := htail.resolve_left hhead
    rw [hl]
    dsimp only
    refine .bind (modifyTask_returns _ hal.ne_zero ((hg.obj hal).trans hl)) ?_
    intro _ k₁ hst₁
    have hg₁ := hg.put hst₁
    have hn₁ := hn.stored hst₁ hal
    refine .bind (modifyTask_returns _ hn.own.alive.ne_zero hn₁.obj) ?_
    intro _ k₂ hst₂
    have hg₂ := hg₁.stored (show Grown.Own _ k₁ task 1 from ⟨hn₁.own.alive, hn₁.own.fresh⟩) hst₂
    have hn₂ := hn₁.relinked hn₁.not_mem hst₂
    refine .modifies ⟨⟨hg₂.free, hg₂.alive, hg₂.mem, hg₂.objs, hg₂.volume⟩, ?_, k₀.task_tail,
      ⟨⟨hn₂.own.alive, hn₂.own.fresh⟩, hn₂.obj, hn₂.process_eq, hn₂.registers, hn₂.space, hn₂.fresh,
        hn₂.present⟩⟩
    have hglob₂ := hglob.trans (hst₁.globals.trans hst₂.globals)
    exact ⟨hglob₂.task_head.trans (if_neg hhead).symm, rfl,
      hglob₂.current_task.trans (if_neg hhead).symm, hglob₂.processes, hglob₂.current_process,
      hglob₂.file_descriptors⟩

/-- With 1027 free blocks a process gets a task. -/
theorem taskNew_starts (hfree : k.FreeFrom m) (hm : m + 1027 ≤ 25600) (hal : k.Alive process n)
    (hobj : k.objs process = some (.process p)) (htail : TailSound k)
    (hentry : ∀ m k', Grown k m k' → Returns (taskEntry p) k' fun ip k'' => k' = k'' ∧ ip = entry) :
    Returns (taskNew process) k fun task k' => ERROR_I task ≠ 0 ∧
      Grown (k.linkedTo task) (m + 1027) k' ∧ Appended k task k' ∧
      ∃ t ptrs, NewTask k k' task process entry t ptrs := by
  refine .bind (((Grown.refl hfree).kzallocObj (by decide) (by decide) (by omega)).and_ensures
    (kzallocObj_small (by decide) (by decide))) ?_
  rintro task k₁ ⟨⟨hne, hg₁, -, hown₁, -⟩, hsmall⟩
  have hglob₁ := (hsmall.resolve_left fun hbad => hne hbad.1).2.2.2.2
  rw [if_neg hne]
  refine .bind ((taskInit_starts hg₁ hown₁ (by omega) hal hobj hentry).and_ensures
    (taskInit_spec hown₁.alive)) ?_
  rintro _ k₂ ⟨⟨rfl, hg₂, t, ptrs, hn, -, -⟩, -, -, hglob₂, -⟩
  rw [if_neg (show ¬ (0 : Int) ≠ PLUMOS_ALL_OK from not_not_intro rfl)]
  refine .bind (taskAppend_starts hg₂ (hglob₁.trans hglob₂) htail hn) ?_
  rintro _ k₃ ⟨hg₃, happ, prev, hn₃⟩
  refine .pure ⟨?_, hg₃.mono (by omega), happ, _, ptrs, hn₃⟩
  have haligned := hown₁.alive.aligned.2
  have hpos : 0 < task := Nat.pos_of_ne_zero hne
  unfold ERROR_I
  rw [i32_of_range (by omega) (by omega)]
  omega

end Task

/-! ### Mapping the program and its stack -/

/-- The entries that map the allocation at `ptr` to the pages from `page` on. -/
def runPatch (page ptr size flags : Nat) : Patch Nat Nat where
  domain := fun q => page ≤ q ∧ q < page + blocksOf size
  dec := fun _ => inferInstanceAs (Decidable (_ ∧ _))
  value := fun q => ptr + (q - page) * 4096 ||| flags

/-- The entries of a flat binary. -/
def binaryPatch (p : Process) : Patch Nat Nat :=
  runPatch (PLUMOS_PROGRAM_VIRTUAL_ADDRESS / 4096) p.ptr p.size userWriteable

/-- The entries of the stack. -/
def stackPatch (p : Process) : Patch Nat Nat :=
  runPatch (PLUMOS_PROGRAM_VIRTUAL_STACK_ADDRESS_END / 4096) p.stack PLUMOS_USER_PROGRAM_STACK_SIZE
    userWriteable

section Map

variable {k k' : Kernel} {chunk process : Nat} {ptrs : List Nat} {m : Nat → Nat} {p : Process}
  {t : Task}

/-- Mapping an allocation to some pages. -/
theorem MapsSpace.mapAllocation (h : MapsSpace k chunk ptrs m) {ptr size : Nat}
    (hal : k.Alive ptr (blocksOf size)) {virt : Nat} (hv : virt % 4096 = 0)
    (hlt : virt / 4096 + blocksOf size ≤ 0x100000) (flags : Nat) :
    Returns (pagingMapTo chunk virt ptr
      (pagingAlignAddress (u32 ((ptr + size : Nat) : Int))) flags) k fun res k' => res = 0 ∧
        MapsSpace k' chunk ptrs ((runPatch (virt / 4096) ptr size flags).apply m) ∧
        OnlyIn ptrs k k' := by
  obtain ⟨b, rfl, hn, hin, -⟩ := hal
  have haligned := blockAddress_aligned b
  have hle : blockAddress b + 4096 * blocksOf size ≤ 0x7400000 := by
    unfold blockAddress
    omega
  rw [pagingAlignAddress_run hin]
  refine (h.mapTo hv (by omega) haligned (by omega) (by omega) (by omega) flags).mono ?_
  rintro res k' ⟨hres, hmaps, honly⟩
  refine ⟨hres, hmaps.ext fun page hpage => ?_, honly⟩
  rw [show (blockAddress b + 4096 * blocksOf size - blockAddress b) / 4096 = blocksOf size by omega,
    mapRange_of_le _ _ _ hlt hpage]
  rfl

/-- How the program of a process is mapped. -/
inductive MapsProgram (process : Nat) (p : Process) : KM Int → Prop
  | elf : p.filetype = PROCESS_FILETYPE_ELF → MapsProgram process p (processMapElf process)
  | binary : p.filetype = PROCESS_FILETYPE_BINARY → MapsProgram process p (processMapBinary process)

/-- The stack is mapped when the program is. -/
theorem processMapMemory_round (h : ProcessAt process k p t ptrs m)
    (hstack : k.Alive p.stack (blocksOf PLUMOS_USER_PROGRAM_STACK_SIZE)) {m' : Nat → Nat}
    {f : KM Int} (hf : MapsProgram process p f)
    (hmap : Returns f k fun res k' => res = 0 ∧ MapsSpace k' t.page_directory ptrs m' ∧
      OnlyIn ptrs k k') :
    Returns (processMapMemory process) k fun res k' => res = 0 ∧
      MapsSpace k' t.page_directory ptrs ((stackPatch p).apply m') ∧ OnlyIn ptrs k k' := by
  obtain ⟨n, hal⟩ := h.process_alive
  -- what is done with the status, whichever way the program was mapped
  have hrest : ∀ (res : Int) k₁, res = 0 ∧ MapsSpace k₁ t.page_directory ptrs m' ∧ OnlyIn ptrs k k₁ →
      Returns (if res < 0 then pure res else do
        let p ← deref Obj.process? process
        let t ← deref Obj.task? p.task
        let _ ← pagingMapTo t.page_directory PLUMOS_PROGRAM_VIRTUAL_STACK_ADDRESS_END p.stack
          (pagingAlignAddress (u32 ((p.stack + PLUMOS_USER_PROGRAM_STACK_SIZE : Nat) : Int)))
          userWriteable
        pure res) k₁ fun res k' => res = 0 ∧
          MapsSpace k' t.page_directory ptrs ((stackPatch p).apply m') ∧ OnlyIn ptrs k k' := by
    rintro _ k₁ ⟨rfl, hmaps₁, honly₁⟩
    rw [if_neg (lt_irrefl _)]
    have h₁ := h.mapped rfl hmaps₁ honly₁
    refine .bind (deref_returns hal.ne_zero h₁.process_eq rfl) ?_
    rintro _ _ ⟨rfl, rfl⟩
    refine .bind (deref_returns h.task_alive.ne_zero h₁.task_eq rfl) ?_
    rintro _ _ ⟨rfl, rfl⟩
    refine .bind (hmaps₁.mapAllocation (honly₁.alive hstack) (by decide) (by decide) _) ?_
    rintro _ k₂ ⟨rfl, hmaps₂, honly₂⟩
    exact .pure ⟨rfl, hmaps₂, honly₁.trans honly₂⟩
  refine .bind (deref_returns hal.ne_zero h.process_eq rfl) ?_
  rintro _ _ ⟨rfl, rfl⟩
  dsimp only
  cases hf with
  | elf htype =>
    rw [if_pos htype]
    exact .bind hmap hrest
  | binary htype =>
    rw [htype, if_neg (by decide), if_pos rfl]
    exact .bind hmap hrest

/-- A flat binary is mapped to the address where programs start. -/
theorem processMapBinary_maps (h : ProcessAt process k p t ptrs m)
    (hprogram : k.Alive p.ptr (blocksOf p.size)) :
    Returns (processMapBinary process) k fun res k' => res = 0 ∧
      MapsSpace k' t.page_directory ptrs ((binaryPatch p).apply m) ∧ OnlyIn ptrs k k' := by
  obtain ⟨n, hal⟩ := h.process_alive
  refine .bind (deref_returns hal.ne_zero h.process_eq rfl) ?_
  rintro _ _ ⟨rfl, rfl⟩
  refine .bind (deref_returns h.task_alive.ne_zero h.task_eq rfl) ?_
  rintro _ _ ⟨rfl, rfl⟩
  have hin : blocksOf p.size ≤ 25600 := by
    obtain ⟨b, -, -, hin, -⟩ := hprogram
    omega
  refine .bind (h.space.mapAllocation hprogram (by decide) (by
    simp only [PLUMOS_PROGRAM_VIRTUAL_ADDRESS]
    omega) _) ?_
  rintro _ k₁ ⟨-, hmaps, honly⟩
  exact .pure ⟨rfl, hmaps, honly⟩

/-- The processor's view of a byte in a page of the run. -/
theorem MapsSpace.userByte (h : MapsSpace k chunk ptrs m) {d : Nat}
    (hd : PresentDirectory k chunk d) {virt phys flags : Nat} (hlt : virt < 0x100000000)
    (hp : phys % 4096 = 0) (hphys : phys < 0x100000000) (hf : flags < 4096)
    (hpresent : flags &&& PAGING_IS_PRESENT ≠ 0) (hm : m (virt / 4096) = phys ||| flags) :
    k.userByte d virt = some (k.mem (phys + virt % 4096)) := by
  obtain ⟨hobj, w, hw, hall⟩ := hd
  rw [userByte_eq, h.walk_eq hobj hw hlt]
  have hpage : isPresent (m (virt / 4096)) = true := by
    unfold isPresent
    rw [hm, entry_and hp hf (by decide), bne_iff_ne]
    exact hpresent
  unfold presentAddress
  dsimp only
  rw [hall _ (by omega), hpage, hm, pageMask_or_flags hp hphys hf]
  rfl

end Map

/-! ### What mapping writes -/

/-- `k'` is `k` but for structures in the page tables of the directory `w`. -/
def TablesOnly (w : Nat → Nat) (k k' : Kernel) : Prop :=
  ∀ q, (∀ j < 1024, q ≠ pageMask (w j)) → k'.objs q = k.objs q

/-- The page directory of `chunk` is at `d`, with the entries `w`, and its tables are
elsewhere. -/
structure TablesApart (k : Kernel) (chunk d : Nat) (w : Nat → Nat) : Prop where
  chunk_eq : k.objs chunk = some (.chunk d)
  words : k.objs d = some (.words w)
  chunk_apart : ∀ j < 1024, chunk ≠ pageMask (w j)
  apart : ∀ j < 1024, d ≠ pageMask (w j)

/-- The process and its task are not in the tables of the task's address space. -/
structure MapsFrom (k : Kernel) (process : Nat) (p : Process) (t : Task) (d : Nat) (w : Nat → Nat) :
    Prop where
  process_eq : k.objs process = some (.process p)
  task_eq : k.objs p.task = some (.task t)
  process_apart : ∀ j < 1024, process ≠ pageMask (w j)
  task_apart : ∀ j < 1024, p.task ≠ pageMask (w j)
  directory : TablesApart k t.page_directory d w

section Tables

variable {k k' k'' : Kernel} {chunk d process : Nat} {w : Nat → Nat} {p : Process} {t : Task}

theorem TablesOnly.refl (w : Nat → Nat) (k : Kernel) : TablesOnly w k k := fun _ _ => rfl

theorem TablesOnly.trans (h : TablesOnly w k k') (h' : TablesOnly w k' k'') : TablesOnly w k k'' :=
  fun q hq => (h' q hq).trans (h q hq)

theorem TablesApart.kept (h : TablesApart k chunk d w) (hk : TablesOnly w k k') :
    TablesApart k' chunk d w :=
  { h with
    chunk_eq := (hk _ h.chunk_apart).trans h.chunk_eq
    words := (hk _ h.apart).trans h.words }

theorem MapsFrom.kept (h : MapsFrom k process p t d w) (hk : TablesOnly w k k') :
    MapsFrom k' process p t d w :=
  { h with
    process_eq := (hk _ h.process_apart).trans h.process_eq
    task_eq := (hk _ h.task_apart).trans h.task_eq
    directory := h.directory.kept hk }

theorem pagingMap_tables (h : TablesApart k chunk d w) {virt : Nat} (hv : virt < 0x100000000)
    (phys flags : Nat) :
    Ensures (pagingMap chunk virt phys flags) k fun _ k' => TablesOnly w k k' := by
  unfold pagingMap
  split
  · exact .pure (.refl w k)
  refine .bind (deref_spec _ _ _) ?_
  rintro d' _ ⟨rfl, -, hdir⟩
  rw [Obj.chunk?_eq_some, h.chunk_eq] at hdir
  cases hdir
  have hindex := directory_index_lt hv
  unfold pagingSet
  split
  · exact .pure (.refl w k)
  split
  next res directory_index table_index hget =>
  rw [hget] at hindex
  split
  · exact .pure (.refl w k)
  refine .bind (deref_spec _ _ _) ?_
  rintro dir _ ⟨rfl, -, hdir⟩
  rw [Obj.words?_eq_some, h.words] at hdir
  cases hdir
  refine .bind (deref_spec _ _ _) ?_
  rintro entries _ ⟨rfl, -, -⟩
  refine .bind (storeObj_spec _ _ _).ensures ?_
  intro _ k₁ hst
  exact .pure fun q hq => hst.other q (hq _ hindex)

theorem pagingMapRange_tables (flags : Nat) : ∀ (total_pages virt phys : Nat) (k : Kernel),
    TablesApart k chunk d w → virt < 0x100000000 →
    Ensures (pagingMapRange chunk flags total_pages virt phys) k fun _ k' => TablesOnly w k k' := by
  intro total_pages
  induction total_pages with
  | zero => exact fun _ _ k _ _ => .pure (.refl w k)
  | succ total_pages ih =>
    intro virt phys k h hv
    refine .bind (pagingMap_tables h hv phys flags) ?_
    intro res k₁ hk₁
    split
    · exact .pure hk₁
    · exact (ih _ _ k₁ (h.kept hk₁) (u32_lt _)).mono fun _ _ hk₂ => hk₁.trans hk₂

theorem pagingMapTo_tables (h : TablesApart k chunk d w) {virt : Nat} (hv : virt < 0x100000000)
    (phys phys_end flags : Nat) :
    Ensures (pagingMapTo chunk virt phys phys_end flags) k fun _ k' => TablesOnly w k k' := by
  unfold pagingMapTo
  repeat' split
  · exact .pure (.refl w k)
  · exact .pure (.refl w k)
  · exact .pure (.refl w k)
  · exact .pure (.refl w k)
  · exact pagingMapRange_tables flags _ _ _ k h hv

/-- The process and its task are found before something is mapped. -/
theorem MapsFrom.maps {α : Type} (h : MapsFrom k process p t d w) {f : Process → Task → KM α}
    (hf : Ensures (f p t) k fun _ k' => TablesOnly w k k') :
    Ensures (do
      let p ← deref Obj.process? process
      let t ← deref Obj.task? p.task
      f p t) k fun _ k' => TablesOnly w k k' := by
  refine .bind (deref_spec _ _ _) ?_
  rintro p' _ ⟨rfl, -, hp⟩
  rw [Obj.process?_eq_some, h.process_eq] at hp
  cases hp
  refine .bind (deref_spec _ _ _) ?_
  rintro t' _ ⟨rfl, -, ht⟩
  rw [Obj.task?_eq_some, h.task_eq] at ht
  cases ht
  exact hf

theorem processMapElfLoop_tables (phdrs : Nat) (file : ElfFile) : ∀ (fuel i : Nat) (k : Kernel),
    MapsFrom k process p t d w →
    Ensures (processMapElfLoop process phdrs file fuel i) k fun _ k' => TablesOnly w k k' := by
  intro fuel
  induction fuel with
  | zero => exact fun _ k _ => .pure (.refl w k)
  | succ fuel ih =>
    intro i k h
    refine .bind (R := fun phdr k' => k = k' ∧ phdr.p_vaddr < 0x100000000) ?_ ?_
    · refine (derefMem_spec _ _ _).mono ?_
      rintro _ _ ⟨rfl, -, rfl⟩
      exact ⟨rfl, readWord_lt _ _⟩
    rintro phdr _ ⟨rfl, hv⟩
    refine h.maps (.bind (pagingMapTo_tables h.directory ((Nat.sub_le _ _).trans_lt hv) _ _ _) ?_)
    intro res k₁ hk₁
    split
    · exact .pure hk₁
    · exact (ih (i + 1) k₁ (h.kept hk₁)).mono fun _ _ hk₂ => hk₁.trans hk₂

theorem processMapElf_tables (h : MapsFrom k process p t d w) :
    Ensures (processMapElf process) k fun _ k' => TablesOnly w k k' := by
  refine .bind (deref_spec _ _ _) ?_
  rintro p' _ ⟨rfl, -, hp⟩
  refine .bind (elfHeader_spec _ _) ?_
  rintro header _ rfl
  refine .bind (deref_spec _ _ _) ?_
  rintro file _ ⟨rfl, -, -⟩
  exact processMapElfLoop_tables _ _ _ _ _ h

/-- Mapping a program and its stack never writes a page directory, nor any other structure but
page tables of its own address space. -/
theorem processMapMemory_tables (h : MapsFrom k process p t d w) :
    Ensures (processMapMemory process) k fun _ k' => TablesOnly w k k' := by
  -- the stack, whatever became of the program
  have hstack : ∀ (res : Int) k₁, TablesOnly w k k₁ →
      Ensures (if res < 0 then pure res else do
        let p ← deref Obj.process? process
        let t ← deref Obj.task? p.task
        let _ ← pagingMapTo t.page_directory PLUMOS_PROGRAM_VIRTUAL_STACK_ADDRESS_END p.stack
          (pagingAlignAddress (u32 ((p.stack + PLUMOS_USER_PROGRAM_STACK_SIZE : Nat) : Int)))
          userWriteable
        pure res) k₁ fun _ k' => TablesOnly w k k' := by
    intro res k₁ hk₁
    split
    · exact .pure hk₁
    · have h₁ := h.kept hk₁
      refine (h₁.maps (f := fun p t => do
        let _ ← pagingMapTo t.page_directory PLUMOS_PROGRAM_VIRTUAL_STACK_ADDRESS_END p.stack
          (pagingAlignAddress (u32 ((p.stack + PLUMOS_USER_PROGRAM_STACK_SIZE : Nat) : Int)))
          userWriteable
        pure res) ?_).mono fun _ _ hk₂ => hk₁.trans hk₂
      exact .bind (pagingMapTo_tables h₁.directory (by decide) _ _ _) fun _ _ hk₂ => .pure hk₂
  refine .bind (deref_spec _ _ _) ?_
  rintro p' _ ⟨rfl, -, hp⟩
  rw [Obj.process?_eq_some, h.process_eq] at hp
  cases hp
  dsimp only
  split
  · exact .bind (processMapElf_tables h) hstack
  split
  · refine .bind (h.maps (f := fun p t => do
      let _ ← pagingMapTo t.page_directory PLUMOS_PROGRAM_VIRTUAL_ADDRESS p.ptr
        (pagingAlignAddress (u32 ((p.ptr + p.size : Nat) : Int))) userWriteable
      pure 0) ?_) hstack
    exact .bind (pagingMapTo_tables h.directory (by decide) _ _ _) fun _ _ hk₁ => .pure hk₁
  · exact .bind (R := fun _ _ => False) .fails fun _ _ hf => hf.elim

end Tables

end PlumOS
