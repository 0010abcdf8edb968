import PlumOS.Task.LoadFailure
import PlumOS.Task.ProgramStart

/-!
# From a path to a running program

`process_load` reads the file of a path, makes a process with a task and maps the program
and a stack for it. What the processor finds in the new address space are the bytes of the
file; all that was alive before is as it was, but for the link to the new task.

## Main definitions

- `Started` — a process that was just loaded

## Main results

- `processLoad_binary` — a flat binary
-/

namespace PlumOS

open StateExcept Patches

/-- What is new since `k₀` is as in `k`, but for the structure at `process`. -/
def KeepsOwn (k₀ k k' : Kernel) (process : Nat) : Prop :=
  ∀ q n, Grown.Own k₀ k q n → q ≠ process → k'.Alive q n ∧ k'.objs q = k.objs q ∧
    ∀ a, q ≤ a → a < q + 4096 * n → k'.mem a = k.mem a

/-- The process with its name, stack, number and task. -/
def Process.started (p : Process) (filename : List UInt8) (stack slot task : Nat) : Process :=
  { p with
    filename := strncpy p.filename filename PLUMOS_MAX_PATH
    stack := stack
    id := slot
    task := task }

/-- A process that was loaded from `k₀`: all that was alive there is as it was, but for the link
to the new task; the process is in its slot, and its task, the last one of the list, is about
to run at `entry` in the address space `map`. -/
structure Started (k₀ : Kernel) (m process slot entry : Nat) (p : Process) (map : Nat → Nat)
    (t : Task) (ptrs : List Nat) (d : Nat) (k : Kernel) : Prop where
  grown : Grown (k₀.linkedTo p.task) m k
  processAt : ProcessAt process k p t ptrs map
  own : ∃ n, Grown.Own k₀ k process n
  tables : ∀ q ∈ ptrs, Grown.Own k₀ k q 1
  id : p.id = slot
  owner : t.process = process
  registers : t.registers = { Task.zero.registers with
    ip := UInt32.ofNat entry
    ss := UInt32.ofNat USER_DATA_SEGMENT
    cs := UInt32.ofNat USER_CODE_SEGMENT
    esp := UInt32.ofNat PLUMOS_PROGRAM_VIRTUAL_STACK_ADDRESS_START }
  directory : PresentDirectory k t.page_directory d
  head : k.task_head = if k₀.task_head = 0 then p.task else k₀.task_head
  tail : k.task_tail = p.task
  current : k.current_task = if k₀.task_head = 0 then p.task else k₀.current_task
  processes : k.processes = Function.update k₀.processes slot process
  current_process : k.current_process = k₀.current_process
  file_descriptors : k.file_descriptors = k₀.file_descriptors

section Start

variable {k₀ k k' : Kernel} {m n process entry slot stack task : Nat} {p : Process} {t : Task}
  {ptrs : List Nat} {filename : List UInt8}

theorem Grown.linkedTo (hg : Grown k₀ m k) (hhead : k.task_head = k₀.task_head)
    (htail_eq : k.task_tail = k₀.task_tail) (htail : TailSound k₀) (task : Nat) :
    Grown (k₀.linkedTo task) m (k.linkedTo task) := by
  unfold Kernel.linkedTo
  rw [hhead, htail_eq]
  split
  · exact hg
  · next hne =>
    obtain ⟨hal, l, hl⟩ := htail.resolve_left hne
    rw [hl, (hg.obj hal).trans hl]
    exact hg.put (k.put_stored _ _)

theorem Kernel.linkedTo_alive {q : Nat} : (k.linkedTo task).Alive q n ↔ k.Alive q n := by
  unfold Kernel.linkedTo
  split
  · rfl
  · split
    · rfl
    · rfl

theorem Kernel.linkedTo_mem : (k.linkedTo task).mem = k.mem := by
  unfold Kernel.linkedTo
  split
  · rfl
  · split
    · rfl
    · rfl

/-- Only the tail of the list is touched. -/
theorem Kernel.linkedTo_objs {q : Nat} (hq : k.task_head = 0 ∨ q ≠ k.task_tail) :
    (k.linkedTo task).objs q = k.objs q := by
  unfold Kernel.linkedTo
  split
  · rfl
  · next hne =>
    split
    · exact (k.put_stored _ _).other q (hq.resolve_left hne)
    · rfl

theorem KeepsOwn.grown (hst : Stored k process (.process p) k') {k'' : Kernel} {M : Nat}
    (hg : Grown k' M k'') : KeepsOwn k₀ k k'' process := by
  intro q n hq hne
  have hal := hst.alive hq.alive
  refine ⟨hg.alive _ _ hal, (hg.obj hal).trans (hst.other q hne), fun a h₁ h₂ => ?_⟩
  rw [hg.mem q n a hal h₁ h₂, hst.mem]

/-- Structures in memory that is new since `k₀` may change. -/
theorem Grown.onlyIn (hg : Grown k₀ m k) (ho : OnlyIn ptrs k k')
    (hp : ∀ q ∈ ptrs, Grown.Own k₀ k q 1) : Grown k₀ m k' where
  free := hg.free.congr ho.heap_entries
  alive := fun q n hq => ho.alive (hg.alive q n hq)
  mem := ho.mem ▸ hg.mem
  objs := by
    intro q n a hq h₁ h₂
    refine (ho.objs a fun hmem => ?_).trans (hg.objs q n a hq h₁ h₂)
    exact (hp a hmem).apart hg hq h₁ h₂ ⟨le_rfl, by omega⟩
  volume := by
    rw [ho.disk]
    exact hg.volume

/-- The page directory of an address space is apart from the page tables. -/
theorem PresentDirectory.tablesApart {chunk d : Nat} {map : Nat → Nat} (hd : PresentDirectory k chunk d)
    (hmaps : MapsSpace k chunk ptrs map) : ∃ w, TablesApart k chunk d w ∧
      (∀ j < 1024, isPresent (w j) = true) ∧ ∀ j < 1024, pageMask (w j) ∈ ptrs := by
  obtain ⟨hobj, w, hw, hall⟩ := hd
  obtain ⟨d', w', hc, hdir, rfl, hnodup, -⟩ := hmaps
  rw [hobj] at hc
  cases hc
  rw [hw] at hdir
  cases hdir
  have hmem : ∀ j < 1024, pageMask (w j) ∈ tablePtrs w 0 1024 := fun j hj =>
    List.mem_map_of_mem (List.mem_range'_1.mpr ⟨by omega, by omega⟩)
  simp only [List.nodup_cons, List.mem_cons, not_or] at hnodup
  refine ⟨w, ⟨hobj, hw, fun j hj heq => ?_, fun j hj heq => ?_⟩, hall, fun j hj => ?_⟩
  · exact hnodup.1.2 (heq ▸ hmem j hj)
  · exact hnodup.2.1 (heq ▸ hmem j hj)
  · exact List.mem_cons_of_mem _ (List.mem_cons_of_mem _ (hmem j hj))

/-- The task is made and linked, and the program and its stack are mapped. -/
theorem processLoadTask_starts (hg : Grown k₀ m k) (hlists : SameLists k₀ k)
    (hfds : k.file_descriptors = k₀.file_descriptors) (htail : TailSound k₀)
    (hm : m + 1027 ≤ 25600) (hown : Grown.Own k₀ k process n)
    (hobj : k.objs process = some (.process p))
    (hstack : Grown.Own k₀ k stack (blocksOf PLUMOS_USER_PROGRAM_STACK_SIZE)) (hne : stack ≠ process)
    (hentry : ∀ k', KeepsOwn k₀ k k' process →
      Returns (taskEntry p) k' fun ip k'' => k' = k'' ∧ ip = entry) {f : KM Int}
    (hf : MapsProgram process p f) {map : Nat → Nat}
    (hmap : ∀ task k' t ptrs, KeepsOwn k₀ k k' process →
      ProcessAt process k' (p.started filename stack slot task) t ptrs identityMap →
      Returns f k' fun res k'' => res = 0 ∧ MapsSpace k'' t.page_directory ptrs map ∧
        OnlyIn ptrs k' k'') :
    Returns (processLoadTask filename process stack slot) k fun r k' => r = (0, process) ∧
      KeepsOwn k₀ k k' process ∧ ∃ task t ptrs d, Started k₀ (m + 1027) process slot entry
        (p.started filename stack slot task)
        ((stackPatch (p.started filename stack slot task)).apply map) t ptrs d k' := by
  refine .bind (modifyProcess_returns _ hown.alive.ne_zero hobj) ?_
  intro _ k₁ hst₁
  have hg₁ := hg.stored hown hst₁
  have hown₁ : Grown.Own k₀ k₁ process n := ⟨hst₁.alive hown.alive, hown.fresh⟩
  have hhead₁ : k₁.task_head = k₀.task_head := hst₁.globals.task_head.trans hlists.task_head
  have htail_eq₁ : k₁.task_tail = k₀.task_tail := hst₁.globals.task_tail.trans hlists.task_tail
  have htail₁ : TailSound k₁ := by
    unfold TailSound
    rw [hhead₁, htail_eq₁]
    refine htail.imp_right ?_
    rintro ⟨hal, l, hl⟩
    exact ⟨hg₁.alive _ _ hal, l, (hg₁.obj hal).trans hl⟩
  refine .bind (taskNew_starts hg₁.free hm hown₁.alive hst₁.self htail₁ fun M k' hk' =>
    hentry k' (KeepsOwn.grown hst₁ hk')) ?_
  rintro task k₂ ⟨herr, hk₂, happ, t, ptrs, hn⟩
  -- the tail of the list is old, so what is new is not touched when the task is linked
  have hapart : ∀ q n, Grown.Own k₀ k q n → k₁.task_head = 0 ∨ q ≠ k₁.task_tail := by
    intro q n hq
    rw [hhead₁, htail_eq₁]
    refine htail.imp_right ?_
    rintro ⟨hal, -⟩ rfl
    exact hq.fresh 1 hal
  have halive₂ : ∀ q n, k₁.Alive q n → k₂.Alive q n := fun q n hq =>
    hk₂.alive q n (Kernel.linkedTo_alive.mpr hq)
  have hobjs₂ : ∀ q n, k₁.Alive q n → k₁.task_head = 0 ∨ q ≠ k₁.task_tail → k₂.objs q = k₁.objs q :=
    fun q n hq hout => (hk₂.obj (Kernel.linkedTo_alive.mpr hq)).trans (Kernel.linkedTo_objs hout)
  rw [if_neg herr]
  refine .bind (modifyProcess_returns _ hown.alive.ne_zero
    ((hobjs₂ _ _ hown₁.alive (hapart _ _ hown)).trans hst₁.self)) ?_
  intro _ k₃ hst₃
  have hown₂ : Grown.Own (k₀.linkedTo task) k₂ process n :=
    ⟨halive₂ _ _ hown₁.alive, fun n' hn' => hown.fresh n' (Kernel.linkedTo_alive.mp hn')⟩
  have hg₃ := ((hg₁.linkedTo hhead₁ htail_eq₁ htail task).trans hk₂).stored hown₂ hst₃
  have hn₃ := hn.stored hst₃ hown₁.alive
  have hkeep : KeepsOwn k₀ k k₃ process := by
    intro q n hq hqne
    have hq₁ := hst₁.alive hq.alive
    refine ⟨hst₃.alive (halive₂ _ _ hq₁), ?_, fun a h₁ h₂ => ?_⟩
    · rw [hst₃.other q hqne, hobjs₂ q n hq₁ (hapart q n hq), hst₁.other q hqne]
    · rw [hst₃.mem, hk₂.mem q n a (Kernel.linkedTo_alive.mpr hq₁) h₁ h₂, Kernel.linkedTo_mem, hst₁.mem]
  have hat : ProcessAt process k₃ (p.started filename stack slot task) t ptrs identityMap :=
    { process_eq := hst₃.self
      process_alive := ⟨n, hst₃.alive hown₂.alive⟩
      task_eq := hn₃.obj
      task_alive := hn₃.own.alive
      space := hn₃.space }
  obtain ⟨d, hd⟩ := hn₃.present
  obtain ⟨w, hdir, hpresent, htables⟩ := hd.tablesApart hn₃.space
  have hfrom : MapsFrom k₃ process (p.started filename stack slot task) t d w :=
    { process_eq := hst₃.self
      task_eq := hn₃.obj
      process_apart := fun j hj heq => hn.fresh _ (heq ▸ htables j hj) n hown₁.alive
      task_apart := fun j hj heq => hn₃.not_mem (by
        have := htables j hj
        rwa [← heq] at this)
      directory := hdir }
  have hf' : MapsProgram process (p.started filename stack slot task) f := by
    cases hf with
    | elf htype => exact .elf htype
    | binary htype => exact .binary htype
  refine .bind ((processMapMemory_round hat (hkeep _ _ hstack hne).1 hf'
    (hmap task k₃ t ptrs hkeep hat)).and_ensures (processMapMemory_tables hfrom)) ?_
  rintro _ k₄ ⟨⟨rfl, hmaps₄, honly⟩, honly_tables⟩
  rw [if_neg (lt_irrefl _)]
  have hdir₄ := hdir.kept honly_tables
  have hptrs : ∀ q ∈ ptrs, Grown.Own (k₀.linkedTo task) k₃ q 1 := fun q hq =>
    ⟨hn₃.space.owns.alive q hq, fun n' hn' =>
      hn.fresh q hq n' (hg₁.alive _ _ (Kernel.linkedTo_alive.mp hn'))⟩
  have hg₄ := hg₃.onlyIn honly hptrs
  have hat₄ := hat.mapped rfl hmaps₄ honly
  have hglob := hst₃.globals.trans honly.globals
  refine .bind (R := fun _ k₅ => k₅ = { k₄ with
    processes := Function.update k₄.processes slot process }) (.modifies rfl) ?_
  rintro _ _ rfl
  refine .pure ⟨rfl, fun q n hq hqne => ?_, task, t, ptrs, d, ?_⟩
  · obtain ⟨hal, hobjs, hmem⟩ := hkeep q n hq hqne
    refine ⟨honly.alive hal, (honly.objs q fun hin => ?_).trans hobjs, fun a h₁ h₂ => ?_⟩
    · exact hn.fresh q hin n (hst₁.alive hq.alive)
    · rw [← hmem a h₁ h₂]
      exact congrFun honly.mem a
  exact
    { grown := ⟨hg₄.free, hg₄.alive, hg₄.mem, hg₄.objs, hg₄.volume⟩
      processAt := ⟨hat₄.process_eq, hat₄.process_alive, hat₄.task_eq, hat₄.task_alive, hat₄.space⟩
      own := ⟨n, honly.alive (hst₃.alive hown₂.alive), hown.fresh⟩
      tables := fun q hq => ⟨honly.alive (hptrs q hq).alive, fun n' hn' =>
        (hptrs q hq).fresh n' (Kernel.linkedTo_alive.mpr hn')⟩
      id := rfl
      owner := hn₃.process_eq
      registers := hn₃.registers
      directory := ⟨hdir₄.chunk_eq, w, hdir₄.words, hpresent⟩
      head := by rw [hglob.task_head, happ.head, hhead₁]; rfl
      tail := hglob.task_tail.trans happ.tail
      current := by
        rw [hglob.current_task, happ.current, hhead₁, hst₁.globals.current_task, hlists.current_task]
        rfl
      processes := by
        dsimp only
        rw [hglob.processes, happ.processes, hst₁.globals.processes, hlists.processes]
      current_process := by
        rw [hglob.current_process, happ.current_process, hst₁.globals.current_process,
          hlists.current_process]
      file_descriptors := by
        rw [hglob.file_descriptors, happ.file_descriptors, hst₁.globals.file_descriptors, hfds] }

/-! ### process_load -/

theorem KeepsOwn.before {k₁ : Kernel} (hg : Grown k m k₁) (hk : KeepsOwn k₀ k₁ k' process) :
    KeepsOwn k₀ k k' process := by
  intro q n hq hne
  obtain ⟨hal, hobjs, hmem⟩ := hk q n (hq.mono hg) hne
  exact ⟨hal, hobjs.trans (hg.obj hq.alive), fun a h₁ h₂ =>
    (hmem a h₁ h₂).trans (hg.mem q n a hq.alive h₁ h₂)⟩

/-- The two have the same program. -/
structure SameProgram (p q : Process) : Prop where
  filetype : q.filetype = p.filetype
  ptr : q.ptr = p.ptr
  elf_file : q.elf_file = p.elf_file
  size : q.size = p.size

/-- The process `p` has its program: `f` maps it and makes the address space `map`, and it starts
at `entry`. -/
structure ProgramReady (k₀ : Kernel) (m process entry : Nat) (f : KM Int) (map : Nat → Nat)
    (p : Process) (k : Kernel) : Prop where
  grown : Grown k₀ m k
  own : Grown.Own k₀ k process 3
  obj : k.objs process = some (.process p)
  file_descriptors : k.file_descriptors = k₀.file_descriptors
  maps : MapsProgram process p f
  starts : ∀ k', KeepsOwn k₀ k k' process →
    Returns (taskEntry p) k' fun ip k'' => k' = k'' ∧ ip = entry
  mapped : ∀ q k' t ptrs, SameProgram p q → KeepsOwn k₀ k k' process →
    ProcessAt process k' q t ptrs identityMap →
    Returns f k' fun res k'' => res = 0 ∧ MapsSpace k'' t.page_directory ptrs map ∧ OnlyIn ptrs k' k''

/-- What a program was read into: `R` is what is known of it. -/
def ReadsProgram (k : Kernel) (m M entry : Nat) (filename : List UInt8)
    (R : Nat → Process → (Nat → Nat) → Kernel → Prop) : Prop :=
  ∀ process k₁, Grown k (m + 3) k₁ → k₁.Tidy → Grown.Own k k₁ process 3 →
    k₁.objs process = some (.process Process.zero) → k₁.file_descriptors = k.file_descriptors →
    Returns (processLoadData filename process) k₁ fun res k₂ => res = 0 ∧
      ∃ p f map, ProgramReady k M process entry f map p k₂ ∧ R process p map k₂

/-- What is known of a process that was loaded: `R` was known of it when its program had been
read, and nothing that was new then has changed. -/
def LoadedFrom (k : Kernel) (M slot entry : Nat) (filename : List UInt8)
    (R : Nat → Process → (Nat → Nat) → Kernel → Prop) (process : Nat) (k' : Kernel) : Prop :=
  ∃ p map k₂ stack task t ptrs d, R process p map k₂ ∧ KeepsOwn k k₂ k' process ∧
    Started k (M + 1031) process slot entry (p.started filename stack slot task)
      ((stackPatch (p.started filename stack slot task)).apply map) t ptrs d k'

/-- With enough free memory and a free slot the process is loaded when its program is. -/
theorem processLoad_round (hk : k.Tidy) (hfree : k.FreeFrom m) (htail : TailSound k)
    (hslot : processGetFreeSlot k.processes = (slot : Int)) (hempty : k.processes slot = 0) {M : Nat}
    (hm : m + 3 ≤ M) (hM : M + 1031 ≤ 25600) {R : Nat → Process → (Nat → Nat) → Kernel → Prop}
    (hdata : ReadsProgram k m M entry filename R) :
    Returns (processLoad filename) k fun r k' => r.1 = 0 ∧
      LoadedFrom k M slot entry filename R r.2 k' := by
  have hlt : slot < 12 := by
    rcases processGetFreeSlot_cases k with ⟨s, hs, hlt, -⟩ | ⟨h8, -⟩
    · omega
    · omega
  refine .bind (R := fun ps k' => k = k' ∧ k.processes = ps) (.reads ⟨rfl, rfl⟩) ?_
  rintro _ _ ⟨rfl, rfl⟩
  dsimp only
  rw [hslot, if_neg (by omega)]
  refine .bind (R := fun taken k' => k = k' ∧ taken = 0) ?_ ?_
  · unfold processGet
    rw [if_neg (by simp only [PLUMOS_MAX_PROCESSES]; omega)]
    exact .reads ⟨rfl, hempty⟩
  rintro _ _ ⟨rfl, rfl⟩
  rw [if_neg (not_not_intro rfl)]
  have hblocks : blocksOf sizeofProcess = 3 := by decide
  refine .bind (((Grown.refl hfree).kzallocStructure (by decide) (by rw [hblocks]; omega)).and_ensures
    (kzallocObj_made (.empty hk) (by decide) _)) ?_
  rintro process k₁ ⟨⟨hne, hg₁, -, hown₁, hobj₁⟩, hk₁, hmade⟩
  rw [hblocks] at hg₁ hown₁
  obtain ⟨hmade, -⟩ := hmade.resolve_left fun hbad => hne hbad.1
  rw [if_neg hne]
  refine .bind ((hdata process k₁ hg₁ hk₁.guards.tidy hown₁ hobj₁
    hmade.globals.file_descriptors).and_ensures
    (processLoadData_intact (.empty hk₁.guards.tidy) (Set.notMem_empty _) hmade.held hobj₁
      filename)) ?_
  rintro _ k₂ ⟨⟨rfl, p, f, map, hready, hR⟩, hk₂, -⟩
  rw [if_neg (lt_irrefl _)]
  have hstack_blocks : blocksOf PLUMOS_USER_PROGRAM_STACK_SIZE = 4 := by decide
  refine .bind (((Grown.refl hready.grown.free).kzalloc (by decide)
    (by rw [hstack_blocks]; omega)).and_ensures (kzalloc_spec _ _)) ?_
  rintro stack k₃ ⟨⟨hstack_ne, hg₃, -, hown₃, hnew₃, -⟩, halloc⟩
  have hglob₃ : SameGlobals k₂ k₃ := by
    rcases halloc with ⟨rfl, rfl⟩ | ha
    · exact .refl _
    · exact ha.globals
  rw [if_neg hstack_ne]
  have hlists : SameLists k k₃ :=
    (hk₁.lists.trans hk₂.lists).trans ⟨hglob₃.processes, hglob₃.current_process, hglob₃.task_head,
      hglob₃.task_tail, hglob₃.current_task⟩
  have hne_stack : stack ≠ process := by
    rintro rfl
    exact hnew₃ 3 hready.own.alive
  rw [hstack_blocks] at hg₃
  refine (processLoadTask_starts (hready.grown.trans hg₃) hlists
    (hglob₃.file_descriptors.trans hready.file_descriptors) htail (by omega)
    (hready.own.mono hg₃) ((hg₃.obj hready.own.alive).trans hready.obj) (.before hready.grown hown₃)
    hne_stack (fun k' hk' => hready.starts k' (hk'.before hg₃)) hready.maps
    fun task k' t ptrs hk' hat => hready.mapped (p.started _ stack _ task) k' t ptrs
      ⟨rfl, rfl, rfl, rfl⟩ (hk'.before hg₃) hat).mono ?_
  rintro _ k₄ ⟨rfl, hkeep, task, t, ptrs, d, hstarted⟩
  rw [show M + 4 + 1027 = M + 1031 by omega, Int.toNat_natCast] at hstarted
  exact ⟨rfl, p, map, k₂, stack, task, t, ptrs, d, hR, hkeep.before hg₃, hstarted⟩

end Start

/-! ### A flat binary -/

/-- The process has a flat binary with these bytes, in memory that is new since `k₀`. -/
structure HasBinary (k₀ : Kernel) (size : Nat) (bytes : Nat → UInt8) (process : Nat) (p : Process)
    (map : Nat → Nat) (k : Kernel) : Prop where
  filetype : p.filetype = PROCESS_FILETYPE_BINARY
  size_eq : p.size = size
  map_eq : map = (binaryPatch p).apply identityMap
  own : Grown.Own k₀ k p.ptr (blocksOf size)
  ne : p.ptr ≠ process
  bytes : HoldsBytes k p.ptr size bytes

section Binary

variable {k : Kernel} {h : FatHeader} {es : List FatDirectoryItem} {cs : List (List UInt8)}
  {e : FatDirectoryItem} {chain : List Nat} {blocks i m slot : Nat} {path : List UInt8}

/-- A flat binary is ready when it has been read. -/
theorem FileAt.readsBinary (hf : FileAt h es cs e chain blocks path k) (hs : SlotFree k i)
    (hno : NoElf e.filesize (h.contents k.disk.image chain))
    (hm : m + (4 * cs.length + 2 * blocks + 12) + 2 * blocksOf e.filesize ≤ 25600) :
    ReadsProgram k m (m + (4 * cs.length + 2 * blocks + 12) + 2 * blocksOf e.filesize)
      PLUMOS_PROGRAM_VIRTUAL_ADDRESS path
      (HasBinary k e.filesize (h.contents k.disk.image chain)) := by
  intro process k₁ hg₁ ht₁ hown₁ hobj₁ hfds₁
  have himage : k₁.disk.image = k.disk.image := hg₁.volume.image
  refine (processLoadData_binary (hf.mono hg₁) ht₁ hg₁.free ⟨hfds₁ ▸ hs.first, hs.lt⟩
    (himage ▸ hno) (by omega) hown₁.alive hobj₁).mono ?_
  rintro res k₂ ⟨rfl, ⟨ptr, hl⟩, hfds₂⟩
  rw [himage] at hl
  have hst₁ := k₁.put_stored process (.process (Process.zero.withBinary ptr e.filesize))
  have hne : ptr ≠ process := by
    rintro rfl
    exact hl.own.fresh 3 hown₁.alive
  refine ⟨rfl, Process.zero.withBinary ptr e.filesize, processMapBinary process, _, ?_, rfl, rfl,
    rfl, .before hg₁ hl.own, hne, hl.bytes⟩
  exact
    { grown := ((hg₁.stored hown₁ hst₁).trans hl.grown).mono (by omega)
      own := ⟨hl.grown.alive _ _ hown₁.alive, hown₁.fresh⟩
      obj := (hl.grown.obj hown₁.alive).trans hst₁.self
      file_descriptors := hfds₂.trans hfds₁
      maps := .binary rfl
      starts := fun k' _ => by
        have hno : PROCESS_FILETYPE_BINARY ≠ PROCESS_FILETYPE_ELF := by decide
        unfold taskEntry
        exact (if_neg hno).symm ▸ .pure ⟨rfl, rfl⟩
      mapped := by
        intro q k' t ptrs hq hkeep hat
        have hal := (hkeep ptr _ (.before hg₁ hl.own) hne).1
        have hmaps := processMapBinary_maps hat (by rw [hq.ptr, hq.size]; exact hal)
        unfold binaryPatch at hmaps ⊢
        rwa [hq.ptr, hq.size] at hmaps }

end Binary

end PlumOS
