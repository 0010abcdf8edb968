import PlumOS.Fs.FileOwnership
import PlumOS.Task.LoadFence

/-!
# What a loaded program owns

Reading a program from its file puts it in memory of its own. That memory is apart from
all that was allocated before and from what the file takes while it is open, so it stays
when the file is closed.

## Main definitions

- `OwnsElf`, `OwnsProgram` — what belongs to an ELF file and to a program

## Main results

- `elfLoad_intact`, `processLoadData_intact` — what is loaded has its own memory
-/

namespace PlumOS

open StateExcept

/-- The ELF file belongs to `T` with its memory. -/
def OwnsElf (T : Set Nat) (k : Kernel) (elf_file : Nat) : Prop :=
  elf_file ∈ T ∧ ∃ f, k.objs elf_file = some (.elfFile f) ∧ (f.elf_memory = 0 ∨ f.elf_memory ∈ T)

/-- The program of a process belongs to `T`. -/
def OwnsProgram (T : Set Nat) (k : Kernel) (p : Process) : Prop :=
  p.filetype = PROCESS_FILETYPE_BINARY ∧ p.ptr ∈ T ∨
    p.filetype = PROCESS_FILETYPE_ELF ∧ OwnsElf T k p.elf_file

variable {P S T : Set Nat} {k k' : Kernel}

theorem OwnsElf.intact {elf_file : Nat} (h : OwnsElf T k elf_file) (hk : Intact T k k') :
    OwnsElf T k' elf_file := by
  obtain ⟨hmem, f, hf, hmemory⟩ := h
  exact ⟨hmem, f, (hk.objs _ hmem).trans hf, hmemory⟩

theorem OwnsProgram.intact {p : Process} (h : OwnsProgram T k p) (hk : Intact T k k') :
    OwnsProgram T k' p :=
  h.imp_right fun helf => ⟨helf.1, helf.2.intact hk⟩

/-! ### The ELF loader -/

theorem elfHeader_intact (h : Guards P k) (file : Nat) :
    Framed (Intact P) (elfHeader file) k fun _ k' => k = k' := by
  refine (elfHeader_spec file k).mono ?_
  rintro _ _ rfl
  exact ⟨.refl h, rfl⟩

/-- The file is still there, with the same memory, and nothing was allocated. -/
structure FileKept (elf_file memory : Nat) (k k' : Kernel) : Prop where
  heap_entries : k'.heap_entries = k.heap_entries
  file_descriptors : k'.file_descriptors = k.file_descriptors
  file : ∃ f, k'.objs elf_file = some (.elfFile f) ∧ f.elf_memory = memory

theorem elfProcessPheadersLoop_intact {elf_file memory : Nat} (phdrs : Nat) (hout : elf_file ∉ P) :
    ∀ (fuel i : Nat) (k₁ : Kernel), Guards P k₁ → FileKept elf_file memory k k₁ →
      Framed (Intact P) (elfProcessPheadersLoop elf_file phdrs fuel i) k₁ fun _ k' =>
        FileKept elf_file memory k k' := by
  intro fuel
  induction fuel with
  | zero =>
    intro i k₁ h hkept
    exact .pure (.refl h) hkept
  | succ fuel ih =>
    intro i k₁ h hkept
    refine Framed.bind (P := fun _ k' => k₁ = k') ?_ ?_
    · refine (derefMem_spec _ _ _).mono ?_
      rintro _ _ ⟨rfl, -⟩
      exact ⟨.refl h, rfl⟩
    rintro phdr _ - rfl
    refine Framed.bind (P := fun _ k' => FileKept elf_file memory k k')
      (.onlyIf (.refl h) (fun _ => ?_) fun _ => hkept) ?_
    · obtain ⟨he, hfds, f, hf, hmemory⟩ := hkept
      refine (intact_modify Obj.elfFile?_eq_some h hout fun f => elfProcessPhdrPtLoad f phdr).mono ?_
      rintro _ k₂ - ⟨f', hf', hst⟩
      rw [hf] at hf'
      cases hf'
      exact ⟨hst.heap_entries.trans he, hst.globals.file_descriptors.trans hfds, _, hst.self,
        (elfProcessPhdrPtLoad_memory f phdr).trans hmemory⟩
    · intro _ k₂ hk₂ hkept₂
      exact ih _ k₂ hk₂.guards hkept₂

theorem elfProcessLoaded_intact {elf_file memory : Nat} (h : Guards P k) (hout : elf_file ∉ P)
    (hf : ∃ f, k.objs elf_file = some (.elfFile f) ∧ f.elf_memory = memory) :
    Framed (Intact P) (elfProcessLoaded elf_file) k fun _ k' => FileKept elf_file memory k k' := by
  refine Framed.bind (elfHeader_intact h _) ?_
  rintro header _ - rfl
  dsimp only
  split
  · exact .pure (.refl h) ⟨rfl, rfl, hf⟩
  refine Framed.bind (intact_deref h _ _) ?_
  rintro f _ - ⟨rfl, -, -⟩
  refine Framed.bind (elfProcessPheadersLoop_intact _ hout _ _ k h ⟨rfl, rfl, hf⟩) ?_
  intro _ k₁ hk₁ hkept
  exact .pure (.refl hk₁.guards) hkept

/-- Memory from `kzalloc`, as a set: none when nothing was asked for or nothing was left. -/
theorem kzalloc_beside (h : Guards P k) (size : Nat) :
    Framed (Intact P) (kzalloc size) k fun p k' => ∃ M, Beside P M k' ∧
      k'.file_descriptors = k.file_descriptors ∧ (p = 0 ∨ size = 0 ∨ p ∈ M) := by
  refine (kzalloc_obtained h size).mono ?_
  rintro p k' hk' (⟨rfl, rfl⟩ | ⟨-, hout, hobt⟩)
  · exact ⟨∅, .empty P h.tidy, rfl, Or.inl rfl⟩
  · rcases Nat.eq_zero_or_pos size with h0 | hpos
    · exact ⟨∅, .empty P hk'.guards.tidy, hobt.globals.file_descriptors, Or.inr (Or.inl h0)⟩
    · exact ⟨{p}, .singleton hk'.guards.tidy (hobt.held hpos) hout, hobt.globals.file_descriptors,
        Or.inr (Or.inr rfl)⟩

/-- The file was read into memory of its own, or it failed; either way the descriptor is
as it was. -/
def ElfRead (P S : Set Nat) (elf_file : Nat) (fd res : Int) (k : Kernel) : Prop :=
  (res < 0 ∧ Beside P S k ∧ OpenOn S k fd (OwnsItem P S k)) ∨
    ∃ T, Beside P T k ∧ Beside (P ∪ T) S k ∧ OpenOn S k fd (SolidItem S k) ∧ OwnsElf T k elf_file

theorem elfLoadOpened_intact {elf_file : Nat} {fd : Int} (h : Guards P k) (hout : elf_file ∉ P)
    (hheld : k.Held elf_file) (hS : Beside (insert elf_file P) S k)
    (hf : OpenOn S k fd (OwnsItem (insert elf_file P) S k)) :
    Framed (Intact P) (elfLoadOpened elf_file fd) k fun res k' =>
      ElfRead P S elf_file fd res k' := by
  have h₁ : Guards (insert elf_file P) k := h.insert hheld
  have hSP : Beside P S k := hS.mono (Set.subset_insert _ _)
  have hnot : elf_file ∉ S := fun hmem => hS.apart _ hmem (Set.mem_insert _ _)
  refine Framed.bind ((fstat_intact h₁ hf).weaken fun _ => Intact.tail) ?_
  rintro ⟨res, stat⟩ _ - ⟨-, rfl, -, hsolid⟩
  split
  · next hneg =>
    refine .pure (.refl h) (Or.inl ⟨hneg, hSP, hf.intact (.refl hS.toGuards) rfl ?_⟩)
    exact fun _ hi => hi.mono (Set.subset_insert _ _) le_rfl
  cases stat with
  | none => exact .fails
  | some stat =>
    have hsolid := hsolid rfl
    refine Framed.bind ((kzalloc_beside (h₁.union hS.toGuards) stat.filesize).weaken
      fun _ hk => hk.left.tail) ?_
    rintro memory k₁ - ⟨hk₁, M, hM, hfds₁, hmemory⟩
    refine Framed.bind (intact_deref hk₁.left.tail.guards _ _) ?_
    rintro f _ - ⟨rfl, -, -⟩
    have h₂ : Guards (P ∪ S ∪ M) k₁ :=
      (hk₁.left.tail.guards.union hk₁.right.guards).union hM.toGuards
    have hnotM : elf_file ∉ M := fun hmem => hM.apart _ hmem (Or.inl (Set.mem_insert _ _))
    have hout₂ : elf_file ∉ P ∪ S ∪ M := by
      rintro ((hP | hmem) | hmem)
      · exact hout hP
      · exact hnot hmem
      · exact hnotM hmem
    refine Framed.bind (P := fun _ k₂ => Intact (P ∪ S ∪ M) k₁ k₂ ∧ Stored k₁ elf_file
      (.elfFile { f with elf_memory := memory }) k₂) ?_ ?_
    · refine (storeObj_spec _ _ _).ensures.mono ?_
      intro _ k₂ hst
      have hk₂ := Intact.stored h₂ hst hout₂
      exact ⟨hk₂.left.left, hk₂, hst⟩
    rintro _ k₂ - ⟨hk₂, hst₂⟩
    refine Framed.bind ((fread_intact hk₂.guards memory stat.filesize 1 fd).weaken
      fun _ hk => hk.left.left) ?_
    rintro res₃ k₃ - ⟨hk₃, he₃, ho₃, hfds₃, hread⟩
    -- whatever follows, the descriptor is as it was
    have hopen : ∀ k₄, Intact (P ∪ S ∪ M) k₃ k₄ → k₄.file_descriptors = k₃.file_descriptors →
        OpenOn S k₄ fd (SolidItem S k₄) ∧ Beside P S k₄ := by
      intro k₄ hk₄ hfds₄
      have hall := hk₂.trans (hk₃.trans hk₄)
      have hfds : k₄.file_descriptors = k.file_descriptors := by
        rw [hfds₄, hfds₃, hst₂.globals.file_descriptors, hfds₁]
      have hSk : Intact S k k₄ := hk₁.right.trans hall.left.right
      exact ⟨hsolid.intact hSk hfds fun _ hi => hi.intact hSk, hSk.guards, hSP.apart⟩
    have hfail : ∀ k₄, Intact (P ∪ S ∪ M) k₃ k₄ → k₄.file_descriptors = k₃.file_descriptors →
        Beside P S k₄ ∧ OpenOn S k₄ fd (OwnsItem P S k₄) := by
      intro k₄ hk₄ hfds₄
      obtain ⟨hopen, hS₄⟩ := hopen k₄ hk₄ hfds₄
      exact ⟨hS₄, hopen.intact (.refl hS₄.toGuards) rfl fun _ hi => hi.owns P⟩
    split
    · next hneg =>
      obtain ⟨hS₃, hopen₃⟩ := hfail k₃ (.refl hk₃.guards) rfl
      exact .pure (.refl hk₃.guards.left.left) (Or.inl ⟨hneg, hS₃, hopen₃⟩)
    next hnonneg =>
    refine ((@elfProcessLoaded_intact _ _ _ memory hk₃.guards hout₂ ⟨_, by
      rw [ho₃, hst₂.self], rfl⟩).weaken fun _ hk => hk.left.left).mono ?_
    rintro res₄ k₄ - ⟨hk₄, hkept⟩
    obtain ⟨hopen₄, hS₄⟩ := hopen k₄ hk₄ hkept.file_descriptors
    have hheld₄ : k₄.Held elf_file := hk₁.left.head.1.congr (by
      rw [hkept.heap_entries, he₃, hst₂.heap_entries])
    have hM₄ : Beside P M k₄ := ⟨hk₄.right.guards, fun p hp hP =>
      hM.apart p hp (Or.inl (Set.mem_insert_of_mem _ hP))⟩
    refine Or.inr ⟨insert elf_file M, hM₄.insert hheld₄ hout, ⟨hS₄.toGuards, ?_⟩, hopen₄,
      Set.mem_insert _ _, ?_⟩
    · rintro p hp (hP | rfl | hmem)
      · exact hS₄.apart p hp hP
      · exact hnot hp
      · exact hM.apart p hmem (Or.inr hp)
    · obtain ⟨f', hf', rfl⟩ := hkept.file
      refine ⟨f', hf', hmemory.imp_right fun hmemory => Set.mem_insert_of_mem _ ?_⟩
      exact hmemory.resolve_left (hread (not_lt.mp hnonneg))

/-- Without memory for the file nothing is read. -/
theorem elfLoadOpened_zero {fd : Int} (h : Guards P k) (hS : Beside P S k)
    (hf : OpenOn S k fd (OwnsItem P S k)) :
    Framed (Intact P) (elfLoadOpened 0 fd) k fun res k' => ElfRead P S 0 fd res k' := by
  refine Framed.bind (fstat_intact h hf) ?_
  rintro ⟨res, stat⟩ _ - ⟨rfl, -, -⟩
  split
  · next hneg => exact .pure (.refl h) (Or.inl ⟨hneg, hS, hf⟩)
  cases stat with
  | none => exact .fails
  | some stat =>
    refine Framed.bind (kzalloc_obtained h _) ?_
    rintro memory k₁ hk₁ -
    refine Ensures.bind (deref_spec _ _ _) ?_
    rintro f _ ⟨-, h0, -⟩
    exact absurd rfl h0

/-- An ELF file that is loaded has its own memory, also when it is closed again. -/
theorem elfLoad_intact (h : Guards P k) (filename : List UInt8) :
    Framed (Intact P) (elfLoad filename) k fun r k' => 0 ≤ r.1 →
      ∃ T, Beside P T k' ∧ OwnsElf T k' r.2 := by
  refine Framed.bind (kzallocObj_made h (by decide) _) ?_
  intro elf_file k₁ hk₁ hnew
  refine Framed.bind (P := fun fd k₂ => fd = 0 ∨ ∃ S, Beside P S k₂ ∧
    OpenOn S k₂ fd (OwnsItem P S k₂) ∧
      (elf_file = 0 ∨ elf_file ∉ P ∧ k₂.Held elf_file ∧ Beside (insert elf_file P) S k₂ ∧
        OpenOn S k₂ fd (OwnsItem (insert elf_file P) S k₂))) ?_ ?_
  · rcases hnew with ⟨rfl, -⟩ | ⟨hnew, -⟩
    · refine (fopen_intact hk₁.guards _ _).mono fun fd k₂ _ hfd => hfd.imp_right ?_
      rintro ⟨S, hS, hopen⟩
      exact ⟨S, hS, hopen, Or.inl rfl⟩
    · refine ((fopen_intact (hk₁.guards.insert hnew.held) _ _).weaken fun _ => Intact.tail).mono ?_
      rintro fd k₂ - ⟨hk₂, hfd⟩
      refine hfd.imp_right ?_
      rintro ⟨S, hS, hopen⟩
      refine ⟨S, hS.mono (Set.subset_insert _ _), hopen.intact (.refl hS.toGuards) rfl ?_,
        Or.inr ⟨hnew.not_mem, hk₂.head.1, hS, hopen⟩⟩
      exact fun _ hi => hi.mono (Set.subset_insert _ _) le_rfl
  intro fd k₂ hk₂ hfd
  split
  · next hle =>
    obtain rfl : fd = 0 := by
      rcases hfd with h0 | ⟨S, -, ⟨hpos, -⟩, -⟩
      · exact h0
      · omega
    exact .pure (.refl hk₂.guards) fun hneg => absurd hneg (by decide)
  next hpos =>
  obtain ⟨S, hS, hopen, hfile⟩ := hfd.resolve_left (by omega)
  refine Framed.bind (P := fun res k₃ => ElfRead P S elf_file fd res k₃) ?_ ?_
  · rcases hfile with rfl | ⟨hout, hheld, hS', hopen'⟩
    · exact elfLoadOpened_zero hk₂.guards hS hopen
    · exact elfLoadOpened_intact hk₂.guards hout hheld hS' hopen'
  rintro res k₃ hk₃ (⟨hneg, hS₃, hopen₃⟩ | ⟨T, hT, hS₃, hopen₃, hown⟩)
  · refine Framed.bind (fclose_intact hk₃.guards hS₃ hopen₃) ?_
    intro _ k₄ hk₄ _
    exact .pure (.refl hk₄.guards) fun hnonneg => absurd hneg (not_lt.mpr hnonneg)
  · refine Framed.bind ((fclose_intact (hk₃.guards.union hT.toGuards) hS₃
      (hopen₃.intact (.refl hS₃.toGuards) rfl fun _ hi => hi.owns _)).weaken fun _ => Intact.left) ?_
    rintro _ k₄ - ⟨hk₄, -⟩
    refine .pure (.refl hk₄.left.guards) fun hnonneg => ⟨T, hT.intact hk₄, ?_⟩
    dsimp only at hnonneg ⊢
    rw [if_neg (not_lt.mpr hnonneg)]
    exact hown.intact hk₄.right

/-! ### Processes -/

/-- `k'` has the process `p` of `k` with another program, which is in memory of its own
unless loading it failed. -/
def Programmed (P : Set Nat) (process : Nat) (p : Process) (res : Int) (k' : Kernel) : Prop :=
  k'.Held process ∧ ∃ p', k'.objs process = some (.process p') ∧
    (res < 0 ∧ p' = p ∨ 0 ≤ res ∧ ∃ filetype ptr size, p' = { p with filetype, ptr, size } ∧
      ∃ T, Beside (insert process P) T k' ∧ OwnsProgram T k' p')

variable {process : Nat} {p : Process}

theorem processLoadElf_intact (h : Guards P k) (hout : process ∉ P) (hheld : k.Held process)
    (hobj : k.objs process = some (.process p)) (filename : List UInt8) :
    Framed (Intact P) (processLoadElf filename process) k fun res k' =>
      Programmed P process p res k' := by
  refine Framed.bind ((elfLoad_intact (h.insert hheld) filename).weaken fun _ => Intact.tail) ?_
  rintro r k₁ - ⟨hk₁, helf⟩
  split
  · next hneg =>
    exact .pure (.refl hk₁.tail.guards) ⟨hk₁.head.1, p, hk₁.head.2.trans hobj, Or.inl ⟨hneg, rfl⟩⟩
  next hnonneg =>
  obtain ⟨T, hT, hown⟩ := helf (not_lt.mp hnonneg)
  have hnot : process ∉ T := fun hmem => hT.apart _ hmem (Set.mem_insert _ _)
  refine Framed.bind (intact_modify Obj.process?_eq_some hk₁.tail.guards hout _) ?_
  rintro _ k₂ hk₂ ⟨p₁, hp₁, hst⟩
  obtain rfl : p₁ = p := by
    rw [hk₁.head.2, hobj] at hp₁
    cases hp₁
    rfl
  refine .pure (.refl hk₂.guards) ⟨hk₁.head.1.congr hst.heap_entries, _, hst.self,
    Or.inr ⟨not_lt.mp hnonneg, _, _, _, rfl, T, hT.congr hst.heap_entries, Or.inr ⟨rfl, ?_⟩⟩⟩
  exact hown.intact (.stored hT.toGuards hst hnot)

/-- A binary was not read: there may be memory for it that is to be released. -/
structure BinaryFailed (P S : Set Nat) (process : Nat) (p : Process) (fd : Int) (r : Int × Nat)
    (k : Kernel) : Prop where
  failed : r.1 < 0
  held : k.Held process
  obj : k.objs process = some (.process p)
  beside : Beside (insert process P) S k
  descriptor : r.2 = 0 ∧ OpenOn S k fd (OwnsItem (insert process P) S k) ∨
    OpenOn S k fd (SolidItem S k) ∧ k.Disposable (insert process P ∪ S) r.2

/-- A binary was read into `T`. -/
structure BinaryRead (P S T : Set Nat) (process : Nat) (p : Process) (fd : Int) (r : Int × Nat)
    (k : Kernel) : Prop where
  read : r.1 = 0
  held : k.Held process
  obj : k.objs process = some (.process p)
  memory : Beside (insert process P) T k
  beside : Beside (insert process P ∪ T) S k
  descriptor : OpenOn S k fd (SolidItem S k)
  program : OwnsProgram T k p

theorem processLoadBinaryOpened_intact {fd : Int} (h : Guards P k) (hout : process ∉ P)
    (hheld : k.Held process) (hobj : k.objs process = some (.process p))
    (hS : Beside (insert process P) S k)
    (hf : OpenOn S k fd (OwnsItem (insert process P) S k)) :
    Framed (Intact P) (processLoadBinaryOpened process fd) k fun r k' =>
      BinaryFailed P S process p fd r k' ∨ ∃ ptr size T, BinaryRead P S T process
        { p with filetype := PROCESS_FILETYPE_BINARY, ptr, size } fd r k' := by
  have h₁ : Guards (insert process P) k := h.insert hheld
  refine Framed.bind ((fstat_intact h₁ hf).weaken fun _ => Intact.tail) ?_
  rintro ⟨res, stat⟩ _ - ⟨-, rfl, hle, hsolid⟩
  split
  · next hne =>
    exact .pure (.refl h) (Or.inl ⟨lt_of_le_of_ne hle hne, hheld, hobj, hS, Or.inl ⟨rfl, hf⟩⟩)
  cases stat with
  | none => exact .fails
  | some stat =>
    have hsolid := hsolid rfl
    refine Framed.bind ((kzalloc_obtained (h₁.union hS.toGuards) stat.filesize).weaken
      fun _ hk => hk.left.tail) ?_
    rintro ptr k₁ - ⟨hk₁, hptr⟩
    rcases hptr with ⟨rfl, rfl⟩ | ⟨hne, hnot, hobt⟩
    · rw [if_pos rfl]
      exact .pure (.refl h) (Or.inl ⟨by decide, hheld, hobj, hS, Or.inl ⟨rfl, hf⟩⟩)
    rw [if_neg hne]
    refine Framed.bind ((fread_intact hk₁.guards ptr stat.filesize 1 fd).weaken
      fun _ hk => hk.left.tail) ?_
    rintro read k₂ - ⟨hk₂, he₂, -, hfds₂, hread⟩
    have hk := hk₁.trans hk₂
    have hfds : k₂.file_descriptors = k.file_descriptors :=
      hfds₂.trans hobt.globals.file_descriptors
    have hopen₂ : OpenOn S k₂ fd (SolidItem S k₂) :=
      hsolid.intact hk.right hfds fun _ hi => hi.intact hk.right
    have hobj₂ := hk.left.head.2.trans hobj
    split
    · exact .pure (.refl hk.left.tail.guards) (Or.inl ⟨show - EIO < 0 by decide, hk.left.head.1, hobj₂,
        hS.intact hk, Or.inr ⟨hopen₂, hobt.releasable.congr he₂, hnot⟩⟩)
    next hone =>
    rw [not_not] at hone
    have hsize : 1 ≤ stat.filesize := Nat.pos_of_ne_zero (hread (by rw [hone]; decide))
    refine Framed.bind (intact_modify Obj.process?_eq_some hk.left.tail.guards hout _) ?_
    rintro _ k₃ hk₃ ⟨p₂, hp₂, hst⟩
    obtain rfl : p₂ = p := by
      rw [hobj₂] at hp₂
      cases hp₂
      rfl
    have hprocS : process ∉ S := fun hmem => hS.apart _ hmem (Set.mem_insert _ _)
    have hkS : Intact S k₂ k₃ := .stored hk.right.guards hst hprocS
    have hheld₃ : k₃.Held ptr := ((hobt.held hsize).congr he₂).congr hst.heap_entries
    refine .pure (.refl hk₃.guards) (Or.inr ⟨ptr, stat.filesize, {ptr}, rfl,
      hk.left.head.1.congr hst.heap_entries, hst.self,
      .singleton hk₃.guards.tidy hheld₃ fun hmem => hnot (Or.inl hmem), ⟨hkS.guards, ?_⟩,
      hopen₂.intact hkS hst.globals.file_descriptors fun _ hi => hi.intact hkS,
      Or.inl ⟨rfl, rfl⟩⟩)
    rintro q hq (hmem | rfl)
    · exact hS.apart q hq hmem
    · exact hnot (Or.inr hq)

theorem processLoadBinary_intact (h : Guards P k) (hout : process ∉ P) (hheld : k.Held process)
    (hobj : k.objs process = some (.process p)) (filename : List UInt8) :
    Framed (Intact P) (processLoadBinary filename process) k fun res k' =>
      Programmed P process p res k' := by
  refine Framed.bind ((fopen_intact (h.insert hheld) filename _).weaken fun _ => Intact.tail) ?_
  rintro fd k₁ - ⟨hk₁, hfd⟩
  have hobj₁ := hk₁.head.2.trans hobj
  split
  · next h0 =>
    subst h0
    exact .pure (.refl hk₁.tail.guards) ⟨hk₁.head.1, p, hobj₁, Or.inl ⟨by decide, rfl⟩⟩
  next hne =>
  obtain ⟨S, hS, hopen⟩ := hfd.resolve_left hne
  refine Framed.bind (processLoadBinaryOpened_intact hk₁.tail.guards hout hk₁.head.1 hobj₁ hS
    hopen) ?_
  rintro r k₂ hk₂ (hr | ⟨ptr, size, T, hr⟩)
  · refine Framed.bind (P := fun _ k₃ => Intact (insert process P) k₂ k₃ ∧
      Beside (insert process P) S k₃ ∧ OpenOn S k₃ fd (OwnsItem (insert process P) S k₃)) ?_ ?_
    · have hg : Guards (insert process P ∪ S) k₂ :=
        (hk₂.guards.insert hr.held).union hr.beside.toGuards
      refine .onlyIf (.refl hk₂.guards) (fun hc => ?_) fun hc => ⟨.refl hg.left, hr.beside, ?_⟩
      · obtain ⟨hopen₂, hdisp⟩ := hr.descriptor.resolve_left fun h0 => hc.2 h0.1
        have hfds : ∀ p, Ensures (kfree p) k₂ fun _ k₃ =>
            k₃.file_descriptors = k₂.file_descriptors := fun _ => .modifies rfl
        refine ((released_kfree hg hdisp.1 hdisp.2).and (hfds _)).mono ?_
        rintro _ k₃ ⟨⟨hk₃, -⟩, hfds⟩
        refine ⟨hk₃.toIntact.left.tail, hk₃.toIntact.left, hr.beside.intact hk₃.toIntact, ?_⟩
        exact hopen₂.intact hk₃.toIntact.right hfds
          fun _ hi => (hi.intact hk₃.toIntact.right).owns _
      · rcases hr.descriptor with ⟨-, hopen₂⟩ | ⟨hopen₂, -⟩
        · exact hopen₂
        · exact hopen₂.intact (.refl hr.beside.toGuards) rfl fun _ hi => hi.owns _
    · rintro _ k₃ hk₃ ⟨hk₃', hS₃, hopen₃⟩
      refine Framed.bind ((fclose_intact hk₃'.guards hS₃ hopen₃).weaken fun _ => Intact.tail) ?_
      rintro _ k₄ - ⟨hk₄, -⟩
      have hkeep := hk₃'.trans hk₄
      exact .pure (.refl hkeep.tail.guards) ⟨hkeep.head.1, p, hkeep.head.2.trans hr.obj,
        Or.inl ⟨hr.failed, rfl⟩⟩
  · refine Framed.bind (P := fun _ k₃ => k₂ = k₃) (.onlyIf (.refl hk₂.guards)
      (fun hc => ?_) fun _ => rfl) ?_
    · rw [hr.read] at hc
      exact absurd hc.1 (lt_irrefl 0)
    rintro _ _ - rfl
    have hg : Guards (insert process P ∪ T) k₂ :=
      (hk₂.guards.insert hr.held).union hr.memory.toGuards
    refine Framed.bind ((fclose_intact hg hr.beside (hr.descriptor.intact
      (.refl hr.beside.toGuards) rfl fun _ hi => hi.owns _)).weaken fun _ hk => hk.left.tail) ?_
    rintro _ k₃ - ⟨hk₃, -⟩
    exact .pure (.refl hk₃.left.tail.guards) ⟨hk₃.left.head.1, _, hk₃.left.head.2.trans hr.obj,
      Or.inr ⟨hr.read.ge, _, ptr, size, rfl, T, hr.memory.intact hk₃, hr.program.intact hk₃.right⟩⟩

/-- A program that is read from its file has its own memory. -/
theorem processLoadData_intact (h : Guards P k) (hout : process ∉ P) (hheld : k.Held process)
    (hobj : k.objs process = some (.process p)) (filename : List UInt8) :
    Framed (Intact P) (processLoadData filename process) k fun res k' =>
      Programmed P process p res k' := by
  refine Framed.bind (processLoadElf_intact h hout hheld hobj filename) ?_
  intro res k₁ hk₁ hres
  split
  · next hformat =>
    obtain ⟨hheld₁, p', hp', ⟨-, rfl⟩ | ⟨hnonneg, -⟩⟩ := hres
    · exact processLoadBinary_intact hk₁.guards hout hheld₁ hp' filename
    · rw [hformat] at hnonneg
      exact absurd hnonneg (by decide)
  · exact .pure (.refl hk₁.guards) hres

end PlumOS
