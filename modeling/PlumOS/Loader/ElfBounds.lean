import PlumOS.Fs.FileOpen
import PlumOS.Loader.ElfLoader

/-!
# What the ELF loader reads and accepts

A file of any length and content, as `elf_load` has it in memory: the addresses that
`elf_process_loaded` reads, and what is known of a file that it accepts. The loader
checks the identification and that there is a program-header table. It compares no
offset with the length of the file, and `elf_is_executable` is called nowhere.

## Main definitions

- `elfProcessLoadedReads` — the addresses that are read, in order
- `Loadable` — a file that should be accepted
- `RejectedInside` — a file whose own bytes make the loader reject it
- `LoadsSoundly` — only loadable files are accepted and only bytes of the file are read

## Main results

- `elfProcessLoaded_congr` — nothing but the listed addresses is looked at
- `elfLoad_success` — the status of `elf_load`
- `elfProcessLoaded_sound_iff`
-/

namespace PlumOS

open StateExcept

/-- `elf_is_executable`. -/
def elfIsExecutable (header : ElfHeader) : Bool :=
  header.e_type == ET_EXEC && decide (PLUMOS_PROGRAM_VIRTUAL_ADDRESS ≤ header.e_entry)

/-! ### The addresses that are read -/

/-- The bytes of `elf_signature`. -/
def elf_signature : List UInt8 := [0x7f, 0x45, 0x4C, 0x46]

/-- A field of `n` bytes at `offset` in the structure at `p`. -/
def fieldReads (p offset n : Nat) : List Nat := (List.range n).map fun i => p + offset + i

/-- The bytes that `memcmp` reads of its first buffer, up to the first difference. -/
def memcmpReads (mem : Nat → UInt8) : (p : Nat) → (s2 : List UInt8) → List Nat
  | _, [] => []
  | p, c :: s2 => p :: if mem p = c then memcmpReads mem (p + 1) s2 else []

/-- The reads of `elf_validate_loaded` of the header at `p`. The checks stop at the first
one that fails. -/
def elfValidateLoadedReads (mem : Nat → UInt8) (p : Nat) : List Nat :=
  let header := readElfHeader mem p
  memcmpReads mem p elf_signature ++
    if elfValidSignature header then
      fieldReads p EI_CLASS 1 ++
        if elfValidClass header then
          fieldReads p EI_DATA 1 ++ if elfValidEncoding header then fieldReads p 28 4 else []
        else []
    else []

/-- The reads of `elf_process_pheader` of the program header at `addr`. `p_offset` is read
where the file's base or end changes. -/
def elfProcessPheaderReads (elf_file : ElfFile) (phdr : Elf32Phdr) (addr : Nat) : List Nat :=
  fieldReads addr 0 4 ++
    if phdr.p_type = PT_LOAD then
      fieldReads addr 8 4 ++
        (if phdr.p_vaddr ≤ elf_file.virtual_base_address ∨ elf_file.virtual_base_address = 0 then
          fieldReads addr 4 4 else []) ++
        fieldReads addr 16 4 ++
        if elf_file.virtual_end_address ≤ u32 ((phdr.p_vaddr + phdr.p_filesz : Nat) : Int) ∨
            elf_file.virtual_end_address = 0 then
          fieldReads addr 4 4 else []
    else []

/-- The file after one program header. -/
def elfProcessPheaderFile (elf_file : ElfFile) (phdr : Elf32Phdr) : ElfFile :=
  if phdr.p_type = PT_LOAD then elfProcessPhdrPtLoad elf_file phdr else elf_file

/-- The reads of the loop of `elf_process_pheaders` from header `i` on, for the file at `p`:
`e_phnum` for the test, `e_phoff` for the table, and the header. -/
def elfProcessPheadersReads (mem : Nat → UInt8) (p phdrs : Nat) :
    (fuel i : Nat) → (elf_file : ElfFile) → List Nat
  | 0, _, _ => fieldReads p 44 2
  | fuel + 1, i, elf_file =>
    let addr := elfPhdrAddress phdrs i
    let phdr := readElf32Phdr mem addr
    fieldReads p 44 2 ++ fieldReads p 28 4 ++ elfProcessPheaderReads elf_file phdr addr ++
      elfProcessPheadersReads mem p phdrs fuel (i + 1) (elfProcessPheaderFile elf_file phdr)

/-- The reads of `elf_process_loaded`. -/
def elfProcessLoadedReads (mem : Nat → UInt8) (elf_file : ElfFile) : List Nat :=
  let header := readElfHeader mem elf_file.elf_memory
  elfValidateLoadedReads mem elf_file.elf_memory ++
    if elfValidateLoaded header < 0 then []
    else elfProcessPheadersReads mem elf_file.elf_memory (elfPheader elf_file.elf_memory header)
      header.e_phnum 0 elf_file

/-! ### Files -/

/-- The ELF header of a file. -/
def fileHeader (file : List UInt8) : ElfHeader := readElfHeader (fun i => file.getD i 0) 0

/-- Program header `i` of a file. -/
def filePhdr (file : List UInt8) (i : Nat) : Elf32Phdr :=
  readElf32Phdr (fun a => file.getD a 0) ((fileHeader file).e_phoff + sizeofElf32Phdr * i)

/-- The bytes from `offset` to `offset + n` lie in the file. Offsets are signed. -/
def InFile (file : List UInt8) (offset : Int) (n : Nat) : Prop :=
  ∀ o : Int, offset ≤ o → o < offset + n → 0 ≤ o ∧ o < file.length

/-- A loadable executable. -/
structure Loadable (file : List UInt8) : Prop where
  signature : elfValidSignature (fileHeader file) = true
  class_ : elfValidClass (fileHeader file) = true
  encoding : elfValidEncoding (fileHeader file) = true
  executable : elfIsExecutable (fileHeader file) = true
  table : InFile file (i32 (fileHeader file).e_phoff) (sizeofElf32Phdr * (fileHeader file).e_phnum)
  segments : ∀ i < (fileHeader file).e_phnum,
    InFile file (i32 (filePhdr file i).p_offset) (filePhdr file i).p_filesz

/-- The file is long enough for the check that fails. -/
def RejectedInside (file : List UInt8) : Prop :=
  (∃ i < 4, i < file.length ∧ (∀ j < i, file.getD j 0 = elf_signature.getD j 0) ∧
      file.getD i 0 ≠ elf_signature.getD i 0) ∨
    elfValidSignature (fileHeader file) = true ∧
      (5 ≤ file.length ∧ elfValidClass (fileHeader file) = false ∨
        elfValidClass (fileHeader file) = true ∧
          (6 ≤ file.length ∧ elfValidEncoding (fileHeader file) = false ∨
            elfValidEncoding (fileHeader file) = true ∧
              32 ≤ file.length ∧ (fileHeader file).e_phoff = 0))

/-- The file lies in memory where the structure at `elf_file` says. -/
structure FileInMemory (k : Kernel) (elf_file : Nat) (f : ElfFile) (file : List UInt8) : Prop where
  ne_zero : elf_file ≠ 0
  file_eq : k.objs elf_file = some (.elfFile f)
  memory_ne : f.elf_memory ≠ 0
  memory_lt : f.elf_memory + file.length ≤ 0x100000000
  bytes : readBytes k.mem f.elf_memory file.length = file

/-- A file that `elf_process_loaded` accepts is loadable, and it reads no byte outside
the file. -/
def LoadsSoundly (k : Kernel) (elf_file : Nat) (f : ElfFile) (file : List UInt8) : Prop :=
  (∀ res k', elfProcessLoaded elf_file k = .ok (res, k') → 0 ≤ res → Loadable file) ∧
    ∀ a ∈ elfProcessLoadedReads k.mem f, f.elf_memory ≤ a ∧ a < f.elf_memory + file.length

/-! ### The reads -/

theorem mem_fieldReads {p offset n a : Nat} :
    a ∈ fieldReads p offset n ↔ p + offset ≤ a ∧ a < p + offset + n := by
  unfold fieldReads
  rw [List.mem_map]
  constructor
  · rintro ⟨i, hi, rfl⟩
    have := List.mem_range.mp hi
    omega
  · rintro ⟨h₁, h₂⟩
    exact ⟨a - (p + offset), List.mem_range.mpr (by omega), by omega⟩

theorem mem_memcmpReads {mem : Nat → UInt8} {a : Nat} : ∀ {s2 : List UInt8} {p : Nat},
    a ∈ memcmpReads mem p s2 ↔
      ∃ i < s2.length, a = p + i ∧ ∀ j < i, mem (p + j) = s2.getD j 0 := by
  intro s2
  induction s2 with
  | nil =>
    intro p
    simp [memcmpReads]
  | cons c s2 ih =>
    intro p
    simp only [memcmpReads, List.mem_cons]
    constructor
    · rintro (rfl | hmem)
      · exact ⟨0, by simp, rfl, fun j hj => absurd hj (Nat.not_lt_zero j)⟩
      · split at hmem
        · next hc =>
          obtain ⟨i, hi, rfl, hall⟩ := ih.mp hmem
          refine ⟨i + 1, by simpa using hi, by omega, fun j hj => ?_⟩
          cases j with
          | zero => simpa using hc
          | succ j =>
            have := hall j (by omega)
            rw [show p + (j + 1) = p + 1 + j by omega, this]
            simp
        · cases hmem
    · rintro ⟨i, hi, rfl, hall⟩
      cases i with
      | zero => exact Or.inl rfl
      | succ i =>
        have hc : mem p = c := by simpa using hall 0 (Nat.succ_pos i)
        rw [if_pos hc]
        refine Or.inr (ih.mpr ⟨i, by simpa using hi, by omega, fun j hj => ?_⟩)
        have := hall (j + 1) (by omega)
        rw [show p + 1 + j = p + (j + 1) by omega, this]
        simp

theorem elfValidSignature_iff {header : ElfHeader} :
    elfValidSignature header = true ↔ ∀ i < 4, header.e_ident i = elf_signature.getD i 0 := by
  unfold elfValidSignature
  simp only [Bool.and_eq_true, beq_iff_eq]
  constructor
  · rintro ⟨⟨⟨h₀, h₁⟩, h₂⟩, h₃⟩ i hi
    match i, hi with
    | 0, _ => exact h₀
    | 1, _ => exact h₁
    | 2, _ => exact h₂
    | 3, _ => exact h₃
  · intro h
    exact ⟨⟨⟨h 0 (by decide), h 1 (by decide)⟩, h 2 (by decide)⟩, h 3 (by decide)⟩

/-- The first byte that is not the signature's. -/
theorem exists_signature_mismatch {header : ElfHeader} (h : elfValidSignature header = false) :
    ∃ i < 4, (∀ j < i, header.e_ident j = elf_signature.getD j 0) ∧
      header.e_ident i ≠ elf_signature.getD i 0 := by
  have hex : ∃ i, i < 4 ∧ header.e_ident i ≠ elf_signature.getD i 0 := by
    by_contra hno
    push Not at hno
    rw [elfValidSignature_iff.mpr hno] at h
    cases h
  classical
  refine ⟨Nat.find hex, (Nat.find_spec hex).1, fun j hj => ?_, (Nat.find_spec hex).2⟩
  by_contra hne
  exact Nat.find_min hex hj ⟨hj.trans (Nat.find_spec hex).1, hne⟩

theorem elfValidateLoaded_iff {header : ElfHeader} : 0 ≤ elfValidateLoaded header ↔
    elfValidSignature header = true ∧ elfValidClass header = true ∧
      elfValidEncoding header = true ∧ header.e_phoff ≠ 0 := by
  unfold elfValidateLoaded elfHasProgramHeader
  simp only [Bool.and_eq_true, bne_iff_ne, and_assoc]
  split
  · next h =>
    simp only [PLUMOS_ALL_OK, le_refl, true_iff]
    exact h
  · next h =>
    simp only [EINVFORMAT, h, iff_false]
    decide

theorem mem_elfValidateLoadedReads {mem : Nat → UInt8} {p a : Nat} :
    a ∈ elfValidateLoadedReads mem p ↔ a ∈ memcmpReads mem p elf_signature ∨
      elfValidSignature (readElfHeader mem p) = true ∧ (a = p + 4 ∨
        elfValidClass (readElfHeader mem p) = true ∧ (a = p + 5 ∨
          elfValidEncoding (readElfHeader mem p) = true ∧ p + 28 ≤ a ∧ a < p + 32)) := by
  unfold elfValidateLoadedReads
  dsimp only
  rw [List.mem_append]
  refine or_congr_right ?_
  cases elfValidSignature (readElfHeader mem p) with
  | false => simp
  | true =>
    rw [if_pos rfl, List.mem_append, mem_fieldReads, eq_self, true_and]
    refine or_congr (by unfold EI_CLASS; omega) ?_
    cases elfValidClass (readElfHeader mem p) with
    | false => simp
    | true =>
      rw [if_pos rfl, List.mem_append, mem_fieldReads, eq_self, true_and]
      refine or_congr (by unfold EI_DATA; omega) ?_
      cases elfValidEncoding (readElfHeader mem p) with
      | false => simp
      | true =>
        rw [if_pos rfl, mem_fieldReads, eq_self, true_and]

theorem elfProcessLoadedReads_rejected {mem : Nat → UInt8} {f : ElfFile}
    (h : elfValidateLoaded (readElfHeader mem f.elf_memory) < 0) :
    elfProcessLoadedReads mem f = elfValidateLoadedReads mem f.elf_memory := by
  unfold elfProcessLoadedReads
  dsimp only
  rw [if_pos h, List.append_nil]

theorem elfProcessLoadedReads_accepted {mem : Nat → UInt8} {f : ElfFile}
    (h : ¬ elfValidateLoaded (readElfHeader mem f.elf_memory) < 0) :
    elfProcessLoadedReads mem f = elfValidateLoadedReads mem f.elf_memory ++
      elfProcessPheadersReads mem f.elf_memory
        (elfPheader f.elf_memory (readElfHeader mem f.elf_memory))
        (readElfHeader mem f.elf_memory).e_phnum 0 f := by
  unfold elfProcessLoadedReads
  dsimp only
  rw [if_neg h]

/-! ### The status -/

section Status

variable {k : Kernel} {elf_file : Nat} {f : ElfFile}

theorem elfProcessPheader_returns (hne : elf_file ≠ 0) (ho : k.objs elf_file = some (.elfFile f))
    (phdr : Elf32Phdr) : Returns (elfProcessPheader elf_file phdr) k fun _ k' =>
      k'.objs elf_file = some (.elfFile (elfProcessPheaderFile f phdr)) ∧ k'.mem = k.mem := by
  unfold elfProcessPheader elfProcessPheaderFile
  refine .onlyIf (fun htype => ?_) fun htype => ?_
  · rw [if_pos htype]
    refine .bind (deref_returns hne ho rfl) ?_
    rintro _ _ ⟨rfl, rfl⟩
    exact (storeObj_spec _ _ _).mono fun _ _ hst => ⟨hst.self, hst.mem⟩
  · rw [if_neg htype]
    exact ⟨ho, rfl⟩

/-- A table of program headers that is read behind the start of the file is no NULL. -/
theorem elfProcessPheadersLoop_returns (hne : elf_file ≠ 0) {p phdrs : Nat} (hp : p ≠ 0) :
    ∀ (fuel i : Nat) {k : Kernel} {f : ElfFile}, k.objs elf_file = some (.elfFile f) →
      (∀ a ∈ elfProcessPheadersReads k.mem p phdrs fuel i f, p ≤ a) →
      Returns (elfProcessPheadersLoop elf_file phdrs fuel i) k fun _ _ => True := by
  intro fuel
  induction fuel with
  | zero => exact fun _ _ _ _ _ => .pure trivial
  | succ fuel ih =>
    intro i k f ho hreads
    simp only [elfProcessPheadersReads, List.mem_append] at hreads
    have haddr : p ≤ elfPhdrAddress phdrs i := by
      refine hreads _ (Or.inl (Or.inr ?_))
      exact List.mem_append_left _ (mem_fieldReads.mpr ⟨le_rfl, by omega⟩)
    refine .bind (R := fun phdr k' => phdr = readElf32Phdr k.mem (elfPhdrAddress phdrs i) ∧ k = k')
      ⟨_, k, if_neg (by omega), rfl, rfl⟩ ?_
    rintro _ _ ⟨rfl, rfl⟩
    refine .bind (elfProcessPheader_returns hne ho _) ?_
    rintro _ k₁ ⟨ho₁, hmem₁⟩
    refine ih (i + 1) ho₁ fun a ha => hreads a (Or.inr ?_)
    rwa [hmem₁] at ha

variable {file : List UInt8}

/-- The header is in the memory of the file. -/
theorem FileInMemory.header (h : FileInMemory k elf_file f file) :
    elfHeader elf_file k = .ok (readElfHeader k.mem f.elf_memory, k) := by
  have hread : deref Obj.elfFile? elf_file k = .ok (f, k) := deref_ok h.ne_zero h.file_eq rfl
  unfold elfHeader
  rw [bind_of_ok hread]
  exact if_neg h.memory_ne

theorem FileInMemory.rejected (h : FileInMemory k elf_file f file)
    (hneg : elfValidateLoaded (readElfHeader k.mem f.elf_memory) < 0) :
    elfProcessLoaded elf_file k =
      .ok (elfValidateLoaded (readElfHeader k.mem f.elf_memory), k) := by
  unfold elfProcessLoaded
  rw [bind_of_ok h.header, if_pos hneg]
  rfl

/-- A file that is not rejected is accepted when all reads are behind its start. -/
theorem FileInMemory.accepted (h : FileInMemory k elf_file f file)
    (hpos : ¬ elfValidateLoaded (readElfHeader k.mem f.elf_memory) < 0)
    (hreads : ∀ a ∈ elfProcessLoadedReads k.mem f, f.elf_memory ≤ a) :
    Returns (elfProcessLoaded elf_file) k fun res _ => res = 0 := by
  rw [elfProcessLoadedReads_accepted hpos] at hreads
  refine .bind (R := fun header k' => readElfHeader k.mem f.elf_memory = header ∧ k = k')
    ⟨_, k, h.header, rfl, rfl⟩ ?_
  rintro _ _ ⟨rfl, rfl⟩
  dsimp only
  rw [if_neg hpos]
  refine .bind (deref_returns h.ne_zero h.file_eq rfl) ?_
  rintro _ _ ⟨rfl, rfl⟩
  refine .bind (elfProcessPheadersLoop_returns h.ne_zero h.memory_ne _ 0 h.file_eq
    fun a ha => hreads a (List.mem_append_right _ ha)) ?_
  exact fun _ _ _ => .pure rfl

end Status

/-! ### Nothing else is read -/

section Congr

variable {mem mem' : Nat → UInt8}

theorem readHalf_of_reads {p offset : Nat} (h : ∀ a ∈ fieldReads p offset 2, mem' a = mem a) :
    readHalf mem' (p + offset) = readHalf mem (p + offset) := by
  unfold readHalf
  rw [h _ (mem_fieldReads.mpr ⟨by omega, by omega⟩), h _ (mem_fieldReads.mpr ⟨by omega, by omega⟩)]

theorem readWord_of_reads {p offset : Nat} (h : ∀ a ∈ fieldReads p offset 4, mem' a = mem a) :
    readWord mem' (p + offset) = readWord mem (p + offset) := by
  have hhigh : readHalf mem' (p + (offset + 2)) = readHalf mem (p + (offset + 2)) :=
    readHalf_of_reads fun a ha => h a (mem_fieldReads.mpr (by
      have := mem_fieldReads.mp ha
      omega))
  have hlow : readHalf mem' (p + offset) = readHalf mem (p + offset) :=
    readHalf_of_reads fun a ha => h a (mem_fieldReads.mpr (by
      have := mem_fieldReads.mp ha
      omega))
  unfold readWord
  rw [hlow, Nat.add_assoc, hhigh]

theorem elfValidSignature_congr {p : Nat}
    (h : ∀ a ∈ memcmpReads mem p elf_signature, mem' a = mem a) :
    elfValidSignature (readElfHeader mem' p) = elfValidSignature (readElfHeader mem p) := by
  have hread : ∀ i < 4, (∀ j < i, mem (p + j) = elf_signature.getD j 0) →
      mem' (p + i) = mem (p + i) := fun i hi hall => h _ (mem_memcmpReads.mpr ⟨i, hi, rfl, hall⟩)
  cases hsig : elfValidSignature (readElfHeader mem p) with
  | true =>
    have hall := elfValidSignature_iff.mp hsig
    refine elfValidSignature_iff.mpr fun i hi => ?_
    rw [← hall i hi]
    exact hread i hi fun j hj => hall j (hj.trans hi)
  | false =>
    obtain ⟨i, hi, hbefore, hdiff⟩ := exists_signature_mismatch hsig
    rw [Bool.eq_false_iff]
    intro hsig'
    have hbyte := elfValidSignature_iff.mp hsig' i hi
    exact hdiff ((hread i hi hbefore).symm.trans hbyte)

theorem elfValidateLoaded_congr {p : Nat}
    (h : ∀ a ∈ elfValidateLoadedReads mem p, mem' a = mem a) :
    elfValidateLoaded (readElfHeader mem' p) = elfValidateLoaded (readElfHeader mem p) := by
  have hmem : ∀ a, _ → mem' a = mem a := fun a ha => h a (mem_elfValidateLoadedReads.mpr ha)
  have hsig := elfValidSignature_congr fun a ha => hmem a (Or.inl ha)
  unfold elfValidateLoaded
  rw [hsig]
  cases hs : elfValidSignature (readElfHeader mem p) with
  | false => rfl
  | true =>
    have hclass : elfValidClass (readElfHeader mem' p) = elfValidClass (readElfHeader mem p) := by
      have hbyte : (readElfHeader mem' p).e_ident EI_CLASS = (readElfHeader mem p).e_ident EI_CLASS :=
        hmem (p + 4) (Or.inr ⟨hs, Or.inl rfl⟩)
      unfold elfValidClass
      rw [hbyte]
    rw [hclass]
    cases hc : elfValidClass (readElfHeader mem p) with
    | false => rfl
    | true =>
      have hencoding : elfValidEncoding (readElfHeader mem' p) =
          elfValidEncoding (readElfHeader mem p) := by
        have hbyte : (readElfHeader mem' p).e_ident EI_DATA =
            (readElfHeader mem p).e_ident EI_DATA :=
          hmem (p + 5) (Or.inr ⟨hs, Or.inr ⟨hc, Or.inl rfl⟩⟩)
        unfold elfValidEncoding
        rw [hbyte]
      rw [hencoding]
      cases he : elfValidEncoding (readElfHeader mem p) with
      | false => rfl
      | true =>
        have hphoff : (readElfHeader mem' p).e_phoff = (readElfHeader mem p).e_phoff := by
          refine readWord_of_reads fun a ha => hmem a (Or.inr ⟨hs, Or.inr ⟨hc, Or.inr ⟨he, ?_⟩⟩⟩)
          have := mem_fieldReads.mp ha
          omega
        unfold elfHasProgramHeader
        rw [hphoff]

theorem elfProcessPheaderFile_congr {f : ElfFile} {addr : Nat}
    (h : ∀ a ∈ elfProcessPheaderReads f (readElf32Phdr mem addr) addr, mem' a = mem a) :
    elfProcessPheaderFile f (readElf32Phdr mem' addr) =
      elfProcessPheaderFile f (readElf32Phdr mem addr) := by
  unfold elfProcessPheaderReads at h
  have htype : (readElf32Phdr mem' addr).p_type = (readElf32Phdr mem addr).p_type :=
    readWord_of_reads (p := addr) fun a ha => h a (List.mem_append_left _ ha)
  unfold elfProcessPheaderFile
  rw [htype]
  by_cases hload : (readElf32Phdr mem addr).p_type = PT_LOAD
  · rw [if_pos hload] at h
    rw [if_pos hload, if_pos hload]
    simp only [List.mem_append] at h
    have hvaddr : (readElf32Phdr mem' addr).p_vaddr = (readElf32Phdr mem addr).p_vaddr :=
      readWord_of_reads fun a ha => h a (Or.inr (Or.inl (Or.inl (Or.inl ha))))
    have hfilesz : (readElf32Phdr mem' addr).p_filesz = (readElf32Phdr mem addr).p_filesz :=
      readWord_of_reads fun a ha => h a (Or.inr (Or.inl (Or.inr ha)))
    -- the offset counts where it is read
    have hoffset : (readElf32Phdr mem' addr).p_offset = (readElf32Phdr mem addr).p_offset ∨
        ¬ ((readElf32Phdr mem addr).p_vaddr ≤ f.virtual_base_address ∨
          f.virtual_base_address = 0) ∧
        ¬ (f.virtual_end_address ≤ u32 (((readElf32Phdr mem addr).p_vaddr +
          (readElf32Phdr mem addr).p_filesz : Nat) : Int) ∨ f.virtual_end_address = 0) := by
      by_cases hbase : (readElf32Phdr mem addr).p_vaddr ≤ f.virtual_base_address ∨
          f.virtual_base_address = 0
      · refine Or.inl (readWord_of_reads fun a ha => h a (Or.inr (Or.inl (Or.inl (Or.inr ?_)))))
        rwa [if_pos hbase]
      by_cases hend : f.virtual_end_address ≤ u32 (((readElf32Phdr mem addr).p_vaddr +
          (readElf32Phdr mem addr).p_filesz : Nat) : Int) ∨ f.virtual_end_address = 0
      · refine Or.inl (readWord_of_reads fun a ha => h a (Or.inr (Or.inr ?_)))
        rwa [if_pos hend]
      · exact Or.inr ⟨hbase, hend⟩
    unfold elfProcessPhdrPtLoad elfPhdrPhysAddress
    dsimp only
    rw [hvaddr, hfilesz]
    rcases hoffset with heq | ⟨hbase, hend⟩
    · rw [heq]
    · rw [if_neg hbase, if_neg hend, if_neg hbase, if_neg hend]
  · rw [if_neg hload, if_neg hload]

/-- The status and the structures that a call leaves. -/
def statusAndObjs {α : Type} (r : Except Fault (α × Kernel)) :
    Except Fault (α × (Nat → Option Obj)) := r.map fun r => (r.1, r.2.objs)

theorem statusAndObjs_then {α β : Type} {m : KM α} {k k' : Kernel} (b : β)
    (h : statusAndObjs (m k') = statusAndObjs (m k)) :
    statusAndObjs ((m >>= fun _ => pure b) k') = statusAndObjs ((m >>= fun _ => pure b) k) := by
  cases hk' : m k' with
  | error e' =>
    cases hk : m k with
    | error e =>
      rw [hk', hk] at h
      rw [bind_of_error hk', bind_of_error hk]
      cases h
      rfl
    | ok r =>
      rw [hk', hk] at h
      cases h
  | ok r' =>
    cases hk : m k with
    | error e =>
      rw [hk', hk] at h
      cases h
    | ok r =>
      rw [hk', hk] at h
      rw [bind_of_ok (t := r'.2) hk', bind_of_ok (t := r.2) hk]
      injection h with hpair
      change Except.ok (b, r'.2.objs) = Except.ok (b, r.2.objs)
      rw [(Prod.mk.inj hpair).2]

variable {k k' : Kernel} {elf_file : Nat} {f : ElfFile}

/-- One program header, as a change of the file's structure. -/
theorem elfProcessPheader_eq (hne : elf_file ≠ 0) (ho : k.objs elf_file = some (.elfFile f))
    (phdr : Elf32Phdr) : elfProcessPheader elf_file phdr k = .ok (⟨⟩, { k with
      objs := Function.update k.objs elf_file (some (.elfFile (elfProcessPheaderFile f phdr))) }) := by
  unfold elfProcessPheader elfProcessPheaderFile onlyIf
  by_cases htype : phdr.p_type = PT_LOAD
  · have hread : deref Obj.elfFile? elf_file k = .ok (f, k) := deref_ok hne ho rfl
    rw [if_pos htype, if_pos htype, bind_of_ok hread]
    rfl
  · rw [if_neg htype, if_neg htype, ← ho, Function.update_eq_self]
    rfl

theorem elfProcessPheadersLoop_congr (hne : elf_file ≠ 0) {p phdrs : Nat} :
    ∀ (fuel i : Nat) {k k' : Kernel} {f : ElfFile}, k'.objs = k.objs →
      k.objs elf_file = some (.elfFile f) →
      (∀ a ∈ elfProcessPheadersReads k.mem p phdrs fuel i f, k'.mem a = k.mem a) →
      statusAndObjs (elfProcessPheadersLoop elf_file phdrs fuel i k') =
        statusAndObjs (elfProcessPheadersLoop elf_file phdrs fuel i k) := by
  intro fuel
  induction fuel with
  | zero =>
    intro i k k' f hobjs _ _
    change Except.ok (PUnit.unit, k'.objs) = Except.ok (PUnit.unit, k.objs)
    rw [hobjs]
  | succ fuel ih =>
    intro i k k' f hobjs ho hmem
    simp only [elfProcessPheadersReads, List.mem_append] at hmem
    unfold elfProcessPheadersLoop
    by_cases haddr : elfPhdrAddress phdrs i = 0
    · have herr : ∀ k₀ : Kernel, derefMem readElf32Phdr (elfPhdrAddress phdrs i) k₀ =
          .error .badPointer := fun _ => if_pos haddr
      rw [bind_of_error (herr k'), bind_of_error (herr k)]
    have hread : ∀ k₀ : Kernel, derefMem readElf32Phdr (elfPhdrAddress phdrs i) k₀ =
        .ok (readElf32Phdr k₀.mem (elfPhdrAddress phdrs i), k₀) := fun _ => if_neg haddr
    have hfile : elfProcessPheaderFile f (readElf32Phdr k'.mem (elfPhdrAddress phdrs i)) =
        elfProcessPheaderFile f (readElf32Phdr k.mem (elfPhdrAddress phdrs i)) :=
      elfProcessPheaderFile_congr fun a ha => hmem a (Or.inl (Or.inr ha))
    rw [bind_of_ok (hread k'), bind_of_ok (hread k),
      bind_of_ok (elfProcessPheader_eq hne (hobjs.symm ▸ ho) _),
      bind_of_ok (elfProcessPheader_eq hne ho _), hfile]
    refine ih (i + 1) ?_ (Function.update_self ..) fun a ha => hmem a (Or.inr ha)
    dsimp only
    rw [hobjs]

/-- What `elf_process_loaded` does depends on no byte but those it is said to read. -/
theorem elfProcessLoaded_congr (hne : elf_file ≠ 0) (ho : k.objs elf_file = some (.elfFile f))
    (hobjs : k'.objs = k.objs) (hmem : ∀ a ∈ elfProcessLoadedReads k.mem f, k'.mem a = k.mem a) :
    statusAndObjs (elfProcessLoaded elf_file k') = statusAndObjs (elfProcessLoaded elf_file k) := by
  have ho' : k'.objs elf_file = some (.elfFile f) := hobjs.symm ▸ ho
  have hread : ∀ {k₀ : Kernel}, k₀.objs elf_file = some (.elfFile f) →
      deref Obj.elfFile? elf_file k₀ = .ok (f, k₀) := fun h => deref_ok hne h rfl
  unfold elfProcessLoaded
  by_cases hmemory : f.elf_memory = 0
  · have herr : ∀ {k₀ : Kernel}, k₀.objs elf_file = some (.elfFile f) →
        elfHeader elf_file k₀ = .error .badPointer := by
      intro k₀ h
      unfold elfHeader
      rw [bind_of_ok (hread h)]
      exact if_pos hmemory
    rw [bind_of_error (herr ho'), bind_of_error (herr ho)]
  have hheader : ∀ {k₀ : Kernel}, k₀.objs elf_file = some (.elfFile f) →
      elfHeader elf_file k₀ = .ok (readElfHeader k₀.mem f.elf_memory, k₀) := by
    intro k₀ h
    unfold elfHeader
    rw [bind_of_ok (hread h)]
    exact if_neg hmemory
  have hvalidate : elfValidateLoaded (readElfHeader k'.mem f.elf_memory) =
      elfValidateLoaded (readElfHeader k.mem f.elf_memory) :=
    elfValidateLoaded_congr fun a ha => hmem a (List.mem_append_left _ ha)
  rw [bind_of_ok (hheader ho'), bind_of_ok (hheader ho), hvalidate]
  by_cases hneg : elfValidateLoaded (readElfHeader k.mem f.elf_memory) < 0
  · rw [if_pos hneg, if_pos hneg]
    change Except.ok (_, k'.objs) = Except.ok (_, k.objs)
    rw [hobjs]
  · rw [elfProcessLoadedReads_accepted hneg] at hmem
    obtain ⟨hsig, hclass, hencoding, -⟩ := elfValidateLoaded_iff.mp (not_lt.mp hneg)
    have hphoff : (readElfHeader k'.mem f.elf_memory).e_phoff =
        (readElfHeader k.mem f.elf_memory).e_phoff := by
      refine readWord_of_reads fun a ha => hmem a (List.mem_append_left _ ?_)
      have := mem_fieldReads.mp ha
      exact mem_elfValidateLoadedReads.mpr
        (Or.inr ⟨hsig, Or.inr ⟨hclass, Or.inr ⟨hencoding, by omega, by omega⟩⟩⟩)
    have hloop : ∀ a ∈ elfProcessPheadersReads k.mem f.elf_memory
        (elfPheader f.elf_memory (readElfHeader k.mem f.elf_memory))
        (readElfHeader k.mem f.elf_memory).e_phnum 0 f, k'.mem a = k.mem a :=
      fun a ha => hmem a (List.mem_append_right _ ha)
    have hphnum : (readElfHeader k'.mem f.elf_memory).e_phnum =
        (readElfHeader k.mem f.elf_memory).e_phnum := by
      refine readHalf_of_reads fun a ha => hloop a ?_
      cases (readElfHeader k.mem f.elf_memory).e_phnum with
      | zero => exact ha
      | succ n =>
        simp only [elfProcessPheadersReads, List.mem_append]
        exact Or.inl (Or.inl (Or.inl ha))
    have hpheader : elfPheader f.elf_memory (readElfHeader k'.mem f.elf_memory) =
        elfPheader f.elf_memory (readElfHeader k.mem f.elf_memory) := by
      unfold elfPheader
      rw [hphoff]
    rw [if_neg hneg, if_neg hneg, bind_of_ok (hread ho'), bind_of_ok (hread ho), hpheader, hphnum]
    exact statusAndObjs_then 0 (elfProcessPheadersLoop_congr hne _ 0 hobjs ho hloop)

end Congr

/-! ### The bytes of the file -/

section Bytes

variable {k : Kernel} {elf_file : Nat} {f : ElfFile} {file : List UInt8}

theorem FileInMemory.byte (h : FileInMemory k elf_file f file) {i : Nat} (hi : i < file.length) :
    k.mem (f.elf_memory + i) = file.getD i 0 := by
  have hlen : i < (readBytes k.mem f.elf_memory file.length).length := by simpa using hi
  rw [← getElem_readBytes hlen, List.getD_eq_getElem _ _ hi]
  simp only [h.bytes]

theorem FileInMemory.half (h : FileInMemory k elf_file f file) {i : Nat}
    (hi : i + 2 ≤ file.length) :
    readHalf k.mem (f.elf_memory + i) = readHalf (fun i => file.getD i 0) i := by
  unfold readHalf
  rw [Nat.add_assoc, h.byte (by omega), h.byte (by omega)]

theorem FileInMemory.word (h : FileInMemory k elf_file f file) {i : Nat}
    (hi : i + 4 ≤ file.length) :
    readWord k.mem (f.elf_memory + i) = readWord (fun i => file.getD i 0) i := by
  unfold readWord
  rw [Nat.add_assoc, h.half (by omega), h.half (by omega)]

@[simp] theorem fileHeader_e_ident (file : List UInt8) (i : Nat) :
    (fileHeader file).e_ident i = file.getD i 0 := by
  unfold fileHeader readElfHeader
  simp

theorem FileInMemory.phoff (h : FileInMemory k elf_file f file) (hlen : 32 ≤ file.length) :
    (readElfHeader k.mem f.elf_memory).e_phoff = (fileHeader file).e_phoff :=
  h.word (i := 28) (by omega)

theorem FileInMemory.phnum (h : FileInMemory k elf_file f file) (hlen : 46 ≤ file.length) :
    (readElfHeader k.mem f.elf_memory).e_phnum = (fileHeader file).e_phnum :=
  h.half (i := 44) (by omega)

/-- The signature is none of a file that is too short for it. -/
theorem four_le_of_signature (hsig : elfValidSignature (fileHeader file) = true) :
    4 ≤ file.length := by
  by_contra hlt
  have hlast := elfValidSignature_iff.mp hsig 3 (by decide)
  rw [fileHeader_e_ident, List.getD_eq_default _ _ (by omega)] at hlast
  cases hlast

theorem FileInMemory.signature (h : FileInMemory k elf_file f file) (hlen : 4 ≤ file.length) :
    elfValidSignature (readElfHeader k.mem f.elf_memory) =
      elfValidSignature (fileHeader file) := by
  rw [Bool.eq_iff_iff, elfValidSignature_iff, elfValidSignature_iff]
  refine forall₂_congr fun i hi => ?_
  rw [fileHeader_e_ident, ← h.byte (by omega)]
  rfl

theorem FileInMemory.class_ (h : FileInMemory k elf_file f file) (hlen : 5 ≤ file.length) :
    elfValidClass (readElfHeader k.mem f.elf_memory) = elfValidClass (fileHeader file) := by
  unfold elfValidClass
  rw [fileHeader_e_ident, ← h.byte (show EI_CLASS < file.length by unfold EI_CLASS; omega)]
  rfl

theorem FileInMemory.encoding (h : FileInMemory k elf_file f file) (hlen : 6 ≤ file.length) :
    elfValidEncoding (readElfHeader k.mem f.elf_memory) = elfValidEncoding (fileHeader file) := by
  unfold elfValidEncoding
  rw [fileHeader_e_ident, ← h.byte (show EI_DATA < file.length by unfold EI_DATA; omega)]
  rfl

/-! ### Which files are loaded soundly -/

/-- A file that is rejected by its own bytes: no byte behind them is read. -/
theorem FileInMemory.rejectedInside (h : FileInMemory k elf_file f file)
    (hfile : RejectedInside file) :
    elfValidateLoaded (readElfHeader k.mem f.elf_memory) < 0 ∧
      ∀ a ∈ elfValidateLoadedReads k.mem f.elf_memory,
        f.elf_memory ≤ a ∧ a < f.elf_memory + file.length := by
  rcases hfile with ⟨i, hi, hlen, hbefore, hdiff⟩ | ⟨hsig, hrest⟩
  · -- the comparison stops at the first difference
    rw [← h.byte hlen] at hdiff
    have hnot : ¬ elfValidSignature (readElfHeader k.mem f.elf_memory) = true :=
      fun hsig => hdiff (elfValidSignature_iff.mp hsig i hi)
    refine ⟨lt_of_not_ge fun hpos => hnot (elfValidateLoaded_iff.mp hpos).1, fun a ha => ?_⟩
    rcases mem_elfValidateLoadedReads.mp ha with hmem | ⟨hsig, -⟩
    · obtain ⟨j, -, rfl, hall⟩ := mem_memcmpReads.mp hmem
      have hle : j ≤ i := by
        by_contra hgt
        exact hdiff (hall i (by omega))
      omega
    · exact absurd hsig hnot
  · have hfour := four_le_of_signature hsig
    have hcmp : ∀ a ∈ memcmpReads k.mem f.elf_memory elf_signature,
        f.elf_memory ≤ a ∧ a < f.elf_memory + file.length := by
      intro a ha
      obtain ⟨j, hj, rfl, -⟩ := mem_memcmpReads.mp ha
      have : j < 4 := hj
      omega
    rcases hrest with ⟨hlen, hclass⟩ | ⟨hclass, hrest⟩
    · rw [← h.class_ hlen] at hclass
      refine ⟨lt_of_not_ge fun hpos => ?_, fun a ha => ?_⟩
      · rw [(elfValidateLoaded_iff.mp hpos).2.1] at hclass
        cases hclass
      · rcases mem_elfValidateLoadedReads.mp ha with hmem | ⟨-, rfl | ⟨hc, -⟩⟩
        · exact hcmp a hmem
        · omega
        · rw [hc] at hclass
          cases hclass
    rcases hrest with ⟨hlen, hencoding⟩ | ⟨hencoding, hlen, hphoff⟩
    · rw [← h.encoding hlen] at hencoding
      refine ⟨lt_of_not_ge fun hpos => ?_, fun a ha => ?_⟩
      · rw [(elfValidateLoaded_iff.mp hpos).2.2.1] at hencoding
        cases hencoding
      · rcases mem_elfValidateLoadedReads.mp ha with hmem | ⟨-, rfl | ⟨-, rfl | ⟨hc, -⟩⟩⟩
        · exact hcmp a hmem
        · omega
        · omega
        · rw [hc] at hencoding
          cases hencoding
    · rw [← h.phoff hlen] at hphoff
      refine ⟨lt_of_not_ge fun hpos => (elfValidateLoaded_iff.mp hpos).2.2.2 hphoff, fun a ha => ?_⟩
      rcases mem_elfValidateLoadedReads.mp ha with hmem | ⟨-, rfl | ⟨-, rfl | ⟨-, h₁, h₂⟩⟩⟩
      · exact hcmp a hmem
      · omega
      · omega
      · omega

/-- A file that is rejected, when only its own bytes are read. -/
theorem FileInMemory.rejectedInside_of (h : FileInMemory k elf_file f file)
    (hneg : elfValidateLoaded (readElfHeader k.mem f.elf_memory) < 0)
    (hreads : ∀ a ∈ elfValidateLoadedReads k.mem f.elf_memory,
      f.elf_memory ≤ a ∧ a < f.elf_memory + file.length) : RejectedInside file := by
  have hread : ∀ i, f.elf_memory + i ∈ elfValidateLoadedReads k.mem f.elf_memory →
      i < file.length := by
    intro i hi
    have := (hreads _ hi).2
    omega
  cases hsig : elfValidSignature (readElfHeader k.mem f.elf_memory) with
  | false =>
    obtain ⟨i, hi, hbefore, hdiff⟩ := exists_signature_mismatch hsig
    have hlen : i < file.length := hread i
      (mem_elfValidateLoadedReads.mpr (Or.inl (mem_memcmpReads.mpr ⟨i, hi, rfl, hbefore⟩)))
    refine Or.inl ⟨i, hi, hlen, fun j hj => ?_, ?_⟩
    · rw [← h.byte (hj.trans hlen)]
      exact hbefore j hj
    · rw [← h.byte hlen]
      exact hdiff
  | true =>
    have hfive : 4 < file.length := hread 4
      (mem_elfValidateLoadedReads.mpr (Or.inr ⟨hsig, Or.inl rfl⟩))
    refine Or.inr ⟨h.signature (by omega) ▸ hsig, ?_⟩
    rw [← h.class_ (by omega)]
    cases hclass : elfValidClass (readElfHeader k.mem f.elf_memory) with
    | false => exact Or.inl ⟨by omega, rfl⟩
    | true =>
      have hsix : 5 < file.length := hread 5
        (mem_elfValidateLoadedReads.mpr (Or.inr ⟨hsig, Or.inr ⟨hclass, Or.inl rfl⟩⟩))
      refine Or.inr ⟨rfl, ?_⟩
      rw [← h.encoding (by omega)]
      cases hencoding : elfValidEncoding (readElfHeader k.mem f.elf_memory) with
      | false => exact Or.inl ⟨by omega, rfl⟩
      | true =>
        have hlast : 31 < file.length := hread 31 (mem_elfValidateLoadedReads.mpr
          (Or.inr ⟨hsig, Or.inr ⟨hclass, Or.inr ⟨hencoding, by omega, by omega⟩⟩⟩))
        refine Or.inr ⟨rfl, by omega, ?_⟩
        rw [← h.phoff (by omega)]
        by_contra hne
        exact absurd (elfValidateLoaded_iff.mpr ⟨hsig, hclass, hencoding, hne⟩) (not_le.mpr hneg)

/-- The reads of the loop when the table of program headers lies in the file. -/
theorem elfProcessPheadersReads_inside {mem : Nat → UInt8} {p phdrs n : Nat} (phoff : Nat)
    (hlen : 46 ≤ n) : ∀ (fuel i : Nat) (f : ElfFile), phoff + 32 * (i + fuel) ≤ n →
      (∀ j < i + fuel, elfPhdrAddress phdrs j = p + phoff + 32 * j) →
      ∀ a ∈ elfProcessPheadersReads mem p phdrs fuel i f, p ≤ a ∧ a < p + n := by
  intro fuel
  induction fuel with
  | zero =>
    intro i f _ _ a ha
    have := mem_fieldReads.mp ha
    omega
  | succ fuel ih =>
    intro i f hin haddr a ha
    simp only [elfProcessPheadersReads, List.mem_append] at ha
    rcases ha with ((ha | ha) | ha) | ha
    · have := mem_fieldReads.mp ha
      omega
    · have := mem_fieldReads.mp ha
      omega
    · -- the header's own 32 bytes
      have hbound : elfPhdrAddress phdrs i ≤ a ∧ a < elfPhdrAddress phdrs i + 20 := by
        unfold elfProcessPheaderReads at ha
        split at ha
        · simp only [List.mem_append] at ha
          rcases ha with ha | ((ha | ha) | ha) | ha
          · have := mem_fieldReads.mp ha
            omega
          · have := mem_fieldReads.mp ha
            omega
          · split at ha
            · have := mem_fieldReads.mp ha
              omega
            · cases ha
          · have := mem_fieldReads.mp ha
            omega
          · split at ha
            · have := mem_fieldReads.mp ha
              omega
            · cases ha
        · rw [List.append_nil] at ha
          have := mem_fieldReads.mp ha
          omega
      rw [haddr i (by omega)] at hbound
      omega
    · exact ih (i + 1) _ (by omega) (fun j hj => haddr j (by omega)) a ha

/-- Of a loadable file only its own bytes are read. -/
theorem Loadable.reads_inside (hload : Loadable file) (h : FileInMemory k elf_file f file)
    (hlen : 46 ≤ file.length) : ∀ a ∈ elfProcessLoadedReads k.mem f,
      f.elf_memory ≤ a ∧ a < f.elf_memory + file.length := by
  have hvalidate : ∀ a ∈ elfValidateLoadedReads k.mem f.elf_memory,
      f.elf_memory ≤ a ∧ a < f.elf_memory + file.length := by
    intro a ha
    rcases mem_elfValidateLoadedReads.mp ha with hmem | ⟨-, rfl | ⟨-, rfl | ⟨-, h₁, h₂⟩⟩⟩
    · obtain ⟨j, hj, rfl, -⟩ := mem_memcmpReads.mp hmem
      have : j < 4 := hj
      omega
    · omega
    · omega
    · omega
  by_cases hneg : elfValidateLoaded (readElfHeader k.mem f.elf_memory) < 0
  · rwa [elfProcessLoadedReads_rejected hneg]
  · rw [elfProcessLoadedReads_accepted hneg, h.phnum hlen]
    intro a ha
    rcases List.mem_append.mp ha with ha | ha
    · exact hvalidate a ha
    have hphoff := h.phoff (by omega)
    have hne : (fileHeader file).e_phoff ≠ 0 :=
      hphoff ▸ (elfValidateLoaded_iff.mp (not_lt.mp hneg)).2.2.2
    have hword : (fileHeader file).e_phoff < 0x100000000 := readWord_lt _ _
    cases hnum : (fileHeader file).e_phnum with
    | zero =>
      rw [hnum] at ha
      have := mem_fieldReads.mp ha
      omega
    | succ n =>
      -- the table lies in the file, so its addresses do not wrap
      have htable := hload.table
      unfold InFile at htable
      rw [hnum, sizeofElf32Phdr] at htable
      have hfirst := htable _ le_rfl (by omega)
      have hlast := htable (i32 (fileHeader file).e_phoff + 32 * (n + 1) - 1) (by omega) (by omega)
      have hoff : i32 (fileHeader file).e_phoff = (fileHeader file).e_phoff := by
        have hrange := i32_mem (fileHeader file).e_phoff
        unfold i32 at hfirst hrange ⊢
        omega
      rw [hoff] at hlast
      have hmemory := h.memory_lt
      rw [hnum] at ha
      refine elfProcessPheadersReads_inside (fileHeader file).e_phoff hlen (n + 1) 0 f
        (by omega) (fun j hj => ?_) a ha
      have hbase : u32 ((f.elf_memory + (fileHeader file).e_phoff : Nat) : Int) =
          f.elf_memory + (fileHeader file).e_phoff := u32_natCast (by omega)
      unfold elfPhdrAddress elfPheader
      rw [hphoff, if_neg hne, hbase, sizeofElf32Phdr, u32_natCast (by omega)]

/-- The loader is sound for a file exactly when the file is rejected by its own bytes or
is loadable as it stands. -/
theorem elfProcessLoaded_sound_iff (h : FileInMemory k elf_file f file) :
    LoadsSoundly k elf_file f file ↔
      RejectedInside file ∨ 46 ≤ file.length ∧ Loadable file := by
  constructor
  · rintro ⟨haccept, hreads⟩
    by_cases hneg : elfValidateLoaded (readElfHeader k.mem f.elf_memory) < 0
    · rw [elfProcessLoadedReads_rejected hneg] at hreads
      exact Or.inl (h.rejectedInside_of hneg hreads)
    · obtain ⟨res, k', hok, rfl⟩ := h.accepted hneg fun a ha => (hreads a ha).1
      -- the number of program headers is read in any case
      have hphnum : f.elf_memory + 45 ∈ elfProcessLoadedReads k.mem f := by
        rw [elfProcessLoadedReads_accepted hneg]
        refine List.mem_append_right _ ?_
        cases (readElfHeader k.mem f.elf_memory).e_phnum with
        | zero => exact mem_fieldReads.mpr ⟨by omega, by omega⟩
        | succ n =>
          simp only [elfProcessPheadersReads, List.mem_append]
          exact Or.inl (Or.inl (Or.inl (mem_fieldReads.mpr ⟨by omega, by omega⟩)))
      have := (hreads _ hphnum).2
      exact Or.inr ⟨by omega, haccept 0 k' hok le_rfl⟩
  · rintro (hrejected | ⟨hlen, hload⟩)
    · obtain ⟨hneg, hinside⟩ := h.rejectedInside hrejected
      refine ⟨fun res k' hok hres => ?_, ?_⟩
      · rw [h.rejected hneg] at hok
        cases hok
        omega
      · rwa [elfProcessLoadedReads_rejected hneg]
    · exact ⟨fun _ _ _ _ => hload, hload.reads_inside h hlen⟩

end Bytes

/-! ### elf_load -/

/-- When `elf_load` succeeds it has read a file into memory, and `elf_process_loaded`
accepted it with the status that is returned. -/
theorem elfLoad_success (filename : List UInt8) (k : Kernel) :
    Ensures (elfLoad filename) k fun r _ => 0 ≤ r.1 → ∃ fd n k₀ k₁ k₂ f file,
      fread f.elf_memory file.length 1 fd k₀ = .ok (n, k₁) ∧ FileInMemory k₁ r.2 f file ∧
        elfProcessLoaded r.2 k₁ = .ok (r.1, k₂) := by
  refine .bind (R := fun _ _ => True) (fun _ _ _ => trivial) ?_
  intro elf_file k₁ _
  refine .bind (R := fun _ _ => True) (fun _ _ _ => trivial) ?_
  intro fd k₂ _
  split
  · refine .bind (R := fun _ _ => True) (fun _ _ _ => trivial) ?_
    intro _ _ _
    exact .pure fun h => absurd h (by decide)
  refine .bind (R := fun res _ => 0 ≤ res → ∃ n k₀ k₁ k₂ f file,
    fread f.elf_memory file.length 1 fd k₀ = .ok (n, k₁) ∧ FileInMemory k₁ elf_file f file ∧
      elfProcessLoaded elf_file k₁ = .ok (res, k₂)) ?_ ?_
  · refine .bind (R := fun _ _ => True) (fun _ _ _ => trivial) ?_
    rintro ⟨status, stat⟩ k₃ -
    split
    · next hneg => exact .pure fun h => absurd h (not_le.mpr hneg)
    cases stat with
    | none => exact .fails
    | some stat =>
      refine .bind (kzalloc_spec k₃ stat.filesize) ?_
      intro memory k₄ hmemory
      refine .bind (deref_spec _ _ _) ?_
      rintro f _ ⟨rfl, hne, -⟩
      refine .bind (storeObj_spec _ _ _).ensures ?_
      intro _ k₅ hst res k₇ hok
      obtain ⟨n, k₆, hread, hrest⟩ := bind_eq_ok.mp hok
      intro hpos
      obtain ⟨hdata, -⟩ := fread_data memory stat.filesize 1 fd k₅ _ _ hread
      have ho : k₆.objs elf_file = some (.elfFile { f with elf_memory := memory }) := by
        rw [hdata]
        exact hst.self
      split at hrest
      · next hneg =>
        cases hrest
        exact absurd hpos (not_le.mpr hneg)
      -- the header was read, so the memory is no NULL
      have hmemory_ne : memory ≠ 0 := by
        rintro rfl
        have hfile : deref Obj.elfFile? elf_file k₆ = .ok ({ f with elf_memory := 0 }, k₆) :=
          deref_ok hne ho rfl
        have herr : elfHeader elf_file k₆ = .error .badPointer := by
          unfold elfHeader
          rw [bind_of_ok hfile]
          rfl
        unfold elfProcessLoaded at hrest
        rw [bind_of_error herr] at hrest
        cases hrest
      have hspace : memory + stat.filesize ≤ 0x100000000 := by
        rcases hmemory with ⟨h0, -⟩ | ha
        · exact absurd h0 hmemory_ne
        · exact ha.in_space
      have hlen : (readBytes k₆.mem memory stat.filesize).length = stat.filesize :=
        readBytes_length _ _ _
      refine ⟨n, k₅, k₆, k₇, _, readBytes k₆.mem memory stat.filesize, ?_,
        { ne_zero := hne
          file_eq := ho
          memory_ne := hmemory_ne
          memory_lt := ?_
          bytes := ?_ }, hrest⟩
      · rw [hlen]
        exact hread
      · rw [hlen]
        exact hspace
      · rw [hlen]
  · intro res k₃ hres
    refine .bind (R := fun _ _ => True) (fun _ _ _ => trivial) ?_
    intro _ _ _
    refine .pure fun hpos => ?_
    dsimp only at hpos ⊢
    rw [if_neg (not_lt.mpr hpos)]
    exact ⟨fd, hres hpos⟩

/-! ### Two files -/

/-- An executable of one segment of four bytes. -/
def staticElf : List UInt8 :=
  [0x7f, 0x45, 0x4C, 0x46, 1, 1, 1, 0, 0, 0, 0, 0, 0, 0, 0, 0, 2, 0, 3, 0, 1, 0, 0, 0,
    0, 0, 0x40, 0, 52, 0, 0, 0, 0, 0, 0, 0, 0, 0, 0, 0, 52, 0, 32, 0, 1, 0, 0, 0, 0, 0, 0, 0] ++
  [1, 0, 0, 0, 84, 0, 0, 0, 0, 0, 0x40, 0, 0, 0, 0x40, 0, 4, 0, 0, 0, 4, 0, 0, 0,
    5, 0, 0, 0, 0, 0x10, 0, 0] ++ [0xEB, 0xFE, 0x90, 0x90]

/-- A shared object without segments: no executable, with the entry point 0. -/
def sharedElf : List UInt8 :=
  [0x7f, 0x45, 0x4C, 0x46, 1, 1, 1, 0, 0, 0, 0, 0, 0, 0, 0, 0, 3, 0, 3, 0, 1, 0, 0, 0,
    0, 0, 0, 0, 52, 0, 0, 0, 0, 0, 0, 0, 0, 0, 0, 0, 52, 0, 32, 0, 0, 0, 0, 0, 0, 0, 0, 0]

/-- A kernel with the file in its second block. -/
def Kernel.holding (file : List UInt8) : Kernel :=
  { Kernel.boot Disk.blank with
    mem := fun a => file.getD (a - 0x1001000) 0
    objs := fun p =>
      if p = 0x1000000 then some (.elfFile { ElfFile.zero with elf_memory := 0x1001000 }) else none }

theorem holding_inMemory {file : List UInt8} (h : file.length ≤ 0x1000000) :
    FileInMemory (Kernel.holding file) 0x1000000 { ElfFile.zero with elf_memory := 0x1001000 }
      file where
  ne_zero := by decide
  file_eq := rfl
  memory_ne := show 0x1001000 ≠ 0 by decide
  memory_lt := show 0x1001000 + file.length ≤ 0x100000000 by omega
  bytes := by
    refine List.ext_getElem (readBytes_length _ _ _) fun i _ hi => ?_
    rw [getElem_readBytes]
    change file.getD (0x1001000 + i - 0x1001000) 0 = _
    rw [Nat.add_sub_cancel_left, List.getD_eq_getElem _ _ hi]

theorem staticElf_loadable : Loadable staticElf where
  signature := by decide
  class_ := by decide
  encoding := by decide
  executable := by decide
  table := by
    have hphoff : (fileHeader staticElf).e_phoff = 52 := by decide
    have hphnum : (fileHeader staticElf).e_phnum = 1 := by decide
    have hlen : staticElf.length = 88 := rfl
    intro o h₁ h₂
    rw [hphoff] at h₁ h₂
    rw [hphnum, sizeofElf32Phdr] at h₂
    rw [i32_of_range (by omega) (by omega)] at h₁ h₂
    omega
  segments := by
    intro i hi
    have hphnum : (fileHeader staticElf).e_phnum = 1 := by decide
    obtain rfl : i = 0 := by omega
    have hoffset : (filePhdr staticElf 0).p_offset = 84 := by decide
    have hfilesz : (filePhdr staticElf 0).p_filesz = 4 := by decide
    have hlen : staticElf.length = 88 := rfl
    intro o h₁ h₂
    rw [hoffset] at h₁ h₂
    rw [hfilesz] at h₂
    rw [i32_of_range (by omega) (by omega)] at h₁ h₂
    omega

/-- The condition at an executable. -/
theorem elfProcessLoaded_sound_static :
    FileInMemory (Kernel.holding staticElf) 0x1000000
        { ElfFile.zero with elf_memory := 0x1001000 } staticElf ∧
      (LoadsSoundly (Kernel.holding staticElf) 0x1000000
          { ElfFile.zero with elf_memory := 0x1001000 } staticElf ↔
        RejectedInside staticElf ∨ 46 ≤ staticElf.length ∧ Loadable staticElf) :=
  ⟨holding_inMemory (by decide), elfProcessLoaded_sound_iff (holding_inMemory (by decide))⟩

/-- A kernel whose disk has the shared object as the file `A`. -/
def Kernel.withSharedElf : Kernel :=
  { Kernel.withA with
    disk := { Disk.twoBytes with image := fun p => if p < 1536 then 0 else sharedElf.getD (p - 1536) 0 }
    mem := fun p => if p = 0x100001C then 52 else rootWithA p }

/-- `elf_load` accepts the shared object. Of a file that is the signature alone, the
loader reads the byte behind its end. -/
theorem elfLoad_accepts_shared :
    (Returns (elfLoad [0x30, 0x3A, 0x2F, 0x41]) Kernel.withSharedElf fun r k => r.1 = 0 ∧
        ((k.objs r.2).bind Obj.elfFile?).map (fun f => readBytes k.mem f.elf_memory 52) =
          some sharedElf) ∧
      ¬ Loadable sharedElf ∧
      FileInMemory (Kernel.holding elf_signature) 0x1000000
        { ElfFile.zero with elf_memory := 0x1001000 } elf_signature ∧
      0x1001000 + elf_signature.length ∈ elfProcessLoadedReads (Kernel.holding elf_signature).mem
        { ElfFile.zero with elf_memory := 0x1001000 } := by
  refine ⟨?_, fun h => ?_, holding_inMemory (by decide), ?_⟩
  · exact (Returns.of_checks (q := fun r k => decide _) (by decide +kernel)).mono
      fun _ _ => of_decide_eq_true
  · have hexec := h.executable
    rw [show elfIsExecutable (fileHeader sharedElf) = false by decide] at hexec
    cases hexec
  · have hsig : elfValidSignature
        (readElfHeader (Kernel.holding elf_signature).mem 0x1001000) = true := by decide
    unfold elfProcessLoadedReads
    exact List.mem_append_left _ (mem_elfValidateLoadedReads.mpr (Or.inr ⟨hsig, Or.inl rfl⟩))

end PlumOS
