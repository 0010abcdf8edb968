import PlumOS.Loader.LoadRange
import PlumOS.Task.LoadedProgram

/-!
# Running an executable

`process_load` of an ELF file that the loader accepts: its program headers are found in the
memory that the file was read into, and the task finds the bytes of each segment at its
virtual address.

## Main definitions

- `Executable` — a file with program headers that can be mapped

## Main results

- `processLoad_elf` — an executable
-/

namespace PlumOS

open StateExcept Patches

/-! ### The headers in memory -/

section Headers

variable {k : Kernel} {p size : Nat} {bytes : Nat → UInt8}

theorem HoldsBytes.readHalf (h : HoldsBytes k p size bytes) {x : Nat} (hx : x + 2 ≤ size) :
    readHalf k.mem (p + x) = readHalf bytes x := by
  unfold PlumOS.readHalf
  rw [Nat.add_assoc, h x (by omega), h (x + 1) (by omega)]

theorem HoldsBytes.readWord (h : HoldsBytes k p size bytes) {x : Nat} (hx : x + 4 ≤ size) :
    readWord k.mem (p + x) = readWord bytes x := by
  unfold PlumOS.readWord
  rw [Nat.add_assoc, h.readHalf (by omega), h.readHalf (by omega)]

theorem HoldsBytes.readElf32Phdr (h : HoldsBytes k p size bytes) {x : Nat} (hx : x + 32 ≤ size) :
    readElf32Phdr k.mem (p + x) = readElf32Phdr bytes x := by
  unfold PlumOS.readElf32Phdr
  simp only [Nat.add_assoc]
  rw [h.readWord (by omega), h.readWord (by omega), h.readWord (by omega), h.readWord (by omega),
    h.readWord (by omega), h.readWord (by omega)]

/-- The fields of the header that are used. -/
theorem HoldsBytes.readElfHeader (h : HoldsBytes k p size bytes) (hsize : 52 ≤ size) :
    (readElfHeader k.mem p).e_phnum = (readElfHeader bytes 0).e_phnum ∧
      (readElfHeader k.mem p).e_phoff = (readElfHeader bytes 0).e_phoff ∧
      (readElfHeader k.mem p).e_entry = (readElfHeader bytes 0).e_entry ∧
      elfValidateLoaded (readElfHeader k.mem p) = elfValidateLoaded (readElfHeader bytes 0) := by
  have hphoff : (PlumOS.readElfHeader k.mem p).e_phoff = (PlumOS.readElfHeader bytes 0).e_phoff := by
    unfold PlumOS.readElfHeader
    dsimp only
    rw [h.readWord (by omega), Nat.zero_add]
  have hident : ∀ i < 6, (PlumOS.readElfHeader k.mem p).e_ident i =
      (PlumOS.readElfHeader bytes 0).e_ident i := by
    intro i hi
    unfold PlumOS.readElfHeader
    dsimp only
    rw [h i (by omega), Nat.zero_add]
  refine ⟨?_, hphoff, ?_, ?_⟩
  · unfold PlumOS.readElfHeader
    dsimp only
    rw [h.readHalf (by omega), Nat.zero_add]
  · unfold PlumOS.readElfHeader
    dsimp only
    rw [h.readWord (by omega), Nat.zero_add]
  · unfold elfValidateLoaded elfValidSignature elfValidClass elfValidEncoding elfHasProgramHeader
    rw [hident 0 (by decide), hident 1 (by decide), hident 2 (by decide), hident 3 (by decide),
      hident EI_CLASS (by decide), hident EI_DATA (by decide), hphoff]

end Headers

/-! ### Executables -/

/-- A file that the loader accepts, with the program headers `phdrs`. Offset and address of a
segment agree modulo the page size, nothing goes around the end of the address space, and
no page is in two segments or in a segment and the stack. -/
structure Executable (size : Nat) (bytes : Nat → UInt8) (phdrs : List Elf32Phdr) : Prop where
  header : 52 ≤ size
  valid : elfValidateLoaded (readElfHeader bytes 0) = PLUMOS_ALL_OK
  phnum : (readElfHeader bytes 0).e_phnum = phdrs.length
  table : (readElfHeader bytes 0).e_phoff + 32 * phdrs.length ≤ size
  phdr_eq : ∀ i (h : i < phdrs.length),
    readElf32Phdr bytes ((readElfHeader bytes 0).e_phoff + 32 * i) = phdrs[i]
  inside : ∀ phdr ∈ phdrs, phdr.p_offset + phdr.p_filesz ≤ size
  congruent : ∀ phdr ∈ phdrs, phdr.p_offset % 4096 = phdr.p_vaddr % 4096
  physical : ∀ phdr ∈ phdrs, phdr.p_offset + phdr.p_memsz + 0x7402000 ≤ 0x100000000
  virtual : ∀ phdr ∈ phdrs, phdr.p_vaddr + phdr.p_memsz + 0x2000 ≤ 0x100000000
  disjoint : phdrs.Pairwise fun phdr phdr' =>
    ∀ page, ¬ (InSegment 0 phdr page ∧ InSegment 0 phdr' page)
  stack : ∀ phdr ∈ phdrs, ∀ page, InSegment 0 phdr page → page < 0x3FB ∨ 0x3FF ≤ page

section Executable

variable {k k₀ : Kernel} {size memory elf_file n : Nat} {bytes : Nat → UInt8} {phdrs : List Elf32Phdr}

/-- Where the file lies in memory makes no difference for the pages. -/
theorem inSegment_iff (hmemory : memory % 4096 = 0) (phdr : Elf32Phdr) (page : Nat) :
    InSegment memory phdr page ↔ InSegment 0 phdr page := by
  have hpages : segmentPages memory phdr = segmentPages 0 phdr := by
    unfold segmentPages
    omega
  unfold InSegment
  rw [hpages]

theorem Executable.segmentsApart (he : Executable size bytes phdrs) (hmemory : memory % 4096 = 0)
    (hlt : memory < 0x7400000) : SegmentsApart memory phdrs where
  congruent := he.congruent
  mappable := fun phdr hphdr => by
    have hphysical := he.physical phdr hphdr
    have hvirtual := he.virtual phdr hphdr
    have hcongruent := he.congruent phdr hphdr
    refine ⟨by omega, ?_, by omega⟩
    unfold segmentPages
    omega
  disjoint := he.disjoint.imp fun hnot page => by
    rw [inSegment_iff hmemory, inSegment_iff hmemory]
    exact hnot page

/-- The table of program headers is found in memory. -/
theorem Executable.address_eq (he : Executable size bytes phdrs)
    (hb : HoldsBytes k memory size bytes) (hal : k.Alive memory (blocksOf size)) {i : Nat}
    (hi : i < phdrs.length) :
    elfPhdrAddress (elfPheader memory (readElfHeader k.mem memory)) i =
      memory + ((readElfHeader bytes 0).e_phoff + 32 * i) := by
  obtain ⟨-, hphoff, -, -⟩ := hb.readElfHeader he.header
  have hvalid := he.valid
  have htable := he.table
  have hne : (readElfHeader bytes 0).e_phoff ≠ 0 := by
    intro hzero
    unfold elfValidateLoaded elfHasProgramHeader at hvalid
    rw [hzero] at hvalid
    simp only [bne_self_eq_false, Bool.and_false] at hvalid
    exact absurd hvalid (by decide)
  have hend : memory + 4096 * blocksOf size ≤ 0x7400000 := by
    obtain ⟨b, rfl, -, hin, -⟩ := hal
    unfold blockAddress
    omega
  have hsize : size ≤ 4096 * blocksOf size := by
    unfold blocksOf
    omega
  unfold elfPhdrAddress elfPheader sizeofElf32Phdr u32
  rw [hphoff, if_neg hne]
  omega

theorem Executable.phdr_in (he : Executable size bytes phdrs) (hb : HoldsBytes k memory size bytes)
    (hal : k.Alive memory (blocksOf size)) {i : Nat} (hi : i < phdrs.length) :
    elfPhdrAddress (elfPheader memory (readElfHeader k.mem memory)) i ≠ 0 ∧
      readElf32Phdr k.mem (elfPhdrAddress (elfPheader memory (readElfHeader k.mem memory)) i) =
        phdrs[i] := by
  have htable := he.table
  have hne := hal.ne_zero
  rw [he.address_eq hb hal hi]
  exact ⟨by omega, (hb.readElf32Phdr (by omega)).trans (he.phdr_eq i hi)⟩

/-- An executable is accepted. -/
theorem Executable.processes (he : Executable size bytes phdrs) :
    Processes size bytes 0 fun memory f => f.elf_memory = memory := by
  intro elf_file memory k hne hal hobj hb
  obtain ⟨hphnum, -, -, hvalid⟩ := hb.readElfHeader he.header
  have hheader : elfHeader elf_file k = .ok (readElfHeader k.mem memory, k) := by
    have hread : deref Obj.elfFile? elf_file k =
      .ok ({ ElfFile.zero with elf_memory := memory }, k) := deref_ok hne hobj rfl
    unfold elfHeader
    rw [bind_of_ok hread]
    exact if_neg hal.ne_zero
  have hholds : HoldsPheaders k elf_file memory phdrs :=
    { ne_zero := hne
      file_eq := hobj
      memory_ne := hal.ne_zero
      phnum := hphnum.trans he.phnum
      address_ne := fun i hi => (he.phdr_in hb hal hi).1
      phdr_eq := fun i hi => (he.phdr_in hb hal hi).2 }
  rw [he.valid] at hvalid
  have hrun := elfProcessLoaded_of_valid hheader (le_of_eq hvalid.symm)
  rw [hholds.elfProcessPheaders_eq] at hrun
  refine ⟨_, _, hrun, rfl, (loadHeaders phdrs).foldl elfProcessPhdrPtLoad
    { ElfFile.zero with elf_memory := memory }, ?_, ?_⟩
  · exact foldl_elfProcessPhdrPtLoad_memory _ _
  · exact k.put_stored elf_file _

/-- What the processor finds in a segment, where its pages are mapped to the file's memory. -/
theorem Executable.userByte (he : Executable size bytes phdrs) (hb : HoldsBytes k memory size bytes)
    (hal : k.Alive memory (blocksOf size)) {chunk d x : Nat} {ptrs : List Nat} {map : Nat → Nat}
    (hmaps : MapsSpace k chunk ptrs map) (hd : PresentDirectory k chunk d) {q : Process}
    {phdr : Elf32Phdr} (hphdr : phdr ∈ phdrs) (hx : x < phdr.p_filesz) (hmemsz : x < phdr.p_memsz)
    (hmap : map ((phdr.p_vaddr + x) / 4096) = (stackPatch q).apply
      (patched identityMap (phdrs.map (segmentPatch memory))) ((phdr.p_vaddr + x) / 4096)) :
    k.userByte d (phdr.p_vaddr + x) = some (bytes (phdr.p_offset + x)) := by
  obtain ⟨haligned, hlt⟩ := hal.aligned
  have hapart := he.segmentsApart haligned (by omega)
  have hcongruent := he.congruent phdr hphdr
  have hphysical := he.physical phdr hphdr
  have hin := inSegment_of_lt haligned hcongruent hmemsz
  have hentry : map ((phdr.p_vaddr + x) / 4096) =
      ((memory + phdr.p_offset) / 4096 + ((phdr.p_vaddr + x) / 4096 - phdr.p_vaddr / 4096)) * 4096
        ||| segmentFlags phdr := by
    rw [hmap, Patch.apply_of_not_mem, patched_of_mem (List.pairwise_map.mpr hapart.disjoint)
      (List.mem_map_of_mem hphdr) hin]
    · rfl
    · have hout := he.stack phdr hphdr _ ((inSegment_iff haligned phdr _).mp hin)
      change ¬ (0x3FB ≤ _ ∧ _ < 0x3FB + 4)
      omega
  have hvirtual := he.virtual phdr hphdr
  rw [hmaps.userByte hd (by omega) (Nat.mul_mod_left _ _) (by omega) (segmentFlags_lt phdr)
    (segmentFlags_spec phdr).1 hentry]
  have haddr : ((memory + phdr.p_offset) / 4096 +
      ((phdr.p_vaddr + x) / 4096 - phdr.p_vaddr / 4096)) * 4096 + (phdr.p_vaddr + x) % 4096 =
        memory + (phdr.p_offset + x) := by
    omega
  have hinside := he.inside phdr hphdr
  rw [haddr, hb _ (by omega)]

/-! ### Reading it -/

/-- The process with an ELF file as its program. -/
def Process.withElf (p : Process) (elf_file : Nat) : Process :=
  { p with filetype := PROCESS_FILETYPE_ELF, ptr := elf_file }

section Load

variable {h : FatHeader} {es : List FatDirectoryItem} {cs : List (List UInt8)} {e : FatDirectoryItem}
  {chain : List Nat} {blocks i m slot : Nat} {path : List UInt8}

/-- The process gets the structure that the ELF loader made. -/
theorem processLoadData_elf (hf : FileAt h es cs e chain blocks path k) (ht : k.Tidy)
    (hfree : k.FreeFrom m) (hs : SlotFree k i)
    (he : Executable e.filesize (h.contents k.disk.image chain) phdrs)
    (hm : m + (2 * cs.length + blocks + 5) + blocksOf e.filesize ≤ 25600) {process : Nat}
    {p : Process} (hal : k.Alive process n) (hobj : k.objs process = some (.process p)) :
    Returns (processLoadData path process) k fun res k' => res = 0 ∧
      k'.file_descriptors = k.file_descriptors ∧ ∃ elf_file,
        Grown (k.put process (.process (p.withElf elf_file)))
          (m + (2 * cs.length + blocks + 5) + blocksOf e.filesize) k' ∧
        LoadedElf k k' elf_file e.filesize (h.contents k.disk.image chain) fun memory f =>
          f.elf_memory = memory := by
  refine .bind (R := fun res k' => res = 0 ∧ k'.file_descriptors = k.file_descriptors ∧ ∃ elf_file,
    Grown (k.put process (.process (p.withElf elf_file)))
      (m + (2 * cs.length + blocks + 5) + blocksOf e.filesize) k' ∧
    LoadedElf k k' elf_file e.filesize (h.contents k.disk.image chain) fun memory f =>
      f.elf_memory = memory) ?_ ?_
  · refine .bind (elfLoad_reads hf ht hfree hs hm he.processes) ?_
    rintro ⟨_, elf_file⟩ k₁ ⟨rfl, hg₁, hfds₁, hloaded⟩
    obtain ⟨hown, f, memory, hobj₁, hR, hmemory, hbytes⟩ := hloaded le_rfl
    dsimp only
    rw [if_neg (lt_irrefl _)]
    refine .bind (modifyProcess_returns _ hal.ne_zero ((hg₁.obj hal).trans hobj)) ?_
    intro _ k₂ hst₂
    have hne : elf_file ≠ process := by
      rintro rfl
      exact hown.fresh n hal
    refine .pure ⟨rfl, hst₂.globals.file_descriptors.trans hfds₁, elf_file, hg₁.put hst₂,
      ⟨hst₂.alive hown.alive, hown.fresh⟩, f, memory, (hst₂.other _ hne).trans hobj₁, hR,
      ⟨hst₂.alive hmemory.alive, hmemory.fresh⟩, fun x hx => ?_⟩
    rw [hst₂.mem]
    exact hbytes x hx
  rintro _ k₁ ⟨rfl, hrest⟩
  rw [if_neg (by decide)]
  exact .pure ⟨rfl, hrest⟩

/-- The process has an ELF file with these bytes, in memory that is new since `k₀`. -/
structure HasElf (k₀ : Kernel) (size : Nat) (bytes : Nat → UInt8) (phdrs : List Elf32Phdr)
    (process : Nat) (p : Process) (map : Nat → Nat) (k : Kernel) : Prop where
  filetype : p.filetype = PROCESS_FILETYPE_ELF
  allocations : p.allocations = Process.zero.allocations
  memory : ∃ memory, map = patched identityMap (phdrs.map (segmentPatch memory)) ∧
    Grown.Own k₀ k memory (blocksOf size) ∧ memory ≠ process ∧ HoldsBytes k memory size bytes

/-- What is known of the file's memory later on. -/
theorem KeepsOwn.holdsBytes {k' : Kernel} {process : Nat} (hkeep : KeepsOwn k₀ k k' process)
    (hown : Grown.Own k₀ k memory (blocksOf size)) (hne : memory ≠ process)
    (hb : HoldsBytes k memory size bytes) : HoldsBytes k' memory size bytes := by
  have hblocks : size ≤ 4096 * blocksOf size := by
    unfold blocksOf
    omega
  intro x hx
  exact ((hkeep _ _ hown hne).2.2 _ (by omega) (by omega)).trans (hb x hx)

/-- An executable is ready when it has been read. -/
theorem FileAt.readsElf (hf : FileAt h es cs e chain blocks path k) (hs : SlotFree k i)
    (he : Executable e.filesize (h.contents k.disk.image chain) phdrs)
    (hm : m + (2 * cs.length + blocks + 8) + blocksOf e.filesize ≤ 25600) :
    ReadsProgram k m (m + (2 * cs.length + blocks + 8) + blocksOf e.filesize)
      (readElfHeader (h.contents k.disk.image chain) 0).e_entry path
      (HasElf k e.filesize (h.contents k.disk.image chain) phdrs) := by
  intro process k₁ hg₁ ht₁ hown₁ hobj₁ hfds₁
  have himage : k₁.disk.image = k.disk.image := hg₁.volume.image
  refine (processLoadData_elf (hf.mono hg₁) ht₁ hg₁.free ⟨hfds₁ ▸ hs.first, hs.lt⟩
    (himage ▸ he) (by omega) hown₁.alive hobj₁).mono ?_
  rintro res k₂ ⟨rfl, hfds₂, elf_file, hg₂, hown, f, memory, hobj, hmem, hmemory, hbytes⟩
  rw [himage] at hbytes
  have hst₁ := k₁.put_stored process (.process (Process.zero.withElf elf_file))
  have hne : elf_file ≠ process := by
    rintro rfl
    exact hown.fresh 3 hown₁.alive
  have hne_memory : memory ≠ process := by
    rintro rfl
    exact hmemory.fresh 3 hown₁.alive
  have hown₂ : Grown.Own k k₂ elf_file 1 := .before hg₁ hown
  have hmemory₂ : Grown.Own k k₂ memory (blocksOf e.filesize) := .before hg₁ hmemory
  refine ⟨rfl, Process.zero.withElf elf_file, processMapElf process, _, ?_, rfl, rfl, memory, rfl,
    hmemory₂, hne_memory, hbytes⟩
  exact
    { grown := ((hg₁.stored hown₁ hst₁).trans hg₂).mono (by omega)
      own := ⟨hg₂.alive _ _ hown₁.alive, hown₁.fresh⟩
      obj := (hg₂.obj hown₁.alive).trans hst₁.self
      file_descriptors := hfds₂.trans hfds₁
      maps := .elf rfl
      starts := by
        intro k' hkeep
        obtain ⟨hal', hobj', -⟩ := hkeep _ _ hown₂ hne
        have hb' := hkeep.holdsBytes hmemory₂ hne_memory hbytes
        have hal₂' := (hkeep _ _ hmemory₂ hne_memory).1
        have hprogram : (Process.zero.withElf elf_file).filetype = PROCESS_FILETYPE_ELF := rfl
        unfold taskEntry
        rw [if_pos hprogram]
        refine .bind (elfHeader_returns hown.alive.ne_zero (hobj'.trans hobj)
          (hmem ▸ hal₂'.ne_zero)) ?_
        rintro _ _ ⟨rfl, rfl⟩
        rw [hmem]
        exact .pure ⟨rfl, (hb'.readElfHeader he.header).2.2.1⟩
      mapped := by
        intro q k' t ptrs hq hkeep hat
        obtain ⟨hal', hobj', -⟩ := hkeep _ _ hown₂ hne
        have hb' := hkeep.holdsBytes hmemory₂ hne_memory hbytes
        have hal₂' := (hkeep _ _ hmemory₂ hne_memory).1
        obtain ⟨haligned, hlt⟩ := hal₂'.aligned
        subst hmem
        have hfile : q.elf_file = elf_file := hq.elf_file
        have hholds : HoldsProgram process k' q t ptrs identityMap f phdrs :=
          { processAt := hat
            file_ne_zero := by rw [hfile]; exact hown.alive.ne_zero
            file_eq := by rw [hfile]; exact hobj'.trans hobj
            memory_alive := ⟨_, hal₂'⟩
            phnum := (hb'.readElfHeader he.header).1.trans he.phnum
            address_ne := fun j hj => (he.phdr_in hb' hal₂' hj).1
            phdr_eq := fun j hj => (he.phdr_in hb' hal₂' hj).2 }
        exact hholds.processMapElf_returns (he.segmentsApart haligned (by omega)).mappable }

end Load

end Executable

theorem twoSegmentElf_executable : Executable 124
    (FatHeader.oneSector.contents (Disk.tree twoSegmentElf).image [3]) twoSegmentPhdrs where
  header := by decide
  valid := by decide +kernel
  phnum := by decide +kernel
  table := by decide +kernel
  phdr_eq := by
    intro i hi
    have hfirst : readElf32Phdr (FatHeader.oneSector.contents (Disk.tree twoSegmentElf).image [3])
      (52 + 32 * 0) = ⟨1, 0x74, 0x400074, 4, 4, 5⟩ := by
      rw [readElf32Phdr, Elf32Phdr.mk.injEq]
      decide +kernel
    have hsecond : readElf32Phdr (FatHeader.oneSector.contents (Disk.tree twoSegmentElf).image [3])
      (52 + 32 * 1) = ⟨1, 0x78, 0x401078, 4, 4, 6⟩ := by
      rw [readElf32Phdr, Elf32Phdr.mk.injEq]
      decide +kernel
    rw [show (readElfHeader (FatHeader.oneSector.contents (Disk.tree twoSegmentElf).image [3])
      0).e_phoff = 52 by decide +kernel]
    match i, hi with
    | 0, _ => exact hfirst
    | 1, _ => exact hsecond
  inside := by decide
  congruent := by decide
  physical := by decide
  virtual := by decide
  disjoint := by
    refine List.pairwise_pair.mpr fun page hboth => ?_
    have hcode : page < 0x401 := hboth.1.2
    have hdata : 0x401 ≤ page := hboth.2.1
    omega
  stack := by
    intro phdr hphdr page hpage
    rcases List.mem_pair.mp hphdr with rfl | rfl
    · exact Or.inr ((show 0x3FF ≤ 0x400 by decide).trans hpage.1)
    · exact Or.inr ((show 0x3FF ≤ 0x401 by decide).trans hpage.1)

end PlumOS
