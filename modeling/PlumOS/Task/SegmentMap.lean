import PlumOS.Lib.Patch
import PlumOS.Task.ProcessMemory
import PlumOS.Task.StringCopy

/-!
# The segments of a program in its address space

`process_map_elf` maps the pages of each program header. The first virtual page and the
first physical page are rounded down and the physical end is rounded up, so when offset and
address agree modulo the page size, the segment's bytes are all on the pages that are mapped.

## Main definitions

- `segmentPatch` — the entries for one header
- `HoldsProgram` — a process whose file has a list of program headers
- `SegmentsMapped` — what a caller expects of the page tables

## Main results

- `processMapElfLoop_maps`, `processMapElf_maps`
-/

namespace PlumOS

open StateExcept Patches

/-! ### One header -/

/-- The number of pages that `process_map_elf` maps for a header. -/
def segmentPages (elf_memory : Nat) (phdr : Elf32Phdr) : Nat :=
  (elf_memory + phdr.p_offset + phdr.p_memsz + 4095) / 4096 -
    (elf_memory + phdr.p_offset) / 4096

/-- Page number `page` is among them. -/
def InSegment (elf_memory : Nat) (phdr : Elf32Phdr) (page : Nat) : Prop :=
  phdr.p_vaddr / 4096 ≤ page ∧ page < phdr.p_vaddr / 4096 + segmentPages elf_memory phdr

instance (elf_memory : Nat) (phdr : Elf32Phdr) : DecidablePred (InSegment elf_memory phdr) :=
  fun _ => inferInstanceAs (Decidable (_ ∧ _))

/-- The entries of these pages. -/
def segmentPatch (elf_memory : Nat) (phdr : Elf32Phdr) : Patch Nat Nat where
  domain := InSegment elf_memory phdr
  dec := inferInstance
  value := fun page =>
    ((elf_memory + phdr.p_offset) / 4096 + (page - phdr.p_vaddr / 4096)) * 4096 |||
      segmentFlags phdr

/-- The header is mapped without going around the end of the address space. -/
structure Mappable (elf_memory : Nat) (phdr : Elf32Phdr) : Prop where
  physical : (elf_memory + phdr.p_offset + phdr.p_memsz + 4095) / 4096 < 0x100000
  virtual : phdr.p_vaddr / 4096 + segmentPages elf_memory phdr ≤ 0x100000
  vaddr : phdr.p_vaddr < 0x100000000

theorem segmentFlags_lt (phdr : Elf32Phdr) : segmentFlags phdr < 4096 := by
  unfold segmentFlags
  split <;> decide

section Header

variable {k : Kernel} {chunk elf_memory : Nat} {ptrs : List Nat} {m : Nat → Nat} {phdr : Elf32Phdr}

/-- Mapping one header. -/
theorem MapsSpace.mapSegment (h : MapsSpace k chunk ptrs m) (hphdr : Mappable elf_memory phdr) :
    Returns (pagingMapTo chunk (pagingAlignToLowerPage phdr.p_vaddr)
      (pagingAlignToLowerPage (elf_memory + phdr.p_offset))
      (pagingAlignAddress (u32 ((elf_memory + phdr.p_offset + phdr.p_memsz : Nat) : Int)))
      (segmentFlags phdr)) k fun res k' => res = 0 ∧
        MapsSpace k' chunk ptrs ((segmentPatch elf_memory phdr).apply m) ∧ OnlyIn ptrs k k' := by
  obtain ⟨hphysical, hvirtual, hvaddr⟩ := hphdr
  have hend : u32 ((elf_memory + phdr.p_offset + phdr.p_memsz : Nat) : Int) =
      elf_memory + phdr.p_offset + phdr.p_memsz := by
    unfold u32
    omega
  have hlower : ∀ a, pagingAlignToLowerPage a = a / 4096 * 4096 := by
    intro a
    unfold pagingAlignToLowerPage PAGING_PAGE_SIZE
    omega
  rw [hend, pagingAlignAddress_eq (by omega), hlower, hlower]
  refine (h.mapTo (by omega) (by omega) (by omega) (by omega) (by omega) (by omega) _).mono ?_
  rintro res k' ⟨hres, hmaps, honly⟩
  refine ⟨hres, hmaps.ext fun page hpage => ?_, honly⟩
  have hpages : ((elf_memory + phdr.p_offset + phdr.p_memsz + 4095) / 4096 * 4096 -
      (elf_memory + phdr.p_offset) / 4096 * 4096) / 4096 = segmentPages elf_memory phdr := by
    unfold segmentPages
    omega
  rw [hpages, Nat.mul_div_cancel _ (by decide), mapRange_of_le _ _ _ hvirtual hpage]
  by_cases hin : InSegment elf_memory phdr page
  · refine (if_pos hin).trans ?_
    rw [Patch.apply_of_mem (p := segmentPatch elf_memory phdr) hin, ← Nat.add_mul]
    rfl
  · refine (if_neg hin).trans ?_
    exact (Patch.apply_of_not_mem (p := segmentPatch elf_memory phdr) hin).symm

/-- The bytes of a segment are on the pages that are mapped for it. -/
theorem inSegment_of_lt (hmemory : elf_memory % 4096 = 0)
    (hcongruent : phdr.p_offset % 4096 = phdr.p_vaddr % 4096) {i : Nat} (hi : i < phdr.p_memsz) :
    InSegment elf_memory phdr ((phdr.p_vaddr + i) / 4096) := by
  unfold InSegment segmentPages
  omega

/-- Present and for users, and writeable exactly when the header says so. -/
theorem segmentFlags_spec (phdr : Elf32Phdr) : segmentFlags phdr &&& PAGING_IS_PRESENT ≠ 0 ∧
    segmentFlags phdr &&& PAGING_ACCESS_FROM_ALL ≠ 0 ∧
    (segmentFlags phdr &&& PAGING_IS_WRITEABLE ≠ 0 ↔ phdr.p_flags &&& PF_W ≠ 0) := by
  unfold segmentFlags
  split
  · next hw => exact ⟨by decide, by decide, iff_of_true (by decide) hw⟩
  · next hw => exact ⟨by decide, by decide, iff_of_false (by decide) hw⟩

end Header

/-! ### The loop -/

/-- The loop maps the headers of the list, one after the other. -/
theorem processMapElfLoop_maps {process table : Nat} {file : ElfFile} {pr : Process} {t : Task}
    {ptrs : List Nat} : ∀ (phdrs : List Elf32Phdr) (i : Nat) {k : Kernel} {m : Nat → Nat},
    ProcessAt process k pr t ptrs m →
    (∀ j (h : j < phdrs.length), elfPhdrAddress table (i + j) ≠ 0 ∧
      readElf32Phdr k.mem (elfPhdrAddress table (i + j)) = phdrs[j]) →
    (∀ phdr ∈ phdrs, Mappable file.elf_memory phdr) →
    Returns (processMapElfLoop process table file phdrs.length i) k fun res k' => res = 0 ∧
      MapsSpace k' t.page_directory ptrs
        (patched m (phdrs.map (segmentPatch file.elf_memory))) ∧ OnlyIn ptrs k k' := by
  intro phdrs
  induction phdrs with
  | nil =>
    intro i k m h _ _
    exact .pure ⟨rfl, h.space, .refl ptrs k⟩
  | cons phdr phdrs ih =>
    intro i k m h htable hmappable
    obtain ⟨haddress, hread⟩ := htable 0 (Nat.succ_pos _)
    rw [Nat.add_zero] at haddress hread
    have hphdr := hmappable phdr List.mem_cons_self
    have hphys : elfPhdrPhysAddress file phdr = file.elf_memory + phdr.p_offset := by
      have hlt := hphdr.physical
      unfold elfPhdrPhysAddress u32
      omega
    obtain ⟨n, halive⟩ := h.process_alive
    refine Returns.bind (R := fun a k' => k = k' ∧ a = phdr) ?_ ?_
    · refine ⟨_, k, if_neg haddress, rfl, ?_⟩
      rw [hread]
      rfl
    rintro _ _ ⟨rfl, rfl⟩
    dsimp only
    rw [hphys]
    refine .bind (deref_returns halive.ne_zero h.process_eq rfl) ?_
    rintro _ _ ⟨rfl, rfl⟩
    refine .bind (deref_returns h.task_alive.ne_zero h.task_eq rfl) ?_
    rintro _ _ ⟨rfl, rfl⟩
    refine .bind (h.space.mapSegment hphdr) ?_
    rintro res k₁ ⟨rfl, hmaps, honly⟩
    rw [if_neg (lt_irrefl 0)]
    refine (ih (i + 1) (h.mapped rfl hmaps honly) ?_ fun q hq =>
      hmappable q (List.mem_cons_of_mem _ hq)).mono ?_
    · intro j hj
      rw [honly.mem, Nat.add_assoc, Nat.add_comm 1]
      exact htable (j + 1) (Nat.succ_lt_succ hj)
    · rintro res k₂ ⟨hres, hmaps₂, honly₂⟩
      exact ⟨hres, hmaps₂, honly.trans honly₂⟩

/-! ### process_map_elf -/

/-- The process at `process` was loaded from an executable: its file is in an allocation of
the heap, and its table of program headers is the list. -/
structure HoldsProgram (process : Nat) (k : Kernel) (pr : Process) (t : Task) (ptrs : List Nat)
    (m : Nat → Nat) (file : ElfFile) (phdrs : List Elf32Phdr) : Prop where
  processAt : ProcessAt process k pr t ptrs m
  file_ne_zero : pr.elf_file ≠ 0
  file_eq : k.objs pr.elf_file = some (.elfFile file)
  memory_alive : ∃ n, k.Alive file.elf_memory n
  phnum : (readElfHeader k.mem file.elf_memory).e_phnum = phdrs.length
  address_ne : ∀ i < phdrs.length,
    elfPhdrAddress (elfPheader file.elf_memory (readElfHeader k.mem file.elf_memory)) i ≠ 0
  phdr_eq : ∀ (i : Nat) (h : i < phdrs.length), readElf32Phdr k.mem
    (elfPhdrAddress (elfPheader file.elf_memory (readElfHeader k.mem file.elf_memory)) i) = phdrs[i]

/-- The segments of the headers may be mapped: offset and address agree modulo the page
size, nothing goes around the end, and no page is in two of the ranges. -/
structure SegmentsApart (elf_memory : Nat) (phdrs : List Elf32Phdr) : Prop where
  congruent : ∀ phdr ∈ phdrs, phdr.p_offset % 4096 = phdr.p_vaddr % 4096
  mappable : ∀ phdr ∈ phdrs, Mappable elf_memory phdr
  disjoint : phdrs.Pairwise fun phdr phdr' =>
    ∀ page, ¬ (InSegment elf_memory phdr page ∧ InSegment elf_memory phdr' page)

/-- What is expected of the page tables behind `directory`: each byte of a segment is
translated to its place in the file and may be used as the header says, and the entries of
all other pages are the ones in `k`. -/
structure SegmentsMapped (k k' : Kernel) (directory elf_memory : Nat) (phdrs : List Elf32Phdr) :
    Prop where
  translates : ∀ phdr ∈ phdrs, ∀ i < phdr.p_memsz,
    pagingGetPhyiscalAddress directory (phdr.p_vaddr + i) k' =
      .ok (elf_memory + phdr.p_offset + i, k')
  entries : ∀ phdr ∈ phdrs, ∀ i < phdr.p_memsz, ∃ entry,
    pagingGet directory (pagingAlignToLowerPage (phdr.p_vaddr + i)) k' = .ok (entry, k') ∧
      entry &&& PAGING_IS_PRESENT ≠ 0 ∧ entry &&& PAGING_ACCESS_FROM_ALL ≠ 0 ∧
      (entry &&& PAGING_IS_WRITEABLE ≠ 0 ↔ phdr.p_flags &&& PF_W ≠ 0)
  others : ∀ virt < 0x100000000, virt % 4096 = 0 →
    (∀ phdr ∈ phdrs, ¬ InSegment elf_memory phdr (virt / 4096)) →
    ∃ entry, pagingGet directory virt k = .ok (entry, k) ∧
      pagingGet directory virt k' = .ok (entry, k')

section MapElf

variable {process : Nat} {k : Kernel} {pr : Process} {t : Task} {ptrs : List Nat} {m : Nat → Nat}
  {file : ElfFile} {phdrs : List Elf32Phdr}

/-- The page tables afterwards, as a map from pages to entries. -/
theorem HoldsProgram.processMapElf_returns (h : HoldsProgram process k pr t ptrs m file phdrs)
    (hmappable : ∀ phdr ∈ phdrs, Mappable file.elf_memory phdr) :
    Returns (processMapElf process) k fun res k' => res = 0 ∧
      MapsSpace k' t.page_directory ptrs
        (patched m (phdrs.map (segmentPatch file.elf_memory))) ∧ OnlyIn ptrs k k' := by
  obtain ⟨n, halive⟩ := h.processAt.process_alive
  obtain ⟨l, hmemory⟩ := h.memory_alive
  refine .bind (deref_returns halive.ne_zero h.processAt.process_eq rfl) ?_
  rintro _ _ ⟨rfl, rfl⟩
  refine .bind (R := fun a k' => k = k' ∧ a = readElfHeader k.mem file.elf_memory) ?_ ?_
  · refine .bind (deref_returns h.file_ne_zero h.file_eq rfl) ?_
    rintro _ _ ⟨rfl, rfl⟩
    exact ⟨_, k, if_neg hmemory.ne_zero, rfl, rfl⟩
  rintro _ _ ⟨rfl, rfl⟩
  refine .bind (deref_returns h.file_ne_zero h.file_eq rfl) ?_
  rintro _ _ ⟨rfl, rfl⟩
  rw [h.phnum]
  refine processMapElfLoop_maps phdrs 0 h.processAt (fun j hj => ?_) hmappable
  rw [Nat.zero_add]
  exact ⟨h.address_ne j hj, h.phdr_eq j hj⟩

theorem SegmentsApart.pairwise (h : SegmentsApart file.elf_memory phdrs) :
    (phdrs.map (segmentPatch file.elf_memory)).Pairwise Patch.Apart :=
  List.pairwise_map.mpr h.disjoint

/-- The entry of a page of a segment. -/
theorem SegmentsApart.patched_eq (h : SegmentsApart file.elf_memory phdrs) {phdr : Elf32Phdr}
    (hphdr : phdr ∈ phdrs) {page : Nat} (hpage : InSegment file.elf_memory phdr page) :
    patched m (phdrs.map (segmentPatch file.elf_memory)) page =
      ((file.elf_memory + phdr.p_offset) / 4096 + (page - phdr.p_vaddr / 4096)) * 4096 |||
        segmentFlags phdr :=
  patched_of_mem h.pairwise (List.mem_map_of_mem hphdr) hpage

/-- For every list of program headers whose segments may be mapped: `process_map_elf` maps
each byte of each segment to its place in the file, with the permissions of its header,
leaves all other pages alone, and makes the same page tables of every order of the headers. -/
theorem processMapElf_maps (h : HoldsProgram process k pr t ptrs m file phdrs)
    (hapart : SegmentsApart file.elf_memory phdrs) {d : Nat}
    (hd : k.objs t.page_directory = some (.chunk d)) :
    ∃ k', processMapElf process k = .ok (0, k') ∧
      k'.objs t.page_directory = some (.chunk d) ∧ OnlyIn ptrs k k' ∧
      SegmentsMapped k k' d file.elf_memory phdrs ∧
      ∀ k₂ phdrs₂, HoldsProgram process k₂ pr t ptrs m file phdrs₂ → phdrs₂.Perm phdrs →
        k₂.objs t.page_directory = some (.chunk d) →
        ∃ k₂', processMapElf process k₂ = .ok (0, k₂') ∧ ∀ virt < 0x100000000, virt % 4096 = 0 →
          ∃ entry, pagingGet d virt k' = .ok (entry, k') ∧
            pagingGet d virt k₂' = .ok (entry, k₂') := by
  obtain ⟨_, k', hrun, rfl, hmaps, honly⟩ := h.processMapElf_returns hapart.mappable
  have hd' := h.processAt.space.directory_eq hmaps hd
  obtain ⟨n, b, hb, -⟩ := h.memory_alive
  have haligned : file.elf_memory % 4096 = 0 := hb ▸ blockAddress_aligned b
  have hin : ∀ phdr ∈ phdrs, ∀ i < phdr.p_memsz, InSegment file.elf_memory phdr
      ((phdr.p_vaddr + i) / 4096) := fun phdr hphdr i hi =>
    inSegment_of_lt haligned (hapart.congruent phdr hphdr) hi
  have hlt : ∀ phdr ∈ phdrs, ∀ i < phdr.p_memsz, phdr.p_vaddr + i < 0x100000000 := by
    intro phdr hphdr i hi
    have hpage := (hin phdr hphdr i hi).2
    have hvirtual := (hapart.mappable phdr hphdr).virtual
    omega
  refine ⟨k', hrun, hd', honly, ⟨?_, ?_, ?_⟩, ?_⟩
  · intro phdr hphdr i hi
    have hcongruent := hapart.congruent phdr hphdr
    have hphysical := (hapart.mappable phdr hphdr).physical
    have hpage := hin phdr hphdr i hi
    rw [hmaps.translate hd' (hlt phdr hphdr i hi) (Nat.mul_mod_left _ _) (by omega)
      (segmentFlags_lt phdr) (hapart.patched_eq hphdr hpage)]
    congr 2
    have := hpage.1
    omega
  · intro phdr hphdr i hi
    have hlower : pagingAlignToLowerPage (phdr.p_vaddr + i) / 4096 = (phdr.p_vaddr + i) / 4096 ∧
        pagingAlignToLowerPage (phdr.p_vaddr + i) % 4096 = 0 ∧
        pagingAlignToLowerPage (phdr.p_vaddr + i) ≤ phdr.p_vaddr + i := by
      unfold pagingAlignToLowerPage PAGING_PAGE_SIZE
      omega
    have hspec := segmentFlags_spec phdr
    refine ⟨_, hmaps.get hd' hlower.2.1 (lt_of_le_of_lt hlower.2.2 (hlt phdr hphdr i hi)), ?_⟩
    rw [hlower.1, hapart.patched_eq hphdr (hin phdr hphdr i hi),
      entry_and (Nat.mul_mod_left _ _) (segmentFlags_lt phdr) (by decide),
      entry_and (Nat.mul_mod_left _ _) (segmentFlags_lt phdr) (by decide),
      entry_and (Nat.mul_mod_left _ _) (segmentFlags_lt phdr) (by decide)]
    exact hspec
  · intro virt hvirt hmod hout
    refine ⟨m (virt / 4096), h.processAt.space.get hd hmod hvirt, ?_⟩
    rw [hmaps.get hd' hmod hvirt, patched_of_not_mem]
    intro p hp
    obtain ⟨phdr, hphdr, rfl⟩ := List.mem_map.mp hp
    exact hout phdr hphdr
  · intro k₂ phdrs₂ h₂ hperm hd₂
    obtain ⟨_, k₂', hrun₂, rfl, hmaps₂, -⟩ := h₂.processMapElf_returns fun phdr hphdr =>
      hapart.mappable phdr (hperm.mem_iff.mp hphdr)
    have hd₂' := h₂.processAt.space.directory_eq hmaps₂ hd₂
    refine ⟨k₂', hrun₂, fun virt hvirt hmod => ⟨_, hmaps.get hd' hmod hvirt, ?_⟩⟩
    rw [hmaps₂.get hd₂' hmod hvirt, patched_perm (hperm.symm.map _) hapart.pairwise]

end MapElf

/-- An executable with code at 0x400074 and data at 0x401078. -/
def twoSegmentElf : List UInt8 :=
  [0x7f, 0x45, 0x4C, 0x46, 1, 1, 1, 0, 0, 0, 0, 0, 0, 0, 0, 0, 2, 0, 3, 0, 1, 0, 0, 0,
    0x74, 0, 0x40, 0, 52, 0, 0, 0, 0, 0, 0, 0, 0, 0, 0, 0, 52, 0, 32, 0, 2, 0, 0, 0, 0, 0, 0, 0] ++
  [1, 0, 0, 0, 0x74, 0, 0, 0, 0x74, 0, 0x40, 0, 0, 0, 0, 0, 4, 0, 0, 0, 4, 0, 0, 0,
    5, 0, 0, 0, 0, 0x10, 0, 0] ++
  [1, 0, 0, 0, 0x78, 0, 0, 0, 0x78, 0x10, 0x40, 0, 0, 0, 0, 0, 4, 0, 0, 0, 4, 0, 0, 0,
    6, 0, 0, 0, 0, 0x10, 0, 0] ++ [0xEB, 0xFE, 0x90, 0x90, 1, 2, 3, 4]

def twoSegmentPhdrs : List Elf32Phdr :=
  [⟨1, 0x74, 0x400074, 4, 4, 5⟩, ⟨1, 0x78, 0x401078, 4, 4, 6⟩]

/-- The process of block 2053 with this executable in block 2057. -/
def Kernel.withProgram : Kernel :=
  { Kernel.withTask (fun n => n * PAGING_PAGE_SIZE ||| userWriteable) with
    heap_entries := fun _ => 0x41
    mem := fun a => twoSegmentElf.getD (a - blockAddress 2057) 0
    objs := fun p =>
      if p = blockAddress 2053 then
        some (.process { Process.ofFirst with ptr := blockAddress 2056 })
      else if p = blockAddress 2056 then
        some (.elfFile { ElfFile.zero with elf_memory := blockAddress 2057 })
      else (Kernel.withTask fun n => n * PAGING_PAGE_SIZE ||| userWriteable).objs p }

theorem withProgram_alive {b : Nat} (hb : b < 25600) :
    Kernel.withProgram.Alive (blockAddress b) 1 := by
  refine ⟨b, rfl, Nat.zero_lt_one, by omega, fun j hj => ?_⟩
  obtain rfl : j = 0 := by omega
  rw [Kernel.heap_entries_eq, show Kernel.withProgram.heap_entries _ = 0x41 from rfl]
  decide

theorem withProgram_objs {b : Nat} (hb : b < 2053) : Kernel.withProgram.objs (blockAddress b) =
    (Kernel.withTask fun n => n * PAGING_PAGE_SIZE ||| userWriteable).objs (blockAddress b) := by
  have hne : ∀ b', 2053 ≤ b' → blockAddress b ≠ blockAddress b' := by
    intro b' hb'
    unfold blockAddress
    omega
  exact (if_neg (hne 2053 le_rfl)).trans (if_neg (hne 2056 (by decide)))

theorem withProgram_processAt : ProcessAt (blockAddress 2053) Kernel.withProgram
    { Process.ofFirst with ptr := blockAddress 2056 }
    ⟨blockAddress 1, Registers.zero, blockAddress 2053, 0, 0⟩
    ((List.range' 1 1026).map blockAddress) fun n => n * PAGING_PAGE_SIZE ||| userWriteable where
  process_eq := rfl
  process_alive := ⟨1, withProgram_alive (by decide)⟩
  task_eq := by
    change Kernel.withProgram.objs (blockAddress 0) = _
    rw [withProgram_objs (by decide), withTask_objs, if_pos rfl]
  task_alive := withProgram_alive (by decide)
  space := by
    refine .of_blocks (by decide) (fun b _ hb => withProgram_alive (by omega)) fun b h₀ hb => ?_
    rw [withProgram_objs (by omega), withTask_objs, if_neg (by omega), if_pos (by omega)]

theorem withProgram_holds : HoldsProgram (blockAddress 2053) Kernel.withProgram
    { Process.ofFirst with ptr := blockAddress 2056 }
    ⟨blockAddress 1, Registers.zero, blockAddress 2053, 0, 0⟩
    ((List.range' 1 1026).map blockAddress) (fun n => n * PAGING_PAGE_SIZE ||| userWriteable)
    { ElfFile.zero with elf_memory := blockAddress 2057 } twoSegmentPhdrs where
  processAt := withProgram_processAt
  file_ne_zero := by decide
  file_eq := rfl
  memory_alive := ⟨1, withProgram_alive (by decide)⟩
  phnum := by decide
  address_ne := by decide
  phdr_eq := by
    intro i hi
    match i, hi with
    | 0, _ => rfl
    | 1, _ => rfl

theorem twoSegmentPhdrs_apart : SegmentsApart (blockAddress 2057) twoSegmentPhdrs where
  congruent := by decide
  mappable := by
    intro phdr hphdr
    rcases List.mem_pair.mp hphdr with rfl | rfl
    · exact ⟨by decide, by decide, by decide⟩
    · exact ⟨by decide, by decide, by decide⟩
  disjoint := by
    refine List.pairwise_pair.mpr fun page hboth => ?_
    have hcode : page < 0x401 := hboth.1.2
    have hdata : 0x401 ≤ page := hboth.2.1
    omega

/-- For the code and the data of this executable. -/
theorem processMapElf_maps_two : ∃ k', processMapElf (blockAddress 2053) Kernel.withProgram =
      .ok (0, k') ∧
    SegmentsMapped Kernel.withProgram k' (blockAddress 2) (blockAddress 2057) twoSegmentPhdrs := by
  obtain ⟨k', hrun, -, -, hmapped, -⟩ :=
    processMapElf_maps withProgram_holds twoSegmentPhdrs_apart (d := blockAddress 2) (by
      change Kernel.withProgram.objs (blockAddress 1) = some (.chunk (blockAddress 2))
      rw [withProgram_objs (by decide), withTask_objs, if_neg (by decide), if_pos (by decide),
        spaceObj, if_pos rfl])
  exact ⟨k', hrun, hmapped⟩

end PlumOS
