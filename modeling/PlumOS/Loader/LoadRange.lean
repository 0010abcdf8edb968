import Mathlib.Order.Bounds.Basic
import PlumOS.Loader.ElfBounds

/-!
# The range that a file is loaded to

`elf_process_pheaders` keeps a running minimum of the addresses its headers are loaded
to, and a running maximum of their ends. In both the value 0 says that no header has been
seen yet.

## Main definitions

- `elfProcessPheaders` — the loop over the program headers
- `HoldsPheaders` — a list of program headers in memory
- `LoadRange` — the range that the headers of a list are loaded to
- `ZeroLoadsLast` — the condition under which the loop finds it
-/

namespace PlumOS

open StateExcept

/-- `elf_process_pheaders`. -/
def elfProcessPheaders (elf_file : Nat) : KM Int := do
  let header ← elfHeader elf_file
  let f ← deref Obj.elfFile? elf_file
  elfProcessPheadersLoop elf_file (elfPheader f.elf_memory header) header.e_phnum 0
  pure 0

/-- The headers of a list that are loaded. -/
def loadHeaders (phdrs : List Elf32Phdr) : List Elf32Phdr :=
  phdrs.filter fun phdr => phdr.p_type = PT_LOAD

/-- The structure at `elf_file` is as `elf_load` makes it, and the table of program headers
of the file at `elf_memory` is the list. -/
structure HoldsPheaders (k : Kernel) (elf_file elf_memory : Nat) (phdrs : List Elf32Phdr) :
    Prop where
  ne_zero : elf_file ≠ 0
  file_eq : k.objs elf_file = some (.elfFile { ElfFile.zero with elf_memory := elf_memory })
  memory_ne : elf_memory ≠ 0
  phnum : (readElfHeader k.mem elf_memory).e_phnum = phdrs.length
  address_ne : ∀ i < phdrs.length,
    elfPhdrAddress (elfPheader elf_memory (readElfHeader k.mem elf_memory)) i ≠ 0
  phdr_eq : ∀ (i : Nat) (h : i < phdrs.length), readElf32Phdr k.mem
    (elfPhdrAddress (elfPheader elf_memory (readElfHeader k.mem elf_memory)) i) = phdrs[i]

/-- The structure has the least address and the greatest end of the headers, and the place
in memory of the header with the least address. -/
structure LoadRange (phdrs : List Elf32Phdr) (f : ElfFile) : Prop where
  base : IsLeast {a | ∃ phdr ∈ phdrs, phdr.p_vaddr = a} f.virtual_base_address
  end_ : IsGreatest {a | ∃ phdr ∈ phdrs, phdr.p_vaddr + phdr.p_filesz = a} f.virtual_end_address
  physical : ∀ phdr ∈ phdrs, phdr.p_vaddr = f.virtual_base_address →
    f.physical_base_address = elfPhdrPhysAddress f phdr

/-- `elf_process_pheaders` comes back with the range of the headers that are loaded. -/
def LeavesLoadRange (k : Kernel) (elf_file elf_memory : Nat) (phdrs : List Elf32Phdr) : Prop :=
  Returns (elfProcessPheaders elf_file) k fun res k' => res = 0 ∧ ∃ f,
    k'.objs elf_file = some (.elfFile f) ∧ f.elf_memory = elf_memory ∧
      LoadRange (loadHeaders phdrs) f

/-- Behind a header that is loaded to address 0 no other one is loaded. -/
def ZeroLoadsLast (phdrs : List Elf32Phdr) : Prop :=
  (loadHeaders phdrs).Pairwise fun phdr _ => phdr.p_vaddr ≠ 0

instance (phdrs : List Elf32Phdr) : Decidable (ZeroLoadsLast phdrs) :=
  inferInstanceAs (Decidable (List.Pairwise _ _))

/-! ### One header -/

section Step

variable (f : ElfFile) (phdr : Elf32Phdr)

@[simp] theorem elfProcessPhdrPtLoad_memory :
    (elfProcessPhdrPtLoad f phdr).elf_memory = f.elf_memory := by
  unfold elfProcessPhdrPtLoad
  dsimp only
  split <;> split <;> rfl

theorem elfProcessPhdrPtLoad_base : (elfProcessPhdrPtLoad f phdr).virtual_base_address =
    if phdr.p_vaddr ≤ f.virtual_base_address ∨ f.virtual_base_address = 0 then phdr.p_vaddr
    else f.virtual_base_address := by
  unfold elfProcessPhdrPtLoad
  dsimp only
  split <;> split <;> rfl

theorem elfProcessPhdrPtLoad_physical : (elfProcessPhdrPtLoad f phdr).physical_base_address =
    if phdr.p_vaddr ≤ f.virtual_base_address ∨ f.virtual_base_address = 0 then
      elfPhdrPhysAddress f phdr
    else f.physical_base_address := by
  unfold elfProcessPhdrPtLoad
  dsimp only
  split <;> split <;> rfl

theorem elfProcessPhdrPtLoad_end (h : phdr.p_vaddr + phdr.p_filesz < 0x100000000) :
    (elfProcessPhdrPtLoad f phdr).virtual_end_address =
      max f.virtual_end_address (phdr.p_vaddr + phdr.p_filesz) := by
  have hend : u32 ((phdr.p_vaddr + phdr.p_filesz : Nat) : Int) = phdr.p_vaddr + phdr.p_filesz :=
    u32_of_range (by omega) (by omega)
  have hif : (elfProcessPhdrPtLoad f phdr).virtual_end_address =
      if f.virtual_end_address ≤ phdr.p_vaddr + phdr.p_filesz ∨ f.virtual_end_address = 0 then
        phdr.p_vaddr + phdr.p_filesz
      else f.virtual_end_address := by
    unfold elfProcessPhdrPtLoad
    rw [hend]
    dsimp only
    split <;> split <;> rfl
  rw [hif]
  split <;> omega

end Step

/-! ### A list of headers -/

/-- The running minimum is right as long as no header so far was loaded to address 0. -/
theorem LoadRange.step {phdrs : List Elf32Phdr} {f : ElfFile} (h : LoadRange phdrs f)
    {phdr : Elf32Phdr} (hzero : ∀ q ∈ phdrs, q.p_vaddr ≠ 0)
    (hdistinct : ∀ q ∈ phdrs, q.p_vaddr ≠ phdr.p_vaddr)
    (hend : phdr.p_vaddr + phdr.p_filesz < 0x100000000) :
    LoadRange (phdrs ++ [phdr]) (elfProcessPhdrPtLoad f phdr) := by
  obtain ⟨⟨first, hfirst, hbase⟩, hleast⟩ := h.base
  obtain ⟨⟨last, hlast, hlastEnd⟩, hgreatest⟩ := h.end_
  have hset : f.virtual_base_address ≠ 0 := hbase ▸ hzero first hfirst
  have hcond : (phdr.p_vaddr ≤ f.virtual_base_address ∨ f.virtual_base_address = 0) ↔
      phdr.p_vaddr ≤ f.virtual_base_address := or_iff_left hset
  refine ⟨⟨?_, ?_⟩, ⟨?_, ?_⟩, ?_⟩
  · rw [elfProcessPhdrPtLoad_base]
    split
    · exact ⟨phdr, by simp, rfl⟩
    · exact ⟨first, by simp [hfirst], hbase⟩
  · rintro a ⟨q, hq, rfl⟩
    rw [elfProcessPhdrPtLoad_base]
    simp only [hcond]
    rcases List.mem_append.mp hq with hold | hnew
    · have hle := hleast ⟨q, hold, rfl⟩
      split <;> omega
    · obtain rfl := List.mem_singleton.mp hnew
      split <;> omega
  · rw [elfProcessPhdrPtLoad_end f phdr hend]
    rcases le_total f.virtual_end_address (phdr.p_vaddr + phdr.p_filesz) with hle | hle
    · exact ⟨phdr, by simp, (max_eq_right hle).symm⟩
    · exact ⟨last, by simp [hlast], by rw [max_eq_left hle, hlastEnd]⟩
  · rintro a ⟨q, hq, rfl⟩
    rw [elfProcessPhdrPtLoad_end f phdr hend]
    rcases List.mem_append.mp hq with hold | hnew
    · exact (hgreatest ⟨q, hold, rfl⟩).trans (le_max_left _ _)
    · obtain rfl := List.mem_singleton.mp hnew
      exact le_max_right _ _
  · intro q hq hqbase
    rw [elfProcessPhdrPtLoad_base] at hqbase
    rw [elfProcessPhdrPtLoad_physical]
    rcases List.mem_append.mp hq with hold | hnew
    · split at hqbase
      · exact absurd hqbase (hdistinct q hold)
      · next hcond => rw [if_neg hcond, h.physical q hold hqbase]; simp [elfPhdrPhysAddress]
    · obtain rfl := List.mem_singleton.mp hnew
      split at hqbase
      · next hcond => rw [if_pos hcond]; simp [elfPhdrPhysAddress]
      · omega

/-- The first header that is loaded sets everything. -/
theorem LoadRange.first {f : ElfFile} (hbase : f.virtual_base_address = 0)
    (hlast : f.virtual_end_address = 0) {phdr : Elf32Phdr}
    (hend : phdr.p_vaddr + phdr.p_filesz < 0x100000000) :
    LoadRange [phdr] (elfProcessPhdrPtLoad f phdr) := by
  have hbase' : (elfProcessPhdrPtLoad f phdr).virtual_base_address = phdr.p_vaddr := by
    rw [elfProcessPhdrPtLoad_base, if_pos (Or.inr hbase)]
  have hend' : (elfProcessPhdrPtLoad f phdr).virtual_end_address =
      phdr.p_vaddr + phdr.p_filesz := by
    rw [elfProcessPhdrPtLoad_end f phdr hend, hlast, Nat.zero_max]
  constructor
  · simp [hbase']
  · simp [hend']
  · intro q hq _
    obtain rfl := List.mem_singleton.mp hq
    rw [elfProcessPhdrPtLoad_physical, if_pos (Or.inr hbase)]
    simp [elfPhdrPhysAddress]

/-- The structure after the headers of a list that are all loaded. -/
theorem loadRange_foldl {f : ElfFile} (hbase : f.virtual_base_address = 0)
    (hlast : f.virtual_end_address = 0) (phdrs : List Elf32Phdr) (hne : phdrs ≠ [])
    (hend : ∀ phdr ∈ phdrs, phdr.p_vaddr + phdr.p_filesz < 0x100000000)
    (hdistinct : (phdrs.map Elf32Phdr.p_vaddr).Nodup)
    (hzero : phdrs.Pairwise fun phdr _ => phdr.p_vaddr ≠ 0) :
    LoadRange phdrs (phdrs.foldl elfProcessPhdrPtLoad f) := by
  induction phdrs using List.reverseRecOn with
  | nil => exact absurd rfl hne
  | append_singleton phdrs phdr ih =>
    rw [List.foldl_append, List.foldl_cons, List.foldl_nil]
    rw [List.map_append, List.nodup_append] at hdistinct
    rw [List.pairwise_append] at hzero
    have hphdr := hend phdr (by simp)
    cases phdrs with
    | nil => exact LoadRange.first hbase hlast hphdr
    | cons q rest =>
      refine LoadRange.step ?_ (fun p hp => hzero.2.2 p hp phdr (by simp)) ?_ hphdr
      · exact ih (by simp) (fun p hp => hend p (List.mem_append_left _ hp)) hdistinct.1 hzero.1
      · intro p hp
        exact hdistinct.2.2 _ (List.mem_map_of_mem hp) _ (by simp)

/-- The base address is set behind a header that is not loaded to address 0. -/
theorem foldl_base_ne_zero {phdrs : List Elf32Phdr} (hzero : ∀ phdr ∈ phdrs, phdr.p_vaddr ≠ 0)
    (f : ElfFile) (hset : phdrs ≠ [] ∨ f.virtual_base_address ≠ 0) :
    (phdrs.foldl elfProcessPhdrPtLoad f).virtual_base_address ≠ 0 := by
  induction phdrs generalizing f with
  | nil => exact hset.resolve_left (fun h => h rfl)
  | cons phdr phdrs ih =>
    refine ih (fun q hq => hzero q (by simp [hq])) _ (Or.inr ?_)
    rw [elfProcessPhdrPtLoad_base]
    split
    · exact hzero phdr (by simp)
    · next hcond => exact fun h => hcond (Or.inr h)

/-- A header that is loaded to address 0 is forgotten at the next one. -/
theorem zeroLoadsLast_of_foldl {phdrs : List Elf32Phdr} {f : ElfFile}
    (hdistinct : (phdrs.map Elf32Phdr.p_vaddr).Nodup)
    (h : LoadRange phdrs (phdrs.foldl elfProcessPhdrPtLoad f)) :
    phdrs.Pairwise fun phdr _ => phdr.p_vaddr ≠ 0 := by
  rw [List.pairwise_iff_forall_sublist]
  intro p q hsub hp
  obtain ⟨before, after, rfl, hbefore, hafter⟩ := List.cons_sublist_iff.mp hsub
  have hq : after ≠ [] := by
    rintro rfl
    exact absurd hafter (by simp)
  rw [List.map_append, List.nodup_append] at hdistinct
  have hzero : ∀ r ∈ after, r.p_vaddr ≠ 0 := fun r hr =>
    hp ▸ (hdistinct.2.2 _ (List.mem_map_of_mem hbefore) _ (List.mem_map_of_mem hr)).symm
  have hset := foldl_base_ne_zero hzero (before.foldl elfProcessPhdrPtLoad f) (Or.inl hq)
  rw [← List.foldl_append] at hset
  have hle := h.base.2 ⟨p, List.mem_append_left _ hbefore, hp⟩
  omega

/-! ### The table in memory -/

theorem foldl_elfProcessPheaderFile (f : ElfFile) (phdrs : List Elf32Phdr) :
    phdrs.foldl elfProcessPheaderFile f = (loadHeaders phdrs).foldl elfProcessPhdrPtLoad f := by
  unfold loadHeaders
  rw [List.foldl_filter]
  simp only [decide_eq_true_eq]
  rfl

theorem foldl_elfProcessPhdrPtLoad_memory (f : ElfFile) (phdrs : List Elf32Phdr) :
    (phdrs.foldl elfProcessPhdrPtLoad f).elf_memory = f.elf_memory := by
  induction phdrs generalizing f with
  | nil => rfl
  | cons phdr phdrs ih => rw [List.foldl_cons, ih, elfProcessPhdrPtLoad_memory]

/-- The loop applies the headers from `i` on to the structure, and changes nothing else. -/
theorem elfProcessPheadersLoop_eq {elf_file table : Nat} (hne : elf_file ≠ 0) :
    ∀ (phdrs : List Elf32Phdr) (i : Nat) {k : Kernel} {f : ElfFile},
      k.objs elf_file = some (.elfFile f) →
      (∀ j (h : j < phdrs.length), elfPhdrAddress table (i + j) ≠ 0 ∧
        readElf32Phdr k.mem (elfPhdrAddress table (i + j)) = phdrs[j]) →
      elfProcessPheadersLoop elf_file table phdrs.length i k = .ok (⟨⟩, { k with
        objs := Function.update k.objs elf_file
          (some (.elfFile (phdrs.foldl elfProcessPheaderFile f))) }) := by
  intro phdrs
  induction phdrs with
  | nil =>
    intro i k f ho _
    rw [List.foldl_nil, ← ho, Function.update_eq_self]
    rfl
  | cons phdr phdrs ih =>
    intro i k f ho htable
    obtain ⟨haddr, hphdr⟩ := htable 0 (by simp)
    rw [Nat.add_zero] at haddr hphdr
    have hread : derefMem readElf32Phdr (elfPhdrAddress table i) k = .ok (phdr, k) := by
      unfold derefMem
      rw [if_neg haddr, hphdr, List.getElem_cons_zero]
    rw [List.length_cons, elfProcessPheadersLoop, bind_of_ok hread,
      bind_of_ok (elfProcessPheader_eq hne ho phdr), ih (i + 1) (Function.update_self ..), Function.update_idem]
    · rfl
    · intro j hj
      rw [Nat.add_right_comm]
      exact htable (j + 1) (Nat.succ_lt_succ hj)

/-- `elf_process_pheaders` leaves the structure that the headers of the list make of it. -/
theorem HoldsPheaders.elfProcessPheaders_eq {k : Kernel} {elf_file elf_memory : Nat}
    {phdrs : List Elf32Phdr} (h : HoldsPheaders k elf_file elf_memory phdrs) :
    elfProcessPheaders elf_file k = .ok (0, { k with
      objs := Function.update k.objs elf_file (some (.elfFile ((loadHeaders phdrs).foldl
        elfProcessPhdrPtLoad { ElfFile.zero with elf_memory := elf_memory }))) }) := by
  have hread : deref Obj.elfFile? elf_file k =
      .ok ({ ElfFile.zero with elf_memory := elf_memory }, k) :=
    deref_ok h.ne_zero h.file_eq rfl
  have hheader : elfHeader elf_file k = .ok (readElfHeader k.mem elf_memory, k) := by
    unfold elfHeader
    rw [bind_of_ok hread]
    exact if_neg h.memory_ne
  have htable : ∀ j (hj : j < phdrs.length),
      elfPhdrAddress (elfPheader elf_memory (readElfHeader k.mem elf_memory)) (0 + j) ≠ 0 ∧
        readElf32Phdr k.mem (elfPhdrAddress (elfPheader elf_memory
          (readElfHeader k.mem elf_memory)) (0 + j)) = phdrs[j] := fun j hj => by
    rw [Nat.zero_add]
    exact ⟨h.address_ne j hj, h.phdr_eq j hj⟩
  have hloop := elfProcessPheadersLoop_eq h.ne_zero phdrs 0 h.file_eq htable
  unfold elfProcessPheaders
  rw [bind_of_ok hheader, bind_of_ok hread, h.phnum, bind_of_ok hloop, foldl_elfProcessPheaderFile]
  rfl

theorem HoldsPheaders.leavesLoadRange_iff {k : Kernel} {elf_file elf_memory : Nat}
    {phdrs : List Elf32Phdr} (h : HoldsPheaders k elf_file elf_memory phdrs) :
    LeavesLoadRange k elf_file elf_memory phdrs ↔ LoadRange (loadHeaders phdrs)
      ((loadHeaders phdrs).foldl elfProcessPhdrPtLoad
        { ElfFile.zero with elf_memory := elf_memory }) := by
  have hrun := h.elfProcessPheaders_eq
  constructor
  · rintro ⟨res, k', hok, -, f, hf, -, hrange⟩
    rw [hrun] at hok
    cases hok
    have heq := (Function.update_self ..).symm.trans hf
    cases heq
    exact hrange
  · intro hrange
    exact ⟨0, _, hrun, rfl, _, Function.update_self .., foldl_elfProcessPhdrPtLoad_memory _ _, hrange⟩

/-- `elf_process_loaded` of a file that is not rejected is `elf_process_pheaders`. -/
theorem elfProcessLoaded_of_valid {k k' : Kernel} {elf_file : Nat} {header : ElfHeader}
    (hheader : elfHeader elf_file k = .ok (header, k')) (hvalid : 0 ≤ elfValidateLoaded header) :
    elfProcessLoaded elf_file k = elfProcessPheaders elf_file k := by
  obtain rfl : k = k' := elfHeader_spec elf_file k header k' hheader
  unfold elfProcessLoaded elfProcessPheaders
  rw [bind_of_ok hheader, bind_of_ok hheader, if_neg (not_lt.mpr hvalid)]

/-- `elf_process_pheaders` finds the range that a file is loaded to exactly when no header
is loaded behind one that is loaded to address 0. -/
theorem elfProcessPheaders_range_iff (k : Kernel) (elf_file elf_memory : Nat)
    (phdrs : List Elf32Phdr) (h : HoldsPheaders k elf_file elf_memory phdrs)
    (hload : ∃ phdr ∈ phdrs, phdr.p_type = PT_LOAD)
    (hend : ∀ phdr ∈ phdrs, phdr.p_type = PT_LOAD → phdr.p_vaddr + phdr.p_filesz < 0x100000000)
    (hdistinct : ((loadHeaders phdrs).map Elf32Phdr.p_vaddr).Nodup) :
    LeavesLoadRange k elf_file elf_memory phdrs ↔ ZeroLoadsLast phdrs := by
  have hmem : ∀ phdr, phdr ∈ loadHeaders phdrs ↔ phdr ∈ phdrs ∧ phdr.p_type = PT_LOAD := by
    simp [loadHeaders]
  rw [h.leavesLoadRange_iff]
  refine ⟨zeroLoadsLast_of_foldl hdistinct, fun hzero => ?_⟩
  refine loadRange_foldl rfl rfl _ ?_ ?_ hdistinct hzero
  · obtain ⟨phdr, hphdr⟩ := hload
    exact List.ne_nil_of_mem ((hmem phdr).mpr hphdr)
  · intro phdr hphdr
    exact hend phdr ((hmem phdr).mp hphdr).1 ((hmem phdr).mp hphdr).2

/-- The one header of an executable. -/
theorem elfProcessPheaders_range_iff_static :
    LeavesLoadRange (Kernel.holding staticElf) 0x1000000 0x1001000
      [⟨1, 84, 0x400000, 4, 4, 5⟩] := by
  refine (elfProcessPheaders_range_iff _ _ _ _ ⟨by decide, rfl, by decide, by decide, ?_, ?_⟩
    ⟨_, List.mem_singleton_self _, rfl⟩ ?_ ?_).mpr ?_
  · intro i hi
    obtain rfl : i = 0 := Nat.lt_one_iff.mp hi
    decide
  · intro i hi
    obtain rfl : i = 0 := Nat.lt_one_iff.mp hi
    rfl
  · simp
  · decide
  · decide

/-- An executable with a segment at address 0 before its segment at 0x400000. -/
def zeroFirstElf : List UInt8 :=
  [0x7f, 0x45, 0x4C, 0x46, 1, 1, 1, 0, 0, 0, 0, 0, 0, 0, 0, 0, 2, 0, 3, 0, 1, 0, 0, 0,
    0, 0, 0x40, 0, 52, 0, 0, 0, 0, 0, 0, 0, 0, 0, 0, 0, 52, 0, 32, 0, 2, 0, 0, 0, 0, 0, 0, 0] ++
  [1, 0, 0, 0, 116, 0, 0, 0, 0, 0, 0, 0, 0, 0, 0, 0, 4, 0, 0, 0, 4, 0, 0, 0,
    5, 0, 0, 0, 0, 0x10, 0, 0] ++
  [1, 0, 0, 0, 120, 0, 0, 0, 0, 0, 0x40, 0, 0, 0, 0x40, 0, 4, 0, 0, 0, 4, 0, 0, 0,
    5, 0, 0, 0, 0, 0x10, 0, 0] ++ [1, 2, 3, 4, 0xEB, 0xFE, 0x90, 0x90]

def zeroFirstPhdrs : List Elf32Phdr := [⟨1, 116, 0, 4, 4, 5⟩, ⟨1, 120, 0x400000, 4, 4, 5⟩]

theorem zeroFirstElf_holds :
    HoldsPheaders (Kernel.holding zeroFirstElf) 0x1000000 0x1001000 zeroFirstPhdrs where
  ne_zero := by decide
  file_eq := rfl
  memory_ne := by decide
  phnum := by decide
  address_ne := by decide
  phdr_eq := by
    intro i hi
    match i, hi with
    | 0, _ => rfl
    | 1, _ => rfl

/-- Behind the segment at address 0 the one at 0x400000 is taken for the first. -/
theorem elfProcessPheaders_zero_first :
    HoldsPheaders (Kernel.holding zeroFirstElf) 0x1000000 0x1001000 zeroFirstPhdrs ∧
      ¬ LeavesLoadRange (Kernel.holding zeroFirstElf) 0x1000000 0x1001000 zeroFirstPhdrs := by
  rw [zeroFirstElf_holds.leavesLoadRange_iff]
  refine ⟨zeroFirstElf_holds, fun hrange => ?_⟩
  have hle := hrange.base.2
    ⟨⟨1, 116, 0, 4, 4, 5⟩, by simp [loadHeaders, zeroFirstPhdrs, PT_LOAD], rfl⟩
  exact absurd hle (by decide)

end PlumOS
