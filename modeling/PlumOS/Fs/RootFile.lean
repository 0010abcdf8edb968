import PlumOS.Fs.DirectoryTree

/-!
# Opening a file of the root directory

The tree of one file: with some free memory its path is parsed, its entry is found, and what
is allocated for the file is new.

## Main definitions

- `OnlyFile` — a volume whose root directory has the entry of one file

## Main results

- `OnlyFile.fopen` — the file is opened in the first free entry of the table
-/

namespace PlumOS

open StateExcept

/-- The root directory of the volume has been read, and the entry `e` of a file is all there
is in it. -/
structure OnlyFile (h : FatHeader) (e : FatDirectoryItem) (k : Kernel) : Prop where
  volume : FatVolume h k.disk
  root : ∃ p n, k.disk.fs_private = some p ∧ p.root_directory.total = 1 ∧ 1 ≤ n ∧
    k.Alive p.root_directory.item n ∧ HoldsEntry k p.root_directory.item e
  file : e.attribute_ &&& FAT_FILE_SUBDIRECTORY = 0

section File

variable {h : FatHeader} {e : FatDirectoryItem} {k k' : Kernel} {m : Nat} {c : List UInt8}

theorem OnlyFile.grown (hf : OnlyFile h e k) (hg : Grown k m k') : OnlyFile h e k' := by
  obtain ⟨p, n, hp, htotal, hn, hal, he⟩ := hf.root
  obtain ⟨p', hp', -, hroot⟩ := hg.volume.fs_private hp
  exact
    { volume := hf.volume.congr hg.volume
      root := ⟨p', n, hp', by rw [hroot, htotal], hn, by rw [hroot]; exact hg.alive _ _ hal, by
        rw [hroot]
        exact hg.holdsEntry hal le_rfl (by omega) he⟩
      file := hf.file }

theorem OnlyFile.holdsRoot (hf : OnlyFile h e k) : HoldsRoot h [e] k := by
  obtain ⟨p, n, hp, htotal, hn, hal, he⟩ := hf.root
  refine ⟨hf.volume, p, n, hp, by rw [htotal]; rfl, hal, ?_, fun j e' hj => ?_⟩
  · rw [List.length_singleton]
    omega
  · obtain ⟨hlt, rfl⟩ := List.getElem?_eq_some_iff.mp hj
    obtain rfl := Nat.lt_one_iff.mp hlt
    exact he

theorem OnlyFile.leads (hf : OnlyFile h e k) (hnamed : e.Named c) (image : Nat → UInt8) :
    Leads h image [e] [c] e 2 := by
  have hone : OnlyNamed [e] c 0 e := by
    refine ⟨rfl, hnamed, fun j e' hj _ => ?_⟩
    have hlt := (List.getElem?_eq_some_iff.mp hj).1
    exact Nat.lt_one_iff.mp hlt
  exact .file hone hf.file

/-- The file is opened when the table has a free entry, at the cost of at most eight blocks. -/
theorem OnlyFile.fopen (hf : OnlyFile h e k) (ht : tableFence.Stands k) (hfree : k.FreeFrom m)
    (hm : m + 8 ≤ 25600) (hc : IsComponent c) (hlen : c.length + 3 ≤ PLUMOS_MAX_PATH)
    (hnamed : e.Named c) {mode_str : List UInt8}
    (hmode : fileGetModeByString mode_str = FILE_MODE_READ) {i : Nat} (hslot : freeDescriptorSlot k.file_descriptors = some i) :
    Returns (fopen (drivePath 0 [c] ++ [0]) mode_str) k fun fd k' => fd ≠ 0 ∧
      Grown k (m + 8) k' := by
  have hcs : ∀ c' ∈ [c], IsComponent c' := List.forall_mem_singleton.mpr hc
  have hshort : strlen (drivePath 0 [c] ++ [0]) ≤ PLUMOS_MAX_PATH := by
    rw [← characters_length, characters_drivePath (by decide) hcs]
    simpa only [drivePath, joinParts, List.length_cons] using hlen
  refine (fopen_leads hf.holdsRoot ht hfree hshort (drivePath_valid (by decide) hcs) rfl
    (pathParts_joinParts hcs) (hf.leads hnamed _) (by simpa using hm) hmode hslot).mono ?_
  rintro fd k' ⟨rfl, hg, -, -⟩
  exact ⟨by omega, by simpa using hg⟩

end File

end PlumOS
