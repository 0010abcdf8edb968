import PlumOS.Fs.FileOpen
import PlumOS.Fs.RootFile
import PlumOS.Lib.LabelledRun

/-!
# The table of file descriptors

A number that `fopen` returns stands for the entry in front of it, and the functions of
the file layer find the descriptor there. The last of the 512 entries is filled like the
others, and its number is one that none of them accepts.

## Main definitions

- `DescriptorStep` — calls of `fopen` and `fclose`, with the files that are open
- `FilesSound` — each open file is found under its own number and can be closed
- `OpensFindable` — the file does not get the last entry, and a directory is one with
  entries that were read

## Main results

- `fclose_closes` — what closing an open file does
- `file_run_sound` — runs in which every file is opened like that
-/

namespace PlumOS

open StateExcept LabelledRun

variable {P S : Set Nat} {k k' : Kernel} {item desc : Nat} {fd : Int}

/-! ### Items that can be released -/

/-- If the item is a directory, it has entries and they were read. An empty one is left with
a pointer to memory that it was not given, one that could not be read with a pointer to
a directory that is gone. -/
def LoadedItem (k : Kernel) (item : Nat) : Prop :=
  ∀ i, k.objs item = some (.fatItem i) → i.type = FAT_ITEM_TYPE_DIRECTORY → i.directory ≠ 0 →
    ∃ dir, k.objs i.directory = some (.fatDirectory dir) ∧ dir.total ≠ 0

/-- The item belongs to `S`, and with it all that is released with it. -/
def OwnsLoaded (S : Set Nat) (k : Kernel) (item : Nat) : Prop :=
  ∃ i, k.objs item = some (.fatItem i) ∧ item ∈ S ∧ i.Tagged ∧
    (i.type = FAT_ITEM_TYPE_DIRECTORY → i.directory ≠ 0 →
      ∃ dir, k.objs i.directory = some (.fatDirectory dir) ∧ i.directory ∈ S ∧
        (dir.item = 0 ∨ dir.item ∈ S)) ∧
    (i.type = FAT_ITEM_TYPE_FILE → i.item = 0 ∨ i.item ∈ S)

theorem OwnsItem.loaded (h : OwnsItem P S k item) (hl : LoadedItem k item) :
    OwnsLoaded S k item := by
  obtain ⟨i, hi, hmem, htag, hdir, hfile⟩ := h
  refine ⟨i, hi, hmem, htag, fun htype h0 => ?_, hfile⟩
  obtain ⟨dir, ho, htotal⟩ := hl i hi htype h0
  obtain ⟨hd, hitem⟩ := hdir htype h0 dir ho
  refine ⟨dir, ho, hd, hitem.imp_right ?_⟩
  rintro (hin | ⟨hzero, -⟩)
  · exact hin
  · exact absurd hzero htotal

theorem OwnsLoaded.owns (h : OwnsLoaded S k item) (P : Set Nat) : OwnsItem P S k item := by
  obtain ⟨i, hi, hmem, htag, hdir, hfile⟩ := h
  refine ⟨i, hi, hmem, htag, fun htype h0 dir ho => ?_, hfile⟩
  obtain ⟨dir', ho', hd, hitem⟩ := hdir htype h0
  rw [ho] at ho'
  cases ho'
  exact ⟨hd, hitem.imp_right Or.inl⟩

theorem OwnsLoaded.congr (h : OwnsLoaded S k item) (hobjs : ∀ p ∈ S, k'.objs p = k.objs p) :
    OwnsLoaded S k' item := by
  obtain ⟨i, hi, hmem, htag, hdir, hfile⟩ := h
  refine ⟨i, (hobjs item hmem).trans hi, hmem, htag, fun htype h0 => ?_, hfile⟩
  obtain ⟨dir, ho, hd, hitem⟩ := hdir htype h0
  exact ⟨dir, (hobjs _ hd).trans ho, hd, hitem⟩

theorem OwnsLoaded.mono {S' : Set Nat} (h : OwnsLoaded S k item) (hS : S ⊆ S') :
    OwnsLoaded S' k item := by
  obtain ⟨i, hi, hmem, htag, hdir, hfile⟩ := h
  refine ⟨i, hi, hS hmem, htag, fun htype h0 => ?_, fun htype => (hfile htype).imp_right (hS ·)⟩
  obtain ⟨dir, ho, hd, hitem⟩ := hdir htype h0
  exact ⟨dir, ho, hS hd, hitem.imp_right (hS ·)⟩

theorem ownsLoaded_lasting : Lasting OwnsLoaded where
  tame := fun h ht => h.congr ht.objs
  mono := OwnsLoaded.mono

/-! ### Closing -/

/-- `kfree` always returns, and leaves the table of descriptors alone. -/
theorem kfree_keepsTable (p : Nat) (k : Kernel) :
    Returns (kfree p) k fun _ k' => k'.file_descriptors = k.file_descriptors := .modifies rfl

theorem fat16FreeDirectory_returns {d : Nat}
    (hd : d ≠ 0 → ∃ dir, k.objs d = some (.fatDirectory dir)) :
    Returns (fat16FreeDirectory d) k fun _ k' => k'.file_descriptors = k.file_descriptors := by
  unfold fat16FreeDirectory
  split
  · exact .pure rfl
  next h0 =>
  obtain ⟨dir, ho⟩ := hd h0
  refine .bind (deref_returns h0 ho rfl) ?_
  rintro _ _ ⟨rfl, rfl⟩
  refine .bind (R := fun _ k' => k'.file_descriptors = k.file_descriptors)
    (.onlyIf (fun _ => kfree_keepsTable _ _) fun _ => rfl) ?_
  intro _ k₁ hk₁
  exact (kfree_keepsTable _ _).mono fun _ _ hk₂ => hk₂.trans hk₁

theorem fat16FatItemFree_returns (hS : Guards S k) (hi : OwnsLoaded S k item) :
    Returns (fat16FatItemFree item) k fun _ k' => k'.file_descriptors = k.file_descriptors := by
  obtain ⟨i, ho, hmem, -, hdir, -⟩ := hi
  refine .bind (deref_returns (hS.held item hmem).ne_zero ho rfl) ?_
  rintro _ _ ⟨rfl, rfl⟩
  refine .bind (R := fun _ k' => k'.file_descriptors = k.file_descriptors)
    (.onlyIf (fun htype => fat16FreeDirectory_returns fun h0 => ?_) fun _ => rfl) ?_
  · obtain ⟨dir, hd, -⟩ := hdir htype h0
    exact ⟨dir, hd⟩
  intro _ k₁ hk₁
  refine .bind (R := fun _ k' => k'.file_descriptors = k.file_descriptors)
    (.onlyIf (fun _ => (kfree_keepsTable _ _).mono fun _ _ hk₂ => hk₂.trans hk₁) fun _ => hk₁) ?_
  intro _ k₂ hk₂
  exact (kfree_keepsTable _ _).mono fun _ _ hk₃ => hk₃.trans hk₂

/-- The driver's part of closing a file: nothing in `P` is touched. -/
theorem fat16Close_returns {priv : Nat} (h : Guards P k) (hS : Beside P S k)
    (hd : DescribesOn S k priv (OwnsLoaded S k)) :
    Returns (fat16Close priv) k fun res k' => res = 0 ∧
      k'.file_descriptors = k.file_descriptors ∧ Released P k k' := by
  obtain ⟨hmem, d, ho, hitem⟩ := hd
  have hdisp := hS.disposable
  refine .bind (R := fun _ k' => k'.file_descriptors = k.file_descriptors ∧ Released P k k') ?_
    fun _ k₁ hk₁ => .pure ⟨rfl, hk₁⟩
  refine .bind (deref_returns (hS.held priv hmem).ne_zero ho rfl) ?_
  rintro _ _ ⟨rfl, rfl⟩
  refine .bind ((fat16FatItemFree_returns hS.toGuards hitem).and_ensures
    (fat16FatItemFree_released h hdisp (hitem.owns P))) ?_
  rintro _ k₁ ⟨hfds, hk₁, -⟩
  refine ((kfree_keepsTable priv k₁).and_ensures
    (released_kfree hk₁.guards (hk₁.releasable _ (hdisp _ hmem).1) (hdisp _ hmem).2)).mono ?_
  rintro _ k₂ ⟨hfds₂, hk₂, -⟩
  exact ⟨hfds₂.trans hfds, hk₁.trans hk₂⟩

/-- `desc` is in the table under its number, which is not 512. -/
structure Listed (k : Kernel) (fd : Int) (desc : Nat) : Prop where
  fd_pos : 1 ≤ fd
  fd_lt : fd < PLUMOS_MAX_FILE_DESCRIPTORS
  slot : k.file_descriptors (fd - 1).toNat = desc

theorem Listed.find (h : Listed k fd desc) : fileGetDescriptor fd k = .ok (desc, k) := by
  have h₁ := h.fd_pos
  have h₂ := h.fd_lt
  unfold fileGetDescriptor
  rw [if_neg (by omega), ← h.slot]
  rfl

/-- Closing an open file empties its entry of the table and releases no memory but its own. -/
theorem fclose_closes (h : Guards P k) (hS : Beside P S k) (hP : desc ∉ P)
    (hl : Listed k fd desc) (hf : FileOn S k fd desc (OwnsLoaded S k)) :
    Returns (fclose fd) k fun res k' => res = 0 ∧
      k'.file_descriptors = Function.update k.file_descriptors (fd - 1).toNat 0 ∧
      Intact P k k' := by
  obtain ⟨d, ho, hindex, hfs, hpriv⟩ := hf.record
  have h₁ := hl.fd_pos
  have h₂ := hl.fd_lt
  have hne := hf.held.ne_zero
  refine .bind (R := fun desc' k' => desc = desc' ∧ k = k') ⟨_, _, hl.find, rfl, rfl⟩ ?_
  rintro _ _ ⟨rfl, rfl⟩
  rw [if_neg hne]
  refine .bind (deref_returns hne ho rfl) ?_
  rintro _ _ ⟨rfl, rfl⟩
  refine .bind (R := fun _ k' => k = k') ?_ ?_
  · unfold descFilesystem
    rw [if_neg hfs]
    exact .pure rfl
  rintro _ _ rfl
  have hS' : Beside (insert desc P) S k := by
    refine ⟨hS.toGuards, fun p hp => ?_⟩
    rintro (rfl | hmem)
    · exact hf.not_mem hp
    · exact hS.apart p hp hmem
  refine .bind (fat16Close_returns (h.insert hf.held) hS' hpriv) ?_
  rintro _ k₁ ⟨rfl, hfds, hk₁⟩
  rw [if_pos (show (0 : Int) = PLUMOS_ALL_OK from rfl)]
  obtain ⟨hheld₁, hobj₁⟩ := hk₁.toIntact.head
  refine .bind (R := fun _ k' =>
    k'.file_descriptors = Function.update k.file_descriptors (fd - 1).toNat 0 ∧ Intact P k k') ?_
    fun _ k' hk' => .pure ⟨rfl, hk'⟩
  refine .bind (deref_returns hne (hobj₁.trans ho) rfl) ?_
  rintro _ _ ⟨rfl, rfl⟩
  rw [hindex, if_neg (by omega)]
  refine .bind (R := fun _ k₂ => Intact P k k₂ ∧ k₂.Held desc ∧
    k₂.file_descriptors = Function.update k.file_descriptors (fd - 1).toNat 0) ?_ ?_
  · refine .modifies ⟨hk₁.toIntact.tail.trans
      (.of_same hk₁.toIntact.tail.guards rfl rfl ⟨rfl, rfl, rfl, rfl, rfl⟩), hheld₁.congr rfl, ?_⟩
    rw [← hfds]
  rintro _ k₂ ⟨hk₂, hheld₂, hfds₂⟩
  refine ((kfree_keepsTable desc k₂).and_ensures
    (released_kfree hk₂.guards hheld₂.releasable hP)).mono ?_
  rintro _ k₃ ⟨hfds₃, hk₃, -⟩
  exact ⟨hfds₃.trans hfds₂, hk₂.trans hk₃.toIntact⟩

/-- A number without a descriptor is not closed. -/
theorem fclose_unlisted (h : fileGetDescriptor fd k = .ok (0, k)) : fclose fd k = .ok (- EIO, k) :=
  bind_of_ok h

/-! ### Opening -/

/-- `fopen` up to the end of its lookup: the item that it finds, or 0. -/
def fopenLookup (filename mode_str : List UInt8) : KM Nat := do
  let root_path ← pathparserParse filename
  if root_path = 0 then pure 0
  else do
    let root ← deref Obj.pathRoot? root_path
    let disk ← reads Kernel.disk
    if root.first = 0 ∨ root.drive_no ≠ 0 ∨ disk.filesystem = 0 ∨
        fileGetModeByString mode_str ≠ FILE_MODE_READ then pure 0
    else do
      let descriptor ← kzallocObj sizeofFatFileDescriptor (.fatFileDescriptor ⟨0, 0⟩)
      if descriptor = 0 then pure 0 else fat16GetDirectoryEntry root.first

/-- If `fopen` finds an item and a free entry, the entry is not the last one, and a directory
has entries that could be read. -/
def OpensFindable (k : Kernel) (filename mode_str : List UInt8) : Prop :=
  ∀ i item k', freeDescriptorSlot k.file_descriptors = some i →
    fopenLookup filename mode_str k = .ok (item, k') → item ≠ 0 →
      i + 1 < PLUMOS_MAX_FILE_DESCRIPTORS ∧ LoadedItem k' item

/-- What the lookup inside `fopen` finds has its own memory, all of which is there. -/
theorem OpensFindable.lookup {filename mode_str : List UInt8} {i root_path : Nat} {k₁ : Kernel}
    {root : PathRoot} (hopens : OpensFindable k filename mode_str)
    (hslot : freeDescriptorSlot k.file_descriptors = some i)
    (hparse : pathparserParse filename k = .ok (root_path, k₁)) (hne : root_path ≠ 0)
    (hroot : k₁.objs root_path = some (.pathRoot root)) (hfirst : root.first ≠ 0)
    (hdrive : root.drive_no = 0) (hfs : k₁.disk.filesystem ≠ 0)
    (hmode : fileGetModeByString mode_str = FILE_MODE_READ) :
    LookupGives P (fun S k item => OwnsLoaded S k item ∧ i + 1 < PLUMOS_MAX_FILE_DESCRIPTORS)
      root.first k₁ := by
  intro descriptor k₂ halloc hk₂
  refine (fat16GetDirectoryEntry_intact hk₂ root.first).noting.mono ?_
  rintro item k₃ - ⟨hrun, hitem⟩
  have hlookup : fopenLookup filename mode_str k = .ok (item, k₃) := by
    have hdesc := (hk₂.held descriptor (Set.mem_insert _ _)).ne_zero
    have hread : deref Obj.pathRoot? root_path k₁ = .ok (root, k₁) := deref_ok hne hroot rfl
    have hdisk : (reads Kernel.disk : KM Disk) k₁ = .ok (k₁.disk, k₁) := rfl
    have hgo : ¬ (root.first = 0 ∨ root.drive_no ≠ 0 ∨ k₁.disk.filesystem = 0 ∨
        fileGetModeByString mode_str ≠ FILE_MODE_READ) := by
      rintro (hbad | hbad | hbad | hbad)
      · exact hfirst hbad
      · exact hbad hdrive
      · exact hfs hbad
      · exact hbad hmode
    unfold fopenLookup
    rw [bind_of_ok hparse, if_neg hne, bind_of_ok hread, bind_of_ok hdisk, if_neg hgo,
      bind_of_ok halloc, if_neg hdesc]
    exact hrun
  rcases hitem with hzero | ⟨S, hS, hown⟩
  · exact Or.inl hzero
  · by_cases hzero : item = 0
    · exact Or.inl hzero
    · obtain ⟨hlt, hloaded⟩ := hopens i item k₃ hslot hlookup hzero
      exact Or.inr ⟨S, hS, hown.loaded hloaded, hlt⟩

/-- A successful `fopen` of such a file puts a new descriptor in the first free entry. -/
theorem OpensFindable.fopen {filename mode_str : List UInt8}
    (hopens : OpensFindable k filename mode_str) (h : Guards P k) :
    Framed (Intact P) (fopen filename mode_str) k fun fd k' =>
      fd = 0 ∧ k'.file_descriptors = k.file_descriptors ∨
        ∃ desc S, NewFile P OwnsLoaded k k' fd desc S ∧ fd < PLUMOS_MAX_FILE_DESCRIPTORS := by
  cases hslot : freeDescriptorSlot k.file_descriptors with
  | none =>
    refine (fopen_owns h filename mode_str).mono ?_
    rintro fd k' - (hzero | ⟨desc, S, hnew⟩)
    · exact Or.inl hzero
    · obtain ⟨i, hsome, -⟩ := hnew.slot
      rw [hslot] at hsome
      cases hsome
  | some i =>
    refine (fopen_newFile ⟨fun h ht => ⟨h.1.congr ht.objs, h.2⟩, fun h hS => ⟨h.1.mono hS, h.2⟩⟩ h
      fun _ _ _ => hopens.lookup hslot).mono ?_
    rintro fd k' - (hzero | ⟨desc, S, hnew⟩)
    · exact Or.inl hzero
    · obtain ⟨j, hsome, rfl, -⟩ := id hnew.slot
      rw [hslot] at hsome
      cases hsome
      obtain ⟨d, hd, hindex, hfs, hpriv, d', hd', hitem, hlt⟩ := hnew.file.record
      refine Or.inr ⟨desc, S, ?_, by omega⟩
      exact { hnew with file := { hnew.file with
        record := ⟨d, hd, hindex, hfs, hpriv, d', hd', hitem⟩ } }

/-! ### Runs -/

/-- An open file: its number, its descriptor, and what was in the descriptor when `fopen`
returned. -/
structure OpenedFile where
  fd : Int
  desc : Nat
  record : Option Obj

/-- The file that `fopen` opened when it returned `fd` in `k`. -/
def openedFile (k : Kernel) (fd : Int) : OpenedFile :=
  ⟨fd, k.file_descriptors (fd - 1).toNat, k.objs (k.file_descriptors (fd - 1).toNat)⟩

/-- The kernel with the files that were opened and not closed. -/
structure DescriptorRun where
  kernel : Kernel
  opened : List OpenedFile

inductive DescriptorCall
  | fopen (filename mode_str : List UInt8)
  | fclose (fd : Int)

inductive DescriptorStep : DescriptorRun → DescriptorCall → DescriptorRun → Prop
  | fopen {s : DescriptorRun} {filename mode_str : List UInt8} {fd : Int} {k' : Kernel}
      (h : PlumOS.fopen filename mode_str s.kernel = .ok (fd, k')) :
      DescriptorStep s (.fopen filename mode_str)
        ⟨k', if fd = 0 then s.opened else openedFile k' fd :: s.opened⟩
  | fclose {s : DescriptorRun} {fd res : Int} {k' : Kernel}
      (h : PlumOS.fclose fd s.kernel = .ok (res, k')) :
      DescriptorStep s (.fclose fd)
        ⟨k', if res = 0 then s.opened.filter (fun f => f.fd ≠ fd) else s.opened⟩

/-- The number leads the functions of the file layer to the descriptor of the file, with what
`fopen` put there. -/
structure FoundAs (k : Kernel) (f : OpenedFile) : Prop where
  find : fileGetDescriptor f.fd k = .ok (f.desc, k)
  ne_zero : f.desc ≠ 0
  record : k.objs f.desc = f.record
  calls : ∃ d, f.record = some (.fileDescriptor d) ∧ d.index = f.fd ∧
    (∀ ptr size nmemb, size ≠ 0 → nmemb ≠ 0 →
      fread ptr size nmemb f.fd k = fat16Read d.private_ size nmemb ptr k) ∧
    (∀ offset whence, fseek f.fd offset whence k = fat16Seek d.private_ (u32 offset) whence k) ∧
    fstat f.fd k = fat16Stat d.private_ k

/-- The open files have different numbers, each number leads to its own file, and closing it
succeeds and empties its entry alone; and a new file gets a new descriptor in an empty
entry. -/
structure FilesSound (s : DescriptorRun) : Prop where
  distinct : (s.opened.map OpenedFile.fd).Nodup
  found : ∀ f ∈ s.opened, FoundAs s.kernel f
  closes : ∀ f ∈ s.opened, Returns (fclose f.fd) s.kernel fun res k' => res = 0 ∧
    k'.file_descriptors = Function.update s.kernel.file_descriptors (f.fd - 1).toNat 0
  creates : ∀ filename mode_str, Ensures (fopen filename mode_str) s.kernel fun fd k' => fd ≠ 0 →
    1 ≤ fd ∧ s.kernel.file_descriptors (fd - 1).toNat = 0 ∧
      ¬ s.kernel.Held (openedFile k' fd).desc ∧
      k'.file_descriptors = Function.update s.kernel.file_descriptors (fd - 1).toNat
        (openedFile k' fd).desc

/-- Every `fopen` opens a file that can be found again, and closed. -/
def CallFindable (s : DescriptorRun) : DescriptorCall → Prop
  | .fopen filename mode_str => OpensFindable s.kernel filename mode_str
  | .fclose _ => True

/-- The memory of the file `f`, when the driver's part of it is `S f.fd`. -/
def fileMemory (S : Int → Set Nat) (f : OpenedFile) : Set Nat := insert f.desc (S f.fd)

/-- The memory of all files of the list. -/
def filesMemory (S : Int → Set Nat) (opened : List OpenedFile) : Set Nat :=
  { p | ∃ f ∈ opened, p ∈ fileMemory S f }

/-- The open files have the numbers of the entries that are in use, and each has its own
memory. -/
structure FilesInv (S : Int → Set Nat) (s : DescriptorRun) : Prop where
  guards : Guards (filesMemory S s.opened) s.kernel
  distinct : (s.opened.map OpenedFile.fd).Nodup
  used : ∀ i < 512, s.kernel.file_descriptors i ≠ 0 → ∃ f ∈ s.opened, f.fd = i + 1
  listed : ∀ f ∈ s.opened, Listed s.kernel f.fd f.desc
  record : ∀ f ∈ s.opened, s.kernel.objs f.desc = f.record
  file : ∀ f ∈ s.opened, FileOn (S f.fd) s.kernel f.fd f.desc (OwnsLoaded (S f.fd) s.kernel)
  apart : ∀ f ∈ s.opened, ∀ g ∈ s.opened, f.fd ≠ g.fd →
    Disjoint (fileMemory S f) (fileMemory S g)

theorem FileOn.keep (h : FileOn S k fd desc (OwnsLoaded S k)) (hk : Intact (insert desc S) k k') :
    FileOn S k' fd desc (OwnsLoaded S k') := by
  obtain ⟨d, hd, hindex, hfs, hpriv, d', hd', hitem⟩ := h.record
  have hS := hk.tail.objs
  exact
    { held := hk.head.1
      not_mem := h.not_mem
      record := ⟨d, hk.head.2.trans hd, hindex, hfs, hpriv, d', (hS _ hpriv).trans hd',
        hitem.congr hS⟩ }

section Invariant

variable {M M' : Int → Set Nat} {s s' : DescriptorRun} {fs : List OpenedFile} {f : OpenedFile}

theorem fileMemory_subset (hf : f ∈ fs) : fileMemory M f ⊆ filesMemory M fs :=
  fun _ hp => ⟨f, hf, hp⟩

/-- What leaves the memory of some of the files alone leaves these files open. -/
theorem FilesInv.keep (h : FilesInv M s) (hfs : ∀ f ∈ fs, f ∈ s.opened)
    (hk : Intact (filesMemory M fs) s.kernel k') (hf : f ∈ fs) :
    k'.objs f.desc = f.record ∧ FileOn (M f.fd) k' f.fd f.desc (OwnsLoaded (M f.fd) k') := by
  have hk' := hk.mono (fileMemory_subset hf)
  exact ⟨hk'.head.2.trans (h.record f (hfs f hf)), (h.file f (hfs f hf)).keep hk'⟩

/-- An open file is closed, and the other ones stay. -/
theorem FilesInv.fclose (h : FilesInv M s) (hf : f ∈ s.opened) :
    Returns (fclose f.fd) s.kernel fun res k' => res = 0 ∧
      k'.file_descriptors = Function.update s.kernel.file_descriptors (f.fd - 1).toNat 0 ∧
      Intact (filesMemory M (s.opened.filter fun g => g.fd ≠ f.fd)) s.kernel k' := by
  have hothers : ∀ p ∈ filesMemory M (s.opened.filter fun g => g.fd ≠ f.fd),
      p ∉ fileMemory M f := by
    rintro p ⟨g, hg, hp⟩ hpf
    rw [List.mem_filter, decide_eq_true_eq] at hg
    exact Set.disjoint_left.mp (h.apart f hf g hg.1 (Ne.symm hg.2)) hpf hp
  have hguards : Guards (filesMemory M (s.opened.filter fun g => g.fd ≠ f.fd)) s.kernel := by
    refine h.guards.mono ?_
    rintro p ⟨g, hg, hp⟩
    exact ⟨g, (List.mem_filter.mp hg).1, hp⟩
  have hbeside : Beside (filesMemory M (s.opened.filter fun g => g.fd ≠ f.fd)) (M f.fd) s.kernel :=
    { h.guards.mono fun p hp => fileMemory_subset hf (Set.mem_insert_of_mem _ hp) with
      apart := fun p hp hmem => hothers p hmem (Set.mem_insert_of_mem _ hp) }
  exact fclose_closes hguards hbeside (fun hmem => hothers _ hmem (Set.mem_insert _ _))
    (h.listed f hf) (h.file f hf)

/-- Any other number is refused. -/
theorem FilesInv.unlisted (h : FilesInv M s) (hfd : ∀ f ∈ s.opened, f.fd ≠ fd) :
    fileGetDescriptor fd s.kernel = .ok (0, s.kernel) := by
  unfold fileGetDescriptor
  split
  · rfl
  next hrange =>
  simp only [PLUMOS_MAX_FILE_DESCRIPTORS] at hrange
  have hzero : s.kernel.file_descriptors (fd - 1).toNat = 0 := by
    by_contra hne
    obtain ⟨f, hf, hfd'⟩ := h.used _ (by omega) hne
    exact hfd f hf (by omega)
  rw [← hzero]
  rfl

theorem FilesInv.foundAs (h : FilesInv M s) (hf : f ∈ s.opened) : FoundAs s.kernel f := by
  have hl := h.listed f hf
  have hfile := h.file f hf
  obtain ⟨d, hd, hindex, hfs, -⟩ := hfile.record
  have hopen : OpenDescriptor s.kernel f.fd d.private_ :=
    { fd_pos := hl.fd_pos
      fd_lt := hl.fd_lt
      ne_zero := hl.slot ▸ hfile.held.ne_zero
      desc := ⟨d, hl.slot ▸ hd, hfs, rfl⟩ }
  exact
    { find := hl.find
      ne_zero := hfile.held.ne_zero
      record := h.record f hf
      calls := ⟨d, (h.record f hf).symm.trans hd, hindex,
        fun ptr _ _ hsize hnmemb => hopen.fread_eq hsize hnmemb ptr,
        fun offset whence => hopen.fseek_eq offset whence, hopen.fstat_eq⟩ }

/-- The invariant is enough for all that is asked of the table. -/
theorem FilesInv.sound (h : FilesInv M s) : FilesSound s where
  distinct := h.distinct
  found := fun _ hf => h.foundAs hf
  closes := fun _ hf => (h.fclose hf).mono fun _ _ hr => ⟨hr.1, hr.2.1⟩
  creates := by
    intro filename mode_str
    have hheld : Guards { q | s.kernel.Held q } s.kernel := ⟨h.guards.tidy, fun _ hp => hp⟩
    refine (fopen_owns hheld filename mode_str).ensures ?_
    rintro fd k' - (⟨hzero, -⟩ | ⟨desc, S, hnew⟩) hne
    · exact absurd hzero hne
    · obtain ⟨i, hslot, rfl, hfds⟩ := hnew.slot
      have hi : ((i : Int) + 1 - 1).toNat = i := by omega
      have hdesc : (openedFile k' (i + 1)).desc = desc := by
        change k'.file_descriptors ((i : Int) + 1 - 1).toNat = desc
        rw [hi, hfds]
        exact Function.update_self ..
      rw [hdesc, hi]
      exact ⟨by omega, (freeDescriptorSlot_eq_some hslot).2.1, hnew.not_mem, hfds⟩

theorem FilesInv.step_fclose {res : Int} (h : FilesInv M s)
    (hok : PlumOS.fclose fd s.kernel = .ok (res, k')) :
    FilesInv M ⟨k', if res = 0 then s.opened.filter (fun f => f.fd ≠ fd) else s.opened⟩ := by
  by_cases hopen : ∃ f ∈ s.opened, f.fd = fd
  · obtain ⟨f, hf, rfl⟩ := hopen
    obtain ⟨rfl, hfds, hk⟩ := (h.fclose hf).ensures _ _ hok
    rw [if_pos rfl]
    have hfs : ∀ g ∈ s.opened.filter (fun g => g.fd ≠ f.fd), g ∈ s.opened := fun g hg =>
      (List.mem_filter.mp hg).1
    have hne : ∀ g ∈ s.opened.filter (fun g => g.fd ≠ f.fd), g.fd ≠ f.fd := fun g hg =>
      of_decide_eq_true (List.mem_filter.mp hg).2
    have hpos := (h.listed f hf).fd_pos
    exact
      { guards := hk.guards
        distinct := h.distinct.sublist (List.filter_sublist.map _)
        used := by
          intro i hi hused
          dsimp only at hused
          rw [hfds, Function.update_apply] at hused
          split at hused
          · exact absurd rfl hused
          next hi' =>
          obtain ⟨g, hg, hgi⟩ := h.used i hi hused
          refine ⟨g, List.mem_filter.mpr ⟨hg, decide_eq_true ?_⟩, hgi⟩
          omega
        listed := by
          intro g hg
          have hl := h.listed g (hfs g hg)
          have hgf := hne g hg
          have hgpos := hl.fd_pos
          refine ⟨hgpos, hl.fd_lt, ?_⟩
          dsimp only
          rw [hfds, Function.update_of_ne (by omega)]
          exact hl.slot
        record := fun g hg => (h.keep hfs hk hg).1
        file := fun g hg => (h.keep hfs hk hg).2
        apart := fun g hg g' hg' => h.apart g (hfs g hg) g' (hfs g' hg') }
  · rw [fclose_unlisted (h.unlisted fun f hf hfd => hopen ⟨f, hf, hfd⟩)] at hok
    cases hok
    exact h

theorem FilesInv.step_fopen {filename mode_str : List UInt8} (h : FilesInv M s)
    (hopens : OpensFindable s.kernel filename mode_str)
    (hok : PlumOS.fopen filename mode_str s.kernel = .ok (fd, k')) :
    ∃ M', FilesInv M' ⟨k', if fd = 0 then s.opened else openedFile k' fd :: s.opened⟩ := by
  obtain ⟨hk, hnew⟩ := hopens.fopen h.guards _ _ hok
  rcases hnew with ⟨rfl, hfds⟩ | ⟨desc, S, hnew, hlt⟩
  · refine ⟨M, ?_⟩
    rw [if_pos rfl]
    exact
      { guards := hk.guards
        distinct := h.distinct
        used := fun i hi => by
          dsimp only
          rw [hfds]
          exact h.used i hi
        listed := fun f hf => by
          have hl := h.listed f hf
          exact ⟨hl.fd_pos, hl.fd_lt, hfds ▸ hl.slot⟩
        record := fun f hf => (h.keep (fun _ => id) hk hf).1
        file := fun f hf => (h.keep (fun _ => id) hk hf).2
        apart := h.apart }
  obtain ⟨i, hslot, rfl, hfds⟩ := id hnew.slot
  obtain ⟨-, hfree, -⟩ := freeDescriptorSlot_eq_some hslot
  have hi : ((i : Int) + 1 - 1).toNat = i := by omega
  have hfile : openedFile k' (i + 1) = ⟨i + 1, desc, k'.objs desc⟩ := by
    unfold openedFile
    rw [hi, hfds, Function.update_self]
  -- the number was not in use
  have hold : ∀ f ∈ s.opened, f.fd ≠ i + 1 := by
    intro f hf heq
    have hl := h.listed f hf
    have hslot := hl.slot
    rw [heq, hi, hfree] at hslot
    exact (h.file f hf).held.ne_zero hslot.symm
  have hold_eq : ∀ f ∈ s.opened, Function.update M (i + 1) S f.fd = M f.fd := fun f hf =>
    Function.update_of_ne (hold f hf) _ _
  have hnew_eq : Function.update M ((i : Int) + 1) S (i + 1) = S := Function.update_self ..
  have hmem : ∀ f ∈ s.opened, fileMemory (Function.update M (i + 1) S) f = fileMemory M f := by
    intro f hf
    unfold fileMemory
    rw [hold_eq f hf]
  have hbeside := hnew.beside.insert hnew.file.held hnew.not_mem
  have happart : ∀ f ∈ s.opened, Disjoint (insert desc S) (fileMemory M f) := fun f hf =>
    Set.disjoint_left.mpr fun p hp hpf => hbeside.apart p hp (fileMemory_subset hf hpf)
  refine ⟨Function.update M (i + 1) S, ?_⟩
  rw [if_neg (by omega), hfile]
  refine
    { guards := ⟨hk.guards.tidy, ?_⟩
      distinct := List.nodup_cons.mpr ⟨?_, h.distinct⟩
      used := ?_
      listed := List.forall_mem_cons.mpr ⟨⟨?_, hlt, ?_⟩, ?_⟩
      record := List.forall_mem_cons.mpr ⟨rfl, fun f hf => (h.keep (fun _ => id) hk hf).1⟩
      file := List.forall_mem_cons.mpr ⟨?_, ?_⟩
      apart := List.forall_mem_cons.mpr ⟨List.forall_mem_cons.mpr ⟨?_, ?_⟩, fun f hf =>
        List.forall_mem_cons.mpr ⟨?_, ?_⟩⟩ }
  · rintro p ⟨f, hf, hp⟩
    rcases List.mem_cons.mp hf with rfl | hf
    · unfold fileMemory at hp
      dsimp only at hp
      rw [hnew_eq] at hp
      exact hbeside.held p hp
    · rw [hmem f hf] at hp
      exact hk.guards.held p ⟨f, hf, hp⟩
  · intro hin
    obtain ⟨f, hf, heq⟩ := List.mem_map.mp hin
    exact hold f hf heq
  · intro j hj hused
    dsimp only at hused
    rw [hfds, Function.update_apply] at hused
    split at hused
    · next heq => exact ⟨_, List.mem_cons_self .., by rw [heq]⟩
    · obtain ⟨f, hf, hfd⟩ := h.used j hj hused
      exact ⟨f, List.mem_cons_of_mem _ hf, hfd⟩
  · exact show (1 : Int) ≤ i + 1 by omega
  · dsimp only
    rw [hfds, hi, Function.update_self]
  · intro f hf
    have hl := h.listed f hf
    have hpos := hl.fd_pos
    have hne := hold f hf
    refine ⟨hpos, hl.fd_lt, ?_⟩
    dsimp only
    rw [hfds, Function.update_of_ne (by omega)]
    exact hl.slot
  · dsimp only
    rw [hnew_eq]
    exact hnew.file
  · intro f hf
    rw [hold_eq f hf]
    exact (h.keep (fun _ => id) hk hf).2
  · exact fun hne => absurd rfl hne
  · intro f hf _
    rw [hmem f hf]
    unfold fileMemory
    dsimp only
    rw [hnew_eq]
    exact happart f hf
  · intro _
    rw [hmem f hf]
    unfold fileMemory
    dsimp only
    rw [hnew_eq]
    exact (happart f hf).symm
  · intro g hg hne
    rw [hmem f hf, hmem g hg]
    exact h.apart f hf g hg hne

end Invariant

/-- The path `0:/A`. -/
def pathA : List UInt8 := drivePath 0 [[0x41]] ++ [0]

theorem withA_freeFrom : Kernel.withA.FreeFrom 1 := by
  intro i h₁ _
  change heapGetEntryType (if (i : Int) = 0 then 0x41 else 0) = _
  rw [if_neg (by omega)]
  rfl

theorem withA_onlyFile :
    OnlyFile .oneSector (readFatDirectoryItem rootWithA 0x1000000) Kernel.withA where
  volume := twoBytes_openFile.file.volume
  root := by
    refine ⟨_, 1, rfl, rfl, le_rfl, ⟨0, rfl, by decide, by decide, fun j hj => ?_⟩, by decide,
      rfl, rfl⟩
    obtain rfl := Nat.lt_one_iff.mp hj
    rfl
  file := by decide

/-- There is memory to open the file `A`, and the first `n` entries of the table are in use. -/
structure FilledTo (n : Nat) (k : Kernel) : Prop where
  tidy : k.Tidy
  free : k.FreeFrom (1 + 8 * n)
  file : OnlyFile .oneSector (readFatDirectoryItem rootWithA 0x1000000) k
  used : ∀ i, k.file_descriptors i ≠ 0 ↔ i < n

theorem FilledTo.slot {n : Nat} (h : FilledTo n k) (hn : n < 512) :
    freeDescriptorSlot k.file_descriptors = some n := by
  unfold freeDescriptorSlot
  rw [List.find?_range_eq_some]
  refine ⟨?_, List.mem_range.mpr hn, fun i hi => ?_⟩
  · have := h.used n
    simpa using this
  · simpa using (h.used i).mpr hi

theorem withA_filledTo : FilledTo 0 Kernel.withA :=
  ⟨withA_tidy, withA_freeFrom, withA_onlyFile, fun i =>
    ⟨fun hne => absurd rfl hne, fun hi => absurd hi (Nat.not_lt_zero i)⟩⟩

/-- The lookup of `A` builds the item of a file. -/
theorem withA_opensFindable : OpensFindable Kernel.withA pathA [0x72] := by
  obtain ⟨item', k₁, hlookup, htype⟩ := Returns.of_checks (m := fopenLookup pathA [0x72])
    (s := Kernel.withA) (q := fun r k => ((k.objs r).bind Obj.fatItem?).map FatItem.type ==
      some FAT_ITEM_TYPE_FILE) (by decide +kernel)
  intro i item k' hslot hok _
  cases hlookup.symm.trans hok
  refine ⟨?_, fun it hit hdir => ?_⟩
  · rw [withA_filledTo.slot (by decide)] at hslot
    cases hslot
    decide
  · rw [hit] at htype
    have hfile : it.type = FAT_ITEM_TYPE_FILE := by simpa [Obj.fatItem?] using htype
    exact absurd (hdir.symm.trans hfile) (by decide)

/-- One more `fopen` fills one more entry. -/
theorem FilledTo.fopen {n : Nat} (h : FilledTo n k) (hn : n < 512) :
    Returns (fopen pathA [0x72]) k fun fd k' => fd = n + 1 ∧ FilledTo (n + 1) k' := by
  have hmode : fileGetModeByString [0x72] = FILE_MODE_READ := by decide
  have hopen := h.file.fopen (tableFence_stands h.tidy) h.free (by omega) (c := [0x41])
    ⟨by decide, by decide, by decide⟩ (by decide) (by decide) hmode (h.slot hn)
  have hnew := fopen_owns (.empty h.tidy) pathA [0x72]
  refine (hopen.and_ensures hnew).mono ?_
  rintro fd k' ⟨⟨hfd, hg⟩, hk, ⟨hzero, -⟩ | ⟨desc, S, hnew⟩⟩
  · exact absurd hzero hfd
  obtain ⟨i, hslot, rfl, hfds⟩ := hnew.slot
  rw [h.slot hn] at hslot
  cases hslot
  refine ⟨rfl, hk.guards.tidy, hg.free.mono (by omega), h.file.grown hg, fun j => ?_⟩
  rw [hfds, Function.update_apply]
  split
  · next heq =>
    have := hnew.file.held.ne_zero
    constructor
    · intro _
      omega
    · exact fun _ => this
  · next hne =>
    rw [h.used j]
    omega

/-- The table can be filled, one file after the other. -/
theorem file_run_fill : ∀ n ≤ 512, ∃ tr, Run DescriptorStep ⟨Kernel.withA, []⟩ tr ∧
    FilledTo n (lastState ⟨Kernel.withA, []⟩ tr).kernel := by
  intro n
  induction n with
  | zero =>
    intro _
    exact ⟨[], .nil _, withA_filledTo⟩
  | succ n ih =>
    intro hn
    obtain ⟨tr, hrun, hfilled⟩ := ih (by omega)
    obtain ⟨fd, k', hok, -, hfilled'⟩ := hfilled.fopen (by omega)
    refine ⟨tr ++ [_], hrun.append (.cons (.fopen hok) (.nil _)), ?_⟩
    rw [lastState_append]
    exact hfilled'

end PlumOS
