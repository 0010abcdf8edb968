import PlumOS.Fs.DescriptorTable
import PlumOS.Fs.DirectoryTree
import PlumOS.Fs.FileOpen

/-!
# Reading a file as a whole

A file that was opened for a path is measured, read into memory of its size and closed.
All that was alive before it was opened is as it was, and the bytes stay when the file is
closed.

## Main definitions

- `FileClusters` — the clusters of a file
- `HoldsBytes` — bytes in memory
- `FileAt` — a path and the file it leads to

## Main results

- `OpenedAs.fstat`, `OpenedAs.fread`, `OpenedAs.fclose` — the calls on an open file
-/

namespace PlumOS

open StateExcept

/-- The file with the entry `e` is in the clusters `chain`. -/
structure FileClusters (h : FatHeader) (image : Nat → UInt8) (e : FatDirectoryItem)
    (chain : List Nat) : Prop where
  clusters : ClusterChain h image chain
  first : fat16GetFirstCluster e = chain.getD 0 0
  long : e.filesize ≤ chain.length * h.clusterSize

/-- The `size` bytes at `p` are the first of `f`. -/
def HoldsBytes (k : Kernel) (p size : Nat) (f : Nat → UInt8) : Prop :=
  ∀ x < size, k.mem (p + x) = f x

section Opened

variable {k₀ k₁ k k' : Kernel} {h : FatHeader} {chain : List Nat} {m i : Nat}
  {e : FatDirectoryItem}

theorem HoldsBytes.grown {p n size : Nat} {f : Nat → UInt8} (hb : HoldsBytes k p size f)
    (hg : Grown k m k') (hp : k.Alive p n) (hn : size ≤ 4096 * n) : HoldsBytes k' p size f :=
  fun x hx => (hg.mem p n _ hp (by omega) (by omega)).trans (hb x hx)

/-- As long as it is only allocated, the file is open at its start, with its entry in memory
that was there when it was opened. -/
theorem OpenedAs.openFile (ho : OpenedAs k₀ k₁ i e) (hg : Grown k₁ m k)
    (hfds : k.file_descriptors = k₁.file_descriptors)
    (hi : (i : Int) + 1 < PLUMOS_MAX_FILE_DESCRIPTORS) (hvol : FatVolume h k.disk)
    (hc : FileClusters h k.disk.image e chain) :
    ∃ priv item address, OpenFile k h chain (i + 1) priv item 0 address ∧ k₁.Alive address 1 ∧
      readFatDirectoryItem k.mem address = e := by
  obtain ⟨priv, hobj, hpriv⟩ := ho.file
  obtain ⟨item, hdesc, hitem⟩ := hpriv.file
  obtain ⟨copy, hcopy, hown, he⟩ := hitem.copy
  have hslot : k.file_descriptors ((i : Int) + 1 - 1).toNat = k₁.file_descriptors i := by
    rw [hfds]
    congr 1
    omega
  have hentry := hg.holdsEntry hown.alive le_rfl (by omega) he
  refine ⟨priv, item, copy, ⟨?_, ?_⟩, hown.alive, hentry.entry⟩
  · refine ⟨by omega, hi, ?_, ?_⟩
    · rw [hslot]
      exact ho.own.alive.ne_zero
    · rw [hslot]
      exact ⟨_, (hg.obj ho.own.alive).trans hobj, Nat.one_ne_zero, rfl⟩
  · exact
      { volume := hvol
        clusters := hc.clusters
        descriptor_ne := hpriv.own.alive.ne_zero
        desc := (hg.obj hpriv.own.alive).trans hdesc
        f_item_ne := hitem.own.alive.ne_zero
        item := (hg.obj hitem.own.alive).trans hcopy
        address_ne := hentry.ne_zero
        entry := hentry.none
        first := by rw [hentry.entry]; exact hc.first
        long := by rw [hentry.entry]; exact hc.long }

/-- The size of the file is that of its entry. -/
theorem OpenedAs.fstat (ho : OpenedAs k₀ k₁ i e) (hg : Grown k₁ m k)
    (hfds : k.file_descriptors = k₁.file_descriptors)
    (hi : (i : Int) + 1 < PLUMOS_MAX_FILE_DESCRIPTORS) (hvol : FatVolume h k.disk)
    (hc : FileClusters h k.disk.image e chain) :
    Returns (fstat (i + 1)) k fun r k' => k = k' ∧ ∃ flags, r = (0, some ⟨flags, e.filesize⟩) := by
  obtain ⟨priv, item, address, hf, -, he⟩ := ho.openFile hg hfds hi hvol hc
  obtain ⟨r, k', hok, hr⟩ := hf.fstat_spec
  rw [← hf.opened.fstat_eq] at hok
  rw [he] at hr
  exact ⟨r, k', hok, fstat_data _ _ _ _ hok, hr⟩

/-- The file is read into memory that was allocated after it was opened. -/
theorem OpenedAs.fread (ho : OpenedAs k₀ k₁ i e) (hg : Grown k₁ m k)
    (hfds : k.file_descriptors = k₁.file_descriptors)
    (hi : (i : Int) + 1 < PLUMOS_MAX_FILE_DESCRIPTORS) (hvol : FatVolume h k.disk)
    (hc : FileClusters h k.disk.image e chain) (hsize : 1 ≤ e.filesize) {out n : Nat}
    (hown : Grown.Own k₁ k out n) (hn : e.filesize ≤ 4096 * n) :
    Returns (fread out e.filesize 1 (i + 1)) k fun res k' => res = 1 ∧ Grown k₁ m k' ∧
      k' = { k with mem := k'.mem, disk := k'.disk } ∧
      HoldsBytes k' out e.filesize (h.contents k.disk.image chain) := by
  obtain ⟨priv, item, address, hf, hal, he⟩ := ho.openFile hg hfds hi hvol hc
  have hout : out + e.filesize ≤ address ∨ address + 32 ≤ out := by
    by_contra hcon
    refine hown.apart hg hal (a := max out address) (by omega) (by omega) ⟨by omega, by omega⟩
  rw [← he] at hsize hout hn ⊢
  refine ((hf.fread_whole hsize hout).and_ensures (fread_data _ _ _ _ _)).mono ?_
  rintro res k' ⟨⟨rfl, hmem⟩, hk', hv⟩
  have hobjs : k'.objs = k.objs := by rw [hk']
  have hentries : k'.heap_entries = k.heap_entries := by rw [hk']
  refine ⟨rfl, ?_, hk', fun x hx => ?_⟩
  · exact
      { free := hg.free.congr hentries
        alive := fun p n hp => (hg.alive p n hp).congr hentries
        mem := fun p n' a hp h₁ h₂ => by
          have hapart := hown.apart hg hp h₁ h₂
          rw [hmem, writeBytes_of_not_mem (by rw [readBytes_length]; omega)]
          exact hg.mem p n' a hp h₁ h₂
        objs := hobjs ▸ hg.objs
        volume := hg.volume.trans hv }
  · rw [hmem]
    unfold writeBytes
    rw [if_pos (by rw [readBytes_length]; omega), List.getD_eq_getElem _ _ (by
      rw [readBytes_length]; omega), getElem_readBytes]
    congr 1
    omega

/-- A structure that was there before the file was opened may change. -/
theorem OpenedAs.put (ho : OpenedAs k₀ k₁ i e) {p n : Nat} (hp : k₀.Alive p n) (o : Obj) :
    OpenedAs (k₀.put p o) (k₁.put p o) i e := by
  obtain ⟨priv, hobj, hpriv⟩ := ho.file
  obtain ⟨item, hdesc, hitem⟩ := hpriv.file
  have hst := k₁.put_stored p o
  have hother : ∀ q, Grown.Own k₀ k₁ q 1 → (k₁.put p o).objs q = k₁.objs q := by
    rintro q hq
    refine hst.other q ?_
    rintro rfl
    exact hq.fresh n hp
  obtain ⟨copy, hcopy, hcopy_own, he⟩ := (hitem.stored hp hst).copy
  exact ⟨ho.own.put hst, priv, (hother _ ho.own).trans hobj, hpriv.own.put hst, item,
    (hother _ hpriv.own).trans hdesc, hitem.own.put hst, copy, hcopy,
    ⟨hcopy_own.alive, hcopy_own.fresh⟩, he⟩

/-- The item of a file is released with the copy of its entry. No other kind of structure is
touched. -/
theorem fat16FatItemFree_file {item : Nat} (hi : FileItem k₀ k₁ item e) (hg₁ : Grown k₁ m k)
    (hg : Grown k₀ m k) :
    Returns (fat16FatItemFree item) k fun _ k' => Grown k₀ m k' ∧ KeepsNew k₁ k k' ∧
      SameGlobals k k' ∧ ∀ p n o, k.Alive p n → k.objs p = some o → (∀ f, o ≠ .fatItem f) →
        k'.Alive p n ∧ k'.objs p = some o := by
  obtain ⟨copy, hobj, hcopy, he⟩ := hi.copy
  have hobj₁ := (hg₁.obj hi.own.alive).trans hobj
  have hnone : k.objs copy = none := (hg₁.obj hcopy.alive).trans he.none
  have hne : item ≠ copy := by
    rintro rfl
    rw [hobj₁] at hnone
    cases hnone
  refine .bind (deref_returns hi.own.alive.ne_zero hobj₁ rfl) ?_
  rintro _ _ ⟨rfl, rfl⟩
  refine .bind (R := fun _ k' => k = k')
    (.onlyIf (fun hbad => absurd (show FAT_ITEM_TYPE_FILE = FAT_ITEM_TYPE_DIRECTORY from hbad)
      (by decide)) fun _ => rfl) ?_
  rintro _ _ rfl
  refine .bind (R := fun _ k' => Grown k₀ m k' ∧ KeepsNew k₁ k k' ∧ Freed k copy k')
    (.onlyIf (fun _ => hg.kfree_old (hcopy.mono hg₁) hcopy.alive)
      fun hbad => absurd (show FAT_ITEM_TYPE_FILE ≠ FAT_ITEM_TYPE_DIRECTORY ∧ _ from
        ⟨by decide, rfl⟩) hbad) ?_
  rintro _ k₂ ⟨hg₂, hk₂, hf₂⟩
  have hitem₂ := hf₂.keeps item 1 (hg₁.alive _ _ hi.own.alive) (by simpa using hne)
  refine (hg₂.kfree_old ⟨hitem₂.1, hi.own.fresh⟩ hi.own.alive).mono ?_
  rintro _ k₃ ⟨hg₃, hk₃, hf₃⟩
  refine ⟨hg₃, hk₂.trans hk₃, hf₂.globals.trans hf₃.globals, fun p n o hp ho hkind => ?_⟩
  have hne₁ : p ≠ copy := by
    rintro rfl
    rw [hnone] at ho
    cases ho
  have hne₂ : p ≠ item := by
    rintro rfl
    rw [hobj₁] at ho
    exact hkind _ (Option.some.inj ho).symm
  obtain ⟨hp₂, ho₂⟩ := hf₂.keeps p n hp (by simpa using hne₁)
  obtain ⟨hp₃, ho₃⟩ := hf₃.keeps p n hp₂ (by simpa using hne₂)
  exact ⟨hp₃, ho₃.trans (ho₂.trans ho)⟩

/-- The driver's descriptor is released with the item. -/
theorem fat16Close_opened {priv : Nat} (ho : FatOpened k₀ k₁ priv e) (hg₁ : Grown k₁ m k)
    (hg : Grown k₀ m k) :
    Returns (fat16Close priv) k fun res k' => res = 0 ∧ Grown k₀ m k' ∧ KeepsNew k₁ k k' ∧
      SameGlobals k k' ∧ ∀ p n d, k.Alive p n → k.objs p = some (.fileDescriptor d) →
        k'.Alive p n ∧ k'.objs p = some (.fileDescriptor d) := by
  obtain ⟨item, hobj, hitem⟩ := ho.file
  have hobj₁ := (hg₁.obj ho.own.alive).trans hobj
  refine .bind (R := fun _ k' => Grown k₀ m k' ∧ KeepsNew k₁ k k' ∧ SameGlobals k k' ∧
    ∀ p n d, k.Alive p n → k.objs p = some (.fileDescriptor d) →
      k'.Alive p n ∧ k'.objs p = some (.fileDescriptor d)) ?_ fun _ k' hk' => .pure ⟨rfl, hk'⟩
  refine .bind (deref_returns ho.own.alive.ne_zero hobj₁ rfl) ?_
  rintro _ _ ⟨rfl, rfl⟩
  refine .bind (fat16FatItemFree_file hitem hg₁ hg) ?_
  rintro _ k₂ ⟨hg₂, hk₂, hglob₂, hother⟩
  obtain ⟨hpriv, hobj₂⟩ := hother priv 1 _ (hg₁.alive _ _ ho.own.alive) hobj₁ nofun
  refine (hg₂.kfree_old ⟨hpriv, ho.own.fresh⟩ ho.own.alive).mono ?_
  rintro _ k₃ ⟨hg₃, hk₃, hf₃⟩
  refine ⟨hg₃, hk₂.trans hk₃, hglob₂.trans hf₃.globals, fun p n d hp hd => ?_⟩
  obtain ⟨hp₂, hd₂⟩ := hother p n _ hp hd nofun
  have hne : p ≠ priv := by
    rintro rfl
    rw [hobj₁] at hd
    cases hd
  obtain ⟨hp₃, hd₃⟩ := hf₃.keeps p n hp₂ (by simpa using hne)
  exact ⟨hp₃, hd₃.trans hd₂⟩

/-- Closing the file releases what was allocated for it, and nothing that is newer. Its entry
of the table is free again. -/
theorem OpenedAs.fclose (ho : OpenedAs k₀ k₁ i e) (hg₁ : Grown k₁ m k) (hg : Grown k₀ m k)
    (hfds : k.file_descriptors = k₁.file_descriptors)
    (hi : (i : Int) + 1 < PLUMOS_MAX_FILE_DESCRIPTORS) :
    Returns (fclose (i + 1)) k fun res k' => res = 0 ∧ Grown k₀ m k' ∧ KeepsNew k₁ k k' ∧
      k'.file_descriptors = Function.update k.file_descriptors i 0 := by
  obtain ⟨priv, hobj, hpriv⟩ := ho.file
  have hslot : k.file_descriptors ((i : Int) + 1 - 1).toNat = k₁.file_descriptors i := by
    rw [hfds]
    congr 1
    omega
  have hfind : fileGetDescriptor (i + 1) k = .ok (k₁.file_descriptors i, k) := by
    unfold fileGetDescriptor
    rw [if_neg (by omega), ← hslot]
    rfl
  have hdesc := hg₁.alive _ _ ho.own.alive
  have hobj₁ := (hg₁.obj ho.own.alive).trans hobj
  refine .bind (R := fun desc k' => k₁.file_descriptors i = desc ∧ k = k')
    ⟨_, _, hfind, rfl, rfl⟩ ?_
  rintro _ _ ⟨rfl, rfl⟩
  rw [if_neg hdesc.ne_zero]
  refine .bind (deref_returns hdesc.ne_zero hobj₁ rfl) ?_
  rintro _ _ ⟨rfl, rfl⟩
  refine .bind (R := fun _ k' => k = k') ?_ ?_
  · unfold descFilesystem
    rw [if_neg (show fat16Fs ≠ 0 by decide)]
    exact .pure rfl
  rintro _ _ rfl
  refine .bind (fat16Close_opened hpriv hg₁ hg) ?_
  rintro _ k₂ ⟨rfl, hg₂, hk₂, hglob₂, hother⟩
  rw [if_pos (show (0 : Int) = PLUMOS_ALL_OK from rfl)]
  obtain ⟨hdesc₂, hobj₂⟩ := hother _ _ _ hdesc hobj₁
  refine .bind (R := fun _ k' => Grown k₀ m k' ∧ KeepsNew k₁ k k' ∧
    k'.file_descriptors = Function.update k.file_descriptors i 0) ?_ fun _ k' hk' => .pure ⟨rfl, hk'⟩
  refine .bind (deref_returns hdesc₂.ne_zero hobj₂ rfl) ?_
  rintro _ _ ⟨rfl, rfl⟩
  have hindex : ((i : Int) + 1 - 1).toNat = i := by omega
  dsimp only
  rw [if_neg (by omega), hindex]
  -- the entry of the table is cleared before the descriptor is released
  refine .bind (R := fun _ k₃ => Grown k₀ m k₃ ∧ KeepsNew k₁ k k₃ ∧
    k₃.Alive (k₁.file_descriptors i) 1 ∧
    k₃.file_descriptors = Function.update k.file_descriptors i 0) ?_ ?_
  · refine .modifies ⟨⟨hg₂.free, hg₂.alive, hg₂.mem, hg₂.objs, hg₂.volume⟩,
      ⟨hk₂.alive, hk₂.objs, hk₂.only, hk₂.mem⟩, hdesc₂, ?_⟩
    rw [← hglob₂.file_descriptors]
  rintro _ k₃ ⟨hg₃, hk₃, hdesc₃, hfds₃⟩
  refine (hg₃.kfree_old ⟨hdesc₃, ho.own.fresh⟩ ho.own.alive).mono ?_
  rintro _ k₄ ⟨hg₄, hk₄, hf₄⟩
  exact ⟨hg₄, hk₃.trans hk₄, hf₄.globals.file_descriptors.trans hfds₃⟩

end Opened

/-! ### The file of a path -/

/-- The path `path` leads to the file with the entry `e` in the clusters `chain`. The parts of
the path are `cs`, and `blocks` blocks are taken for the lookup. -/
structure FileAt (h : FatHeader) (es : List FatDirectoryItem) (cs : List (List UInt8))
    (e : FatDirectoryItem) (chain : List Nat) (blocks : Nat) (path : List UInt8) (k : Kernel) :
    Prop where
  root : HoldsRoot h es k
  leads : Leads h k.disk.image es cs e blocks
  file : FileClusters h k.disk.image e chain
  size_pos : 1 ≤ e.filesize
  short : strlen path ≤ PLUMOS_MAX_PATH
  valid : pathparserPathValidFormat path = true
  drive : toenumericdigit (charAt path 0) = 0
  parts : PathParts (path.drop 3) cs

/-- Entry `i` of the table of descriptors is the first free one, and its number is no error. -/
structure SlotFree (k : Kernel) (i : Nat) : Prop where
  first : freeDescriptorSlot k.file_descriptors = some i
  lt : (i : Int) + 1 < PLUMOS_MAX_FILE_DESCRIPTORS

section FileAt

variable {h : FatHeader} {es : List FatDirectoryItem} {cs : List (List UInt8)}
  {e : FatDirectoryItem} {chain : List Nat} {blocks i m : Nat} {path : List UInt8} {k k' : Kernel}

theorem FileAt.mono (hf : FileAt h es cs e chain blocks path k) (hg : Grown k m k') :
    FileAt h es cs e chain blocks path k' :=
  { hf with
    root := hf.root.mono hg
    leads := hg.volume.image ▸ hf.leads
    file := hg.volume.image ▸ hf.file }

theorem SlotFree.empty (hs : SlotFree k i) : k.file_descriptors i = 0 :=
  (freeDescriptorSlot_eq_some hs.first).2.1

/-- The file of the path is opened. -/
theorem FileAt.opens (hf : FileAt h es cs e chain blocks path k) (ht : tableFence.Stands k)
    (hfree : k.FreeFrom m) (hm : m + (2 * cs.length + blocks + 4) ≤ 25600) (hs : SlotFree k i) :
    Returns (fopen path [0x72]) k fun fd k' => fd = i + 1 ∧
      Grown k (m + (2 * cs.length + blocks + 4)) k' ∧ OpenedAs k k' i e ∧
      ∃ desc, k'.file_descriptors = Function.update k.file_descriptors i desc := by
  have hopen := fopen_leads hf.root ht hfree hf.short hf.valid hf.drive hf.parts hf.leads
    (by omega) (show fileGetModeByString [0x72] = FILE_MODE_READ by decide) hs.first
  rwa [show m + 2 * cs.length + blocks + 4 = m + (2 * cs.length + blocks + 4) by omega] at hopen

/-! ### Reading it -/

/-- The file of a path is opened, read into memory of its size and closed. -/
def readFile (filename : List UInt8) : KM (Int × Nat) := do
  let fd ← fopen filename [0x72]
  let r ← fstat fd
  match r.2 with
  | none => pure (r.1, 0)
  | some stat => do
    let ptr ← kzalloc stat.filesize
    let res ← fread ptr stat.filesize 1 fd
    let _ ← fclose fd
    pure (res, ptr)

end FileAt

/-! ### A file in a directory -/

/-- The bytes of a directory entry with a name of one character. -/
def shortEntry (name attribute_ cluster size : UInt8) (j : Nat) : UInt8 :=
  if j = 0 then name else if j < 11 then 0x20 else if j = 11 then attribute_
  else if j = 26 then cluster else if j = 28 then size else 0

/-- A volume with the directory `D` in cluster 2, and in it the file `A` in cluster 3. -/
def Disk.tree (bytes : List UInt8) : Disk where
  sector_size := 512
  fs_private := some ⟨.oneSector, ⟨0x1000000, 1, 2, 3⟩, 0, 0, 0⟩
  image := fun p =>
    if p < 1536 then 0
    else if p < 2048 then shortEntry 0x41 0 3 (UInt8.ofNat bytes.length) (p - 1536)
    else bytes.getD (p - 2048) 0

/-- A kernel with its root directory in the first block of the heap. -/
def Kernel.withTree (bytes : List UInt8) : Kernel :=
  { Kernel.boot (Disk.tree bytes) with
    heap_entries := fun i => if i = 0 then 0x41 else 0
    mem := fun p => if p < 0x1000000 then 0 else shortEntry 0x44 0x10 2 0 (p - 0x1000000) }

def treeRoot : FatDirectoryItem := readFatDirectoryItem (shortEntry 0x44 0x10 2 0) 0

def treeFile (size : UInt8) : FatDirectoryItem := readFatDirectoryItem (shortEntry 0x41 0 3 size) 0

/-- The path `0:/D/A`. -/
def treePath : List UInt8 := drivePath 0 [[0x44], [0x41]] ++ [0]

theorem treeFile_eq (size : UInt8) : treeFile size =
    ⟨[0x41, 0x20, 0x20, 0x20, 0x20, 0x20, 0x20, 0x20], [0x20, 0x20, 0x20], 0, 0, 3,
      size.toNat⟩ := by
  unfold treeFile readFatDirectoryItem readWord readHalf readBytes
  simp [shortEntry, List.range_succ]

section Tree

variable {bytes : List UInt8}

theorem tree_contents {c x : Nat} (hx : x < 512) :
    FatHeader.oneSector.contents (Disk.tree bytes).image [c] x =
      (Disk.tree bytes).image (FatHeader.oneSector.clusterStart c + x) := by
  unfold FatHeader.contents FatHeader.filePosition
  rw [show FatHeader.oneSector.clusterSize = 512 from rfl, Nat.div_eq_of_lt hx, Nat.mod_eq_of_lt hx]
  rfl

theorem tree_directory {x : Nat} (hx : x < 512) : (Disk.tree bytes).image (1536 + x) =
    shortEntry 0x41 0 3 (UInt8.ofNat bytes.length) x := by
  unfold Disk.tree
  dsimp only
  rw [if_neg (by omega), if_pos (by omega), Nat.add_sub_cancel_left]

theorem tree_entries : FatHeader.oneSector.chainEntries (Disk.tree bytes).image [2] 1 =
    [treeFile (UInt8.ofNat bytes.length)] := by
  refine congrArg (fun e => [e]) (readFatDirectoryItem_shift fun j hj => ?_)
  rw [Nat.mul_zero, Nat.zero_add, tree_contents (by omega),
    show FatHeader.oneSector.clusterStart 2 = 1536 by decide]
  exact tree_directory (by omega)

theorem tree_file {x : Nat} (hx : x < 512) :
    FatHeader.oneSector.contents (Disk.tree bytes).image [3] x = bytes.getD x 0 := by
  rw [tree_contents hx, show FatHeader.oneSector.clusterStart 3 = 2048 by decide]
  unfold Disk.tree
  dsimp only
  rw [if_neg (by omega), if_neg (by omega), Nat.add_sub_cancel_left]

theorem onlyNamed_single {e : FatDirectoryItem} {c : List UInt8} (hnamed : e.Named c) :
    OnlyNamed [e] c 0 e :=
  ⟨rfl, hnamed, fun _ _ hj _ => Nat.lt_one_iff.mp (List.getElem?_eq_some_iff.mp hj).1⟩

theorem withTree_mem (x : Nat) :
    (Kernel.withTree bytes).mem (0x1000000 + x) = shortEntry 0x44 0x10 2 0 x := by
  unfold Kernel.withTree
  dsimp only
  rw [if_neg (by omega), Nat.add_sub_cancel_left]

theorem tree_volume : FatVolume .oneSector (Disk.tree bytes) where
  sector_size := rfl
  bound := ⟨_, rfl, rfl, rfl⟩
  root_whole := rfl
  sectors_per_cluster_pos := by decide
  sectors_per_cluster_lt := by decide
  reserved_sectors_lt := by decide

theorem tree_chain {c : Nat} (hc : c = 2 ∨ c = 3) :
    ClusterChain .oneSector (Disk.tree bytes).image [c] where
  range := List.forall_mem_singleton.mpr (by omega)
  nodup := List.nodup_singleton c
  links := fun j hj => absurd hj (by simp)
  below := by
    refine List.forall_mem_singleton.mpr ?_
    rcases hc with rfl | rfl
    · decide
    · decide

theorem tree_subdirectory : Subdirectory .oneSector (Disk.tree bytes).image treeRoot [2] 1 where
  clusters := tree_chain (Or.inl rfl)
  nonempty := by decide
  first := by decide
  listing := by
    have hmark : ∀ q ∈ slots 1536 1, (Disk.tree bytes).image q = 0x41 :=
      List.forall_mem_singleton.mpr (tree_directory (by decide))
    rw [show FatHeader.oneSector.clusterStart ([2].getD 0 0) = 1536 by decide]
    refine ⟨1, ⟨by decide, fun q hq => ?_, tree_directory (by decide)⟩, ?_⟩
    · rw [hmark q hq]
      decide
    · have hlive : ∀ q ∈ slots 1536 1, decide ((Disk.tree bytes).image q ≠ 0xE5) = true := by
        intro q hq
        rw [hmark q hq]
        decide
      exact (List.countP_eq_length.mpr hlive).symm
  count_pos := le_rfl
  fits := by decide

theorem withTree_fileAt (bytes : List UInt8) (h₁ : 1 ≤ bytes.length) (h₂ : bytes.length < 256) :
    FileAt .oneSector [treeRoot] [[0x44], [0x41]] (treeFile (UInt8.ofNat bytes.length)) [3] 5
      treePath (Kernel.withTree bytes) := by
  have hsize : (treeFile (UInt8.ofNat bytes.length)).filesize = bytes.length := by
    rw [treeFile_eq]
    exact UInt8.toNat_ofNat_of_lt' h₂
  have hfile : (treeFile (UInt8.ofNat bytes.length)).Named [0x41] ∧
      (treeFile (UInt8.ofNat bytes.length)).attribute_ &&& FAT_FILE_SUBDIRECTORY = 0 ∧
      fat16GetFirstCluster (treeFile (UInt8.ofNat bytes.length)) = 3 := by
    rw [treeFile_eq]
    exact ⟨rfl, show (0 : UInt8) &&& 0x10 = 0 by decide, show (0 <<< 16 ||| 3) = 3 by decide⟩
  obtain ⟨hnamed, hkind, hfirst⟩ := hfile
  exact
    { root := by
        refine ⟨tree_volume, _, 1, rfl, rfl, ⟨0, rfl, by decide, by decide, fun j hj => ?_⟩,
          by decide, fun j e hj => ?_⟩
        · obtain rfl := Nat.lt_one_iff.mp hj
          rfl
        · obtain ⟨hlt, rfl⟩ := List.getElem?_eq_some_iff.mp hj
          obtain rfl := Nat.lt_one_iff.mp hlt
          refine ⟨by decide, rfl, readFatDirectoryItem_shift fun a _ => ?_⟩
          rw [Nat.zero_add]
          exact withTree_mem a
      leads := by
        have hroot : treeRoot.Named [0x44] := by decide
        have hleads : Leads .oneSector (Disk.tree bytes).image [treeRoot] [[0x44], [0x41]]
            (treeFile (UInt8.ofNat bytes.length)) (2 + blocksOf (32 * 1) + 2) := by
          refine .directory (onlyNamed_single hroot) (by decide) tree_subdirectory ?_
          rw [tree_entries]
          exact .file (onlyNamed_single hnamed) hkind
        exact hleads
      file :=
        { clusters := tree_chain (Or.inr rfl)
          first := hfirst
          long := by
            rw [hsize]
            change bytes.length ≤ 512
            omega }
      size_pos := by rwa [hsize]
      short := by decide
      valid := by decide
      drive := by decide
      parts := pathParts_joinParts (by
        intro c hc
        rcases List.mem_pair.mp hc with rfl | rfl
        · exact ⟨by decide, by decide, by decide⟩
        · exact ⟨by decide, by decide, by decide⟩) }

theorem withTree_tidy : (Kernel.withTree bytes).Tidy := withA_tidy.congr rfl

theorem withTree_freeFrom : (Kernel.withTree bytes).FreeFrom 1 := withA_freeFrom.congr rfl

theorem withTree_slotFree : SlotFree (Kernel.withTree bytes) 0 :=
  ⟨withA_filledTo.slot (by decide), by decide⟩

end Tree

end PlumOS
