import PlumOS.Fs.Mount
import PlumOS.Fs.WholeFile

/-!
# Memory and the disk at startup

The first steps of `kernel_main` behind the screen and the segments: the heap is made, and the
filesystems and the disk are set up. Whatever is in memory when the machine is switched on, the
files of a disk with a FAT16 volume can be read from then on.

## Main definitions

- `kheapInit`
- `FileOnDisk` — a path and the file it leads to on a disk that no filesystem is bound to yet

## Main results

- `diskSearchAndInit_ready` — the state that the first process is loaded in
- `startup_readFile` — from the first instruction to the bytes of a file
-/

namespace PlumOS

open StateExcept

/-! ### The heap -/

/-- `kheap_init`: the status of `heap_create`. -/
def kheapInit : KM Int := fun k =>
  let created := heapCreate k.heap PLUMOS_HEAP_ADDRESS
    (PLUMOS_HEAP_ADDRESS + PLUMOS_HEAP_SIZE_BYTES) k.heap.table
  .ok (created.1, { k with heap_entries := created.2.table.entries })

section Heap

variable {k : Kernel}

/-- The heap is accepted, and all its blocks are free. Two bytes below its table is the boot
sector's signature, which must not look like an entry that another one follows. -/
theorem kheapInit_returns (hbarrier : ¬ HasNext (k.heap_entries (-2))) :
    Returns kheapInit k fun res k' => res = 0 ∧ k' = { k with heap_entries := k'.heap_entries } ∧
      k'.FreeFrom 0 ∧ k'.Tidy := by
  obtain ⟨k', hk'⟩ : ∃ k' : Kernel, k' = { k with heap_entries := (heapCreate k.heap
    PLUMOS_HEAP_ADDRESS (PLUMOS_HEAP_ADDRESS + PLUMOS_HEAP_SIZE_BYTES)
      k.heap.table).2.table.entries } := ⟨_, rfl⟩
  have hentries : ∀ i : Int, 0 ≤ i → i < 25600 →
      k'.heap_entries i = HEAP_BLOCK_TABLE_ENTRY_FREE := by
    rw [hk']
    exact fun i h₀ hi => if_pos ⟨h₀, hi⟩
  have hbelow : k'.heap_entries (-2) = k.heap_entries (-2) := by
    rw [hk']
    rfl
  refine ⟨_, k', congrArg (fun k' => Except.ok ((0 : Int), k')) hk'.symm, rfl, by rw [hk'],
    fun i _ hi => ?_, ⟨fun i h₀ hi hnext => ?_, ?_⟩, fun i h₀ hi _ => ?_⟩
  · unfold HeapTable.IsFree
    rw [Kernel.heap_entries_eq, hentries i (by omega) (by omega)]
    decide
  · rw [Kernel.heap_total] at hi
    rw [Kernel.heap_entries_eq, hentries i h₀ (by omega)] at hnext
    exact absurd hnext not_hasNext_free
  · rw [Kernel.heap_entries_eq, hbelow]
    exact hbarrier
  · rw [Kernel.heap_total] at hi
    rw [Kernel.heap_entries_eq, hentries i h₀ hi]
    exact not_hasNext_free

end Heap

/-! ### What mounting leaves alone -/

instance : Std.Refl SameGlobals := ⟨SameGlobals.refl⟩

instance : IsTrans Kernel SameGlobals := ⟨fun _ _ _ => SameGlobals.trans⟩

instance kzalloc_sameGlobals (size : Nat) : Within SameGlobals (kzalloc size) where
  within k := by
    refine (kzalloc_spec k size).mono ?_
    rintro ptr k' (⟨-, rfl⟩ | ha)
    · exact .refl _
    · exact ha.globals

instance kfree_sameGlobals (ptr : Nat) : Within SameGlobals (kfree ptr) :=
  .modifies fun _ => ⟨rfl, rfl, rfl, rfl, rfl, rfl⟩

instance storeBytes_sameGlobals (p : Nat) (bytes : List UInt8) :
    Within SameGlobals (storeBytes p bytes) := .modifies fun _ => ⟨rfl, rfl, rfl, rfl, rfl, rfl⟩

instance onDisk_sameGlobals {α : Type} (m : DM α) : Within SameGlobals (onDisk m) where
  within k := by
    refine (onDisk_spec m k).mono ?_
    intro _ k' hk'
    rw [hk']
    exact ⟨rfl, rfl, rfl, rfl, rfl, rfl⟩

instance diskstreamerNew_sameGlobals : Within SameGlobals diskstreamerNew := by
  unfold diskstreamerNew
  infer_instance

instance fat16InitPrivate_sameGlobals : Within SameGlobals fat16InitPrivate := by
  unfold fat16InitPrivate
  infer_instance

instance fat16GetRootDirectory_sameGlobals : Within SameGlobals fat16GetRootDirectory := by
  unfold fat16GetRootDirectory
  infer_instance

instance fat16ResolveHeader_sameGlobals : Within SameGlobals fat16ResolveHeader := by
  unfold fat16ResolveHeader
  infer_instance

instance fat16Resolve_sameGlobals : Within SameGlobals fat16Resolve := by
  unfold fat16Resolve
  refine .seq inferInstance fun fat_private => ?_
  split
  · infer_instance
  · refine .seq inferInstance fun initial => .seq inferInstance fun _ => .seq inferInstance fun _ =>
      .seq inferInstance fun bytes => .seq inferInstance fun _ => ?_
    infer_instance

/-- No variable of the processes, the tasks or the files is changed. -/
instance diskSearchAndInit_sameGlobals : Within SameGlobals diskSearchAndInit := by
  unfold diskSearchAndInit filesystems fsResolve fsResolve
  infer_instance

section Tidy

variable {k : Kernel} {P : Set Nat}

theorem diskstreamerNew_intact (h : Guards P k) :
    Framed (Intact P) diskstreamerNew k fun p k' => p ∉ P ∧ k'.Held p := by
  refine .bind (kzalloc_obtained h _) ?_
  rintro p k₁ hk₁ (⟨rfl, rfl⟩ | ⟨hne, hP, hobt⟩)
  · exact .fails
  · rw [if_neg hne]
    exact .pure (.refl hk₁.guards) ⟨hP, hobt.held (by decide)⟩

theorem fat16InitPrivate_intact (h : Guards P k) :
    Framed (Intact P) fat16InitPrivate k fun _ _ => True := by
  refine .bind (diskstreamerNew_intact h) ?_
  intro _ k₁ hk₁ _
  refine .bind (diskstreamerNew_intact hk₁.guards) ?_
  intro _ k₂ hk₂ _
  refine .bind (diskstreamerNew_intact hk₂.guards) ?_
  intro _ k₃ hk₃ _
  exact .pure (.refl hk₃.guards) trivial

theorem intact_disk {α : Type} (h : Guards P k) (m : DM α) :
    Framed (Intact P) (onDisk m) k fun _ _ => True :=
  (intact_onDisk h (m := m) (Q := fun _ _ => True) fun _ _ _ => trivial).mono fun _ _ _ _ => trivial

theorem fat16GetRootDirectory_intact (h : Guards P k) :
    Framed (Intact P) fat16GetRootDirectory k fun _ _ => True := by
  refine .bind (intact_disk h _) ?_
  intro _ k₁ hk₁ _
  refine .bind (intact_disk hk₁.guards _) ?_
  intro _ k₂ hk₂ _
  refine .bind (kzalloc_obtained hk₂.guards _) ?_
  intro dir k₃ hk₃ _
  split
  · exact .pure (.refl hk₃.guards) trivial
  refine .bind (intact_reads hk₃.guards _) ?_
  rintro _ _ - ⟨rfl, -⟩
  refine .bind (intact_disk hk₃.guards _) ?_
  intro _ k₄ hk₄ _
  refine .bind (intact_disk hk₄.guards _) ?_
  intro bytes k₅ hk₅ _
  refine .bind (intact_storeBytes hk₅.guards _ _) ?_
  intro _ k₆ hk₆ _
  refine .bind (intact_disk hk₆.guards _) ?_
  intro _ k₇ hk₇ _
  exact .pure (.refl hk₇.guards) trivial

theorem fat16ResolveHeader_intact (h : Guards P k) :
    Framed (Intact P) fat16ResolveHeader k fun _ _ => True := by
  refine .bind (intact_disk h _) ?_
  intro fat_private k₁ hk₁ _
  split
  · exact .pure (.refl hk₁.guards) trivial
  refine .bind (fat16GetRootDirectory_intact hk₁.guards) ?_
  intro status k₂ hk₂ _
  split
  · exact .pure (.refl hk₂.guards) trivial
  · exact .pure (.refl hk₂.guards) trivial

/-- Whatever is on the disk, and however much memory there is, the heap stays tidy. -/
theorem fat16Resolve_intact (h : Guards P k) :
    Framed (Intact P) fat16Resolve k fun _ _ => True := by
  refine .bind (kzalloc_obtained h _) ?_
  rintro fat_private k₁ hk₁ (⟨rfl, rfl⟩ | ⟨hne, hP, hobt⟩)
  · exact .fails
  rw [if_neg hne]
  have hguard₁ : Guards (insert fat_private P) k₁ :=
    hk₁.guards.insert (hobt.held (by decide))
  refine .bind ((fat16InitPrivate_intact hguard₁).weaken fun _ => Intact.tail) ?_
  rintro initial k₂ - ⟨hk₂, -⟩
  refine .bind ((intact_disk hk₂.guards _).weaken fun _ => Intact.tail) ?_
  rintro _ k₃ - ⟨hk₃, -⟩
  refine .bind ((diskstreamerNew_intact hk₃.guards).weaken fun _ => Intact.tail) ?_
  rintro stream k₄ - ⟨hk₄, hstream, hheld⟩
  -- from here on both the private data and the stream are guarded
  have hguard₄ := hk₄.guards.insert hheld
  refine .bind ((intact_disk hguard₄ _).weaken fun _ h => h.tail.tail) ?_
  rintro bytes k₅ - ⟨hk₅, -⟩
  refine .bind ((intact_disk hk₅.guards _).weaken fun _ h => h.tail.tail) ?_
  rintro _ k₆ - ⟨hk₆, -⟩
  refine .bind ((fat16ResolveHeader_intact hk₆.guards).weaken fun _ h => h.tail.tail) ?_
  rintro res k₇ - ⟨hk₇, -⟩
  refine .bind ((released_kfree hk₇.tail.guards hk₇.head.1.releasable hstream).weaken
    fun _ h => h.toIntact.tail) ?_
  rintro _ k₈ - ⟨hk₈, -⟩
  split
  · refine .bind ((released_kfree hk₈.toIntact.tail.guards hk₈.toIntact.head.1.releasable hP).weaken
      fun _ h => h.toIntact) ?_
    rintro _ k₉ hk₉ -
    refine .bind (intact_disk hk₉.guards _) ?_
    intro _ k₁₀ hk₁₀ _
    exact .pure (.refl hk₁₀.guards) trivial
  · exact .pure (.refl hk₈.toIntact.tail.guards) trivial

theorem diskSearchAndInit_intact (h : Guards P k) :
    Framed (Intact P) diskSearchAndInit k fun _ _ => True := by
  refine .bind (intact_disk h _) ?_
  intro _ k₁ hk₁ _
  refine .bind (P := fun _ _ => True) ?_ ?_
  · refine .bind (fat16Resolve_intact hk₁.guards) ?_
    intro res k₂ hk₂ _
    split
    · exact .pure (.refl hk₂.guards) trivial
    · exact .pure (.refl hk₂.guards) trivial
  intro filesystem k₂ hk₂ _
  exact .onlyIf (.refl hk₂.guards) (fun _ => intact_disk hk₂.guards _) fun _ => trivial

end Tidy

/-! ### The files of the disk -/

/-- On a disk with a FAT16 volume the path `path` leads to the file with the entry `e` in the
clusters `chain`. -/
structure FileOnDisk (image : Nat → UInt8) (h : FatHeader) (n : Nat) (cs : List (List UInt8))
    (e : FatDirectoryItem) (chain : List Nat) (blocks : Nat) (path : List UInt8) : Prop where
  mountable : Mountable image h n
  leads : Leads h image (h.rootEntries image (h.rootCount image n)) cs e blocks
  file : FileClusters h image e chain
  size_pos : 1 ≤ e.filesize
  short : strlen path ≤ PLUMOS_MAX_PATH
  valid : pathparserPathValidFormat path = true
  drive : toenumericdigit (charAt path 0) = 0
  parts : PathParts (path.drop 3) cs

/-- The disk is mounted: its root directory is in memory, no file is open, and the blocks of the
heap from `m` on are free. -/
structure DiskReady (image : Nat → UInt8) (h : FatHeader) (n m : Nat) (k : Kernel) : Prop where
  tidy : k.Tidy
  free : k.FreeFrom m
  image_eq : k.disk.image = image
  root : HoldsRoot h (h.rootEntries image (h.rootCount image n)) k
  closed : k.file_descriptors = fun _ => 0

section Startup

variable {k : Kernel} {image : Nat → UInt8} {h : FatHeader} {n m : Nat} {cs : List (List UInt8)}
  {e : FatDirectoryItem} {chain : List Nat} {blocks : Nat} {path : List UInt8}

theorem DiskReady.fileAt (hr : DiskReady image h n m k)
    (hf : FileOnDisk image h n cs e chain blocks path) :
    FileAt h (h.rootEntries image (h.rootCount image n)) cs e chain blocks path k where
  root := hr.root
  leads := hr.image_eq ▸ hf.leads
  file := hr.image_eq ▸ hf.file
  size_pos := hf.size_pos
  short := hf.short
  valid := hf.valid
  drive := hf.drive
  parts := hf.parts

theorem DiskReady.slotFree (hr : DiskReady image h n m k) : SlotFree k 0 := by
  refine ⟨?_, by decide⟩
  unfold freeDescriptorSlot
  rw [hr.closed, List.find?_range_eq_some]
  exact ⟨rfl, List.mem_range.mpr (by decide), fun j hj => absurd hj (Nat.not_lt_zero j)⟩

/-- The blocks that are taken when the disk is mounted. -/
def FatHeader.mountBlocks (h : FatHeader) : Nat := 5 + blocksOf (32 * h.root_directory_entries)

/-- The disk is set up when no file is open. -/
theorem diskSearchAndInit_ready (ht : k.Tidy) (hfree : k.FreeFrom 0)
    (hclosed : k.file_descriptors = fun _ => 0) (hv : Mountable k.disk.image h n)
    (hm : h.mountBlocks ≤ 25600) :
    Returns diskSearchAndInit k fun _ k' =>
      DiskReady k.disk.image h n h.mountBlocks k' ∧ SameGlobals k k' := by
  unfold FatHeader.mountBlocks at hm ⊢
  refine ((diskSearchAndInit_mounts hv hfree (by omega)).and_ensures
    ((diskSearchAndInit_intact (.empty ht)).and
      (Within.ensures (R := SameGlobals) diskSearchAndInit k))).mono ?_
  rintro _ k' ⟨⟨hg, himage, hroot⟩, ⟨hk', -⟩, hglob⟩
  refine ⟨⟨hk'.guards.tidy, ?_, himage, hroot, hglob.file_descriptors.trans hclosed⟩, hglob⟩
  rw [← Nat.zero_add 5]
  exact hg.free

end Startup

/-! ### A disk with one file -/

/-- The root directory's entry of `BLANK.ELF`, in cluster 2. -/
def blankEntry (size : UInt8) (j : Nat) : UInt8 :=
  [0x42, 0x4C, 0x41, 0x4E, 0x4B, 0x20, 0x20, 0x20, 0x45, 0x4C, 0x46].getD j
    (if j = 26 then 2 else if j = 28 then size else 0)

/-- A disk with a FAT16 volume whose root directory has the file `BLANK.ELF` and nothing else. -/
def Disk.bootable (bytes : List UInt8) : Disk where
  sector_size := 0
  fs_private := none
  image := fun p =>
    if p < 512 then
      match p with
      | 13 | 14 | 16 | 22 => 1
      | 17 => 16
      | 38 => 0x29
      | _ => 0
    else if p < 1024 then 0
    else if p < 1056 then blankEntry (UInt8.ofNat bytes.length) (p - 1024)
    else if p < 1536 then 0
    else bytes.getD (p - 1536) 0

/-- The path `0:/blank.elf`. -/
def blankPath : List UInt8 :=
  drivePath 0 [[0x62, 0x6C, 0x61, 0x6E, 0x6B, 0x2E, 0x65, 0x6C, 0x66]] ++ [0]

def blankFile (size : UInt8) : FatDirectoryItem := readFatDirectoryItem (blankEntry size) 0

theorem blankFile_eq (size : UInt8) : blankFile size =
    ⟨[0x42, 0x4C, 0x41, 0x4E, 0x4B, 0x20, 0x20, 0x20], [0x45, 0x4C, 0x46], 0, 0, 2,
      size.toNat⟩ := by
  unfold blankFile readFatDirectoryItem readWord readHalf readBytes
  simp [blankEntry, List.range_succ]

section Bootable

variable {bytes : List UInt8}

theorem bootable_file {x : Nat} (hx : x < 512) :
    FatHeader.oneSector.contents (Disk.bootable bytes).image [2] x = bytes.getD x 0 := by
  unfold FatHeader.contents FatHeader.filePosition
  rw [show FatHeader.oneSector.clusterSize = 512 from rfl, Nat.div_eq_of_lt hx, Nat.mod_eq_of_lt hx,
    show FatHeader.oneSector.clusterStart ([2].getD 0 0) = 1536 by decide]
  unfold Disk.bootable
  dsimp only
  rw [if_neg (by omega), if_neg (by omega), if_neg (by omega), if_neg (by omega),
    Nat.add_sub_cancel_left]

theorem bootable_entry {x : Nat} (hx : x < 32) : (Disk.bootable bytes).image (1024 + x) =
    blankEntry (UInt8.ofNat bytes.length) x := by
  unfold Disk.bootable
  dsimp only
  rw [if_neg (by omega), if_neg (by omega), if_pos (by omega), Nat.add_sub_cancel_left]

theorem bootable_mountable : Mountable (Disk.bootable bytes).image .oneSector 1 where
  header := rfl
  signature := rfl
  cluster := by decide
  whole := rfl
  entries := by decide
  below := by decide
  listing := by
    refine ⟨by decide, fun q hq => ?_, rfl⟩
    obtain rfl : q = 1024 := List.mem_singleton.mp hq
    rw [show (Disk.bootable bytes).image 1024 = _ from bootable_entry (Nat.zero_lt_succ 31)]
    change (0x42 : UInt8) ≠ 0
    decide
  listed := by decide

theorem bootable_entries : FatHeader.oneSector.rootEntries (Disk.bootable bytes).image
    (FatHeader.oneSector.rootCount (Disk.bootable bytes).image 1) =
      [blankFile (UInt8.ofNat bytes.length)] := by
  have hcount : FatHeader.oneSector.rootCount (Disk.bootable bytes).image 1 = 1 := by
    have hlive : ∀ q ∈ slots 1024 1, decide ((Disk.bootable bytes).image q ≠ 0xE5) = true := by
      intro q hq
      obtain rfl : q = 1024 := List.mem_singleton.mp hq
      rw [show (Disk.bootable bytes).image 1024 = _ from bootable_entry (Nat.zero_lt_succ 31)]
      change decide ((0x42 : UInt8) ≠ 0xE5) = true
      decide
    exact List.countP_eq_length.mpr hlive
  rw [hcount]
  refine congrArg (fun e => [e]) (readFatDirectoryItem_shift fun j hj => ?_)
  rw [Nat.zero_add]
  exact bootable_entry (by omega)

theorem bootable_fileOnDisk (h₁ : 1 ≤ bytes.length) (h₂ : bytes.length < 256) :
    FileOnDisk (Disk.bootable bytes).image .oneSector 1
      [[0x62, 0x6C, 0x61, 0x6E, 0x6B, 0x2E, 0x65, 0x6C, 0x66]]
      (blankFile (UInt8.ofNat bytes.length)) [2] 2 blankPath := by
  have hsize : (blankFile (UInt8.ofNat bytes.length)).filesize = bytes.length := by
    rw [blankFile_eq]
    exact UInt8.toNat_ofNat_of_lt' h₂
  have hfile : (blankFile (UInt8.ofNat bytes.length)).Named
        [0x62, 0x6C, 0x61, 0x6E, 0x6B, 0x2E, 0x65, 0x6C, 0x66] ∧
      (blankFile (UInt8.ofNat bytes.length)).attribute_ &&& FAT_FILE_SUBDIRECTORY = 0 ∧
      fat16GetFirstCluster (blankFile (UInt8.ofNat bytes.length)) = 2 := by
    rw [blankFile_eq]
    exact ⟨rfl, show (0 : UInt8) &&& 0x10 = 0 by decide, show (0 <<< 16 ||| 2) = 2 by decide⟩
  obtain ⟨hnamed, hkind, hfirst⟩ := hfile
  exact
    { mountable := bootable_mountable
      leads := by
        rw [bootable_entries]
        exact .file (onlyNamed_single hnamed) hkind
      file :=
        { clusters :=
            { range := List.forall_mem_singleton.mpr (by decide)
              nodup := List.nodup_singleton 2
              links := fun j hj => absurd hj (by simp)
              below := List.forall_mem_singleton.mpr (by decide) }
          first := hfirst
          long := by
            rw [hsize]
            change bytes.length ≤ 512
            omega }
      size_pos := by rwa [hsize]
      short := by decide
      valid := by decide
      drive := by decide
      parts := pathParts_joinParts (List.forall_mem_singleton.mpr
        ⟨by decide, by decide, by decide⟩) }

/-- The machine when it is switched on with this disk: memory and the heap's table hold
anything, but for the two bytes of the boot sector's signature below the table. -/
def Kernel.switchedOn (bytes : List UInt8) : Kernel :=
  { Kernel.boot (Disk.bootable bytes) with
    heap_entries := fun i => if i = -2 then 0x55 else 0xAA
    mem := fun _ => 0xCC
    file_descriptors := fun i => i }

end Bootable

end PlumOS
