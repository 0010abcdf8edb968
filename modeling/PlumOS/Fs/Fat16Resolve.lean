import Mathlib.Data.Set.BooleanAlgebra
import Mathlib.Order.CompletePartialOrder
import PlumOS.Fs.DirectoryScan
import PlumOS.Fs.StreamFree

/-!
# Binding a volume

`fat16_resolve`: the boot sector's header is read into the driver's private data and
the root directory is located and loaded. What comes out of it is the layout by which
the driver finds clusters; it is compared with the layout of the format.

## Main definitions

- `readFatHeader` — the fields of the header in the boot sector
- `fat16Resolve`
- `FormatLayout` — the driver's layout is that of the format

## Main results

- `fat16Resolve_layout` — what an accepted volume is bound with
- `fat16Resolve_formatLayout_iff` — which boot sectors give the layout of the format
-/

namespace PlumOS

open StateExcept

def PLUMOS_FAT16_SIGNATURE : Nat := 0x29

def sizeofDiskStream : Nat := 8
def sizeofFatH : Nat := 62
def sizeofFatPrivate : Nat := 92

/-- The fields of `struct fat_h` in the bytes of a boot sector. -/
def readFatHeader (bytes : Nat → UInt8) : FatHeader where
  sectors_per_cluster := (bytes 13).toNat
  reserved_sectors := readHalf bytes 14
  fat_copies := (bytes 16).toNat
  root_directory_entries := readHalf bytes 17
  sectors_per_fat := readHalf bytes 22
  signature := (bytes 38).toNat

/-- The fields have the widths of `struct fat_header`. -/
structure FatHeader.Fits (h : FatHeader) : Prop where
  sectors_per_cluster : h.sectors_per_cluster < 0x100
  reserved_sectors : h.reserved_sectors < 0x10000
  fat_copies : h.fat_copies < 0x100
  root_directory_entries : h.root_directory_entries < 0x10000
  sectors_per_fat : h.sectors_per_fat < 0x10000

theorem readFatHeader_fits (bytes : Nat → UInt8) : (readFatHeader bytes).Fits where
  sectors_per_cluster := (bytes 13).toNat_lt
  reserved_sectors := readHalf_lt ..
  fat_copies := (bytes 16).toNat_lt
  root_directory_entries := readHalf_lt ..
  sectors_per_fat := readHalf_lt ..

def FatHeader.zero : FatHeader := ⟨0, 0, 0, 0, 0, 0⟩

/-- `diskstreamer_new(0)`: the position is stored without a test of the pointer. -/
def diskstreamerNew : KM Nat := do
  let streamer ← kzalloc sizeofDiskStream
  if streamer = 0 then fails .badPointer else pure streamer

/-- Bind private data to the disk: `disk->fs_private = fat_private`. -/
def setFsPrivate (fs_private : Option FatPrivate) : DM PUnit :=
  modifies fun disk => { disk with fs_private := fs_private }

/-- Change the private data that is bound to the disk. -/
def modifyFsPrivate (f : FatPrivate → FatPrivate) : DM PUnit := do
  let fat_private ← fsPrivate
  setFsPrivate (some (f fat_private))

/-- `fat16_init_private`: its streams are at position 0. -/
def fat16InitPrivate : KM FatPrivate := do
  let _ ← diskstreamerNew
  let _ ← diskstreamerNew
  let _ ← diskstreamerNew
  pure ⟨FatHeader.zero, ⟨0, 0, 0, 0⟩, 0, 0, 0⟩

/-- The part of `fat16_resolve` behind the header: its status before `out`. -/
def fat16ResolveHeader : KM Int := do
  let fat_private ← onDisk fsPrivate
  if fat_private.header.signature ≠ PLUMOS_FAT16_SIGNATURE then pure (- EFSNOTUS)
  else do
    let status ← fat16GetRootDirectory
    if status ≠ PLUMOS_ALL_OK then pure (- EIO) else pure PLUMOS_ALL_OK

/-- The header read by a new stream. -/
def readHeaderOfDisk : DM (List UInt8) := do
  let disk ← reads id
  match diskstreamerReadLoop disk (sizeofFatH + 1) 0 sizeofFatH with
  | .error e => fails e
  | .ok r => pure r.bytes

/-- `fat16_resolve`. -/
def fat16Resolve : KM Int := do
  let fat_private ← kzalloc sizeofFatPrivate
  if fat_private = 0 then fails .badPointer
  else do
    let initial ← fat16InitPrivate
    onDisk (setFsPrivate (some initial))
    let stream ← diskstreamerNew
    let bytes ← onDisk readHeaderOfDisk
    onDisk (modifyFsPrivate fun fat_private =>
      { fat_private with header := readFatHeader fun i => bytes.getD i 0 })
    let res ← fat16ResolveHeader
    kfree stream
    if res < 0 then do
      kfree fat_private
      onDisk (setFsPrivate none)
      pure res
    else pure res

/-! ### The layout -/

/-- The first sector of the root directory. -/
def FatHeader.rootDirSector (h : FatHeader) : Nat :=
  h.reserved_sectors + h.fat_copies * h.sectors_per_fat

/-- The sector that the driver takes for the first one behind the root directory. -/
def FatHeader.endSector (h : FatHeader) : Nat :=
  h.rootDirSector + h.root_directory_entries * 32 / 512

theorem FatHeader.Fits.rootDirSector_le {h : FatHeader} (hf : h.Fits) :
    h.rootDirSector ≤ 0x10000 + 0x100 * 0x10000 := by
  have hprod : h.fat_copies * h.sectors_per_fat ≤ 0x100 * 0x10000 :=
    Nat.mul_le_mul hf.fat_copies.le hf.sectors_per_fat.le
  have := hf.reserved_sectors
  unfold FatHeader.rootDirSector
  omega

/-- The disk under another binding: what is on it is the same. -/
structure SameMedium (d d' : Disk) : Prop where
  image : d'.image = d.image
  sector_size : d'.sector_size = d.sector_size

theorem SameMedium.trans {d₁ d₂ d₃ : Disk} (h : SameMedium d₁ d₂) (h' : SameMedium d₂ d₃) :
    SameMedium d₁ d₃ := ⟨h'.image.trans h.image, h'.sector_size.trans h.sector_size⟩

theorem SameVolume.sameMedium {d d' : Disk} (h : SameVolume d d') : SameMedium d d' :=
  ⟨h.image, h.sector_size⟩

theorem kzalloc_disk (size : Nat) (k : Kernel) :
    Ensures (kzalloc size) k fun _ k' => k'.disk = k.disk := by
  refine (kzalloc_spec k size).mono ?_
  rintro ptr k' (⟨-, rfl⟩ | ha)
  · rfl
  · rw [ha.eq]

theorem diskstreamerNew_disk (k : Kernel) :
    Ensures diskstreamerNew k fun _ k' => k'.disk = k.disk := by
  refine .bind (kzalloc_disk _ _) ?_
  intro streamer k₁ hk₁
  split
  · exact .fails
  · exact .pure hk₁

theorem fat16InitPrivate_disk (k : Kernel) :
    Ensures fat16InitPrivate k fun _ k' => k'.disk = k.disk := by
  refine .bind (diskstreamerNew_disk k) ?_
  intro _ k₁ hk₁
  refine .bind (diskstreamerNew_disk k₁) ?_
  intro _ k₂ hk₂
  refine .bind (diskstreamerNew_disk k₂) ?_
  intro _ k₃ hk₃
  exact .pure (hk₃.trans (hk₂.trans hk₁))

theorem setRootDirectory_spec {d : Disk} {p : FatPrivate} (hp : d.fs_private = some p)
    (directory : FatDirectory) :
    Ensures (setRootDirectory directory) d fun _ d' =>
      d' = { d with fs_private := some { p with root_directory := directory } } := by
  refine .bind (fsPrivate_returns hp).ensures ?_
  rintro _ _ ⟨rfl, rfl⟩
  exact .modifies rfl

/-- The root directory is put right behind the copies of the File Allocation Table, and
the data into the sector its size divided by that of a sector leads to. -/
theorem fat16GetRootDirectory_layout {k : Kernel} {p : FatPrivate}
    (hp : k.disk.fs_private = some p) (hsize : k.disk.sector_size = 512) (hf : p.header.Fits) :
    Ensures fat16GetRootDirectory k fun res k' => res = 0 → SameMedium k.disk k'.disk ∧
      ∃ p', k'.disk.fs_private = some p' ∧ p'.header = p.header ∧
        p'.root_directory.sector_pos = p.header.rootDirSector ∧
        p'.root_directory.end_sector_pos = p.header.endSector := by
  refine .bind (onDisk_ensures (fsPrivate_returns hp).ensures) ?_
  rintro _ k₁ ⟨hk₁, rfl⟩
  dsimp only
  refine .bind (onDisk_ensures (Alike.keeps_volume (fat16GetTotalItemsForDirectory_alike _))) ?_
  intro total_items k₂ hk₂
  refine .bind (kzalloc_disk _ _) ?_
  intro dir k₃ hk₃
  have hv₃ : SameVolume k.disk k₃.disk := by
    rw [hk₃, hk₁]
    exact hk₂
  split
  · exact .pure fun h => absurd h (by decide)
  refine .bind (R := fun n k' => n = 512 ∧ k₃ = k') (.reads ⟨hv₃.sector_size.trans hsize, rfl⟩) ?_
  rintro _ _ ⟨rfl, rfl⟩
  obtain ⟨p₃, hp₃, hh₃, -⟩ := hv₃.fs_private hp
  refine .bind (onDisk_ensures (diskstreamerSeek_spec hp₃ _ _).ensures) ?_
  rintro _ k₄ ⟨hv₄, -⟩
  obtain ⟨p₄, hp₄, hh₄, -⟩ := hv₄.fs_private hp₃
  have hentries := hf.root_directory_entries
  have hbytes : i32 ((p.header.root_directory_entries * sizeofFatDirectoryItem : Nat) : Int) =
      (p.header.root_directory_entries * 32 : Nat) := by
    unfold sizeofFatDirectoryItem
    exact i32_natCast (by omega)
  rw [hbytes]
  refine .bind (onDisk_ensures (diskstreamerRead_length _ (by omega) (by omega) hp₄)) ?_
  rintro bytes k₅ ⟨hv₅, -⟩
  refine .bind (R := fun _ k' => k'.disk = k₅.disk) (.modifies rfl) ?_
  intro _ k₆ hk₆
  have hv₆ : SameVolume k₃.disk k₆.disk := by
    rw [hk₆]
    exact hv₄.trans hv₅
  obtain ⟨p₆, hp₆, hh₆, -⟩ := hv₆.fs_private hp₃
  refine .bind (onDisk_ensures (setRootDirectory_spec hp₆ _)) ?_
  intro _ k₇ hk₇
  have hsector := hf.rootDirSector_le
  have hpos : fat16RootDirSectorPos p.header = p.header.rootDirSector :=
    i32_natCast (n := p.header.rootDirSector) (by omega)
  refine .pure fun _ => ⟨?_, _, congrArg Disk.fs_private hk₇, hh₆.trans hh₃, hpos, ?_⟩
  · rw [hk₇]
    exact (hv₃.trans hv₆).sameMedium.trans ⟨rfl, rfl⟩
  · rw [hpos, Int.tdiv_eq_ediv_of_nonneg (by omega)]
    refine (i32_of_range (by omega) (by omega)).trans ?_
    unfold FatHeader.endSector
    omega

theorem readHeaderOfDisk_spec (d : Disk) :
    Ensures readHeaderOfDisk d fun bytes d' =>
      d' = d ∧ readFatHeader (fun i => bytes.getD i 0) = readFatHeader d.image := by
  have hloop := diskstreamerReadLoop_spec d 63 0 62 (by omega) (.inl (by omega)) (by omega)
    (by omega)
  have hread : readHeaderOfDisk d = .ok (readBytes (streamByte d) 0 62, d) := by
    refine (bind_of_ok (t := d) rfl).trans ?_
    have hzero : diskstreamerReadLoop d (sizeofFatH + 1) 0 sizeofFatH = _ := hloop
    rw [id_eq, hzero]
    rfl
  intro bytes d' h
  rw [hread] at h
  cases h
  refine ⟨rfl, ?_⟩
  have hbyte : ∀ i < 62, (readBytes (streamByte d) 0 62).getD i 0 = d.image i := by
    intro i hi
    rw [List.getD_eq_getElem _ _ (by rwa [readBytes_length]), getElem_readBytes,
      streamByte_of_lt d (by omega), Nat.zero_add]
  simp only [readFatHeader, readHalf, hbyte 13 (by decide), hbyte 14 (by decide),
    hbyte (14 + 1) (by decide), hbyte 16 (by decide), hbyte 17 (by decide),
    hbyte (17 + 1) (by decide), hbyte 22 (by decide), hbyte (22 + 1) (by decide),
    hbyte 38 (by decide)]

/-- What an accepted volume is bound with: the header of its boot sector, and the sectors
computed from it. -/
theorem fat16Resolve_layout {k : Kernel} (hsize : k.disk.sector_size = 512) :
    Ensures fat16Resolve k fun res k' => res = 0 → SameMedium k.disk k'.disk ∧
      ∃ p, k'.disk.fs_private = some p ∧ p.header = readFatHeader k.disk.image ∧
        p.root_directory.sector_pos = p.header.rootDirSector ∧
        p.root_directory.end_sector_pos = p.header.endSector := by
  refine .bind (kzalloc_disk _ _) ?_
  intro fat_private k₁ hk₁
  split
  · exact .fails
  refine .bind (fat16InitPrivate_disk k₁) ?_
  intro initial k₂ hk₂
  refine .bind (onDisk_ensures (m := setFsPrivate (some initial))
    (Q := fun _ d => d = { k₂.disk with fs_private := some initial }) (.modifies rfl)) ?_
  intro _ k₃ hk₃
  refine .bind (diskstreamerNew_disk k₃) ?_
  intro stream k₄ hk₄
  have hm₄ : SameMedium k.disk k₄.disk := by
    rw [hk₄, hk₃]
    exact ⟨by rw [hk₂, hk₁], by rw [hk₂, hk₁]⟩
  have hp₄ : k₄.disk.fs_private = some initial := by rw [hk₄, hk₃]
  refine .bind (onDisk_ensures (readHeaderOfDisk_spec k₄.disk)) ?_
  rintro bytes k₅ ⟨hk₅, hheader⟩
  rw [hm₄.image] at hheader
  rw [← hk₅] at hm₄ hp₄
  refine .bind (onDisk_ensures (Q := fun _ d => d = { k₅.disk with
    fs_private := some { initial with header := readFatHeader k.disk.image } }) ?_) ?_
  · refine .bind (fsPrivate_returns hp₄).ensures ?_
    rintro _ _ ⟨rfl, rfl⟩
    rw [hheader]
    exact .modifies rfl
  intro _ k₆ hk₆
  have hm₆ : SameMedium k.disk k₆.disk := by
    rw [hk₆]
    exact hm₄.trans ⟨rfl, rfl⟩
  have hp₆ := congrArg Disk.fs_private hk₆
  refine .bind (R := fun res k' => res = 0 → SameMedium k.disk k'.disk ∧
    ∃ p, k'.disk.fs_private = some p ∧ p.header = readFatHeader k.disk.image ∧
      p.root_directory.sector_pos = p.header.rootDirSector ∧
      p.root_directory.end_sector_pos = p.header.endSector) ?_ ?_
  · refine .bind (onDisk_ensures (fsPrivate_returns hp₆).ensures) ?_
    rintro _ k₇ ⟨hk₇, rfl⟩
    split
    · exact .pure fun h => absurd h (by decide)
    rw [hk₇] at hp₆ hm₆
    refine .bind (fat16GetRootDirectory_layout hp₆ (hm₆.sector_size.trans hsize)
      (readFatHeader_fits _)) ?_
    intro status k₈ hk₈
    split
    · exact .pure fun h => absurd h (by decide)
    · next hstatus =>
      obtain ⟨hm₈, p, hp, hh, hroot⟩ := hk₈ (not_not.mp hstatus)
      exact .pure fun _ => ⟨hm₆.trans hm₈, p, hp, hh, hh ▸ hroot⟩
  intro res k₇ hk₇
  refine .bind (R := fun _ k' => k'.disk = k₇.disk) (.modifies rfl) ?_
  intro _ k₈ hk₈
  split
  · next hneg =>
    refine .bind (R := fun _ _ => True) (fun _ _ _ => trivial) ?_
    intro _ _ _
    refine .bind (R := fun _ _ => True) (fun _ _ _ => trivial) ?_
    intro _ _ _
    exact .pure fun h => by omega
  · rw [← hk₈] at hk₇
    exact .pure hk₇

/-- The sectors of a cluster, as the driver computes the first of them. -/
def FatPrivate.clusterSectors (p : FatPrivate) (cluster : Nat) : Set Int :=
  { s | fat16ClusterToSector p cluster ≤ s ∧
    s < fat16ClusterToSector p cluster + p.header.sectors_per_cluster }

/-- The sectors of the root directory in the format. -/
def FatHeader.rootSectors (h : FatHeader) : Set Int :=
  { s | (h.rootDirSector : Int) ≤ s ∧ s < h.firstDataSector }

/-- A cluster number whose sectors are numbers of an `int`. -/
def FatHeader.IsCluster (h : FatHeader) (cluster : Nat) : Prop :=
  2 ≤ cluster ∧ h.endSector + (cluster - 1) * h.sectors_per_cluster ≤ 0x80000000

/-- The driver's layout is that of the format. -/
structure FormatLayout (d : Disk) (p : FatPrivate) : Prop where
  divisor : sizeOfClusterBytes p d.sector_size ≠ 0
  first_data_sector : p.root_directory.end_sector_pos = p.header.firstDataSector
  distinct : ∀ c c', p.header.IsCluster c → p.header.IsCluster c' → c ≠ c' →
    Disjoint (p.clusterSectors c) (p.clusterSectors c')
  behind_root : ∀ c, p.header.IsCluster c →
    Disjoint (p.clusterSectors c) p.header.rootSectors

/-- Every number of 16 bits is that of a cluster. -/
theorem FatHeader.Fits.isCluster {h : FatHeader} (hf : h.Fits) {c : Nat} (h₂ : 2 ≤ c)
    (hc : c < 0x10000) : h.IsCluster c := by
  have hsector := hf.rootDirSector_le
  have hentries := hf.root_directory_entries
  have hprod : (c - 1) * h.sectors_per_cluster ≤ 0x10000 * 0x100 :=
    Nat.mul_le_mul (by omega) hf.sectors_per_cluster.le
  refine ⟨h₂, ?_⟩
  unfold FatHeader.endSector
  omega

theorem fat16ClusterToSector_eq {p : FatPrivate}
    (hend : p.root_directory.end_sector_pos = p.header.endSector) {c : Nat}
    (hc : p.header.IsCluster c) (hpos : 0 < p.header.sectors_per_cluster) :
    fat16ClusterToSector p c =
      (p.header.endSector + (c - 2) * p.header.sectors_per_cluster : Nat) := by
  obtain ⟨h₂, hin⟩ := hc
  have hstep : (c - 1) * p.header.sectors_per_cluster =
      (c - 2) * p.header.sectors_per_cluster + p.header.sectors_per_cluster := by
    rw [show c - 1 = c - 2 + 1 by omega, Nat.succ_mul]
  unfold fat16ClusterToSector
  rw [hend, show (c : Int) - 2 = ((c - 2 : Nat) : Int) by omega, ← Int.natCast_mul,
    ← Int.natCast_add, i32_natCast (by omega)]

/-- Of two clusters the one with the lower number ends before the other. -/
theorem clusterSectors_disjoint {p : FatPrivate}
    (hend : p.root_directory.end_sector_pos = p.header.endSector)
    (hpos : 0 < p.header.sectors_per_cluster) {c c' : Nat} (hc : p.header.IsCluster c)
    (hc' : p.header.IsCluster c') (hlt : c < c') :
    Disjoint (p.clusterSectors c) (p.clusterSectors c') := by
  have hle : (c - 2 + 1) * p.header.sectors_per_cluster ≤
      (c' - 2) * p.header.sectors_per_cluster :=
    Nat.mul_le_mul_right _ (by have := hc.1; omega)
  rw [Nat.succ_mul] at hle
  apply Set.disjoint_left.mpr
  rintro s ⟨-, hs⟩ ⟨hs', -⟩
  rw [fat16ClusterToSector_eq hend hc hpos] at hs
  rw [fat16ClusterToSector_eq hend hc' hpos] at hs'
  omega

/-- The layout of an accepted volume is that of the format exactly when its clusters have
sectors and its root directory takes whole sectors. -/
theorem formatLayout_iff {d : Disk} {p : FatPrivate} (hsize : d.sector_size = 512)
    (hf : p.header.Fits) (hend : p.root_directory.end_sector_pos = p.header.endSector) :
    FormatLayout d p ↔
      p.header.sectors_per_cluster ≠ 0 ∧ p.header.root_directory_entries % 16 = 0 := by
  have hspc := hf.sectors_per_cluster
  have hbytes : sizeOfClusterBytes p d.sector_size = (p.header.sectors_per_cluster * 512 : Nat) := by
    unfold sizeOfClusterBytes
    rw [hsize, show (512 : Int) = ((512 : Nat) : Int) from rfl, ← Int.natCast_mul,
      i32_natCast (by omega)]
  have hfirst : p.header.endSector = p.header.firstDataSector ↔
      p.header.root_directory_entries % 16 = 0 := by
    unfold FatHeader.endSector FatHeader.firstDataSector FatHeader.rootDirSector
    omega
  constructor
  · intro h
    refine ⟨fun hzero => h.divisor ?_, hfirst.mp ?_⟩
    · rw [hbytes, hzero]
      rfl
    · have := h.first_data_sector
      omega
  · rintro ⟨hne, hwhole⟩
    have hpos : 0 < p.header.sectors_per_cluster := by omega
    have hsame := hfirst.mpr hwhole
    refine ⟨by omega, by rw [hend, hsame], ?_, ?_⟩
    · intro c c' hc hc' hcc
      rcases Nat.lt_or_gt_of_ne hcc with hlt | hgt
      · exact clusterSectors_disjoint hend hpos hc hc' hlt
      · exact (clusterSectors_disjoint hend hpos hc' hc hgt).symm
    · intro c hc
      apply Set.disjoint_left.mpr
      rintro s ⟨hs, -⟩ ⟨-, hs'⟩
      rw [fat16ClusterToSector_eq hend hc hpos] at hs
      omega

/-- For every boot sector that `fat16_resolve` accepts, the driver's layout is that of the
format exactly when the clusters have sectors and the root directory takes whole ones. -/
theorem fat16Resolve_formatLayout_iff {k k' : Kernel} (hsize : k.disk.sector_size = 512)
    (hok : fat16Resolve k = .ok (0, k')) :
    ∃ p, k'.disk.fs_private = some p ∧ p.header = readFatHeader k.disk.image ∧
      (FormatLayout k'.disk p ↔
        (readFatHeader k.disk.image).sectors_per_cluster ≠ 0 ∧
          (readFatHeader k.disk.image).root_directory_entries % 16 = 0) := by
  obtain ⟨hm, p, hp, hh, -, hend⟩ := fat16Resolve_layout hsize _ _ hok rfl
  refine ⟨p, hp, hh, ?_⟩
  rw [← hh]
  exact formatLayout_iff (hm.sector_size.trans hsize) (hh ▸ readFatHeader_fits _) hend

/-- A boot sector with 512 bytes in a sector, one reserved sector and two copies of a
File Allocation Table of one sector, and an empty disk behind it. -/
def Disk.formatted (sectors_per_cluster root_directory_entries : Nat) : Disk where
  sector_size := 512
  fs_private := none
  image := fun a =>
    match a with
    | 12 => 2
    | 13 => UInt8.ofNat sectors_per_cluster
    | 14 => 1
    | 16 => 2
    | 17 => UInt8.ofNat root_directory_entries
    | 22 => 1
    | 38 => 0x29
    | _ => 0

/-- A root directory of one whole sector. -/
theorem fat16Resolve_formatLayout_iff_whole : ∃ k' p,
    fat16Resolve (Kernel.boot (Disk.formatted 1 16)) = .ok (0, k') ∧
      k'.disk.fs_private = some p ∧ FormatLayout k'.disk p := by
  obtain ⟨res, k', hok, hres⟩ := Returns.of_checks (m := fat16Resolve)
    (s := Kernel.boot (Disk.formatted 1 16)) (q := fun res _ => res == 0) (by decide +kernel)
  obtain rfl := eq_of_beq hres
  obtain ⟨p, hp, -, hiff⟩ := fat16Resolve_formatLayout_iff rfl hok
  exact ⟨k', p, hok, hp, hiff.mpr (by decide)⟩

/-- A root directory of 17 entries: the second sector it takes is given to cluster 2. -/
theorem fat16Resolve_cluster_in_root : ∃ k' p,
    fat16Resolve (Kernel.boot (Disk.formatted 1 17)) = .ok (0, k') ∧
      k'.disk.fs_private = some p ∧ ¬ FormatLayout k'.disk p ∧
      ¬ Disjoint (p.clusterSectors 2) p.header.rootSectors := by
  obtain ⟨res, k', hok, hres⟩ := Returns.of_checks (m := fat16Resolve)
    (s := Kernel.boot (Disk.formatted 1 17)) (q := fun res _ => res == 0) (by decide +kernel)
  obtain rfl := eq_of_beq hres
  obtain ⟨hm, p, hp, hh, -, hend⟩ := fat16Resolve_layout rfl _ _ hok rfl
  have hf : p.header.Fits := hh ▸ readFatHeader_fits _
  have hcluster := hf.isCluster (c := 2) le_rfl (by decide)
  have hbad : ¬ Disjoint (p.clusterSectors 2) p.header.rootSectors := by
    refine Set.not_disjoint_iff.mpr ⟨(4 : Int), ?_, ?_⟩
    · unfold FatPrivate.clusterSectors
      rw [fat16ClusterToSector_eq hend hcluster (by rw [hh]; decide), hh]
      decide
    · unfold FatHeader.rootSectors
      rw [hh]
      decide
  exact ⟨k', p, hok, hp, fun h => hbad (h.behind_root 2 hcluster), hbad⟩

end PlumOS
