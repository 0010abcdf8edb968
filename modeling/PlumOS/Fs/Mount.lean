import PlumOS.Fs.DirectoryTree
import PlumOS.Fs.Fat16Resolve

/-!
# Mounting the disk

`fs_init` of `fs/file.c` and `disk_search_and_init` of `disk/disk.c`: the one disk is offered to
the filesystems until one of them takes it. The FAT16 driver takes a disk with its signature,
and keeps the root directory in memory from then on.

## Main definitions

- `fsResolve`, `fsInit`, `diskSearchAndInit`
- `Mountable` — a disk with a FAT16 volume whose root directory ends

## Main results

- `fat16Resolve_mounts`, `diskSearchAndInit_mounts` — the root directory in memory is the one
  on the disk
-/

namespace PlumOS

open StateExcept

/-! ### The filesystems -/

/-- `filesystems`, as `fs_load` fills it: their `resolve` functions. -/
def filesystems : List (KM Int) := [fat16Resolve]

/-- `fs_resolve`: whether one of the filesystems takes the disk. -/
def fsResolve : List (KM Int) → KM Bool
  | [] => pure false
  | resolve :: filesystems => do
    let res ← resolve
    if res = 0 then pure true else fsResolve filesystems

/-- `fs_init`, but for `filesystems`. -/
def fsInit : KM PUnit := modifies fun k => { k with file_descriptors := fun _ => 0 }

/-- `disk_search_and_init`. Without a filesystem the disk has no private data. -/
def diskSearchAndInit : KM PUnit := do
  onDisk (modifies fun disk => { disk with sector_size := PLUMOS_SECTOR_SIZE, fs_private := none })
  let filesystem ← fsResolve filesystems
  onlyIf (filesystem = false) (onDisk (setFsPrivate none))

/-! ### The root directory on the disk -/

/-- The position of the root directory. -/
def FatHeader.rootStart (h : FatHeader) : Nat := 512 * h.rootDirSector

/-- The first `count` entries of the root directory. -/
def FatHeader.rootEntries (h : FatHeader) (image : Nat → UInt8) (count : Nat) :
    List FatDirectoryItem :=
  (List.range count).map fun j => readFatDirectoryItem image (h.rootStart + 32 * j)

/-- The boot sector of the volume has the header `h`, and its root directory has `n` entries
before the first one that is 0. -/
structure Mountable (image : Nat → UInt8) (h : FatHeader) (n : Nat) : Prop where
  header : readFatHeader image = h
  signature : h.signature = PLUMOS_FAT16_SIGNATURE
  cluster : 1 ≤ h.sectors_per_cluster
  whole : h.root_directory_entries * 32 % 512 = 0
  entries : 1 ≤ h.root_directory_entries
  below : h.rootStart + 32 * h.root_directory_entries < 0x80000000
  listing : Listing image h.rootStart n
  listed : n ≤ h.root_directory_entries

/-- The entries of the root directory that are counted: those that are not deleted. -/
def FatHeader.rootCount (h : FatHeader) (image : Nat → UInt8) (n : Nat) : Nat :=
  liveSlots image (slots h.rootStart n)

section Root

variable {k k' : Kernel} {h : FatHeader} {image : Nat → UInt8} {n m : Nat}

@[simp] theorem FatHeader.rootEntries_length (count : Nat) :
    (h.rootEntries image count).length = count := by simp [FatHeader.rootEntries]

theorem Mountable.fits (hv : Mountable image h n) : h.Fits := hv.header ▸ readFatHeader_fits image

theorem Mountable.rootCount_le (hv : Mountable image h n) :
    h.rootCount image n ≤ h.root_directory_entries := by
  have hlive : h.rootCount image n ≤ (slots h.rootStart n).length := List.countP_le_length
  rw [slots_length] at hlive
  exact hlive.trans hv.listed

/-- What is known of the kernel when the disk is changed: the heap has grown. -/
abbrev GrownBesideDisk (k : Kernel) (m : Nat) (k' : Kernel) : Prop :=
  Grown { k with disk := k'.disk } m k'

theorem GrownBesideDisk.trans {k₁ : Kernel} {m' : Nat} (hk : GrownBesideDisk k m k₁)
    (hk' : GrownBesideDisk k₁ m' k') : GrownBesideDisk k m' k' where
  free := hk'.free
  alive := fun p n hp => hk'.alive p n (hk.alive p n hp)
  mem := fun p n a hp h₁ h₂ => (hk'.mem p n a (hk.alive p n hp) h₁ h₂).trans (hk.mem p n a hp h₁ h₂)
  objs := fun p n a hp h₁ h₂ =>
    (hk'.objs p n a (hk.alive p n hp) h₁ h₂).trans (hk.objs p n a hp h₁ h₂)
  volume := .refl _

theorem Grown.besideDisk (hk : Grown k m k') : GrownBesideDisk k m k' :=
  ⟨hk.free, hk.alive, hk.mem, hk.objs, .refl _⟩

theorem GrownBesideDisk.onDisk {d : Disk} (hfree : k.FreeFrom m) :
    GrownBesideDisk k m { k with disk := d } := .refl hfree

/-- The entries of the root directory are where its bytes were written. -/
theorem holdsEntries_root {p count : Nat} (mem : Nat → UInt8) (hp : p ≠ 0)
    (hnone : ∀ a, p ≤ a → a < p + 32 * h.root_directory_entries → k.objs a = none)
    (hcount : count ≤ h.root_directory_entries)
    (hmem : k.mem = writeBytes mem p (readBytes image h.rootStart (32 * h.root_directory_entries))) :
    HoldsEntries k p (h.rootEntries image count) := by
  intro j e hj
  have hlt := (List.getElem?_eq_some_iff.mp hj).1
  rw [FatHeader.rootEntries_length] at hlt
  obtain rfl : readFatDirectoryItem image (h.rootStart + 32 * j) = e := by
    simpa [FatHeader.rootEntries, List.getElem?_range hlt] using hj
  refine ⟨show p + 32 * j ≠ 0 by omega, hnone _ (by omega) (by omega), ?_⟩
  refine readFatDirectoryItem_shift fun i hi => ?_
  rw [hmem]
  unfold writeBytes
  rw [readBytes_length, if_pos (by omega), List.getD_eq_getElem _ _ (by rw [readBytes_length]; omega),
    getElem_readBytes]
  congr 1
  omega

/-- The bound disk, with the root directory of the volume in memory that is new since `k₀`. -/
structure RootBound (k₀ k : Kernel) (h : FatHeader) (image : Nat → UInt8) (es : List FatDirectoryItem)
    (p : FatPrivate) : Prop where
  sector_size : k.disk.sector_size = 512
  image_eq : k.disk.image = image
  private_eq : k.disk.fs_private = some p
  header : p.header = h
  end_sector_pos : p.root_directory.end_sector_pos = h.endSector
  total : p.root_directory.total = es.length
  list : ∃ n, Grown.Own k₀ k p.root_directory.item n ∧ 32 * es.length ≤ 4096 * n
  held : HoldsEntries k p.root_directory.item es

/-- With room for it, the root directory is read. -/
theorem fat16GetRootDirectory_reads (hv : Mountable k.disk.image h n)
    (hsize : k.disk.sector_size = 512) {p : FatPrivate} (hp : k.disk.fs_private = some p)
    (hh : p.header = h) (hfree : k.FreeFrom m)
    (hm : m + blocksOf (32 * h.root_directory_entries) ≤ 25600) :
    Returns fat16GetRootDirectory k fun res k' => res = 0 ∧
      GrownBesideDisk k (m + blocksOf (32 * h.root_directory_entries)) k' ∧
      ∃ p', RootBound k k' h k.disk.image
        (h.rootEntries k.disk.image (h.rootCount k.disk.image n)) p' := by
  have hbelow := hv.below
  have hentries := hv.entries
  have hwhole := hv.whole
  have hfits := hv.fits
  have hmany := hfits.root_directory_entries
  have hsector : 512 * h.rootDirSector = h.rootStart := rfl
  have hcount := hv.rootCount_le
  refine .bind (onDisk_returns (fsPrivate_returns hp)) ?_
  rintro _ k₁ ⟨⟨hd₁, rfl⟩, hk₁⟩
  have hpos : fat16RootDirSectorPos p.header = (h.rootDirSector : Int) := by
    rw [hh]
    exact i32_natCast (n := h.rootDirSector) (by omega)
  dsimp only
  rw [hpos, hh, u32_of_range (by omega) (by omega), Int.toNat_natCast]
  refine .bind (onDisk_returns (@fat16GetTotalItemsForDirectory_returns k₁.disk p h.rootDirSector
    h.rootStart n (hd₁ ▸ hsize) (hd₁ ▸ hp) ?_ (hd₁ ▸ hv.listing))) ?_
  · refine congrArg i32 ?_
    rw [u32_of_range (by omega) (by omega), ← hsector]
    omega
  rintro _ k₂ ⟨⟨rfl, hv₂⟩, hk₂⟩
  rw [← hd₁] at hv₂ ⊢
  have hbytes : i32 ((h.root_directory_entries * sizeofFatDirectoryItem : Nat) : Int) =
      ((32 * h.root_directory_entries : Nat) : Int) := by
    unfold sizeofFatDirectoryItem
    rw [i32_natCast (by omega), Nat.mul_comm]
  rw [hbytes, u32_of_range (by omega) (by omega), Int.toNat_natCast]
  have hfree₂ : k₂.FreeFrom m := hfree.congr (by rw [hk₂, hk₁])
  refine .bind ((Grown.refl hfree₂).kzalloc (by omega) hm) ?_
  rintro dir k₃ ⟨hne, hg₃, -, hown₃, -, hnone₃⟩
  rw [if_neg hne]
  have hv₃ : SameVolume k.disk k₃.disk := hv₂.trans hg₃.volume
  refine .bind (R := fun size k' => size = 512 ∧ k₃ = k')
    (.reads ⟨hv₃.sector_size.trans hsize, rfl⟩) ?_
  rintro _ _ ⟨rfl, rfl⟩
  obtain ⟨p₃, hp₃, -⟩ := hv₃.fs_private hp
  have hstart : i32 ((h.rootDirSector : Int) * 512) = i32 (h.rootStart : Nat) := by
    refine congrArg i32 ?_
    omega
  rw [hstart]
  refine .bind (onDisk_returns (diskstreamerSeek_spec hp₃ _ _)) ?_
  rintro _ k₄ ⟨⟨hv₄, hat₄⟩, hk₄⟩
  refine .bind (onDisk_returns (@diskstreamerRead_next _ _ h.rootStart
    (32 * h.root_directory_entries) hat₄ (Or.inl (by omega)) (by omega) (by omega))) ?_
  rintro _ k₅ ⟨⟨rfl, hv₅, -⟩, hk₅⟩
  have hv₅' : SameVolume k.disk k₅.disk := (hv₃.trans hv₄).trans hv₅
  have hread : readBytes (streamByte k₄.disk) h.rootStart (32 * h.root_directory_entries) =
      readBytes k.disk.image h.rootStart (32 * h.root_directory_entries) :=
    readBytes_congr fun i hi => by rw [streamByte_of_lt _ (by omega), (hv₃.trans hv₄).image]
  rw [hread]
  have hown₅ : Grown.Own k₂ k₅ dir (blocksOf (32 * h.root_directory_entries)) :=
    ⟨hown₃.alive.congr (by rw [hk₅, hk₄]), hown₃.fresh⟩
  have hg₅ : Grown k₂ (m + blocksOf (32 * h.root_directory_entries)) k₅ :=
    hg₃.onDisk (by rw [hk₅, hk₄]) (hv₄.trans hv₅)
  refine .bind (hg₅.storeBytes hown₅ ?_) ?_
  · rw [readBytes_length]
    unfold blocksOf
    omega
  rintro _ k₆ ⟨hg₆, hk₆⟩
  obtain ⟨p₆, hp₆, hh₆, -⟩ := hv₅'.fs_private hp
  have hp₆' : k₆.disk.fs_private = some p₆ := by rw [hk₆, hp₆]
  refine .bind (onDisk_returns (Q := fun _ d => d = { k₆.disk with
    fs_private := some { p₆ with root_directory := ⟨dir, h.rootCount k.disk.image n,
      (h.rootDirSector : Int), h.endSector⟩ } }) ?_) ?_
  · refine .bind (fsPrivate_returns hp₆') ?_
    rintro _ _ ⟨rfl, rfl⟩
    refine .modifies ?_
    have hend : i32 ((h.rootDirSector : Int) + ((32 * h.root_directory_entries : Nat) : Int).tdiv 512) =
        (h.endSector : Int) := by
      rw [Int.tdiv_eq_ediv_of_nonneg (by omega), i32_of_range (by omega) (by omega)]
      unfold FatHeader.endSector
      omega
    rw [hend]
    rfl
  rintro _ k₇ ⟨hd₇, hk₇⟩
  have hobjs₇ : k₇.objs = k₃.objs := by rw [hk₇, hk₆, hk₅, hk₄]
  have hentries₇ : k₇.heap_entries = k₃.heap_entries := by rw [hk₇, hk₆, hk₅, hk₄]
  have hmem₇ : k₇.mem = k₆.mem := by rw [hk₇]
  refine .pure ⟨rfl, ?_, { p₆ with root_directory := ⟨dir, h.rootCount k.disk.image n,
    (h.rootDirSector : Int), h.endSector⟩ }, ?_⟩
  · have hbeside : GrownBesideDisk k m k₂ := by
      rw [show k₂ = { k with disk := k₂.disk } by rw [hk₂, hk₁]]
      exact .onDisk hfree
    refine hbeside.trans (hg₆.besideDisk.trans ?_)
    rw [hk₇]
    exact .onDisk hg₆.free
  · exact
      { sector_size := by rw [hd₇, hk₆]; exact hv₅'.sector_size.trans hsize
        image_eq := by rw [hd₇, hk₆]; exact hv₅'.image
        private_eq := by rw [hd₇]
        header := hh₆.trans hh
        end_sector_pos := rfl
        total := by rw [FatHeader.rootEntries_length]
        list := by
          have hfresh : ∀ n', ¬ k.Alive dir n' := fun n' hn => hown₃.fresh n' (hn.congr (by rw [hk₂, hk₁]))
          refine ⟨_, ⟨hown₃.alive.congr hentries₇, hfresh⟩, ?_⟩
          rw [FatHeader.rootEntries_length]
          unfold blocksOf
          omega
        held := by
          refine holdsEntries_root k₅.mem hne (fun a h₁ h₂ => ?_) hcount ?_
          · rw [hobjs₇]
            exact hnone₃ a h₁ h₂
          · rw [hmem₇, hk₆] }

/-! ### The disk -/

theorem diskstreamerNew_returns (hfree : k.FreeFrom m) (hm : m + 1 ≤ 25600) :
    Returns diskstreamerNew k fun streamer k' =>
      Grown k (m + 1) k' ∧ Grown.Own k k' streamer 1 := by
  refine .bind ((Grown.refl hfree).kzalloc (by decide) hm) ?_
  rintro streamer k₁ ⟨hne, hg, -, hown, -⟩
  rw [if_neg hne]
  exact .pure ⟨hg, hown⟩

theorem fat16InitPrivate_returns (hfree : k.FreeFrom m) (hm : m + 3 ≤ 25600) :
    Returns fat16InitPrivate k fun _ k' => Grown k (m + 3) k' := by
  refine .bind (diskstreamerNew_returns hfree (by omega)) ?_
  rintro _ k₁ ⟨hg₁, -⟩
  refine .bind (diskstreamerNew_returns hg₁.free (by omega)) ?_
  rintro _ k₂ ⟨hg₂, -⟩
  refine .bind (diskstreamerNew_returns hg₂.free (by omega)) ?_
  rintro _ k₃ ⟨hg₃, -⟩
  exact .pure (hg₁.trans (hg₂.trans hg₃))

theorem readHeaderOfDisk_returns (d : Disk) :
    Returns readHeaderOfDisk d fun bytes d' =>
      d' = d ∧ readFatHeader (fun i => bytes.getD i 0) = readFatHeader d.image := by
  have hloop := diskstreamerReadLoop_spec d 63 0 62 (by omega) (.inl (by omega)) (by omega)
    (by omega)
  have hread : readHeaderOfDisk d = .ok (readBytes (streamByte d) 0 62, d) := by
    refine (bind_of_ok (t := d) rfl).trans ?_
    have hzero : diskstreamerReadLoop d (sizeofFatH + 1) 0 sizeofFatH = _ := hloop
    rw [id_eq, hzero]
    rfl
  exact ⟨_, _, hread, readHeaderOfDisk_spec d _ _ hread⟩

/-- Memory that was there before is released. -/
theorem RootBound.freed {k₀ : Kernel} {es : List FatDirectoryItem} {p : FatPrivate} {ptr l : Nat}
    (hb : RootBound k₀ k h image es p) (hptr : k₀.Alive ptr l) (hf : Freed k ptr k')
    (hobjs : k'.objs = Function.update k.objs ptr none) : RootBound k₀ k' h image es p where
  sector_size := hf.disk ▸ hb.sector_size
  image_eq := hf.disk ▸ hb.image_eq
  private_eq := hf.disk ▸ hb.private_eq
  header := hb.header
  end_sector_pos := hb.end_sector_pos
  total := hb.total
  list := by
    obtain ⟨n, hown, hn⟩ := hb.list
    have hne : p.root_directory.item ∉ [ptr] := fun hmem =>
      hown.fresh l (List.mem_singleton.mp hmem ▸ hptr)
    exact ⟨n, ⟨(hf.keeps _ n hown.alive hne).1, hown.fresh⟩, hn⟩
  held := by
    intro j e hj
    obtain ⟨hne, hnone, hentry⟩ := hb.held j e hj
    refine ⟨hne, ?_, hf.mem ▸ hentry⟩
    rw [hobjs, Function.update_apply]
    split
    · rfl
    · exact hnone

theorem RootBound.holdsRoot {k₀ : Kernel} {es : List FatDirectoryItem} {p : FatPrivate}
    (hb : RootBound k₀ k h image es p) (hv : Mountable image h n) : HoldsRoot h es k where
  volume :=
    { sector_size := hb.sector_size
      bound := ⟨p, hb.private_eq, hb.header, hb.end_sector_pos⟩
      root_whole := hv.whole
      sectors_per_cluster_pos := hv.cluster
      sectors_per_cluster_lt := hv.fits.sectors_per_cluster
      reserved_sectors_lt := hv.fits.reserved_sectors }
  root := by
    obtain ⟨l, hal, hl⟩ := hb.list
    exact ⟨p, l, hb.private_eq, hb.total, hal.alive, hl, hb.held⟩

/-- The FAT16 driver takes a disk with its signature: the root directory that it keeps is the
one on the disk, up to its end. -/
theorem fat16Resolve_mounts (hv : Mountable k.disk.image h n) (hsize : k.disk.sector_size = 512)
    (hfree : k.FreeFrom m) (hm : m + 5 + blocksOf (32 * h.root_directory_entries) ≤ 25600) :
    Returns fat16Resolve k fun res k' => res = 0 ∧
      GrownBesideDisk k (m + 5 + blocksOf (32 * h.root_directory_entries)) k' ∧
      k'.disk.image = k.disk.image ∧
      HoldsRoot h (h.rootEntries k.disk.image (h.rootCount k.disk.image n)) k' := by
  refine .bind ((Grown.refl hfree).kzalloc (by decide) (show m + 1 ≤ 25600 by omega)) ?_
  rintro fat_private k₁ ⟨hne, hg₁, -⟩
  have hg₁ : Grown k (m + 1) k₁ := hg₁
  rw [if_neg hne]
  refine .bind (fat16InitPrivate_returns hg₁.free (by omega)) ?_
  intro initial k₂ hg₂
  have hg₂ := hg₁.trans hg₂
  refine .bind (onDisk_returns (m := setFsPrivate (some initial))
    (Q := fun _ d => d = { k₂.disk with fs_private := some initial }) (.modifies rfl)) ?_
  rintro _ k₃ ⟨hd₃, hk₃⟩
  have hfree₃ : k₃.FreeFrom (m + 4) := hg₂.free.congr (by rw [hk₃])
  refine .bind (diskstreamerNew_returns hfree₃ (by omega)) ?_
  rintro stream k₄ ⟨hg₄, hown₄⟩
  have himage₄ : k₄.disk.image = k.disk.image := by
    rw [hg₄.volume.image, hd₃, ← hg₂.volume.image]
  obtain ⟨p₄, hp₄, -⟩ := hg₄.volume.fs_private (by rw [hd₃])
  refine .bind (onDisk_returns (readHeaderOfDisk_returns k₄.disk)) ?_
  rintro bytes k₅ ⟨⟨hd₅, hheader⟩, hk₅⟩
  rw [himage₄, hv.header] at hheader
  refine .bind (onDisk_returns (Q := fun _ d => d = { k₅.disk with
    fs_private := some { p₄ with header := h } }) ?_) ?_
  · refine .bind (fsPrivate_returns (hd₅ ▸ hp₄)) ?_
    rintro _ _ ⟨rfl, rfl⟩
    rw [hheader]
    exact .modifies rfl
  rintro _ k₆ ⟨hd₆, hk₆⟩
  have himage₆ : k₆.disk.image = k.disk.image := by rw [hd₆, hd₅, himage₄]
  have hsize₆ : k₆.disk.sector_size = 512 := by
    rw [hd₆, hd₅, hg₄.volume.sector_size, hd₃, ← hsize, ← hg₂.volume.sector_size]
  have hp₆ : k₆.disk.fs_private = some { p₄ with header := h } := by rw [hd₆]
  have hb₃ : GrownBesideDisk k (m + 4) k₃ := by
    refine hg₂.besideDisk.trans ?_
    rw [hk₃]
    exact .onDisk hg₂.free
  have hb₆ : GrownBesideDisk k₄ (m + 5) k₆ := by
    rw [hk₆, hk₅]
    exact .onDisk hg₄.free
  refine .bind (R := fun res k' => res = 0 ∧
    GrownBesideDisk k₆ (m + 5 + blocksOf (32 * h.root_directory_entries)) k' ∧
    ∃ p, RootBound k₆ k' h k.disk.image
      (h.rootEntries k.disk.image (h.rootCount k.disk.image n)) p) ?_ ?_
  · refine .bind (onDisk_returns (fsPrivate_returns hp₆)) ?_
    rintro _ k₇ ⟨⟨hd₇, rfl⟩, hk₇⟩
    dsimp only
    rw [if_neg (not_not_intro hv.signature)]
    have hk₇ : k₇ = k₆ := by rw [hk₇, ← hd₇]
    subst hk₇
    rw [← himage₆] at hv ⊢
    refine .bind (fat16GetRootDirectory_reads hv hsize₆ hp₆ rfl hb₆.free hm) ?_
    rintro _ k₈ ⟨rfl, hg₈, hbound⟩
    rw [if_neg (by decide)]
    exact .pure ⟨rfl, hg₈, hbound⟩
  rintro _ k₇ ⟨rfl, hb₇, p, hbound⟩
  have hb : GrownBesideDisk k₃ (m + 5 + blocksOf (32 * h.root_directory_entries)) k₇ :=
    hg₄.besideDisk.trans (hb₆.trans hb₇)
  have hown₇ : Grown.Own { k₃ with disk := k₇.disk } k₇ stream 1 :=
    ⟨(hb₆.trans hb₇).alive _ _ hown₄.alive, fun n' hn => hown₄.fresh n' hn⟩
  refine .bind ((hb.kfree hown₇).and_ensures (kfree_objs stream k₇)) ?_
  rintro _ k₈ ⟨⟨hg₈, hfreed⟩, hobjs⟩
  rw [if_neg (lt_irrefl 0)]
  refine .pure ⟨rfl, hb₃.trans ?_, ?_, ?_⟩
  · have hg₈ : Grown { k₃ with disk := k₇.disk } _ k₈ := hg₈
    rwa [← hfreed.disk] at hg₈
  · rw [hfreed.disk, hbound.image_eq]
  · exact (hbound.freed (hb₆.alive _ _ hown₄.alive) hfreed hobjs).holdsRoot hv

/-- The one disk is mounted: its descriptors are free, and its root directory is in memory. -/
theorem diskSearchAndInit_mounts (hv : Mountable k.disk.image h n) (hfree : k.FreeFrom m)
    (hm : m + 5 + blocksOf (32 * h.root_directory_entries) ≤ 25600) :
    Returns diskSearchAndInit k fun _ k' =>
      GrownBesideDisk k (m + 5 + blocksOf (32 * h.root_directory_entries)) k' ∧
      k'.disk.image = k.disk.image ∧
      HoldsRoot h (h.rootEntries k.disk.image (h.rootCount k.disk.image n)) k' := by
  refine .bind (onDisk_returns (Q := fun _ d => d = { k.disk with
    sector_size := PLUMOS_SECTOR_SIZE, fs_private := none }) (.modifies rfl)) ?_
  rintro _ k₁ ⟨hd₁, hk₁⟩
  have himage₁ : k₁.disk.image = k.disk.image := by rw [hd₁]
  have hsize₁ : k₁.disk.sector_size = 512 := by
    rw [hd₁]
    rfl
  have hfree₁ : k₁.FreeFrom m := hfree.congr (by rw [hk₁])
  have hb₁ : GrownBesideDisk k m k₁ := by
    rw [hk₁]
    exact .onDisk hfree
  rw [← himage₁] at hv ⊢
  refine .bind (R := fun filesystem k' => filesystem = true ∧
    GrownBesideDisk k₁ (m + 5 + blocksOf (32 * h.root_directory_entries)) k' ∧
    k'.disk.image = k₁.disk.image ∧
    HoldsRoot h (h.rootEntries k₁.disk.image (h.rootCount k₁.disk.image n)) k') ?_ ?_
  · refine .bind (fat16Resolve_mounts hv hsize₁ hfree₁ hm) ?_
    rintro _ k₂ ⟨rfl, hrest⟩
    rw [if_pos rfl]
    exact .pure ⟨rfl, hrest⟩
  rintro _ k₂ ⟨rfl, hb₂, himage₂, hroot⟩
  exact .onlyIf (fun hfalse => by cases hfalse) fun _ => ⟨hb₁.trans hb₂, himage₂, hroot⟩

end Root

end PlumOS
