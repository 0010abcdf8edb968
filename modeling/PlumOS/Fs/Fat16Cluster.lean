import Mathlib.Data.List.GetD
import Mathlib.Data.Nat.ModEq
import Mathlib.Order.Interval.Finset.Nat
import PlumOS.Disk.Streamer

/-!
# Clusters of a FAT16 volume

The part of `fs/fat/fat16.c` that finds and reads the clusters of a file: the File
Allocation Table, the position of a cluster on the disk, and the recursion that
reads a file piece by piece.

## Main definitions

- `fat16GetFatEntry`, `fat16GetClusterForOffset` — following the cluster chain
- `fat16ReadInternal` — reading from a byte offset of a file
- `FatVolume`, `ClusterChain` — a volume, and the clusters of a file on it
- `fat16ReadInternal_spec` — which bytes are read
-/

namespace PlumOS

open StateExcept

def PLUMOS_FAT16_FAT_ENTRY_SIZE : Nat := 0x02
def PLUMOS_FAT16_BAD_SECTOR : Int := 0xFF7

/-- `fat16_cluster_to_sector`. -/
def fat16ClusterToSector (fat_private : FatPrivate) (cluster : Int) : Int :=
  i32 (fat_private.root_directory.end_sector_pos +
    (cluster - 2) * fat_private.header.sectors_per_cluster)

/-- `fat16_get_first_fat_sector`. -/
def fat16GetFirstFatSector (fat_private : FatPrivate) : Nat :=
  fat_private.header.reserved_sectors

/-- `fat16_get_fat_entry`. -/
def fat16GetFatEntry (cluster : Int) : DM Int := do
  let fat_private ← fsPrivate
  let sector_size ← reads Disk.sector_size
  let fat_table_position := u32 (fat16GetFirstFatSector fat_private * sector_size)
  diskstreamerSeek .fat_read_stream
    (i32 (u32 (fat_table_position + cluster * PLUMOS_FAT16_FAT_ENTRY_SIZE)))
  let bytes ← diskstreamerRead .fat_read_stream 2
  pure (readHalf (fun i => bytes.getD i 0) 0)

/-- The loop of `fat16_get_cluster_for_offset`. -/
def fat16GetClusterForOffsetLoop : (clusters_ahead : Nat) → (cluster_to_use : Int) → DM Int
  | 0, cluster_to_use => pure cluster_to_use
  | clusters_ahead + 1, cluster_to_use => do
    let entry ← fat16GetFatEntry cluster_to_use
    if entry = 0xFF8 ∨ entry = 0xFFF then pure (- EIO)
    else if entry = PLUMOS_FAT16_BAD_SECTOR then pure (- EIO)
    else if entry = 0xFF0 ∨ entry = 0xFF6 then pure (- EIO)
    else if entry = 0x00 then pure (- EIO)
    else fat16GetClusterForOffsetLoop clusters_ahead entry

/-- The local `size_of_cluster_bytes`. -/
def sizeOfClusterBytes (fat_private : FatPrivate) (sector_size : Int) : Int :=
  i32 (fat_private.header.sectors_per_cluster * sector_size)

/-- `fat16_get_cluster_for_offset`. -/
def fat16GetClusterForOffset (starting_cluster offset : Int) : DM Int := do
  let fat_private ← fsPrivate
  let sector_size ← reads Disk.sector_size
  let size_of_cluster_bytes := sizeOfClusterBytes fat_private sector_size
  if size_of_cluster_bytes = 0 then fails .divByZero
  else fat16GetClusterForOffsetLoop (offset.tdiv size_of_cluster_bytes).toNat starting_cluster

/-- `fat16_read_internal_from_stream` on the volume's `cluster_read_stream`: the status
and the bytes stored in `out`. A call reads at most `size_of_cluster_bytes` bytes and
calls itself for the rest. -/
def fat16ReadInternalFromStream : (fuel : Nat) → (cluster offset total : Int) →
    DM (Int × List UInt8)
  | 0, _, _, _ => fails .divergence
  | fuel + 1, cluster, offset, total => do
    let fat_private ← fsPrivate
    let sector_size ← reads Disk.sector_size
    let size_of_cluster_bytes := sizeOfClusterBytes fat_private sector_size
    let cluster_to_use ← fat16GetClusterForOffset cluster offset
    if cluster_to_use < 0 then pure (cluster_to_use, [])
    else do
      let offset_in_cluster := offset.tmod size_of_cluster_bytes
      let starting_sector := fat16ClusterToSector fat_private cluster_to_use
      let starting_pos := i32 (i32 (starting_sector * sector_size) + offset_in_cluster)
      let total_to_read :=
        if size_of_cluster_bytes < total then size_of_cluster_bytes else total
      diskstreamerSeek .cluster_read_stream starting_pos
      let bytes ← diskstreamerRead .cluster_read_stream total_to_read
      let total := i32 (total - total_to_read)
      if 0 < total then do
        let rest ← fat16ReadInternalFromStream fuel cluster (i32 (offset + total_to_read)) total
        pure (rest.1, bytes ++ rest.2)
      else pure (0, bytes)

/-- `fat16_read_internal`. Every call of the recursion reads at least one byte. -/
def fat16ReadInternal (starting_cluster offset total : Int) : DM (Int × List UInt8) :=
  fat16ReadInternalFromStream (total.toNat + 1) starting_cluster offset total

/-! ### Volumes and files -/

/-- The size of a cluster in bytes. -/
def FatHeader.clusterSize (h : FatHeader) : Nat := h.sectors_per_cluster * 512

/-- The first sector behind the root directory, which takes whole sectors. -/
def FatHeader.firstDataSector (h : FatHeader) : Nat :=
  h.reserved_sectors + h.fat_copies * h.sectors_per_fat +
    (h.root_directory_entries * 32 + 511) / 512

/-- The position on the disk of the first byte of a cluster. -/
def FatHeader.clusterStart (h : FatHeader) (cluster : Nat) : Nat :=
  (h.firstDataSector + (cluster - 2) * h.sectors_per_cluster) * 512

/-- The entry of a cluster in the first File Allocation Table. -/
def FatHeader.fatEntry (h : FatHeader) (image : Nat → UInt8) (cluster : Nat) : Nat :=
  readHalf image (h.reserved_sectors * 512 + cluster * 2)

/-- A FAT16 volume of 512-byte sectors that the driver is bound to, with a root
directory of a whole number of sectors. `end_sector_pos` is the sector that
`fat16_get_root_directory` stores. -/
structure FatVolume (h : FatHeader) (d : Disk) : Prop where
  sector_size : d.sector_size = 512
  bound : ∃ p, d.fs_private = some p ∧ p.header = h ∧ p.root_directory.end_sector_pos =
    (h.reserved_sectors + h.fat_copies * h.sectors_per_fat +
      h.root_directory_entries * 32 / 512 : Nat)
  root_whole : h.root_directory_entries * 32 % 512 = 0
  sectors_per_cluster_pos : 1 ≤ h.sectors_per_cluster
  sectors_per_cluster_lt : h.sectors_per_cluster < 0x100
  reserved_sectors_lt : h.reserved_sectors < 0x10000

theorem FatVolume.congr {h : FatHeader} {d d' : Disk} (hv : FatVolume h d)
    (hs : SameVolume d d') : FatVolume h d' where
  sector_size := hs.sector_size.trans hv.sector_size
  bound := by
    obtain ⟨p, hp, hh, hr⟩ := hv.bound
    obtain ⟨p', hp', hh', hr'⟩ := hs.fs_private hp
    exact ⟨p', hp', hh'.trans hh, by rw [hr', hr]⟩
  root_whole := hv.root_whole
  sectors_per_cluster_pos := hv.sectors_per_cluster_pos
  sectors_per_cluster_lt := hv.sectors_per_cluster_lt
  reserved_sectors_lt := hv.reserved_sectors_lt

/-- A disk that the driver is bound to, with what it reads of the header to follow the
links of the File Allocation Table. -/
structure FatTable (h : FatHeader) (d : Disk) : Prop where
  sector_size : d.sector_size = 512
  bound : ∃ p, d.fs_private = some p ∧ p.header = h
  sectors_per_cluster_pos : 1 ≤ h.sectors_per_cluster
  sectors_per_cluster_lt : h.sectors_per_cluster < 0x100
  reserved_sectors_lt : h.reserved_sectors < 0x10000

theorem FatVolume.fatTable {h : FatHeader} {d : Disk} (hv : FatVolume h d) : FatTable h d where
  sector_size := hv.sector_size
  bound := by
    obtain ⟨p, hp, hh, -⟩ := hv.bound
    exact ⟨p, hp, hh⟩
  sectors_per_cluster_pos := hv.sectors_per_cluster_pos
  sectors_per_cluster_lt := hv.sectors_per_cluster_lt
  reserved_sectors_lt := hv.reserved_sectors_lt

theorem FatTable.congr {h : FatHeader} {d d' : Disk} (ht : FatTable h d)
    (hs : SameVolume d d') : FatTable h d' where
  sector_size := hs.sector_size.trans ht.sector_size
  bound := by
    obtain ⟨p, hp, hh⟩ := ht.bound
    obtain ⟨p', hp', hh', -⟩ := hs.fs_private hp
    exact ⟨p', hp', hh'.trans hh⟩
  sectors_per_cluster_pos := ht.sectors_per_cluster_pos
  sectors_per_cluster_lt := ht.sectors_per_cluster_lt
  reserved_sectors_lt := ht.reserved_sectors_lt

theorem FatTable.clusterSize_pos {h : FatHeader} {d : Disk} (ht : FatTable h d) :
    0 < h.clusterSize := by
  have := ht.sectors_per_cluster_pos
  unfold FatHeader.clusterSize
  omega

theorem FatTable.clusterSize_le {h : FatHeader} {d : Disk} (ht : FatTable h d) :
    h.clusterSize ≤ 130560 := by
  have := ht.sectors_per_cluster_lt
  unfold FatHeader.clusterSize
  omega

/-- The clusters of a file in the order of the file: distinct data clusters below
2 GiB, each linked to the next by the File Allocation Table. -/
structure ClusterChain (h : FatHeader) (image : Nat → UInt8) (chain : List Nat) : Prop where
  range : ∀ c ∈ chain, 2 ≤ c ∧ c ≤ 0xFEF
  nodup : chain.Nodup
  links : ∀ j, j + 1 < chain.length → h.fatEntry image (chain.getD j 0) = chain.getD (j + 1) 0
  below : ∀ c ∈ chain, h.clusterStart c + h.clusterSize ≤ 0x80000000

/-- The position on the disk of byte `x` of the file. -/
def FatHeader.filePosition (h : FatHeader) (chain : List Nat) (x : Nat) : Nat :=
  h.clusterStart (chain.getD (x / h.clusterSize) 0) + x % h.clusterSize

/-- The position on the disk that byte `y` of a read from `offset` is taken from. -/
def FatHeader.readPosition (h : FatHeader) (chain : List Nat) (offset y : Nat) : Nat :=
  h.clusterStart (chain.getD (offset / h.clusterSize + y / h.clusterSize) 0) +
    offset % h.clusterSize + y % h.clusterSize

theorem getD_mem {chain : List Nat} {j : Nat}
    (hj : j < chain.length) : chain.getD j 0 ∈ chain := by
  rw [List.getD_eq_getElem _ _ hj]
  exact List.getElem_mem hj

/-- A chain has at most as many clusters as there are numbers for them. -/
theorem ClusterChain.length_le {h : FatHeader} {image : Nat → UInt8} {chain : List Nat}
    (hc : ClusterChain h image chain) : chain.length ≤ 0xFEE := by
  have hsub : chain.toFinset ⊆ Finset.Icc 2 0xFEF := by
    intro c hmem
    rw [Finset.mem_Icc]
    exact hc.range c (List.mem_toFinset.mp hmem)
  have hcard := Finset.card_le_card hsub
  rw [List.toFinset_card_of_nodup hc.nodup, Nat.card_Icc] at hcard
  exact hcard

/-- The two positions are the same as long as the piece that `y` is in has not left
the cluster it started in. -/
theorem FatHeader.readPosition_eq {h : FatHeader} {chain : List Nat} {offset y : Nat}
    (hin : offset % h.clusterSize + y % h.clusterSize < h.clusterSize) :
    h.readPosition chain offset y = h.filePosition chain (offset + y) := by
  unfold FatHeader.readPosition FatHeader.filePosition
  have hmod : (offset + y) % h.clusterSize = offset % h.clusterSize + y % h.clusterSize := by
    rw [Nat.add_mod, Nat.mod_eq_of_lt hin]
  have hdiv : (offset + y) / h.clusterSize = offset / h.clusterSize + y / h.clusterSize :=
    Nat.add_div_eq_of_add_mod_lt hin
  rw [hmod, hdiv, Nat.add_assoc]

/-- The next piece starts one cluster further. -/
theorem FatHeader.readPosition_next (h : FatHeader) (hpos : 0 < h.clusterSize) (chain : List Nat)
    (offset y : Nat) : h.readPosition chain (offset + h.clusterSize) y =
      h.readPosition chain offset (h.clusterSize + y) := by
  unfold FatHeader.readPosition
  rw [Nat.add_div_right _ hpos, Nat.add_mod_right, Nat.add_div_left _ hpos, Nat.add_mod_left,
    Nat.succ_add, Nat.add_succ]

/-! ### Following the chain -/

theorem i32_natCast {n : Nat} (h : n < 0x80000000) : i32 (n : Int) = n :=
  i32_of_range (by omega) (by omega)

/-- An entry of the File Allocation Table is read from its place on the disk. -/
theorem fat16GetFatEntry_spec {h : FatHeader} {d : Disk} (ht : FatTable h d) {cluster : Nat}
    (hc : h.reserved_sectors * 512 + cluster * 2 + 2 ≤ 0x80000000) :
    Returns (fat16GetFatEntry cluster) d fun entry d' =>
      entry = h.fatEntry d.image cluster ∧ SameVolume d d' := by
  obtain ⟨p, hp, rfl⟩ := ht.bound
  have hres := ht.reserved_sectors_lt
  refine Returns.bind (fsPrivate_returns hp) ?_
  rintro _ _ ⟨rfl, rfl⟩
  refine Returns.bind (R := fun sector_size d₁ => 512 = sector_size ∧ d = d₁)
    (Returns.reads ⟨ht.sector_size.symm, rfl⟩) ?_
  rintro _ _ ⟨rfl, rfl⟩
  have htable : u32 (fat16GetFirstFatSector p * (512 : Int)) = p.header.reserved_sectors * 512 := by
    unfold fat16GetFirstFatSector
    rw [u32_of_range (by omega) (by omega)]
    omega
  have hpos : i32 (u32 ((p.header.reserved_sectors * 512 : Nat) +
      (cluster : Int) * PLUMOS_FAT16_FAT_ENTRY_SIZE)) =
      i32 ((p.header.reserved_sectors * 512 + cluster * 2 : Nat) : Int) := by
    simp only [PLUMOS_FAT16_FAT_ENTRY_SIZE]
    rw [u32_of_range (by omega) (by omega)]
    congr 1
  dsimp only
  rw [htable, hpos]
  refine Returns.bind (diskstreamerSeek_spec hp _ _) ?_
  rintro _ d₁ ⟨hsame₁, hat⟩
  refine Returns.bind (@diskstreamerRead_spec _ _ _ 2 hat (Or.inl (by omega)) (by omega)
    (by omega)) ?_
  rintro bytes d' ⟨rfl, hsame₂⟩
  refine Returns.pure ⟨?_, hsame₁.trans hsame₂⟩
  unfold FatHeader.fatEntry readHalf
  simp only [readBytes]
  rw [List.getD_eq_getElem _ _ (by simp), List.getD_eq_getElem _ _ (by simp)]
  simp only [List.getElem_map, List.getElem_range, Nat.add_zero, Nat.zero_add]
  rw [streamByte_of_lt _ (by omega), streamByte_of_lt _ (by omega), hsame₁.image]

/-- Following `n` links of a chain. -/
theorem fat16GetClusterForOffsetLoop_spec {h : FatHeader} {d : Disk} {chain : List Nat}
    (hv : FatVolume h d) (hc : ClusterChain h d.image chain) :
    ∀ (n q : Nat) (d₁ : Disk), SameVolume d d₁ → q + n < chain.length →
      Returns (fat16GetClusterForOffsetLoop n (chain.getD q 0 : Nat)) d₁ fun cluster d' =>
        cluster = (chain.getD (q + n) 0 : Nat) ∧ SameVolume d d' := by
  intro n
  induction n with
  | zero =>
    intro q d₁ hsame _
    exact Returns.pure ⟨rfl, hsame⟩
  | succ n ih =>
    intro q d₁ hsame hq
    have hmem := hc.range _ (getD_mem (show q < chain.length by omega))
    have hnext := hc.range _ (getD_mem (show q + 1 < chain.length by omega))
    have hres := hv.reserved_sectors_lt
    refine Returns.bind (fat16GetFatEntry_spec (hv.congr hsame).fatTable (by omega)) ?_
    rintro entry d₂ ⟨rfl, hsame₂⟩
    rw [hsame.image, hc.links q (by omega)]
    have hbad : PLUMOS_FAT16_BAD_SECTOR = 0xFF7 := rfl
    rw [if_neg (by omega), if_neg (by omega), if_neg (by omega), if_neg (by omega)]
    rw [show q + (n + 1) = q + 1 + n by omega]
    exact ih (q + 1) d₂ (hsame.trans hsame₂) (by omega)

/-- The driver's first data sector is that of the format. -/
theorem FatVolume.fs_private {h : FatHeader} {d : Disk} (hv : FatVolume h d) :
    ∃ p, d.fs_private = some p ∧ p.header = h ∧
      p.root_directory.end_sector_pos = h.firstDataSector := by
  obtain ⟨p, hp, hh, hroot⟩ := hv.bound
  refine ⟨p, hp, hh, hroot.trans ?_⟩
  have := hv.root_whole
  unfold FatHeader.firstDataSector
  omega

theorem sizeOfClusterBytes_eq {h : FatHeader} {d : Disk} (ht : FatTable h d) {p : FatPrivate}
    (hp : p.header = h) : sizeOfClusterBytes p 512 = h.clusterSize := by
  have := ht.clusterSize_le
  unfold sizeOfClusterBytes
  rw [hp]
  unfold FatHeader.clusterSize at this ⊢
  rw [i32_of_range (by omega) (by omega)]
  omega

/-- `fat16_get_cluster_for_offset` finds the cluster of the chain that holds the byte. -/
theorem fat16GetClusterForOffset_spec {h : FatHeader} {d d₁ : Disk} {chain : List Nat}
    (hv : FatVolume h d) (hc : ClusterChain h d.image chain) (hsame : SameVolume d d₁)
    {offset : Nat} (ho : offset / h.clusterSize < chain.length) :
    Returns (fat16GetClusterForOffset (chain.getD 0 0 : Nat) offset) d₁ fun cluster d' =>
      cluster = (chain.getD (offset / h.clusterSize) 0 : Nat) ∧ SameVolume d d' := by
  obtain ⟨p, hp, hh, -⟩ := (hv.congr hsame).bound
  have hpos := hv.fatTable.clusterSize_pos
  refine Returns.bind (fsPrivate_returns hp) ?_
  rintro _ _ ⟨rfl, rfl⟩
  refine Returns.bind (R := fun sector_size d₂ => 512 = sector_size ∧ d₁ = d₂)
    (Returns.reads ⟨(hv.congr hsame).sector_size.symm, rfl⟩) ?_
  rintro _ _ ⟨rfl, rfl⟩
  rw [sizeOfClusterBytes_eq hv.fatTable hh, if_neg (by omega),
    Int.tdiv_eq_ediv_of_nonneg (by omega), ← Int.natCast_ediv, Int.toNat_natCast]
  have := fat16GetClusterForOffsetLoop_spec hv hc (offset / h.clusterSize) 0 d₁ hsame (by omega)
  rwa [Nat.zero_add] at this

/-! ### Reading -/

/-- The driver's position of a byte in a cluster is that of the format. -/
theorem startingPos_eq {h : FatHeader} {p : FatPrivate} (hh : p.header = h)
    (hroot : p.root_directory.end_sector_pos = h.firstDataSector) {cluster r : Nat}
    (h₂ : 2 ≤ cluster) (hbelow : h.clusterStart cluster < 0x80000000) :
    i32 (i32 (fat16ClusterToSector p cluster * 512) + r) =
      i32 ((h.clusterStart cluster + r : Nat) : Int) := by
  have hsector : fat16ClusterToSector p cluster =
      ((h.firstDataSector + (cluster - 2) * h.sectors_per_cluster : Nat) : Int) := by
    unfold fat16ClusterToSector
    rw [hh, hroot, show (cluster : Int) - 2 = ((cluster - 2 : Nat) : Int) by omega,
      ← Int.natCast_mul, ← Int.natCast_add, i32_natCast]
    unfold FatHeader.clusterStart at hbelow
    omega
  rw [hsector, show (512 : Int) = ((512 : Nat) : Int) from rfl, ← Int.natCast_mul,
    i32_add_left, ← Int.natCast_add]
  rfl

/-- The recursion of `fat16_read_internal_from_stream`: byte `y` comes from the piece
`y` is in, at its distance from the start of the piece. -/
theorem fat16ReadInternalFromStream_spec {h : FatHeader} {d : Disk} {chain : List Nat}
    (hv : FatVolume h d) (hc : ClusterChain h d.image chain) :
    ∀ (fuel offset total : Nat) (d₁ : Disk), SameVolume d d₁ →
      total < fuel → 0 < total → offset + total ≤ chain.length * h.clusterSize →
      Returns (fat16ReadInternalFromStream fuel (chain.getD 0 0 : Nat) offset total) d₁
        fun r d' => r = (0, readBytes (fun y => streamByte d (h.readPosition chain offset y))
          0 total) ∧ SameVolume d d' := by
  intro fuel
  induction fuel with
  | zero => intro offset total d₁ _ hfuel; omega
  | succ fuel ih =>
    intro offset total d₁ hsame hfuel htotal hend
    obtain ⟨p, hp, hh, hroot⟩ := (hv.congr hsame).fs_private
    have hpos := hv.fatTable.clusterSize_pos
    have hsize := hv.fatTable.clusterSize_le
    have hlen : chain.length * h.clusterSize ≤ 0xFEE * 130560 := Nat.mul_le_mul hc.length_le hsize
    have hidx : offset / h.clusterSize < chain.length := Nat.div_lt_of_lt_mul (by
      rw [Nat.mul_comm]
      omega)
    have hmod : offset % h.clusterSize < h.clusterSize := Nat.mod_lt _ hpos
    refine Returns.bind (fsPrivate_returns hp) ?_
    rintro _ _ ⟨rfl, rfl⟩
    refine Returns.bind (R := fun sector_size d₂ => 512 = sector_size ∧ d₁ = d₂)
      (Returns.reads ⟨(hv.congr hsame).sector_size.symm, rfl⟩) ?_
    rintro _ _ ⟨rfl, rfl⟩
    refine Returns.bind (fat16GetClusterForOffset_spec hv hc hsame hidx) ?_
    rintro _ d₂ ⟨rfl, hsame₂⟩
    obtain ⟨p₂, hp₂, -⟩ := (hv.congr hsame₂).bound
    have hmem := getD_mem hidx
    have hrange := hc.range _ hmem
    have hbelow := hc.below _ hmem
    have hfile : total ≤ 0x7FFFFE00 := by omega
    -- the piece that this call reads
    obtain ⟨n, hn, hnC, hntotal, hrest⟩ : ∃ n : Nat,
        (if (h.clusterSize : Int) < total then (h.clusterSize : Int) else (total : Int)) = n ∧
          n ≤ h.clusterSize ∧ n ≤ total ∧ (n < total → n = h.clusterSize) := by
      by_cases hlt : h.clusterSize < total
      · exact ⟨h.clusterSize, if_pos (by omega), le_rfl, by omega, fun _ => rfl⟩
      · exact ⟨total, if_neg (by omega), by omega, le_rfl, fun hlt' => by omega⟩
    rw [if_neg (by omega)]
    dsimp only
    rw [sizeOfClusterBytes_eq hv.fatTable hh, hn, Int.tmod_eq_emod_of_nonneg (by omega),
      ← Int.natCast_emod, startingPos_eq hh hroot hrange.1 (by omega)]
    refine Returns.bind (diskstreamerSeek_spec hp₂ _ _) ?_
    rintro _ d₃ ⟨hsame₃, hat⟩
    refine Returns.bind (diskstreamerRead_spec hat (Or.inl (by omega)) (by omega) (by omega)) ?_
    rintro bytes d₄ ⟨rfl, hsame₄⟩
    have hsame' : SameVolume d d₄ := hsame₂.trans (hsame₃.trans hsame₄)
    have hpiece : readBytes (streamByte d₃)
        (h.clusterStart (chain.getD (offset / h.clusterSize) 0) + offset % h.clusterSize) n =
        readBytes (fun y => streamByte d (h.readPosition chain offset y)) 0 n := by
      apply readBytes_congr
      intro y hy
      rw [(hsame₂.trans hsame₃).streamByte, Nat.zero_add]
      unfold FatHeader.readPosition
      have hy' : y < h.clusterSize := by omega
      rw [Nat.div_eq_of_lt hy', Nat.mod_eq_of_lt hy', Nat.add_zero]
    rw [i32_of_range (by omega) (by omega)]
    split
    · next hmore =>
      have hnext := hrest (by omega)
      rw [i32_of_range (by omega) (by omega), ← Int.natCast_add,
        show (total : Int) - n = ((total - n : Nat) : Int) by omega]
      refine Returns.bind (ih (offset + n) (total - n) d₄ hsame' (by omega) (by omega)
        (by omega)) ?_
      rintro _ d₅ ⟨rfl, hsame₅⟩
      refine Returns.pure ⟨?_, hsame₅⟩
      have htail : readBytes (fun y => streamByte d (h.readPosition chain (offset + n) y)) 0
          (total - n) = readBytes (fun y => streamByte d (h.readPosition chain offset y)) n
          (total - n) := by
        apply readBytes_congr
        intro y _
        rw [hnext, Nat.zero_add, h.readPosition_next hpos]
      have hall := readBytes_append (fun y => streamByte d (h.readPosition chain offset y)) 0 n
        (total - n)
      rw [Nat.zero_add, show n + (total - n) = total by omega] at hall
      rw [hpiece, htail, hall]
    · next hdone =>
      obtain rfl : n = total := by omega
      refine Returns.pure ⟨?_, hsame'⟩
      rw [hpiece]

/-- `fat16_read_internal` on a file. -/
theorem fat16ReadInternal_spec {h : FatHeader} {d d₁ : Disk} {chain : List Nat}
    (hv : FatVolume h d) (hc : ClusterChain h d.image chain) (hsame : SameVolume d d₁)
    {offset total : Nat} (htotal : 0 < total)
    (hend : offset + total ≤ chain.length * h.clusterSize) :
    Returns (fat16ReadInternal (chain.getD 0 0 : Nat) offset total) d₁
      fun r d' => r = (0, readBytes (fun y => streamByte d (h.readPosition chain offset y))
        0 total) ∧ SameVolume d d' := by
  unfold fat16ReadInternal
  rw [Int.toNat_natCast]
  exact fat16ReadInternalFromStream_spec hv hc _ offset total d₁ hsame (by omega) htotal hend

end PlumOS
