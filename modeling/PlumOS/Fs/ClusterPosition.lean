import PlumOS.Fs.Fat16Cluster

/-!
# Byte positions of clusters

`fat16_read_internal_from_stream` turns the sector of a cluster into a byte position,
an `int`, and `diskstreamer_read` divides it again. From 2 GiB on the `int` is negative.

## Main definitions

- `startingPos` — the local of `fat16_read_internal_from_stream`
- `Addresses` — the sector and offset of `diskstreamer_read` are those of a position

## Main results

- `startingPos_addresses_iff` — which clusters of a volume are addressed
-/

namespace PlumOS

open StateExcept

/-- The local `starting_pos` of `fat16_read_internal_from_stream`. -/
def startingPos (fat_private : FatPrivate) (sector_size cluster_to_use offset : Int) : Int :=
  i32 (i32 (fat16ClusterToSector fat_private cluster_to_use * sector_size) +
    offset.tmod (sizeOfClusterBytes fat_private sector_size))

/-- The locals `sector` and `offset` of `diskstreamer_read` at `pos`, the sector as
`disk_read_block` gets it. -/
def diskstreamerSector (pos : Int) : Nat := u32 (pos.tdiv PLUMOS_SECTOR_SIZE)

def diskstreamerOffset (pos : Int) : Int := pos.tmod PLUMOS_SECTOR_SIZE

/-- The stream position `pos` is not negative and addresses byte `p` of the disk. -/
structure Addresses (pos : Int) (p : Nat) : Prop where
  nonneg : 0 ≤ pos
  sector : diskstreamerSector pos = p / 512
  offset : diskstreamerOffset pos = (p % 512 : Nat)

/-- It is the position that is sought when the clusters ahead are found. -/
theorem fat16ReadInternalFromStream_startingPos (fuel : Nat) (cluster offset total : Int) :
    fat16ReadInternalFromStream (fuel + 1) cluster offset total = (do
      let fat_private ← fsPrivate
      let sector_size ← reads Disk.sector_size
      let size_of_cluster_bytes := sizeOfClusterBytes fat_private sector_size
      let cluster_to_use ← fat16GetClusterForOffset cluster offset
      if cluster_to_use < 0 then pure (cluster_to_use, [])
      else do
        let total_to_read := if size_of_cluster_bytes < total then size_of_cluster_bytes else total
        diskstreamerSeek .cluster_read_stream
          (startingPos fat_private sector_size cluster_to_use offset)
        let bytes ← diskstreamerRead .cluster_read_stream total_to_read
        let total := i32 (total - total_to_read)
        if 0 < total then do
          let rest ← fat16ReadInternalFromStream fuel cluster (i32 (offset + total_to_read)) total
          pure (rest.1, bytes ++ rest.2)
        else pure (0, bytes)) := rfl

/-- And the sector of the first block that a read from there loads. -/
theorem diskstreamerReadLoop_first {disk : Disk} {fuel : Nat} {pos total : Int} {r : StreamRead}
    (h : diskstreamerReadLoop disk fuel pos total = .ok r) :
    r.sectors.head? = some (diskstreamerSector pos) := by
  cases fuel with
  | zero => cases h
  | succ fuel =>
    simp only [diskstreamerReadLoop] at h
    generalize (if (PLUMOS_SECTOR_SIZE : Int) ≤ i32 (pos.tmod PLUMOS_SECTOR_SIZE + total) then
      i32 (total - (i32 (pos.tmod PLUMOS_SECTOR_SIZE + total) - PLUMOS_SECTOR_SIZE)) else total) =
      chunk at h
    split at h
    · cases h
    · split at h
      · split at h
        · cases h
        · cases h
          rfl
      · cases h
        rfl

/-- The position of a byte in a cluster before it becomes an `int`. -/
def FatPrivate.bytePosition (p : FatPrivate) (first_data_sector cluster offset : Nat) : Nat :=
  (first_data_sector + (cluster - 2) * p.header.sectors_per_cluster) * 512 +
    offset % p.header.clusterSize

/-- In a volume of up to `0x773594` sectors the position of every byte fits 32 bits, so
the `int` is the position, or its two's complement. -/
theorem startingPos_eq_i32 {p : FatPrivate} (hspc : 0 < p.header.sectors_per_cluster)
    (hwidth : p.header.sectors_per_cluster < 0x100) {first_data_sector cluster sectors : Nat}
    (hend : p.root_directory.end_sector_pos = first_data_sector) (hsectors : sectors ≤ 0x773594)
    (h₂ : 2 ≤ cluster)
    (hin : first_data_sector + (cluster - 1) * p.header.sectors_per_cluster ≤ sectors)
    (offset : Nat) :
    startingPos p 512 cluster offset = i32 (p.bytePosition first_data_sector cluster offset) ∧
      p.bytePosition first_data_sector cluster offset < 512 * sectors := by
  have hstep : (cluster - 1) * p.header.sectors_per_cluster =
      (cluster - 2) * p.header.sectors_per_cluster + p.header.sectors_per_cluster := by
    rw [show cluster - 1 = cluster - 2 + 1 by omega, Nat.succ_mul]
  have hsector : fat16ClusterToSector p cluster =
      (first_data_sector + (cluster - 2) * p.header.sectors_per_cluster : Nat) := by
    unfold fat16ClusterToSector
    rw [hend, show (cluster : Int) - 2 = ((cluster - 2 : Nat) : Int) by omega,
      ← Int.natCast_mul, ← Int.natCast_add, i32_natCast (by omega)]
  have hbytes : sizeOfClusterBytes p 512 = p.header.clusterSize := by
    unfold sizeOfClusterBytes FatHeader.clusterSize
    rw [show (512 : Int) = ((512 : Nat) : Int) from rfl, ← Int.natCast_mul,
      i32_natCast (by omega)]
  have hmod : offset % p.header.clusterSize < p.header.clusterSize :=
    Nat.mod_lt _ (by unfold FatHeader.clusterSize; omega)
  unfold FatPrivate.bytePosition
  constructor
  · unfold startingPos
    rw [hsector, hbytes, Int.tmod_eq_emod_of_nonneg (by omega), ← Int.natCast_emod,
      i32_add_left]
    congr 1
  · unfold FatHeader.clusterSize at hmod ⊢
    omega

/-- A stream position is that of a byte exactly when the position of the byte is an
`int`. -/
theorem i32_addresses_iff {p : Nat} (hp : p < 0x100000000) :
    Addresses (i32 p) p ↔ p < 0x80000000 := by
  constructor
  · intro h
    have := h.nonneg
    unfold i32 at this
    omega
  · intro hlt
    rw [i32_natCast hlt]
    refine ⟨by omega, ?_, ?_⟩
    · unfold diskstreamerSector PLUMOS_SECTOR_SIZE
      rw [Int.tdiv_eq_ediv_of_nonneg (by omega), u32_of_range (by omega) (by omega)]
      omega
    · unfold diskstreamerOffset PLUMOS_SECTOR_SIZE
      rw [Int.tmod_eq_emod_of_nonneg (by omega)]
      omega

/-- In a volume of up to `0x773594` sectors the driver addresses a byte of a cluster
exactly when its position is below 2 GiB. -/
theorem startingPos_addresses_iff {p : FatPrivate} (hspc : 0 < p.header.sectors_per_cluster)
    (hwidth : p.header.sectors_per_cluster < 0x100) {first_data_sector cluster sectors : Nat}
    (hend : p.root_directory.end_sector_pos = first_data_sector) (hsectors : sectors ≤ 0x773594)
    (h₂ : 2 ≤ cluster)
    (hin : first_data_sector + (cluster - 1) * p.header.sectors_per_cluster ≤ sectors)
    (offset : Nat) :
    Addresses (startingPos p 512 cluster offset)
        (p.bytePosition first_data_sector cluster offset) ↔
      p.bytePosition first_data_sector cluster offset < 0x80000000 := by
  obtain ⟨heq, hlt⟩ := startingPos_eq_i32 hspc hwidth hend hsectors h₂ hin offset
  rw [heq]
  exact i32_addresses_iff (by omega)

/-- The driver's data for the boot sector of the system. -/
def FatPrivate.shipped : FatPrivate :=
  ⟨⟨0x80, 200, 2, 0x40, 0x100, 0x29⟩, ⟨0, 0, 712, 716⟩, 0, 0, 0⟩

/-- The first byte of cluster 2 of the system's volume. -/
theorem startingPos_addresses_iff_first :
    Addresses (startingPos FatPrivate.shipped 512 (2 : Nat) (0 : Nat)) (716 * 512) :=
  (@startingPos_addresses_iff FatPrivate.shipped (by decide) (by decide) 716 2 0x773594 rfl le_rfl
    le_rfl (by decide) 0).mpr (by decide)

/-- Cluster 32765 lies inside the system's volume and behind its first 2 GiB. -/
theorem startingPos_of_cluster_32765 :
    716 + (32765 - 1) * FatPrivate.shipped.header.sectors_per_cluster ≤ 0x773594 ∧
      startingPos FatPrivate.shipped 512 (32765 : Nat) (0 : Nat) = -2147444736 ∧
      ¬ Addresses (startingPos FatPrivate.shipped 512 (32765 : Nat) (0 : Nat))
        (FatPrivate.shipped.bytePosition 716 32765 0) := by
  have hpos : startingPos FatPrivate.shipped 512 (32765 : Nat) (0 : Nat) = -2147444736 := by
    decide
  refine ⟨by decide, hpos, fun h => ?_⟩
  have := h.nonneg
  omega

end PlumOS
