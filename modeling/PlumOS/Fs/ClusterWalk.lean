import Mathlib.Logic.Function.Iterate
import PlumOS.Fs.Fat16Cluster

/-!
# Links of the File Allocation Table

`fat16_get_cluster_for_offset` on any File Allocation Table. The driver ends the walk at
the markers of a 12-bit table, so which links it takes differs from the format.

## Main definitions

- `FatHeader.link` — the cluster reached after some links
- `IsDataCluster`, `EndsWalk` — which entries lead on in the format, and which ones end
  the driver's walk
- `FollowsLinks` — what a walk returns in the format

## Main results

- `fat16GetClusterForOffset_walk` — what the driver returns
- `fat16GetClusterForOffset_followsLinks_iff` — when it is what the format says
-/

namespace PlumOS

open StateExcept

/-- The cluster reached from `start` by `i` links. -/
def FatHeader.link (h : FatHeader) (image : Nat → UInt8) (start i : Nat) : Nat :=
  (h.fatEntry image)^[i] start

/-- An entry of the File Allocation Table that is the number of the next cluster. -/
def IsDataCluster (entry : Nat) : Prop := 2 ≤ entry ∧ entry ≤ 0xFFEF

/-- An entry at which the driver gives up: the tests of `fat16_get_cluster_for_offset`. -/
def EndsWalk (entry : Nat) : Prop :=
  entry = 0xFF8 ∨ entry = 0xFFF ∨ entry = 0xFF7 ∨ entry = 0xFF0 ∨ entry = 0xFF6 ∨ entry = 0

instance : DecidablePred IsDataCluster := fun _ => inferInstanceAs (Decidable (_ ∧ _))
instance : DecidablePred EndsWalk := fun _ => inferInstanceAs (Decidable (_ ∨ _))

/-- One of the `k` links from `start` satisfies `P`. -/
def FatHeader.SomeLink (h : FatHeader) (image : Nat → UInt8) (start k : Nat)
    (P : Nat → Prop) : Prop :=
  ∃ i < k, P (h.link image start (i + 1))

instance {h : FatHeader} {image : Nat → UInt8} {start k : Nat} {P : Nat → Prop}
    [DecidablePred P] : Decidable (h.SomeLink image start k P) :=
  inferInstanceAs (Decidable (∃ i < k, _))

/-- `r` is what following `k` links from `start` comes to: the last cluster when all of
them are data clusters, and an error when one is not. -/
def FollowsLinks (h : FatHeader) (image : Nat → UInt8) (start k : Nat) (r : Int) : Prop :=
  ((¬ h.SomeLink image start k fun entry => ¬ IsDataCluster entry) →
    r = h.link image start k) ∧
  (h.SomeLink image start k (fun entry => ¬ IsDataCluster entry) → r < 0)

theorem FatHeader.link_succ (h : FatHeader) (image : Nat → UInt8) (start i : Nat) :
    h.link image start (i + 1) = h.link image (h.fatEntry image start) i :=
  Function.iterate_succ_apply ..

theorem FatHeader.fatEntry_lt (h : FatHeader) (image : Nat → UInt8) (cluster : Nat) :
    h.fatEntry image cluster < 0x10000 := readHalf_lt ..

/-- The first link, and the links behind it. -/
theorem FatHeader.someLink_succ {h : FatHeader} {image : Nat → UInt8} {start k : Nat}
    {P : Nat → Prop} : h.SomeLink image start (k + 1) P ↔
      P (h.fatEntry image start) ∨ h.SomeLink image (h.fatEntry image start) k P := by
  unfold FatHeader.SomeLink
  constructor
  · rintro ⟨i, hi, hP⟩
    rw [h.link_succ] at hP
    cases i with
    | zero => exact .inl hP
    | succ i => exact .inr ⟨i, by omega, hP⟩
  · rintro (hP | ⟨i, hi, hP⟩)
    · exact ⟨0, by omega, hP⟩
    · exact ⟨i + 1, by omega, by rwa [h.link_succ]⟩

/-- The walk ends with an error at the first entry the driver gives up at, and otherwise
takes every link. -/
theorem fat16GetClusterForOffsetLoop_walk {h : FatHeader} {d : Disk} (ht : FatTable h d) :
    ∀ (k start : Nat) (d₁ : Disk), SameVolume d d₁ →
      h.reserved_sectors * 512 + start * 2 + 2 ≤ 0x80000000 →
      Returns (fat16GetClusterForOffsetLoop k start) d₁ fun r d' => SameVolume d d' ∧
        r = if h.SomeLink d.image start k EndsWalk then - EIO else h.link d.image start k := by
  intro k
  induction k with
  | zero =>
    intro start d₁ hsame _
    refine Returns.pure ⟨hsame, ?_⟩
    rw [if_neg (by rintro ⟨i, hi, -⟩; omega)]
    rfl
  | succ k ih =>
    intro start d₁ hsame hstart
    refine Returns.bind (fat16GetFatEntry_spec (ht.congr hsame) hstart) ?_
    rintro _ d₂ ⟨rfl, hsame₂⟩
    rw [hsame.image]
    have hentry := h.fatEntry_lt d.image start
    have hres := ht.reserved_sectors_lt
    have hbad : PLUMOS_FAT16_BAD_SECTOR = 0xFF7 := rfl
    have hrest := ih (h.fatEntry d.image start) d₂ (hsame.trans hsame₂) (by omega)
    by_cases hend : EndsWalk (h.fatEntry d.image start)
    · have herr : Returns (Pure.pure (- EIO) : DM Int) d₂ fun r d' => SameVolume d d' ∧
          r = if h.SomeLink d.image start (k + 1) EndsWalk then - EIO
            else h.link d.image start (k + 1) :=
        Returns.pure ⟨hsame.trans hsame₂,
          (if_pos (FatHeader.someLink_succ.mpr (.inl hend))).symm⟩
      unfold EndsWalk at hend
      split
      · exact herr
      · split
        · exact herr
        · split
          · exact herr
          · split
            · exact herr
            · omega
    · have hlinks : h.SomeLink d.image start (k + 1) EndsWalk ↔
          h.SomeLink d.image (h.fatEntry d.image start) k EndsWalk := by
        rw [FatHeader.someLink_succ]
        exact or_iff_right hend
      unfold EndsWalk at hend
      rw [if_neg (by omega), if_neg (by omega), if_neg (by omega), if_neg (by omega)]
      simp only [hlinks, h.link_succ]
      exact hrest

/-- A disk whose File Allocation Table has `entry` for cluster 2 and zeros elsewhere. -/
def Disk.withLink (entry : Nat) : Disk where
  sector_size := 512
  fs_private := some ⟨⟨1, 1, 2, 512, 256, 0x29⟩, ⟨0, 0, 545, 545⟩, 0, 0, 0⟩
  image := fun a =>
    if a = 516 then UInt8.ofNat entry else if a = 517 then UInt8.ofNat (entry / 256) else 0

theorem Disk.withLink_fatTable (entry : Nat) :
    FatTable ⟨1, 1, 2, 512, 256, 0x29⟩ (Disk.withLink entry) where
  sector_size := rfl
  bound := ⟨_, rfl, rfl⟩
  sectors_per_cluster_pos := by decide
  sectors_per_cluster_lt := by decide
  reserved_sectors_lt := by decide

/-- Of `k` links the driver takes all or returns an error. -/
theorem fat16GetClusterForOffset_walk {h : FatHeader} {d : Disk} (ht : FatTable h d)
    {start : Nat} (hstart : h.reserved_sectors * 512 + start * 2 + 2 ≤ 0x80000000)
    {offset : Int} (ho : 0 ≤ offset) :
    Returns (fat16GetClusterForOffset start offset) d fun r d' => SameVolume d d' ∧
      r = if h.SomeLink d.image start (offset.toNat / h.clusterSize) EndsWalk then - EIO
        else h.link d.image start (offset.toNat / h.clusterSize) := by
  obtain ⟨offset, rfl⟩ := Int.eq_ofNat_of_zero_le ho
  obtain ⟨p, hp, hh⟩ := ht.bound
  have hpos := ht.clusterSize_pos
  refine Returns.bind (fsPrivate_returns hp) ?_
  rintro _ _ ⟨rfl, rfl⟩
  refine Returns.bind (R := fun sector_size d₂ => 512 = sector_size ∧ d = d₂)
    (Returns.reads ⟨ht.sector_size.symm, rfl⟩) ?_
  rintro _ _ ⟨rfl, rfl⟩
  rw [sizeOfClusterBytes_eq ht hh, if_neg (by omega), Int.tdiv_eq_ediv_of_nonneg (by omega),
    ← Int.natCast_ediv, Int.toNat_natCast, Int.toNat_natCast]
  exact fat16GetClusterForOffsetLoop_walk ht _ start d (SameVolume.refl d) hstart

/-- The driver returns what the format says if it gives up at one of the links exactly
when one of them is not a data cluster. -/
theorem fat16GetClusterForOffset_followsLinks_iff {h : FatHeader} {d : Disk}
    (ht : FatTable h d) {start : Nat}
    (hstart : h.reserved_sectors * 512 + start * 2 + 2 ≤ 0x80000000) {offset : Int}
    (ho : 0 ≤ offset) :
    Returns (fat16GetClusterForOffset start offset) d
        (fun r _ => FollowsLinks h d.image start (offset.toNat / h.clusterSize) r) ↔
      (h.SomeLink d.image start (offset.toNat / h.clusterSize) EndsWalk ↔
        h.SomeLink d.image start (offset.toNat / h.clusterSize)
          fun entry => ¬ IsDataCluster entry) := by
  have hwalk := fat16GetClusterForOffset_walk ht hstart ho
  generalize hk : offset.toNat / h.clusterSize = k at hwalk ⊢
  have hEIO : EIO = 1 := rfl
  unfold FollowsLinks
  constructor
  · intro hspec
    obtain ⟨r, d', hok, -, hr⟩ := hwalk
    obtain ⟨hdata, hend⟩ := hspec.ensures r d' hok
    by_cases hends : h.SomeLink d.image start k EndsWalk
    · rw [if_pos hends] at hr
      refine iff_of_true hends ?_
      by_contra hall
      have := hdata hall
      omega
    · rw [if_neg hends] at hr
      refine iff_of_false hends fun hbad => ?_
      have := hend hbad
      omega
  · rintro hiff
    refine hwalk.mono ?_
    rintro r d' ⟨-, rfl⟩
    by_cases hends : h.SomeLink d.image start k EndsWalk
    · rw [if_pos hends]
      exact ⟨fun hall => absurd (hiff.mp hends) hall, fun _ => by omega⟩
    · rw [if_neg hends]
      exact ⟨fun _ => rfl, fun hbad => absurd (hiff.mpr hbad) hends⟩

/-- A link to the next cluster and an offset in that cluster: the driver follows it. -/
theorem fat16GetClusterForOffset_followsLinks_iff_data :
    Returns (fat16GetClusterForOffset (2 : Nat) 700) (Disk.withLink 3)
      fun r _ => FollowsLinks ⟨1, 1, 2, 512, 256, 0x29⟩ (Disk.withLink 3).image 2 1 r :=
  (@fat16GetClusterForOffset_followsLinks_iff _ _ (Disk.withLink_fatTable 3) 2 (by decide) 700
    (by decide)).mpr (by decide)

/-- The last cluster of a file, and an offset behind it: the end-of-chain marker is taken
for a cluster. -/
theorem fat16GetClusterForOffset_end_of_chain :
    ¬ Returns (fat16GetClusterForOffset (2 : Nat) 512) (Disk.withLink 0xFFF8)
      fun r _ => FollowsLinks ⟨1, 1, 2, 512, 256, 0x29⟩ (Disk.withLink 0xFFF8).image 2 1 r := by
  intro h
  have hwalk := @fat16GetClusterForOffset_walk _ _ (Disk.withLink_fatTable 0xFFF8) 2 (by decide)
    512 (by decide)
  obtain ⟨r, d', hok, -, hr⟩ := hwalk
  have hlt := (h.ensures r d' hok).2 (by decide)
  rw [if_neg (by decide)] at hr
  omega

end PlumOS
