import PlumOS.Fs.Fat16
import PlumOS.Lib.TwoRuns

/-!
# The streams do not matter

The volume's three streams are shared by all descriptors. Every function of the driver
that reads through one of them sets its position first, so what it returns depends on
the volume alone and not on where the streams were left.

## Main definitions

- `OnVolume`, `OnStream` — two states of one volume, also with one stream in step

## Main results

- `fat16ReadInternal_alike`, `fat16GetTotalItemsForDirectory_alike` — what is read depends on the volume alone
- `fat16ReadInternal_length` — no more is read than was asked for
- `fat16GetTotalItemsForDirectory_range` — how many entries are counted at most
-/

namespace PlumOS

open StateExcept

/-- Two states of the volume `d₀`. -/
def OnVolume (d₀ d d' : Disk) : Prop := SameVolume d₀ d ∧ SameVolume d₀ d'

/-- Two states of the volume `d₀` in which the stream is at the same position. -/
def OnStream (d₀ : Disk) (stream : Stream) (d d' : Disk) : Prop :=
  OnVolume d₀ d d' ∧ ∃ pos, StreamAt d stream pos ∧ StreamAt d' stream pos

variable {d₀ : Disk} {α : Type} {P : Disk → Disk → Prop} {Q : α → Disk → Disk → Prop}

/-! ### The streams -/

theorem SameVolume.unbound {d d' : Disk} (h : SameVolume d d') (hd : d.fs_private = none) :
    d'.fs_private = none := by
  have hh := h.header
  rw [hd] at hh
  simpa using hh

/-- A program that uses the header and the root directory of the volume. -/
theorem fsPrivate_bind_alike {f f' : FatPrivate → DM α} (hP : ∀ d d', P d d' → OnVolume d₀ d d')
    (hf : ∀ p p', p'.header = p.header → p'.root_directory = p.root_directory →
      Alike P (f p) (f' p') Q) : Alike P (fsPrivate >>= f) (fsPrivate >>= f') Q := by
  intro d d' hd
  obtain ⟨h₁, h₂⟩ := hP d d' hd
  have hsame : SameVolume d d' := h₁.symm.trans h₂
  cases hp : d.fs_private with
  | none =>
    have he : fsPrivate d = .error .badPointer := by
      unfold fsPrivate
      rw [hp]
    have he' : fsPrivate d' = .error .badPointer := by
      unfold fsPrivate
      rw [hsame.unbound hp]
    rw [bind_of_error he, bind_of_error he']
  | some p =>
    obtain ⟨p', hp', hheader, hroot⟩ := hsame.fs_private hp
    have ho : fsPrivate d = .ok (p, d) := by
      unfold fsPrivate
      rw [hp]
    have ho' : fsPrivate d' = .ok (p', d') := by
      unfold fsPrivate
      rw [hp']
    rw [bind_of_ok ho, bind_of_ok ho']
    exact hf p p' hheader hroot d d' hd

/-- A program that uses the sector size. -/
theorem sectorSize_bind_alike {f f' : Int → DM α} (hP : ∀ d d', P d d' → OnVolume d₀ d d')
    (hf : ∀ n, Alike P (f n) (f' n) Q) :
    Alike P (reads Disk.sector_size >>= f) (reads Disk.sector_size >>= f') Q := by
  intro d d' hd
  obtain ⟨h₁, h₂⟩ := hP d d' hd
  have hsize : d'.sector_size = d.sector_size := h₂.sector_size.trans h₁.sector_size.symm
  have := hf d.sector_size d d' hd
  rw [bind_of_ok (rfl : reads Disk.sector_size d = _), bind_of_ok (rfl : reads Disk.sector_size d' = _),
    hsize]
  exact this

theorem OnVolume.setPos {d d' : Disk} (h : OnVolume d₀ d d') {p p' : FatPrivate}
    (hp : d.fs_private = some p) (hp' : d'.fs_private = some p') (stream : Stream) (pos : Int) :
    OnStream d₀ stream { d with fs_private := some (p.setPos stream pos) }
      { d' with fs_private := some (p'.setPos stream pos) } := by
  refine ⟨⟨h.1.trans (sameVolume_setPos hp stream pos), h.2.trans (sameVolume_setPos hp' stream pos)⟩,
    pos, ⟨_, rfl, FatPrivate.setPos_pos ..⟩, _, rfl, FatPrivate.setPos_pos ..⟩

/-- A seek brings the two states in step. -/
theorem diskstreamerSeek_alike (stream : Stream) (pos : Int) :
    Alike (OnVolume d₀) (diskstreamerSeek stream pos) (diskstreamerSeek stream pos)
      fun _ => OnStream d₀ stream := by
  intro d d' hd
  have hsame : SameVolume d d' := hd.1.symm.trans hd.2
  unfold diskstreamerSeek
  cases hp : d.fs_private with
  | none =>
    have he : fsPrivate d = .error .badPointer := by
      unfold fsPrivate
      rw [hp]
    have he' : fsPrivate d' = .error .badPointer := by
      unfold fsPrivate
      rw [hsame.unbound hp]
    rw [bind_of_error he, bind_of_error he']
  | some p =>
    obtain ⟨p', hp', -, -⟩ := hsame.fs_private hp
    obtain ⟨_, _, ho, rfl, rfl⟩ := fsPrivate_returns hp
    obtain ⟨_, _, ho', rfl, rfl⟩ := fsPrivate_returns hp'
    rw [bind_of_ok ho, bind_of_ok ho']
    exact ⟨rfl, hd.setPos hp hp' stream pos⟩

/-- From a stream in step both read the same, and stay in step. -/
theorem diskstreamerRead_alike (stream : Stream) (total : Int) :
    Alike (OnStream d₀ stream) (diskstreamerRead stream total) (diskstreamerRead stream total)
      fun _ => OnStream d₀ stream := by
  rintro d d' ⟨hd, pos, ⟨p, hp, hpos⟩, p', hp', hpos'⟩
  have himage : d'.image = d.image := hd.2.image.trans hd.1.image.symm
  obtain ⟨_, _, ho, rfl, rfl⟩ := fsPrivate_returns hp
  obtain ⟨_, _, ho', rfl, rfl⟩ := fsPrivate_returns hp'
  unfold diskstreamerRead
  rw [bind_of_ok ho, bind_of_ok ho', bind_of_ok (rfl : reads id d = _),
    bind_of_ok (rfl : reads id d' = _), hpos, hpos', id_eq, id_eq,
    diskstreamerReadLoop_congr himage]
  cases diskstreamerReadLoop d (total.toNat + 1) pos total with
  | error e => rfl
  | ok r => exact ⟨rfl, hd.setPos hp hp' stream r.pos⟩

/-! ### The driver's reads -/

theorem fat16GetFatEntry_alike (cluster : Int) :
    Alike (OnVolume d₀) (fat16GetFatEntry cluster) (fat16GetFatEntry cluster)
      fun _ => OnVolume d₀ := by
  refine fsPrivate_bind_alike (fun _ _ h => h) fun p p' hh _ => ?_
  refine sectorSize_bind_alike (fun _ _ h => h) fun sector_size => ?_
  unfold fat16GetFirstFatSector
  rw [hh]
  refine .bind (diskstreamerSeek_alike _ _) fun _ => ?_
  refine .bind (diskstreamerRead_alike _ _) fun bytes => ?_
  exact .pure fun _ _ h => h.1

theorem fat16GetClusterForOffsetLoop_alike :
    ∀ (clusters_ahead : Nat) (cluster_to_use : Int),
      Alike (OnVolume d₀) (fat16GetClusterForOffsetLoop clusters_ahead cluster_to_use)
        (fat16GetClusterForOffsetLoop clusters_ahead cluster_to_use) fun _ => OnVolume d₀ := by
  intro clusters_ahead
  induction clusters_ahead with
  | zero => exact fun _ => .pure fun _ _ h => h
  | succ clusters_ahead ih =>
    intro cluster_to_use
    refine .bind (fat16GetFatEntry_alike _) fun entry => ?_
    refine .ite (fun _ => .pure fun _ _ h => h) fun _ => ?_
    refine .ite (fun _ => .pure fun _ _ h => h) fun _ => ?_
    refine .ite (fun _ => .pure fun _ _ h => h) fun _ => ?_
    exact .ite (fun _ => .pure fun _ _ h => h) fun _ => ih entry

theorem fat16GetClusterForOffset_alike (starting_cluster offset : Int) :
    Alike (OnVolume d₀) (fat16GetClusterForOffset starting_cluster offset)
      (fat16GetClusterForOffset starting_cluster offset) fun _ => OnVolume d₀ := by
  refine fsPrivate_bind_alike (fun _ _ h => h) fun p p' hh _ => ?_
  refine sectorSize_bind_alike (fun _ _ h => h) fun sector_size => ?_
  unfold sizeOfClusterBytes
  rw [hh]
  exact .ite (fun _ => .fails) fun _ => fat16GetClusterForOffsetLoop_alike _ _

theorem fat16ReadInternalFromStream_alike :
    ∀ (fuel : Nat) (cluster offset total : Int),
      Alike (OnVolume d₀) (fat16ReadInternalFromStream fuel cluster offset total)
        (fat16ReadInternalFromStream fuel cluster offset total) fun _ => OnVolume d₀ := by
  intro fuel
  induction fuel with
  | zero => exact fun _ _ _ => .fails
  | succ fuel ih =>
    intro cluster offset total
    refine fsPrivate_bind_alike (fun _ _ h => h) fun p p' hh hr => ?_
    refine sectorSize_bind_alike (fun _ _ h => h) fun sector_size => ?_
    unfold sizeOfClusterBytes fat16ClusterToSector
    rw [hh, hr]
    refine .bind (fat16GetClusterForOffset_alike _ _) fun cluster_to_use => ?_
    refine .ite (fun _ => .pure fun _ _ h => h) fun _ => ?_
    refine .bind (diskstreamerSeek_alike _ _) fun _ => ?_
    refine .bind (diskstreamerRead_alike _ _) fun bytes => ?_
    refine .ite (fun _ => ?_) fun _ => .pure fun _ _ h => h.1
    refine .bind ((ih _ _ _).mono (fun _ _ h => h.1) fun _ _ _ h => h) fun rest => ?_
    exact .pure fun _ _ h => h

/-- What the driver reads of a file depends on the volume alone. -/
theorem fat16ReadInternal_alike (starting_cluster offset total : Int) :
    Alike (OnVolume d₀) (fat16ReadInternal starting_cluster offset total)
      (fat16ReadInternal starting_cluster offset total) fun _ => OnVolume d₀ :=
  fat16ReadInternalFromStream_alike _ _ _ _

theorem fat16GetTotalItemsLoop_alike :
    ∀ (fuel : Nat) (i : Int), Alike (OnStream d₀ .directory_stream) (fat16GetTotalItemsLoop fuel i)
      (fat16GetTotalItemsLoop fuel i) fun _ => OnVolume d₀ := by
  intro fuel
  induction fuel with
  | zero => exact fun _ => .fails
  | succ fuel ih =>
    intro i
    refine .bind (diskstreamerRead_alike _ _) fun item => ?_
    refine .ite (fun _ => .pure fun _ _ h => h.1) fun _ => ?_
    exact .ite (fun _ => ih i) fun _ => ih (i + 1)

/-- So does the number of entries that the driver counts in a directory. -/
theorem fat16GetTotalItemsForDirectory_alike (directory_start_sector : Nat) :
    Alike (OnVolume d₀) (fat16GetTotalItemsForDirectory directory_start_sector)
      (fat16GetTotalItemsForDirectory directory_start_sector) fun _ => OnVolume d₀ := by
  refine sectorSize_bind_alike (fun _ _ h => h) fun sector_size => ?_
  exact .bind (diskstreamerSeek_alike _ _) fun _ => fat16GetTotalItemsLoop_alike _ _

/-- A program compared with itself leaves the volume as it is. -/
theorem Alike.keeps_volume {m : DM α} {d : Disk} (h : Alike (OnVolume d) m m fun _ => OnVolume d) :
    Ensures m d fun _ d' => SameVolume d d' := by
  intro a d' hm
  obtain ⟨d'', -, hd, -⟩ := h.returns ⟨.refl d, .refl d⟩ hm
  exact hd

/-! ### How much is read -/

/-- A read never delivers more bytes than it was asked for. -/
theorem diskstreamerReadLoop_length (disk : Disk) :
    ∀ (fuel : Nat) (pos total : Int), -0x80000000 ≤ total → total < 0x80000000 →
      ∀ r, diskstreamerReadLoop disk fuel pos total = .ok r → r.bytes.length ≤ total.toNat := by
  intro fuel
  induction fuel with
  | zero => intro pos total _ _ r h; cases h
  | succ fuel ih =>
    intro pos total h₁ h₂ r h
    have h512 : ((PLUMOS_SECTOR_SIZE : Nat) : Int) = 512 := rfl
    simp only [diskstreamerReadLoop, h512] at h
    have hlow : -512 < pos.tmod 512 := Int.lt_tmod_of_pos pos (by decide)
    have hhigh : pos.tmod 512 < 512 := Int.tmod_lt_of_pos pos (by decide)
    generalize pos.tmod 512 = offset at h hlow hhigh
    by_cases hover : 512 ≤ i32 (offset + total)
    · simp only [hover, if_true] at h
      -- the sum does not leave the `int` range, or the read starts before its sector
      have hread : i32 (total - (i32 (offset + total) - 512)) = 512 - offset := by
        unfold i32 at hover ⊢
        omega
      rw [hread] at h
      split at h
      · cases h
      · next hin =>
        have hoff : 0 ≤ offset := by omega
        have hsum : i32 (offset + total) = offset + total := by
          unfold i32 at hover ⊢
          omega
        rw [hsum] at hover
        rw [i32_of_range (x := total - (512 - offset)) (by omega) (by omega)] at h
        cases hrest : diskstreamerReadLoop disk fuel (i32 (pos + (512 - offset)))
            (total - (512 - offset)) with
        | error e => simp [hrest] at h
        | ok rest =>
          simp only [hrest, Except.ok.injEq] at h
          have := ih _ _ (by omega) (by omega) rest hrest
          rw [← h, List.length_append, readBytes_length]
          omega
    · simp only [hover, if_false] at h
      split at h
      · cases h
      · cases h
        rw [readBytes_length]

theorem diskstreamerRead_length (stream : Stream) {total : Int} (h₁ : -0x80000000 ≤ total)
    (h₂ : total < 0x80000000) {d : Disk} {p : FatPrivate} (hp : d.fs_private = some p) :
    Ensures (diskstreamerRead stream total) d fun bytes d' =>
      SameVolume d d' ∧ bytes.length ≤ total.toNat := by
  refine .bind (fsPrivate_returns hp).ensures ?_
  rintro _ _ ⟨rfl, rfl⟩
  refine .bind (R := fun disk d' => d = d' ∧ d = disk) (.reads ⟨rfl, rfl⟩) ?_
  rintro _ _ ⟨rfl, rfl⟩
  intro bytes d' h
  cases hloop : diskstreamerReadLoop d (total.toNat + 1) (p.pos stream) total with
  | error e =>
    rw [hloop] at h
    cases h
  | ok r =>
    rw [hloop] at h
    cases h
    exact ⟨sameVolume_setPos hp _ _, diskstreamerReadLoop_length d _ _ _ h₁ h₂ r hloop⟩

/-- The chunks of a read are no longer than what is left, and when the size of a cluster
comes out negative they are empty. -/
private theorem fat16ReadInternalFromStream_length {d₀ : Disk} {p₀ : FatPrivate}
    (hp₀ : d₀.fs_private = some p₀) :
    ∀ (fuel : Nat) (cluster offset total : Int) (d : Disk), -0x80000000 ≤ total →
      total < 0x80000000 → SameVolume d₀ d →
      Ensures (fat16ReadInternalFromStream fuel cluster offset total) d fun r _ =>
        r.2.length ≤ if 0 < sizeOfClusterBytes p₀ d₀.sector_size then total.toNat else 0 := by
  intro fuel
  induction fuel with
  | zero => exact fun _ _ _ _ _ _ _ => .fails
  | succ fuel ih =>
    intro cluster offset total d h₁ h₂ hsame
    obtain ⟨p, hp, hh, -⟩ := hsame.fs_private hp₀
    refine .bind (fsPrivate_returns hp).ensures ?_
    rintro _ _ ⟨rfl, rfl⟩
    refine .bind (R := fun n d' => d = d' ∧ n = d₀.sector_size) (.reads ⟨rfl, hsame.sector_size⟩) ?_
    rintro _ _ ⟨rfl, rfl⟩
    have hsize : sizeOfClusterBytes p d₀.sector_size = sizeOfClusterBytes p₀ d₀.sector_size := by
      unfold sizeOfClusterBytes
      rw [hh]
    have hrange : -0x80000000 ≤ sizeOfClusterBytes p₀ d₀.sector_size ∧
        sizeOfClusterBytes p₀ d₀.sector_size < 0x80000000 := i32_mem _
    dsimp only
    rw [hsize]
    generalize sizeOfClusterBytes p₀ d₀.sector_size = size at hrange ih ⊢
    refine .bind (Alike.keeps_volume (fat16GetClusterForOffset_alike cluster offset)) ?_
    intro cluster_to_use d₁ hsame₁
    split
    · exact .pure (Nat.zero_le _)
    obtain ⟨q, hq, -⟩ := (hsame.trans hsame₁).fs_private hp₀
    refine .bind (diskstreamerSeek_spec hq _ _).ensures ?_
    rintro _ d₂ ⟨hsame₂, -⟩
    have hsame₃ := (hsame.trans hsame₁).trans hsame₂
    generalize hread : (if size < total then size else total) = total_to_read
    have hle : -0x80000000 ≤ total_to_read ∧ total_to_read < 0x80000000 := by
      rw [← hread]
      split
      · exact hrange
      · exact ⟨h₁, h₂⟩
    obtain ⟨q₂, hq₂, -⟩ := hsame₃.fs_private hp₀
    refine .bind (diskstreamerRead_length _ hle.1 hle.2 hq₂) ?_
    rintro bytes d₃ ⟨hsame₄, hbytes⟩
    split
    · next hmore =>
      have htotal := i32_mem (total - total_to_read)
      refine .bind (ih _ _ _ d₃ htotal.1 htotal.2 (hsame₃.trans hsame₄)) ?_
      intro rest d₄ hrest
      refine .pure ?_
      rw [List.length_append]
      split at hrest
      · next hpos =>
        rw [if_pos hpos]
        have hnowrap : i32 (total - total_to_read) = total - total_to_read := by
          refine i32_of_range ?_ ?_
          · split at hread <;> omega
          · split at hread <;> omega
        rw [hnowrap] at hrest hmore
        split at hread <;> omega
      · next hneg =>
        rw [if_neg hneg]
        split at hread <;> omega
    · refine .pure ?_
      dsimp only
      split
      · split at hread <;> omega
      · split at hread <;> omega

/-- `fat16_read_internal` stores at most as many bytes as it is asked for. -/
theorem fat16ReadInternal_length (starting_cluster offset : Int) {total : Int}
    (h₁ : -0x80000000 ≤ total) (h₂ : total < 0x80000000) (d : Disk) :
    Ensures (fat16ReadInternal starting_cluster offset total) d fun r d' =>
      SameVolume d d' ∧ r.2.length ≤ total.toNat := by
  have hkeeps : Ensures (fat16ReadInternal starting_cluster offset total) d fun _ d' =>
      SameVolume d d' := Alike.keeps_volume (fat16ReadInternal_alike _ _ _)
  cases hp : d.fs_private with
  | none =>
    refine .and hkeeps ?_
    intro r d' h
    obtain ⟨p, d₁, hfs, -⟩ := bind_eq_ok.mp h
    unfold fsPrivate at hfs
    rw [hp] at hfs
    cases hfs
  | some p =>
    refine .and hkeeps ((fat16ReadInternalFromStream_length hp _ _ _ _ d h₁ h₂ (.refl d)).mono ?_)
    intro r d' hr
    split at hr
    · exact hr
    · omega

/-! ### How many entries are counted -/

/-- A read of at most a sector starts at or behind the start of its sector, and moves
the position by its length. -/
theorem diskstreamerReadLoop_pos (disk : Disk) :
    ∀ (fuel : Nat) (pos total : Int), 0 ≤ total → total ≤ 512 → -0x80000000 ≤ pos →
      pos < 0x80000000 → ∀ r, diskstreamerReadLoop disk fuel pos total = .ok r →
        (0 < total → 0 ≤ pos.tmod 512) ∧ r.pos = i32 (pos + total) := by
  intro fuel
  induction fuel with
  | zero => intro pos total _ _ _ _ r h; cases h
  | succ fuel ih =>
    intro pos total h₁ h₂ h₃ h₄ r h
    have h512 : ((PLUMOS_SECTOR_SIZE : Nat) : Int) = 512 := rfl
    simp only [diskstreamerReadLoop, h512] at h
    have hlow : -512 < pos.tmod 512 := Int.lt_tmod_of_pos pos (by decide)
    have hhigh : pos.tmod 512 < 512 := Int.tmod_lt_of_pos pos (by decide)
    generalize pos.tmod 512 = offset at h hlow hhigh ⊢
    rw [i32_of_range (x := offset + total) (by omega) (by omega)] at h
    by_cases hover : 512 ≤ offset + total
    · simp only [hover, if_true] at h
      rw [show total - (offset + total - 512) = 512 - offset by omega,
        i32_of_range (x := 512 - offset) (by omega) (by omega)] at h
      split at h
      · cases h
      rw [i32_of_range (x := total - (512 - offset)) (by omega) (by omega)] at h
      cases hrest : diskstreamerReadLoop disk fuel (i32 (pos + (512 - offset)))
          (total - (512 - offset)) with
      | error e => simp [hrest] at h
      | ok rest =>
        simp only [hrest, Except.ok.injEq] at h
        have hrange := i32_mem (pos + (512 - offset))
        have hpos := (ih _ _ (by omega) (by omega) hrange.1 hrange.2 rest hrest).2
        refine ⟨fun _ => by omega, ?_⟩
        rw [← h, hpos, i32_add_left]
        congr 1
        omega
    · simp only [hover, if_false] at h
      split at h
      · cases h
      · next hin =>
        cases h
        exact ⟨fun htotal => by omega, rfl⟩

/-- How many times 32 bytes can be read from the position on, less one. -/
private def roomAt (pos : Int) : Int :=
  if pos < 0 then if pos.tmod 512 = 0 then 0 else -1 else (0x8000001F - pos) / 32

private theorem roomAt_next {pos : Int} (h₁ : -0x80000000 ≤ pos) (h₂ : pos < 0x80000000)
    (hmod : 0 ≤ pos.tmod 512) : 0 ≤ roomAt pos ∧ roomAt (i32 (pos + 32)) + 1 ≤ roomAt pos := by
  have htmod : ∀ x : Int, x < 0 → x.tmod 512 = -((-x) % 512) := by
    intro x hx
    rw [← Int.tmod_eq_emod_of_nonneg (by omega), Int.neg_tmod, neg_neg]
  unfold roomAt
  rcases lt_or_ge pos 0 with hneg | hpos
  · -- a negative position is one of a sector, and the next one is behind it
    rw [htmod pos hneg] at hmod ⊢
    rw [i32_of_range (by omega) (by omega), if_pos hneg, if_pos (by omega), if_pos (by omega),
      htmod _ (by omega), if_neg (by omega)]
    decide
  · rw [if_neg (by omega)]
    refine ⟨by omega, ?_⟩
    rcases lt_or_ge (pos + 32) 0x80000000 with hlt | hge
    · rw [i32_of_range (by omega) (by omega), if_neg (by omega)]
      omega
    · rw [if_pos (by unfold i32; omega)]
      split <;> omega

private theorem fat16GetTotalItemsLoop_range : ∀ (fuel : Nat) (i : Int) (d : Disk) (p : FatPrivate),
    d.fs_private = some p → -0x80000000 ≤ p.directory_stream → p.directory_stream < 0x80000000 →
      Ensures (fat16GetTotalItemsLoop fuel i) d fun total _ =>
        i ≤ total ∧ total ≤ i + roomAt p.directory_stream := by
  intro fuel
  induction fuel with
  | zero => exact fun _ _ _ _ _ _ => .fails
  | succ fuel ih =>
    intro i d p hp h₁ h₂
    refine .bind (R := fun _ d' => 0 ≤ p.directory_stream.tmod 512 ∧ d'.fs_private =
      some (p.setPos .directory_stream (i32 (p.directory_stream + 32)))) ?_ ?_
    · refine .bind (fsPrivate_returns hp).ensures ?_
      rintro _ _ ⟨rfl, rfl⟩
      refine .bind (R := fun disk d' => d = d' ∧ d = disk) (.reads ⟨rfl, rfl⟩) ?_
      rintro _ _ ⟨rfl, rfl⟩
      intro bytes d' h
      cases hloop : diskstreamerReadLoop d ((sizeofFatDirectoryItem : Int).toNat + 1)
          (p.pos .directory_stream) sizeofFatDirectoryItem with
      | error e =>
        rw [hloop] at h
        cases h
      | ok r =>
        rw [hloop] at h
        cases h
        obtain ⟨hmod, hpos⟩ := diskstreamerReadLoop_pos d _ _ _ (by decide) (by decide) h₁ h₂ r hloop
        exact ⟨hmod (by decide), by rw [hpos]; rfl⟩
    · rintro item d' ⟨hmod, hp'⟩
      obtain ⟨hroom, hnext⟩ := roomAt_next h₁ h₂ hmod
      have hrange := i32_mem (p.directory_stream + 32)
      split
      · exact .pure ⟨le_rfl, by omega⟩
      split
      · refine (ih i d' _ hp' hrange.1 hrange.2).mono ?_
        rintro total _ ⟨hle, hub⟩
        refine ⟨hle, hub.trans ?_⟩
        change i + roomAt (i32 (p.directory_stream + 32)) ≤ _
        omega
      · refine (ih (i + 1) d' _ hp' hrange.1 hrange.2).mono ?_
        rintro total _ ⟨hle, hub⟩
        refine ⟨by omega, hub.trans ?_⟩
        change i + 1 + roomAt (i32 (p.directory_stream + 32)) ≤ _
        omega

/-- The count of a directory's entries ends before the stream's position overflows. -/
theorem fat16GetTotalItemsForDirectory_range (directory_start_sector : Nat) (d : Disk) :
    Ensures (fat16GetTotalItemsForDirectory directory_start_sector) d fun total _ =>
      0 ≤ total ∧ total ≤ 0x4000000 := by
  refine .bind (R := fun _ d' => d = d') (.reads rfl) ?_
  rintro sector_size _ rfl
  refine .bind (R := fun _ d' => ∃ p, d'.fs_private = some p ∧
    -0x80000000 ≤ p.directory_stream ∧ p.directory_stream < 0x80000000) ?_ ?_
  · refine .bind (fsPrivate_spec d) ?_
    rintro p _ ⟨rfl, -⟩
    exact .modifies ⟨_, rfl, i32_mem _⟩
  · rintro _ d' ⟨p, hp, h₁, h₂⟩
    refine (fat16GetTotalItemsLoop_range _ 0 d' p hp h₁ h₂).mono ?_
    rintro total _ ⟨hle, hub⟩
    refine ⟨hle, hub.trans ?_⟩
    unfold roomAt
    split
    · split <;> omega
    · omega

end PlumOS
