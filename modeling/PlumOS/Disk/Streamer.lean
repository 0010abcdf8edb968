import PlumOS.Kernel.State

/-!
# The disk streamer

`disk/disk.c` and `disk/streamer.c`. The drive delivers the sector it is asked for,
so `disk_read_block` never fails on the only disk there is, and `diskstreamer_read`
and `diskstreamer_seek` always return `PLUMOS_ALL_OK`; their callers' tests for
another status are left out.

## Main definitions

- `DM` — functions that run on the disk
- `diskstreamerReadLoop` — the recursion of `diskstreamer_read` over the sectors
- `streamByte` — the byte a stream delivers at a position
-/

namespace PlumOS

open StateExcept

/-- Functions of the disk and its filesystem. -/
abbrev DM := StateT Disk (Except Fault)

/-- Run a function of the disk on the kernel's disk. -/
def onDisk {α : Type} (m : DM α) : KM α := fun k =>
  match m k.disk with
  | .error e => .error e
  | .ok (a, disk) => .ok (a, { k with disk := disk })

/-- `disk->fs_private`. -/
def fsPrivate : DM FatPrivate := fun disk =>
  match disk.fs_private with
  | none => .error .badPointer
  | some fat_private => .ok (fat_private, disk)

/-- The streams of `struct fat_private`. -/
inductive Stream
  | cluster_read_stream
  | fat_read_stream
  | directory_stream

def FatPrivate.pos (p : FatPrivate) : Stream → Int
  | .cluster_read_stream => p.cluster_read_stream
  | .fat_read_stream => p.fat_read_stream
  | .directory_stream => p.directory_stream

def FatPrivate.setPos (p : FatPrivate) (stream : Stream) (pos : Int) : FatPrivate :=
  match stream with
  | .cluster_read_stream => { p with cluster_read_stream := pos }
  | .fat_read_stream => { p with fat_read_stream := pos }
  | .directory_stream => { p with directory_stream := pos }

@[simp] theorem FatPrivate.setPos_pos (p : FatPrivate) (stream : Stream) (pos : Int) :
    (p.setPos stream pos).pos stream = pos := by
  cases stream <;> rfl

@[simp] theorem FatPrivate.setPos_header (p : FatPrivate) (stream : Stream) (pos : Int) :
    (p.setPos stream pos).header = p.header := by
  cases stream <;> rfl

@[simp] theorem FatPrivate.setPos_root_directory (p : FatPrivate) (stream : Stream) (pos : Int) :
    (p.setPos stream pos).root_directory = p.root_directory := by
  cases stream <;> rfl

/-- `disk_read_block(disk, lba, 1, buf)`: byte `i` of the sector. -/
def diskReadBlock (disk : Disk) (lba : Nat) (i : Nat) : UInt8 :=
  disk.image (512 * lba + i)

/-- What a read of a stream delivers: the bytes, the position it leaves, and the
sectors it asks of the disk in order. -/
structure StreamRead where
  bytes : List UInt8
  pos : Int
  sectors : List Nat

/-- `diskstreamer_read` from position `pos`. A call reads at most up to the end of its
sector and calls itself for the rest. -/
def diskstreamerReadLoop (disk : Disk) : (fuel : Nat) → (pos total : Int) → Except Fault StreamRead
  | 0, _, _ => .error .divergence
  | fuel + 1, pos, total =>
    let sector := pos.tdiv PLUMOS_SECTOR_SIZE
    let offset := pos.tmod PLUMOS_SECTOR_SIZE
    let overflow := (PLUMOS_SECTOR_SIZE : Int) ≤ i32 (offset + total)
    let total_to_read :=
      if overflow then i32 (total - (i32 (offset + total) - PLUMOS_SECTOR_SIZE)) else total
    if 0 < total_to_read ∧ (offset < 0 ∨ PLUMOS_SECTOR_SIZE < offset + total_to_read) then
      .error .outOfBounds
    else
      let bytes := readBytes (diskReadBlock disk (u32 sector)) offset.toNat total_to_read.toNat
      let pos := i32 (pos + total_to_read)
      if overflow then
        match diskstreamerReadLoop disk fuel pos (i32 (total - total_to_read)) with
        | .error e => .error e
        | .ok rest => .ok ⟨bytes ++ rest.bytes, rest.pos, u32 sector :: rest.sectors⟩
      else .ok ⟨bytes, pos, [u32 sector]⟩

/-- `diskstreamer_read`. Every call reads at least one byte less than the one before. -/
def diskstreamerRead (stream : Stream) (total : Int) : DM (List UInt8) := do
  let fat_private ← fsPrivate
  let disk ← reads id
  match diskstreamerReadLoop disk (total.toNat + 1) (fat_private.pos stream) total with
  | .error e => fails e
  | .ok r => do
    modifies fun disk => { disk with fs_private := some (fat_private.setPos stream r.pos) }
    pure r.bytes

/-- `diskstreamer_seek`. -/
def diskstreamerSeek (stream : Stream) (pos : Int) : DM PUnit := do
  let fat_private ← fsPrivate
  modifies fun disk => { disk with fs_private := some (fat_private.setPos stream pos) }

/-! ### What a stream delivers -/

/-- The byte a stream delivers at position `p`. From 2 GiB on the position is negative
and the sector number is that of its two's complement. -/
def streamByte (disk : Disk) (p : Nat) : UInt8 :=
  diskReadBlock disk (u32 ((i32 ((512 * (p / 512) : Nat) : Int)).tdiv 512)) (p % 512)

/-- The sectors a read of `total` bytes at position `p` asks of the disk, in order. -/
def requestedSectors (p total : Nat) : List Nat :=
  (List.range ((p % 512 + total) / 512 + 1)).map fun j =>
    u32 ((i32 ((512 * (p / 512 + j) : Nat) : Int)).tdiv 512)

/-- A read that goes on in the next sector. -/
theorem requestedSectors_next {p n total : Nat} (hn : p % 512 + n = 512) (htotal : n ≤ total) :
    requestedSectors p total =
      u32 ((i32 ((512 * (p / 512) : Nat) : Int)).tdiv 512) :: requestedSectors (p + n) (total - n) := by
  unfold requestedSectors
  rw [show (p % 512 + total) / 512 + 1 = ((p + n) % 512 + (total - n)) / 512 + 1 + 1 by omega,
    List.range_succ_eq_map, List.map_cons, List.map_map, Nat.add_zero, List.cons_inj_right]
  apply List.map_congr_left
  intro j _
  rw [Function.comp_apply, show p / 512 + j.succ = (p + n) / 512 + j by omega]

theorem requestedSectors_last {p total : Nat} (h : p % 512 + total < 512) :
    requestedSectors p total = [u32 ((i32 ((512 * (p / 512) : Nat) : Int)).tdiv 512)] := by
  unfold requestedSectors
  rw [Nat.div_eq_of_lt h, Nat.zero_add, List.range_one, List.map_singleton, Nat.add_zero]

/-- Below 2 GiB it is the byte of the disk. -/
theorem streamByte_of_lt (disk : Disk) {p : Nat} (hp : p < 0x80000000) :
    streamByte disk p = disk.image p := by
  unfold streamByte diskReadBlock
  rw [i32_of_range (by omega) (by omega), Int.tdiv_eq_ediv_of_nonneg (by omega),
    u32_of_range (by omega) (by omega)]
  congr 1
  omega

/-- A position whose sector and offset `diskstreamer_read` computes without going
below the sector: any below 2 GiB, and the sector boundaries behind. -/
def Streamable (p : Nat) : Prop := p < 0x80000000 ∨ p < 0xC0000000 ∧ p % 512 = 0

private theorem Streamable.split {p : Nat} (h : Streamable p) :
    (i32 p).tmod 512 = ((p % 512 : Nat) : Int) ∧
      (i32 p).tdiv 512 = (i32 ((512 * (p / 512) : Nat) : Int)).tdiv 512 := by
  rcases h with hlt | ⟨hlt, h0⟩
  · rw [i32_of_range (by omega) (by omega), i32_of_range (by omega) (by omega),
      Int.tmod_eq_emod_of_nonneg (by omega), Int.tdiv_eq_ediv_of_nonneg (by omega),
      Int.tdiv_eq_ediv_of_nonneg (by omega)]
    omega
  · have hp : 512 * (p / 512) = p := by omega
    obtain ⟨m, hm⟩ : ∃ m : Int, i32 p = 512 * m := by
      unfold i32
      exact ⟨((p : Int) + 0x80000000) % 0x100000000 / 512 - 0x400000, by omega⟩
    rw [hp, hm, h0]
    exact ⟨Int.mul_tmod_right .., rfl⟩

/-- The recursion over the sectors delivers consecutive bytes. -/
theorem diskstreamerReadLoop_spec (disk : Disk) :
    ∀ (fuel p total : Nat), total < fuel → Streamable p → p + total < 0xC0000000 →
      total ≤ 0x7FFFFE00 → diskstreamerReadLoop disk fuel (i32 p) total =
        .ok ⟨readBytes (streamByte disk) p total, i32 ((p + total : Nat) : Int),
          requestedSectors p total⟩ := by
  intro fuel
  induction fuel with
  | zero => intro p total h; omega
  | succ fuel ih =>
    intro p total hfuel hp hend htotal
    obtain ⟨hoff, hsec⟩ := hp.split
    have h512 : ((PLUMOS_SECTOR_SIZE : Nat) : Int) = 512 := rfl
    simp only [diskstreamerReadLoop, h512, hoff, hsec]
    have hsum : i32 (((p % 512 : Nat) : Int) + total) = ((p % 512 : Nat) : Int) + total :=
      i32_of_range (by omega) (by omega)
    have hchunk : ∀ n, p % 512 + n ≤ 512 →
        readBytes (diskReadBlock disk (u32 ((i32 ((512 * (p / 512) : Nat) : Int)).tdiv 512)))
          (p % 512) n = readBytes (streamByte disk) p n := by
      intro n hn
      apply readBytes_congr
      intro i hi
      unfold streamByte
      rw [show (p + i) / 512 = p / 512 by omega, show (p + i) % 512 = p % 512 + i by omega]
    have hpos : ∀ n : Nat, i32 (i32 p + (n : Int)) = i32 ((p + n : Nat) : Int) := by
      intro n
      rw [i32_add_left, Int.natCast_add]
    rw [hsum]
    by_cases hover : (512 : Int) ≤ ((p % 512 : Nat) : Int) + total
    · -- the read goes on in the next sector
      obtain ⟨n, hn⟩ : ∃ n : Nat, p % 512 + n = 512 := ⟨512 - p % 512, by omega⟩
      have hread : i32 ((total : Int) - (((p % 512 : Nat) : Int) + total - 512)) = (n : Int) := by
        rw [i32_of_range (by omega) (by omega)]
        omega
      have hrest : i32 ((total : Int) - n) = ((total - n : Nat) : Int) := by
        rw [i32_of_range (by omega) (by omega)]
        omega
      have hnext : Streamable (p + n) := by
        unfold Streamable at hp ⊢
        omega
      have hloop := ih (p + n) (total - n) (by omega) hnext (by omega) (by omega)
      simp only [hover, if_true, hread, hrest]
      rw [if_neg (by omega), hpos n, hloop, Int.toNat_natCast, Int.toNat_natCast,
        hchunk n (by omega)]
      dsimp only
      rw [← readBytes_append, show n + (total - n) = total by omega,
        show p + n + (total - n) = p + total by omega,
        requestedSectors_next hn (by omega)]
    · simp only [hover, if_false]
      rw [if_neg (by omega), hpos total, Int.toNat_natCast, Int.toNat_natCast,
        hchunk total (by omega), requestedSectors_last (by omega)]

/-- The loop looks at the disk's bytes only. -/
theorem diskstreamerReadLoop_congr {d d' : Disk} (h : d'.image = d.image) (fuel : Nat)
    (pos total : Int) : diskstreamerReadLoop d' fuel pos total = diskstreamerReadLoop d fuel pos total := by
  have hblock : diskReadBlock d' = diskReadBlock d := by
    unfold diskReadBlock
    rw [h]
  induction fuel generalizing pos total with
  | zero => rfl
  | succ fuel ih =>
    unfold diskstreamerReadLoop
    rw [hblock]
    simp only [ih]

/-! ### The state of the disk -/

/-- The same volume, up to the positions of its streams. -/
structure SameVolume (d d' : Disk) : Prop where
  sector_size : d'.sector_size = d.sector_size
  image : d'.image = d.image
  header : d'.fs_private.map FatPrivate.header = d.fs_private.map FatPrivate.header
  root_directory : d'.fs_private.map FatPrivate.root_directory =
    d.fs_private.map FatPrivate.root_directory

theorem SameVolume.refl (d : Disk) : SameVolume d d := ⟨rfl, rfl, rfl, rfl⟩

theorem SameVolume.symm {d d' : Disk} (h : SameVolume d d') : SameVolume d' d :=
  ⟨h.sector_size.symm, h.image.symm, h.header.symm, h.root_directory.symm⟩

theorem SameVolume.trans {d₁ d₂ d₃ : Disk} (h : SameVolume d₁ d₂) (h' : SameVolume d₂ d₃) :
    SameVolume d₁ d₃ where
  sector_size := h'.sector_size.trans h.sector_size
  image := h'.image.trans h.image
  header := h'.header.trans h.header
  root_directory := h'.root_directory.trans h.root_directory

theorem SameVolume.streamByte {d d' : Disk} (h : SameVolume d d') (p : Nat) :
    streamByte d' p = streamByte d p := by
  unfold PlumOS.streamByte diskReadBlock
  rw [h.image]

/-- With the filesystem bound in one, it is bound in the other. -/
theorem SameVolume.fs_private {d d' : Disk} {p : FatPrivate} (h : SameVolume d d')
    (hp : d.fs_private = some p) : ∃ p', d'.fs_private = some p' ∧ p'.header = p.header ∧
      p'.root_directory = p.root_directory := by
  have hh := h.header
  have hr := h.root_directory
  rw [hp] at hh hr
  cases hp' : d'.fs_private with
  | none => simp [hp'] at hh
  | some p' =>
    simp only [hp', Option.map_some, Option.some.injEq] at hh hr
    exact ⟨p', rfl, hh, hr⟩

/-- A function of the disk changes nothing else. -/
theorem onDisk_returns {α : Type} {m : DM α} {k : Kernel} {Q : α → Disk → Prop}
    (hm : Returns m k.disk Q) :
    Returns (onDisk m) k fun a k' => Q a k'.disk ∧ k' = { k with disk := k'.disk } := by
  obtain ⟨a, d', hok, hQ⟩ := hm
  refine ⟨a, { k with disk := d' }, ?_, hQ, rfl⟩
  unfold onDisk
  rw [hok]

theorem onDisk_spec {α : Type} (m : DM α) (k : Kernel) :
    Ensures (onDisk m) k fun _ k' => k' = { k with disk := k'.disk } := by
  intro a k' h
  unfold onDisk at h
  cases hm : m k.disk with
  | error e => simp [hm] at h
  | ok r =>
    simp only [hm, Except.ok.injEq, Prod.mk.injEq] at h
    rw [← h.2]

theorem onDisk_ensures {α : Type} {m : DM α} {k : Kernel} {Q : α → Disk → Prop}
    (hm : Ensures m k.disk Q) : Ensures (onDisk m) k fun a k' => Q a k'.disk := by
  intro a k' h
  unfold onDisk at h
  cases hr : m k.disk with
  | error e => simp [hr] at h
  | ok r =>
    simp only [hr, Except.ok.injEq, Prod.mk.injEq] at h
    rw [← h.1, ← h.2]
    exact hm _ _ hr

theorem fsPrivate_spec (d : Disk) :
    Ensures fsPrivate d fun p d' => d = d' ∧ d.fs_private = some p := by
  intro p d' h
  unfold fsPrivate at h
  split at h
  · cases h
  · next q hq =>
    cases h
    exact ⟨rfl, hq⟩

theorem fsPrivate_returns {d : Disk} {p : FatPrivate} (hp : d.fs_private = some p) :
    Returns fsPrivate d fun q d' => d = d' ∧ p = q := by
  refine ⟨p, d, ?_, rfl, rfl⟩
  unfold fsPrivate
  rw [hp]

theorem sameVolume_setPos {d : Disk} {p : FatPrivate} (hp : d.fs_private = some p)
    (stream : Stream) (pos : Int) :
    SameVolume d { d with fs_private := some (p.setPos stream pos) } := by
  refine ⟨rfl, rfl, ?_, ?_⟩
  · simp [hp]
  · simp [hp]

/-- The stream is at `pos`. -/
def StreamAt (d : Disk) (stream : Stream) (pos : Int) : Prop :=
  ∃ p, d.fs_private = some p ∧ p.pos stream = pos

theorem diskstreamerSeek_spec {d : Disk} {p : FatPrivate} (hp : d.fs_private = some p)
    (stream : Stream) (pos : Int) :
    Returns (diskstreamerSeek stream pos) d fun _ d' => SameVolume d d' ∧ StreamAt d' stream pos := by
  refine Returns.bind (fsPrivate_returns hp) ?_
  rintro _ _ ⟨rfl, rfl⟩
  exact Returns.modifies ⟨sameVolume_setPos hp _ _, _, rfl, FatPrivate.setPos_pos ..⟩

/-- A read delivers the bytes from the stream's position on, and leaves it behind them. -/
theorem diskstreamerRead_next {d : Disk} {stream : Stream} {pos total : Nat}
    (hat : StreamAt d stream (i32 pos)) (hpos : Streamable pos) (hend : pos + total < 0xC0000000)
    (htotal : total ≤ 0x7FFFFE00) :
    Returns (diskstreamerRead stream total) d fun bytes d' =>
      bytes = readBytes (streamByte d) pos total ∧ SameVolume d d' ∧
        StreamAt d' stream (i32 ((pos + total : Nat) : Int)) := by
  obtain ⟨p, hp, hat⟩ := hat
  refine Returns.bind (fsPrivate_returns hp) ?_
  rintro _ _ ⟨rfl, rfl⟩
  refine Returns.bind (R := fun d₁ d₂ => d = d₁ ∧ d = d₂) (Returns.reads ⟨rfl, rfl⟩) ?_
  rintro _ _ ⟨rfl, rfl⟩
  have hloop := diskstreamerReadLoop_spec d (total + 1) pos total (by omega) hpos hend htotal
  rw [Int.toNat_natCast, hat, hloop]
  refine Returns.bind (R := fun _ d₁ => SameVolume d d₁ ∧
    StreamAt d₁ stream (i32 ((pos + total : Nat) : Int)))
    (Returns.modifies ⟨sameVolume_setPos hp _ _, _, rfl, FatPrivate.setPos_pos ..⟩) ?_
  intro _ d₁ hsame
  exact Returns.pure ⟨rfl, hsame⟩

theorem diskstreamerRead_spec {d : Disk} {stream : Stream} {pos total : Nat}
    (hat : StreamAt d stream (i32 pos)) (hpos : Streamable pos) (hend : pos + total < 0xC0000000)
    (htotal : total ≤ 0x7FFFFE00) :
    Returns (diskstreamerRead stream total) d fun bytes d' =>
      bytes = readBytes (streamByte d) pos total ∧ SameVolume d d' :=
  (diskstreamerRead_next hat hpos hend htotal).mono fun _ _ h => ⟨h.1, h.2.1⟩

end PlumOS
