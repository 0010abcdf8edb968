import PlumOS.Disk.Streamer
import PlumOS.Lib.LoggedState

/-!
# Reading a stream into memory

`diskstreamer_read` statement by statement: every call loads one sector into `buf`,
copies what it needs of it to `out`, moves the stream on and calls itself for the
rest.

## Main definitions

- `diskstreamerReadInto` — `diskstreamer_read` with its `out` pointer and its status
- `diskstreamerReadLogged` — the same with the sectors it asks of the disk
- `RequestsOverlapping` — exactly the sectors that overlap a range, each once

## Main results

- `diskstreamerReadInto_of_loop` — it stores the bytes of `diskstreamerReadLoop`
- `diskstreamerReadInto_exact` — it stores the bytes of the disk, and in two reads the
  same as in one
- `diskstreamerRead_requests_iff` — when no other sectors are asked for
-/

namespace PlumOS

open StateExcept

/-- `disk_read_block(stream->disk, lba, 1, buf)`: its status and what it loads into
`buf`. -/
def diskReadBlockInto (lba : Nat) : DM (Int × (Nat → UInt8)) :=
  reads fun disk => (0, diskReadBlock disk lba)

/-- The calls of `diskstreamer_read`. -/
def diskstreamerReadIntoLoop (stream : Stream) :
    (fuel : Nat) → (out : Nat) → (total : Int) → KM Int
  | 0, _, _ => fails .divergence
  | fuel + 1, out, total => do
    let pos := (← onDisk fsPrivate).pos stream
    let sector := pos.tdiv PLUMOS_SECTOR_SIZE
    let offset := pos.tmod PLUMOS_SECTOR_SIZE
    let overflow := (PLUMOS_SECTOR_SIZE : Int) ≤ i32 (offset + total)
    let total_to_read :=
      if overflow then i32 (total - (i32 (offset + total) - PLUMOS_SECTOR_SIZE)) else total
    let (res, buf) ← onDisk (diskReadBlockInto (u32 sector))
    if res < 0 then
      pure res
    else if 0 < total_to_read ∧ (offset < 0 ∨ PLUMOS_SECTOR_SIZE < offset + total_to_read) then
      fails .outOfBounds
    else do
      storeBytes out (readBytes buf offset.toNat total_to_read.toNat)
      onDisk (diskstreamerSeek stream (i32 (pos + total_to_read)))
      if overflow then
        diskstreamerReadIntoLoop stream fuel (out + total_to_read.toNat)
          (i32 (total - total_to_read))
      else
        pure res

/-- `diskstreamer_read`. -/
def diskstreamerReadInto (stream : Stream) (out : Nat) (total : Int) : KM Int :=
  diskstreamerReadIntoLoop stream (total.toNat + 1) out total

/-- The kernel with a stream of the disk moved to `pos`. -/
def Kernel.seeked (k : Kernel) (stream : Stream) (pos : Int) : Kernel :=
  { k with disk := { k.disk with fs_private := k.disk.fs_private.map (·.setPos stream pos) } }

/-- The kernel with `bytes` written from `out` on. -/
def Kernel.written (k : Kernel) (out : Nat) (bytes : List UInt8) : Kernel :=
  { k with mem := writeBytes k.mem out bytes }

theorem FatPrivate.setPos_setPos (p : FatPrivate) (stream : Stream) (pos pos' : Int) :
    (p.setPos stream pos).setPos stream pos' = p.setPos stream pos' := by
  cases stream <;> rfl

theorem Kernel.seeked_seeked (k : Kernel) (stream : Stream) (pos pos' : Int) :
    (k.seeked stream pos).seeked stream pos' = k.seeked stream pos' := by
  unfold Kernel.seeked
  cases k.disk.fs_private with
  | none => rfl
  | some p => simp [FatPrivate.setPos_setPos]

theorem Kernel.written_written (k : Kernel) (out : Nat) (l l' : List UInt8) :
    (k.written out l).written (out + l.length) l' = k.written out (l ++ l') := by
  unfold Kernel.written
  simp only [writeBytes_append]

theorem Kernel.written_seeked (k : Kernel) (stream : Stream) (pos : Int) (out : Nat)
    (l : List UInt8) : (k.written out l).seeked stream pos = (k.seeked stream pos).written out l :=
  rfl

theorem onDisk_of_ok {α : Type} {m : DM α} {k : Kernel} {a : α} {d : Disk}
    (h : m k.disk = .ok (a, d)) : onDisk m k = .ok (a, { k with disk := d }) := by
  unfold onDisk
  rw [h]

theorem StreamAt.seeked {k : Kernel} {stream : Stream} {pos : Int}
    (h : StreamAt k.disk stream pos) (pos' : Int) :
    StreamAt (k.seeked stream pos').disk stream pos' := by
  obtain ⟨p, hp, -⟩ := h
  refine ⟨p.setPos stream pos', ?_, FatPrivate.setPos_pos ..⟩
  simp [Kernel.seeked, hp]

theorem StreamAt.onDisk_fsPrivate {k : Kernel} {stream : Stream} {pos : Int}
    (h : StreamAt k.disk stream pos) :
    ∃ p, onDisk fsPrivate k = .ok (p, k) ∧ p.pos stream = pos := by
  obtain ⟨p, hp, hpos⟩ := h
  refine ⟨p, onDisk_of_ok (d := k.disk) ?_, hpos⟩
  unfold fsPrivate
  rw [hp]

theorem StreamAt.onDisk_seek {k : Kernel} {stream : Stream} {pos : Int}
    (h : StreamAt k.disk stream pos) (pos' : Int) :
    onDisk (diskstreamerSeek stream pos') k = .ok (⟨⟩, k.seeked stream pos') := by
  obtain ⟨p, hp, -⟩ := h
  have hpriv : fsPrivate k.disk = .ok (p, k.disk) := by
    unfold fsPrivate
    rw [hp]
  refine (onDisk_of_ok (bind_of_ok hpriv)).trans ?_
  simp [Kernel.seeked, hp]

/-! ### The sectors asked for -/

/-- The calls of `diskstreamer_read`, with the number of every sector that is asked of the
disk. -/
def diskstreamerReadLoggedLoop (stream : Stream) :
    (fuel : Nat) → (out : Nat) → (total : Int) → StateT (Kernel × List Nat) (Except Fault) Int
  | 0, _, _ => fails .divergence
  | fuel + 1, out, total => do
    let pos := (← silent (onDisk fsPrivate)).pos stream
    let sector := pos.tdiv PLUMOS_SECTOR_SIZE
    let offset := pos.tmod PLUMOS_SECTOR_SIZE
    let overflow := (PLUMOS_SECTOR_SIZE : Int) ≤ i32 (offset + total)
    let total_to_read :=
      if overflow then i32 (total - (i32 (offset + total) - PLUMOS_SECTOR_SIZE)) else total
    let (res, buf) ← logged (fun _ => u32 sector) (onDisk (diskReadBlockInto (u32 sector)))
    if res < 0 then
      pure res
    else if 0 < total_to_read ∧ (offset < 0 ∨ PLUMOS_SECTOR_SIZE < offset + total_to_read) then
      fails .outOfBounds
    else do
      silent (storeBytes out (readBytes buf offset.toNat total_to_read.toNat))
      silent (onDisk (diskstreamerSeek stream (i32 (pos + total_to_read))))
      if overflow then
        diskstreamerReadLoggedLoop stream fuel (out + total_to_read.toNat)
          (i32 (total - total_to_read))
      else
        pure res

def diskstreamerReadLogged (stream : Stream) (out : Nat) (total : Int) :
    StateT (Kernel × List Nat) (Except Fault) Int :=
  diskstreamerReadLoggedLoop stream (total.toNat + 1) out total

theorem diskstreamerReadLoggedLoop_erases (stream : Stream) : ∀ fuel out total,
    Erases (diskstreamerReadLoggedLoop stream fuel out total)
      (diskstreamerReadIntoLoop stream fuel out total) := by
  intro fuel
  induction fuel with
  | zero => exact fun _ _ _ => rfl
  | succ fuel ih =>
    intro out total
    apply Erases.bind (.silent _)
    intro fat_private
    apply Erases.bind (.logged _ _)
    rintro ⟨res, buf⟩
    apply Erases.ite (.pure _)
    apply Erases.ite (.fails _)
    apply Erases.bind (.silent _)
    intro _
    apply Erases.bind (.silent _)
    intro _
    exact Erases.ite (ih _ _) (.pure _)

/-- Without the log it is `diskstreamer_read`. -/
theorem diskstreamerReadLogged_erases (stream : Stream) (out : Nat) (total : Int) :
    Erases (diskstreamerReadLogged stream out total) (diskstreamerReadInto stream out total) :=
  diskstreamerReadLoggedLoop_erases stream _ _ _

/-- Statement by statement it asks for the sectors of the loop on the disk, stores the bytes
of that loop from `out` on, and leaves the stream where the loop does. -/
theorem diskstreamerReadLogged_of_loop (stream : Stream) :
    ∀ (fuel out : Nat) (pos total : Int) (k : Kernel) (log : List Nat) (r : StreamRead),
      StreamAt k.disk stream pos → diskstreamerReadLoop k.disk fuel pos total = .ok r →
      diskstreamerReadLoggedLoop stream fuel out total (k, log) =
        .ok (0, (k.seeked stream r.pos).written out r.bytes, log ++ r.sectors) := by
  intro fuel
  induction fuel with
  | zero =>
    intro out pos total k log r hat hloop
    cases hloop
  | succ fuel ih =>
    intro out pos total k log r hat hloop
    obtain ⟨p, hpriv, hpos⟩ := hat.onDisk_fsPrivate
    simp only [diskstreamerReadLoop] at hloop
    simp only [diskstreamerReadLoggedLoop]
    rw [bind_of_ok (silent_of_ok (s := (k, log)) hpriv), hpos,
      bind_of_ok (logged_of_ok (s := (k, log)) (onDisk_of_ok (d := k.disk)
        (a := (0, diskReadBlock k.disk _)) rfl))]
    dsimp only
    rw [if_neg (by decide)]
    generalize (if (PLUMOS_SECTOR_SIZE : Int) ≤ i32 (pos.tmod PLUMOS_SECTOR_SIZE + total) then
      i32 (total - (i32 (pos.tmod PLUMOS_SECTOR_SIZE + total) - PLUMOS_SECTOR_SIZE)) else total) =
      chunk at hloop ⊢
    by_cases hout : 0 < chunk ∧ (pos.tmod PLUMOS_SECTOR_SIZE < 0 ∨
        (PLUMOS_SECTOR_SIZE : Int) < pos.tmod PLUMOS_SECTOR_SIZE + chunk)
    · rw [if_pos hout] at hloop
      cases hloop
    · rw [if_neg hout] at hloop ⊢
      generalize u32 (pos.tdiv PLUMOS_SECTOR_SIZE) = sector at hloop ⊢
      generalize hbytes : readBytes _ _ _ = bytes at hloop ⊢
      have hlen : chunk.toNat = bytes.length := by
        rw [← hbytes, readBytes_length]
      rw [bind_of_ok (silent_of_ok (s := (k, log ++ [sector])) (a := ⟨⟩) (t := k.written out bytes)
          rfl),
        bind_of_ok (silent_of_ok (s := (k.written out bytes, log ++ [sector]))
          (StreamAt.onDisk_seek (k := k.written out bytes) hat _))]
      by_cases hover : (PLUMOS_SECTOR_SIZE : Int) ≤ i32 (pos.tmod PLUMOS_SECTOR_SIZE + total)
      · -- the bytes behind the sector are stored behind those of the sector
        rw [if_pos hover] at hloop ⊢
        cases hrest : diskstreamerReadLoop k.disk fuel (i32 (pos + chunk))
            (i32 (total - chunk)) with
        | error e =>
          rw [hrest] at hloop
          cases hloop
        | ok rest =>
          rw [hrest] at hloop
          cases hloop
          have hnext : StreamAt (((k.written out bytes).seeked stream (i32 (pos + chunk))).disk)
              stream (i32 (pos + chunk)) := StreamAt.seeked (k := k.written out bytes) hat _
          have hdisk : ((k.written out bytes).seeked stream (i32 (pos + chunk))).disk.image =
              k.disk.image := rfl
          have hsame := (diskstreamerReadLoop_congr hdisk ..).trans hrest
          rw [ih (out + chunk.toNat) _ _ _ _ rest hnext hsame, hlen, Kernel.written_seeked,
            Kernel.written_seeked, Kernel.seeked_seeked, Kernel.written_written,
            List.append_assoc, List.singleton_append]
      · rw [if_neg hover] at hloop ⊢
        cases hloop
        rfl

theorem diskstreamerReadInto_of_loop {stream : Stream} {fuel out : Nat} {pos total : Int}
    {k : Kernel} {r : StreamRead} (hat : StreamAt k.disk stream pos)
    (hloop : diskstreamerReadLoop k.disk fuel pos total = .ok r) :
    diskstreamerReadIntoLoop stream fuel out total k =
      .ok (0, (k.seeked stream r.pos).written out r.bytes) :=
  (diskstreamerReadLoggedLoop_erases stream fuel out total).ok
    (diskstreamerReadLogged_of_loop stream fuel out pos total k [] r hat hloop)

/-- Below 2 GiB the bytes stored are those of the disk. -/
theorem diskstreamerReadInto_stores {stream : Stream} {k : Kernel} {p t : Nat}
    (hat : StreamAt k.disk stream p) (hend : p + t + 512 < 0x80000000) (out : Nat) :
    diskstreamerReadInto stream out t k =
      .ok (0, (k.seeked stream ((p + t : Nat) : Int)).written out
        (readBytes k.disk.image p t)) := by
  have hloop := diskstreamerReadLoop_spec k.disk (t + 1) p t (by omega) (.inl (by omega))
    (by omega) (by omega)
  rw [i32_of_range (x := (p : Int)) (by omega) (by omega),
    i32_of_range (x := ((p + t : Nat) : Int)) (by omega) (by omega)] at hloop
  have hbytes : readBytes (streamByte k.disk) p t = readBytes k.disk.image p t :=
    readBytes_congr fun i hi => streamByte_of_lt k.disk (by omega)
  rw [hbytes] at hloop
  exact diskstreamerReadInto_of_loop hat hloop

/-- A read of `t` bytes at position `p` stores the bytes `p` to `p + t - 1` of the disk
at `out`, stores nothing else and leaves the stream at `p + t`; and reading them in two
parts ends in the same state. -/
theorem diskstreamerReadInto_exact (stream : Stream) (k : Kernel) (out : Nat) (p t : Int)
    (hp : 0 ≤ p) (ht : 0 ≤ t) (hend : p + t + 512 < 0x80000000)
    (hat : StreamAt k.disk stream p) :
    ∃ k', diskstreamerReadInto stream out t k = .ok (0, k') ∧
      (∀ i < t.toNat, k'.mem (out + i) = k.disk.image (p.toNat + i)) ∧
      (∀ a, a < out ∨ out + t.toNat ≤ a → k'.mem a = k.mem a) ∧
      StreamAt k'.disk stream (p + t) ∧
      k' = { k.seeked stream (p + t) with mem := k'.mem } ∧
      ∀ a b : Int, 0 ≤ a → 0 ≤ b → a + b = t →
        (do
          let _ ← diskstreamerReadInto stream out a
          diskstreamerReadInto stream (out + a.toNat) b) k = .ok (0, k') := by
  obtain ⟨p, rfl⟩ := Int.eq_ofNat_of_zero_le hp
  obtain ⟨t, rfl⟩ := Int.eq_ofNat_of_zero_le ht
  refine ⟨_, diskstreamerReadInto_stores hat (by omega) out, ?_, ?_, ?_, rfl, ?_⟩
  · apply readBytes_inj.mp
    have h := readBytes_writeBytes k.mem out (readBytes k.disk.image p t)
    rw [readBytes_length] at h
    exact h
  · intro a ha
    exact writeBytes_of_not_mem (by rw [readBytes_length]; exact ha)
  · exact hat.seeked _
  · intro a b ha hb hab
    obtain ⟨a, rfl⟩ := Int.eq_ofNat_of_zero_le ha
    obtain ⟨b, rfl⟩ := Int.eq_ofNat_of_zero_le hb
    obtain rfl : t = a + b := by omega
    rw [bind_of_ok (diskstreamerReadInto_stores hat (by omega) out)]
    have hnext : StreamAt ((k.seeked stream ((p + a : Nat) : Int)).written out
        (readBytes k.disk.image p a)).disk stream ((p + a : Nat) : Int) := hat.seeked _
    rw [Int.toNat_natCast, diskstreamerReadInto_stores hnext (by omega)]
    have hwritten := Kernel.written_written (k.seeked stream ((p + a + b : Nat) : Int)) out
      (readBytes k.disk.image p a) (readBytes k.disk.image (p + a) b)
    rw [readBytes_length, ← readBytes_append] at hwritten
    rw [Kernel.written_seeked, Kernel.seeked_seeked]
    simp only [Nat.add_assoc] at hwritten ⊢
    exact congrArg (fun k' => Except.ok (0, k')) hwritten

/-- A read from within one sector to the end of the next one. -/
theorem diskstreamerReadInto_exact_boundary :
    ∃ k', diskstreamerReadInto .cluster_read_stream 0x4000 524
        (Kernel.boot ⟨512, some ⟨⟨1, 1, 2, 512, 256, 0x29⟩, ⟨0, 0, 0, 0⟩, 500, 0, 0⟩,
          fun a => UInt8.ofNat a⟩) = .ok (0, k') ∧
      ∀ i < 524, k'.mem (0x4000 + i) = UInt8.ofNat (500 + i) := by
  obtain ⟨k', hread, hbytes, -⟩ := diskstreamerReadInto_exact .cluster_read_stream
    (Kernel.boot ⟨512, some ⟨⟨1, 1, 2, 512, 256, 0x29⟩, ⟨0, 0, 0, 0⟩, 500, 0, 0⟩,
      fun a => UInt8.ofNat a⟩) 0x4000 500 524 (by decide) (by decide) (by decide) ⟨_, rfl, rfl⟩
  exact ⟨k', hread, hbytes⟩

/-! ### Sectors that overlap what is read -/

/-- Sector `s` has a byte of the `t` bytes at position `p`. -/
def SectorOverlaps (p t : Int) (s : Nat) : Prop :=
  (s : Int) * PLUMOS_SECTOR_SIZE < p + t ∧ p < ((s : Int) + 1) * PLUMOS_SECTOR_SIZE

/-- A read of `t` bytes at position `p` asks the disk for the sectors that overlap them, for
each once, and for no other. -/
def RequestsOverlapping (stream : Stream) (out : Nat) (p t : Int) (k : Kernel) : Prop :=
  ∃ k' sectors, diskstreamerReadLogged stream out t (k, []) = .ok (0, k', sectors) ∧
    sectors.Nodup ∧ ∀ s, s ∈ sectors ↔ SectorOverlaps p t s

/-- Below 2 GiB the sectors asked for are those from that of the first byte to that of the
byte behind the last one. -/
theorem requestedSectors_eq {p t : Nat} (h : p + t < 0x80000000) :
    requestedSectors p t = List.range' (p / 512) ((p % 512 + t) / 512 + 1) := by
  unfold requestedSectors
  rw [List.range'_eq_map_range]
  apply List.map_congr_left
  intro j hj
  rw [List.mem_range] at hj
  have hsum : p / 512 + j ≤ (p + t) / 512 := by omega
  rw [i32_of_range (by omega) (by omega), Int.tdiv_eq_ediv_of_nonneg (by omega),
    u32_of_range (by omega) (by omega)]
  omega

theorem diskstreamerReadLogged_sectors {stream : Stream} {k : Kernel} {p t : Nat}
    (hat : StreamAt k.disk stream p) (hend : p + t + 512 < 0x80000000) (out : Nat) :
    ∃ k', diskstreamerReadLogged stream out t (k, []) =
      .ok (0, k', List.range' (p / 512) ((p % 512 + t) / 512 + 1)) := by
  have hloop := diskstreamerReadLoop_spec k.disk (t + 1) p t (by omega) (.inl (by omega))
    (by omega) (by omega)
  rw [i32_of_range (x := (p : Int)) (by omega) (by omega), requestedSectors_eq (by omega)] at hloop
  exact ⟨_, diskstreamerReadLogged_of_loop stream _ out p t k [] _ hat hloop⟩

/-- A read asks for no other sectors than those it needs exactly when it does not end at the
end of a sector. -/
theorem diskstreamerRead_requests_iff (stream : Stream) (k : Kernel) (out : Nat) (p t : Int)
    (hp : 0 ≤ p) (ht : 1 ≤ t) (hend : p + t + 512 < 0x80000000) (hat : StreamAt k.disk stream p) :
    RequestsOverlapping stream out p t k ↔ (p + t) % PLUMOS_SECTOR_SIZE ≠ 0 := by
  obtain ⟨p, rfl⟩ := Int.eq_ofNat_of_zero_le hp
  obtain ⟨t, rfl⟩ := Int.eq_ofNat_of_zero_le (by omega : 0 ≤ t)
  obtain ⟨k', hrun⟩ := diskstreamerReadLogged_sectors (t := t) hat (by omega) out
  have h512 : ((PLUMOS_SECTOR_SIZE : Nat) : Int) = 512 := rfl
  unfold RequestsOverlapping SectorOverlaps
  rw [h512]
  constructor
  · rintro ⟨k'', sectors, hrun', -, hmem⟩ hzero
    rw [hrun] at hrun'
    cases hrun'
    -- the sector behind the last byte is asked for
    have hlast := (hmem ((p + t) / 512)).mp (List.mem_range'_1.mpr ⟨by omega, by omega⟩)
    omega
  · intro hne
    refine ⟨k', _, hrun, List.nodup_range', fun s => ?_⟩
    rw [List.mem_range'_1]
    omega

/-- A disk of zeros with its streams at the start. -/
def Disk.zeros : Disk :=
  ⟨512, some ⟨⟨1, 1, 2, 512, 256, 0x29⟩, ⟨0, 0, 0, 0⟩, 0, 0, 0⟩, fun _ => 0⟩

/-- One byte of the first sector is read. -/
theorem diskstreamerRead_requests_iff_first :
    RequestsOverlapping .cluster_read_stream 0x4000 0 1 (Kernel.boot Disk.zeros) :=
  (diskstreamerRead_requests_iff .cluster_read_stream _ 0x4000 0 1 (by decide) (by decide)
    (by decide) ⟨_, rfl, rfl⟩).mpr (by decide)

/-- The first sector is read as a whole, and the second one is asked for as well. -/
theorem diskstreamerRead_requests_behind :
    ¬ RequestsOverlapping .cluster_read_stream 0x4000 0 512 (Kernel.boot Disk.zeros) := by
  rintro ⟨k'', sectors, hrun', -, hmem⟩
  have hat : StreamAt (Kernel.boot Disk.zeros).disk .cluster_read_stream (0 : Nat) := ⟨_, rfl, rfl⟩
  obtain ⟨k', hrun⟩ := diskstreamerReadLogged_sectors (t := 512) hat (by decide) 0x4000
  have heq := hrun.symm.trans hrun'
  cases heq
  have hsecond := (hmem 1).mp (by decide)
  exact absurd hsecond.1 (by decide)

end PlumOS
