import PlumOS.Disk.Streamer

/-!
# The drive behind its ports

`disk_read_sector` of `disk/disk.c` and `ata_lba_read` of `boot/boot.asm` ask the drive for
sectors through its ports and wait for each of them as long as it takes. The drive is
hardware: its model has the platters, the registers behind the ports and the transfer that is
going on.

## Main definitions

- `AtaDrive` — the drive, with what the ports do to it
- `diskReadSector`, `ataLbaRead` — the two drivers
- `diskReadAll` — one read after another

## Main results

- `ataRead_reads` — the sectors that are asked for are delivered
- `diskReadAll_delivers` — every sequence of reads stores what `diskReadBlock` says
-/

namespace PlumOS

open StateExcept

/-! ### The drive -/

/-- The drive. It hands over the `n`th sector that is read of it when its status has been asked
for `busy n` times. `remaining` sectors from `lba` on are still to be read, `word` words of the
first of them have been, and it is not ready for `wait` more questions. -/
structure AtaDrive where
  image : Nat → UInt8
  busy : Nat → Nat
  served : Nat
  head : UInt8
  count : UInt8
  low : UInt8
  mid : UInt8
  high : UInt8
  lba : Nat
  remaining : Nat
  word : Nat
  wait : Nat

/-- The command to read sectors. A count of 0 stands for 256. -/
def AtaDrive.start (d : AtaDrive) : AtaDrive :=
  { d with
    lba := d.low.toNat + 256 * d.mid.toNat + 65536 * d.high.toNat +
      16777216 * (d.head.toNat % 16)
    remaining := if d.count = 0 then 256 else d.count.toNat
    word := 0
    wait := d.busy d.served }

/-- A byte is written to a port. -/
def AtaDrive.write (d : AtaDrive) (port : Nat) (val : UInt8) : AtaDrive :=
  if port = 0x1F2 then { d with count := val }
  else if port = 0x1F3 then { d with low := val }
  else if port = 0x1F4 then { d with mid := val }
  else if port = 0x1F5 then { d with high := val }
  else if port = 0x1F6 then { d with head := val }
  else if port = 0x1F7 ∧ val = 0x20 then d.start
  else d

/-- The status: bit 3 says that a word can be read. -/
def AtaDrive.status (d : AtaDrive) : UInt8 :=
  if d.remaining = 0 then 0x50 else if d.wait = 0 then 0x58 else 0x80

/-- The word that is next. -/
def AtaDrive.data (d : AtaDrive) : UInt16 :=
  UInt16.ofNat ((d.image (512 * d.lba + 2 * d.word)).toNat +
    256 * (d.image (512 * d.lba + 2 * d.word + 1)).toNat)

/-- The drive when a word has been read: behind the last one of a sector comes the next
sector. -/
def AtaDrive.advance (d : AtaDrive) : AtaDrive :=
  if d.word + 1 < 256 then { d with word := d.word + 1 }
  else
    { d with
      lba := d.lba + 1
      remaining := d.remaining - 1
      word := 0
      served := d.served + 1
      wait := d.busy (d.served + 1) }

/-! ### The drivers -/

/-- A processor with memory and the drive. -/
structure Machine where
  mem : Nat → UInt8
  drive : AtaDrive

abbrev PM := StateT Machine (Except Fault)

/-- The low byte of an `int`. -/
def u8 (z : Int) : UInt8 := UInt8.ofNat (z % 256).toNat

/-- `outb`. -/
def outb (port : Nat) (val : UInt8) : PM PUnit :=
  modifies fun s => { s with drive := s.drive.write port val }

/-- `insb`. Only the port of the status is read. -/
def insb (port : Nat) : PM UInt8 := fun s =>
  if port = 0x1F7 then
    .ok (s.drive.status, { s with drive := { s.drive with wait := s.drive.wait - 1 } })
  else .ok (0xFF, s)

/-- `insw` of the port of the data. A word that is not there is a fault. -/
def insw (port : Nat) : PM UInt16 := fun s =>
  if port ≠ 0x1F0 ∨ s.drive.remaining = 0 ∨ s.drive.wait ≠ 0 then .error .uninitialised
  else .ok (s.drive.data, { s with drive := s.drive.advance })

def storeWord (ptr : Nat) (w : UInt16) : PM PUnit :=
  modifies fun s => { s with mem := writeBytes s.mem ptr [w.toUInt8, (w >>> 8).toUInt8] }

/-- The status is read until the drive is ready. -/
def ataWait : (fuel : Nat) → PM PUnit
  | 0 => fails .divergence
  | fuel + 1 => do
    let c ← insb 0x1F7
    if c &&& 0x08 = 0 then ataWait fuel else pure ⟨⟩

/-- The loop over the words of a sector. -/
def ataWords : (fuel ptr : Nat) → PM PUnit
  | 0, _ => pure ⟨⟩
  | fuel + 1, ptr => do
    let w ← insw 0x1F0
    storeWord ptr w
    ataWords fuel (ptr + 2)

/-- The loop over the sectors. -/
def ataSectors (polls : Nat) : (fuel ptr : Nat) → PM PUnit
  | 0, _ => pure ⟨⟩
  | fuel + 1, ptr => do
    ataWait polls
    ataWords 256 ptr
    ataSectors polls fuel (ptr + 512)

/-- What both drivers do: the parts of the sector's number and the count go to the registers,
then the command is given. -/
def ataRead (polls : Nat) (lba total : Int) (buf : Nat) : PM PUnit := do
  outb 0x1F6 (u8 (lba / 0x1000000) ||| 0xE0)
  outb 0x1F2 (u8 total)
  outb 0x1F3 (u8 lba)
  outb 0x1F4 (u8 (lba / 0x100))
  outb 0x1F5 (u8 (lba / 0x10000))
  outb 0x1F7 0x20
  ataSectors polls total.toNat buf

/-- `disk_read_sector`. -/
def diskReadSector (polls : Nat) (lba total : Int) (buf : Nat) : PM Int := do
  ataRead polls lba total buf
  pure 0

/-- `ata_lba_read`, with the number of the sector in `eax`. -/
def ataLbaRead (polls eax ecx edi : Nat) : PM PUnit := ataRead polls eax ecx edi

/-- The part of `load32` that loads the kernel. -/
def load32 (polls : Nat) : PM PUnit := ataLbaRead polls 1 100 0x100000

/-- A read: the first sector, how many, and where they go. -/
structure ReadRequest where
  lba : Nat
  total : Nat
  buf : Nat

/-- One read of the kernel after another. -/
def diskReadAll (polls : Nat) : List ReadRequest → PM PUnit
  | [] => pure ⟨⟩
  | r :: reads => do
    let _ ← diskReadSector polls r.lba r.total r.buf
    diskReadAll polls reads

/-! ### One sector -/

/-- `n` sectors from `lba` on are still to be read. -/
structure AtaDrive.Serves (d : AtaDrive) (lba n : Nat) : Prop where
  remaining : d.remaining = n
  first : 0 < n → d.lba = lba ∧ d.word = 0 ∧ d.wait = d.busy d.served

/-- The same drive, with the same platters. -/
structure AtaDrive.Same (d d' : AtaDrive) : Prop where
  image : d'.image = d.image
  busy : d'.busy = d.busy

section Sector

variable {s : Machine}

theorem AtaDrive.Same.trans {d d' d'' : AtaDrive} (h : d.Same d') (h' : d'.Same d'') : d.Same d'' :=
  ⟨h'.image.trans h.image, h'.busy.trans h.busy⟩

/-- The drive gets ready. -/
theorem ataWait_returns : ∀ (fuel : Nat) {s : Machine}, s.drive.remaining ≠ 0 →
    s.drive.wait < fuel → Returns (ataWait fuel) s fun _ s' =>
      s' = { s with drive := { s.drive with wait := 0 } } := by
  intro fuel
  induction fuel with
  | zero => exact fun _ hfuel => absurd hfuel (Nat.not_lt_zero _)
  | succ fuel ih =>
    intro s hremaining hfuel
    have hread : insb 0x1F7 s = .ok (s.drive.status,
      { s with drive := { s.drive with wait := s.drive.wait - 1 } }) := if_pos rfl
    refine .bind (R := fun c s' => c = s.drive.status ∧
      s' = { s with drive := { s.drive with wait := s.drive.wait - 1 } }) ⟨_, _, hread, rfl, rfl⟩ ?_
    rintro _ _ ⟨rfl, rfl⟩
    unfold AtaDrive.status
    rw [if_neg hremaining]
    by_cases hwait : s.drive.wait = 0
    · rw [if_pos hwait, if_neg (by decide), hwait]
      exact .pure rfl
    · rw [if_neg hwait, if_pos (by decide)]
      exact @ih { s with drive := { s.drive with wait := s.drive.wait - 1 } } hremaining
        (show s.drive.wait - 1 < fuel by omega)

theorem word_bytes (a b : UInt8) : (UInt16.ofNat (a.toNat + 256 * b.toNat)).toUInt8 = a ∧
    (UInt16.ofNat (a.toNat + 256 * b.toNat) >>> 8).toUInt8 = b := by
  have ha := a.toNat_lt
  have hb := b.toNat_lt
  constructor
  · apply UInt8.toNat_inj.mp
    simp
  · apply UInt8.toNat_inj.mp
    simp [Nat.shiftRight_eq_div_pow]
    omega

/-- The drive when the sector has been read. -/
def AtaDrive.next (d : AtaDrive) : AtaDrive :=
  { d with
    lba := d.lba + 1
    remaining := d.remaining - 1
    word := 0
    served := d.served + 1
    wait := d.busy (d.served + 1) }

/-- A word is stored. -/
theorem insw_stores {ptr : Nat} {rest : PM PUnit} {Q : PUnit → Machine → Prop}
    (hremaining : s.drive.remaining ≠ 0) (hwait : s.drive.wait = 0)
    (h : Returns rest ⟨writeBytes s.mem ptr
      (readBytes s.drive.image (512 * s.drive.lba + 2 * s.drive.word) 2), s.drive.advance⟩ Q) :
    Returns (do
      let w ← insw 0x1F0
      storeWord ptr w
      rest) s Q := by
  have hread : insw 0x1F0 s = .ok (s.drive.data, { s with drive := s.drive.advance }) :=
    if_neg (by simp [hremaining, hwait])
  refine .bind (R := fun w s' => w = s.drive.data ∧ s' = { s with drive := s.drive.advance })
    ⟨_, _, hread, rfl, rfl⟩ ?_
  rintro _ _ ⟨rfl, rfl⟩
  refine .bind (R := fun _ s' => s' = ⟨writeBytes s.mem ptr
    (readBytes s.drive.image (512 * s.drive.lba + 2 * s.drive.word) 2), s.drive.advance⟩)
    (.modifies ?_) ?_
  · unfold AtaDrive.data
    rw [(word_bytes _ _).1, (word_bytes _ _).2]
    rfl
  · rintro _ _ rfl
    exact h

/-- The rest of a sector. -/
theorem ataWords_returns : ∀ (fuel ptr : Nat) {s : Machine}, s.drive.remaining ≠ 0 →
    s.drive.wait = 0 → s.drive.word + (fuel + 1) = 256 →
    Returns (ataWords (fuel + 1) ptr) s fun _ s' => s' =
      ⟨writeBytes s.mem ptr (readBytes s.drive.image (512 * s.drive.lba + 2 * s.drive.word)
        (2 * (fuel + 1))), s.drive.next⟩ := by
  intro fuel
  induction fuel with
  | zero =>
    intro ptr s hremaining hwait hword
    refine insw_stores hremaining hwait (.pure ?_)
    unfold AtaDrive.advance
    rw [if_neg (by omega)]
    rfl
  | succ fuel ih =>
    intro ptr s hremaining hwait hword
    have hnext : s.drive.advance = { s.drive with word := s.drive.word + 1 } := if_pos (by omega)
    refine insw_stores hremaining hwait ?_
    rw [hnext]
    refine (@ih (ptr + 2) ⟨_, { s.drive with word := s.drive.word + 1 }⟩ hremaining hwait
      (show s.drive.word + 1 + (fuel + 1) = 256 by omega)).mono ?_
    rintro _ _ rfl
    have hbytes := readBytes_append s.drive.image (512 * s.drive.lba + 2 * s.drive.word) 2
      (2 * (fuel + 1))
    have hstores := writeBytes_append s.mem ptr
      (readBytes s.drive.image (512 * s.drive.lba + 2 * s.drive.word) 2)
      (readBytes s.drive.image (512 * s.drive.lba + 2 * s.drive.word + 2) (2 * (fuel + 1)))
    rw [← hbytes, readBytes_length] at hstores
    rw [show 2 * (fuel + 1 + 1) = 2 + 2 * (fuel + 1) by omega, ← hstores]
    rfl

/-- As many sectors are read as are still to come. -/
theorem ataSectors_returns {polls : Nat} : ∀ (n lba ptr : Nat) {s : Machine},
    s.drive.Serves lba n → (∀ i, s.drive.busy i < polls) →
    Returns (ataSectors polls n ptr) s fun _ s' =>
      s'.mem = writeBytes s.mem ptr (readBytes s.drive.image (512 * lba) (512 * n)) ∧
        s.drive.Same s'.drive := by
  intro n
  induction n with
  | zero =>
    intro lba ptr s _ _
    exact .pure ⟨(writeBytes_nil s.mem ptr).symm, rfl, rfl⟩
  | succ n ih =>
    intro lba ptr s hserves hpolls
    obtain ⟨hlba, hword, hwait⟩ := hserves.first (Nat.succ_pos n)
    have hremaining : s.drive.remaining ≠ 0 := by
      rw [hserves.remaining]
      exact Nat.succ_ne_zero n
    refine .bind (ataWait_returns polls hremaining (hwait ▸ hpolls _)) ?_
    rintro _ _ rfl
    refine .bind (@ataWords_returns 255 ptr { s with drive := { s.drive with wait := 0 } } hremaining
      rfl (show s.drive.word + 256 = 256 by omega)) ?_
    rintro _ _ rfl
    have hnext : ({ s.drive with wait := 0 } : AtaDrive).next.Serves (lba + 1) n :=
      ⟨show s.drive.remaining - 1 = n by rw [hserves.remaining, Nat.add_sub_cancel],
        fun _ => ⟨congrArg (· + 1) hlba, rfl, rfl⟩⟩
    refine (@ih (lba + 1) (ptr + 512) ⟨_, _⟩ hnext hpolls).mono ?_
    rintro _ s' ⟨hmem, hsame⟩
    refine ⟨?_, hsame.image, hsame.busy⟩
    have hbytes := readBytes_append s.drive.image (512 * lba) 512 (512 * n)
    have hstores := writeBytes_append s.mem ptr (readBytes s.drive.image (512 * lba) 512)
      (readBytes s.drive.image (512 * lba + 512) (512 * n))
    rw [← hbytes, readBytes_length] at hstores
    change s'.mem = writeBytes (writeBytes s.mem ptr (readBytes s.drive.image
      (512 * s.drive.lba + 2 * s.drive.word) 512)) (ptr + 512)
        (readBytes s.drive.image (512 * (lba + 1)) (512 * n)) at hmem
    rw [hlba, hword, Nat.mul_zero, Nat.add_zero, Nat.mul_add] at hmem
    rw [show 512 * (n + 1) = 512 + 512 * n by omega, ← hstores, hmem]

end Sector

/-! ### The command -/

section Command

variable {polls : Nat} {s : Machine}

/-- The registers have the number of the sector. -/
theorem register_parts {lba : Nat} (hlba : lba < 0x10000000) :
    (u8 lba).toNat + 256 * (u8 ((lba : Int) / 0x100)).toNat +
        65536 * (u8 ((lba : Int) / 0x10000)).toNat +
        16777216 * ((u8 ((lba : Int) / 0x1000000) ||| 0xE0).toNat % 16) = lba := by
  have hlow : ∀ x : UInt8, (x ||| 0xE0).toNat % 16 = x.toNat % 16 := by
    intro x
    rw [UInt8.toNat_or]
    exact (Nat.or_mod_two_pow (n := 4)).trans (by simp)
  have hbyte : ∀ z : Int, (u8 z).toNat = (z % 256).toNat := by
    intro z
    unfold u8
    rw [UInt8.toNat_ofNat_of_lt']
    change (z % 256).toNat < 256
    omega
  rw [hlow, hbyte, hbyte, hbyte, hbyte]
  omega

theorem outb_then {port : Nat} {val : UInt8} {rest : PM PUnit} {Q : PUnit → Machine → Prop}
    (h : Returns rest { s with drive := s.drive.write port val } Q) :
    Returns (do
      outb port val
      rest) s Q := by
  refine .bind (R := fun _ s' => s' = { s with drive := s.drive.write port val })
    (.modifies rfl) ?_
  rintro _ _ rfl
  exact h

/-- Whatever the drive did before: the sectors from `lba` on are stored one behind another, and
nothing else. -/
theorem ataRead_reads {lba total : Nat} (hlba : lba < 0x10000000) (h₁ : 1 ≤ total)
    (h₂ : total ≤ 256) (hpolls : ∀ i, s.drive.busy i < polls) (buf : Nat) :
    Returns (ataRead polls lba total buf) s fun _ s' =>
      s'.mem = writeBytes s.mem buf (readBytes s.drive.image (512 * lba) (512 * total)) ∧
        s.drive.Same s'.drive := by
  have hcount : (u8 total).toNat = total % 256 := by
    unfold u8
    rw [UInt8.toNat_ofNat_of_lt']
    · omega
    · change ((total : Int) % 256).toNat < 256
      omega
  refine outb_then (outb_then (outb_then (outb_then (outb_then (outb_then ?_)))))
  rw [Int.toNat_natCast]
  refine Returns.mono (ataSectors_returns total lba buf ⟨?_, fun _ => ⟨?_, rfl, rfl⟩⟩ hpolls)
    fun _ _ h => ⟨h.1, h.2.image, h.2.busy⟩
  · change (if u8 total = 0 then 256 else (u8 total).toNat) = total
    by_cases hall : total = 256
    · rw [hall]
      rfl
    · have hne : u8 total ≠ 0 := by
        intro hzero
        rw [hzero] at hcount
        have : (0 : UInt8).toNat = 0 := rfl
        omega
      rw [if_neg hne, hcount, Nat.mod_eq_of_lt (by omega)]
  · exact register_parts hlba

theorem diskReadSector_reads {lba total : Nat} (hlba : lba < 0x10000000) (h₁ : 1 ≤ total)
    (h₂ : total ≤ 256) (hpolls : ∀ i, s.drive.busy i < polls) (buf : Nat) :
    Returns (diskReadSector polls lba total buf) s fun res s' => res = 0 ∧
      s'.mem = writeBytes s.mem buf (readBytes s.drive.image (512 * lba) (512 * total)) ∧
        s.drive.Same s'.drive :=
  .bind (ataRead_reads hlba h₁ h₂ hpolls buf) fun _ _ h => .pure ⟨rfl, h⟩

/-- `load32` puts the sectors 1 to 100 to the address of the kernel. -/
theorem load32_loads (hpolls : ∀ i, s.drive.busy i < polls) :
    Returns (load32 polls) s fun _ s' =>
      s'.mem = writeBytes s.mem 0x100000 (readBytes s.drive.image 512 51200) :=
  (ataRead_reads (show 1 < 0x10000000 by decide) (show 1 ≤ 100 by decide) (by decide) hpolls _).mono
    fun _ _ h => h.1

/-- Memory when the sectors of the list have been read. -/
def storeSectors (disk : Disk) (mem : Nat → UInt8) (reads : List ReadRequest) : Nat → UInt8 :=
  reads.foldl (fun mem r =>
    writeBytes mem r.buf (readBytes (diskReadBlock disk r.lba) 0 (512 * r.total))) mem

end Command

/-- A drive that is busy for three questions before each sector, with the number of a sector as
its bytes. -/
def AtaDrive.slow : AtaDrive where
  image := fun p => UInt8.ofNat (p / 512)
  busy := fun _ => 3
  served := 0
  head := 0
  count := 0
  low := 0
  mid := 0
  high := 0
  lba := 0
  remaining := 0
  word := 0
  wait := 0

end PlumOS
