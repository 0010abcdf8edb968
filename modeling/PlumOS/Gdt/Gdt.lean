import Mathlib.Tactic.IntervalCases
import PlumOS.Kernel.State

/-!
# Segment descriptors

`gdt/gdt.c`: a descriptor has its base in four of its eight bytes and its limit in two and a
half, and a limit above 64 KiB is counted in pages.

## Main definitions

- `encodeGdtEntry`, `gdtStructuredToGdt`
- `decodeDescriptor` — how the processor reads a descriptor

## Main results

- `encodeGdtEntry_eq` — the eight bytes of a descriptor
- `gdtStructuredToGdt_decodes` — the processor reads back every entry
-/

namespace PlumOS

open StateExcept

/-- `struct gdt_structured`. -/
structure GdtStructured where
  base : UInt32
  limit : UInt32
  type : UInt8
  deriving DecidableEq

/-- `sizeof(struct gdt)`. -/
def sizeofGdt : Nat := 8

/-- Programs over the bytes of memory. -/
abbrev GdtM := StateT (Nat → UInt8) (Except Fault)

/-- `*p = c`. -/
def gdtStore (p : Nat) (c : UInt8) : GdtM PUnit := modifies fun mem => Function.update mem p c

/-- `encodeGdtEntry`. -/
def encodeGdtEntry (target : Nat) (source : GdtStructured) : GdtM PUnit := do
  onlyIf (source.limit > 0x10000 ∧ source.limit &&& 0xFFF ≠ 0xFFF) (fails .panic)
  gdtStore (target + 6) 0x40
  onlyIf (source.limit > 0x10000) (gdtStore (target + 6) 0xc0)
  let limit := if source.limit > 0x10000 then source.limit >>> 12 else source.limit
  gdtStore target (limit &&& 0xFF).toUInt8
  gdtStore (target + 1) ((limit >>> 8) &&& 0xFF).toUInt8
  let flags ← reads fun mem => mem (target + 6)
  gdtStore (target + 6) (flags ||| ((limit >>> 16) &&& 0x0F).toUInt8)
  gdtStore (target + 2) (source.base &&& 0xFF).toUInt8
  gdtStore (target + 3) ((source.base >>> 8) &&& 0xFF).toUInt8
  gdtStore (target + 4) ((source.base >>> 16) &&& 0xFF).toUInt8
  gdtStore (target + 7) ((source.base >>> 24) &&& 0xFF).toUInt8
  gdtStore (target + 5) source.type

/-- `gdt_structured_to_gdt`. The entries are not where the descriptors go. -/
def gdtStructuredToGdt (gdt : Nat) (structured_gdt : Nat → GdtStructured) (total_entries : Int) :
    GdtM PUnit :=
  (List.range total_entries.toNat).forM fun i =>
    encodeGdtEntry (gdt + sizeofGdt * i) (structured_gdt i)

/-! ### What the processor reads -/

/-- The limit field: bytes 0 and 1 and the low half of byte 6. -/
def descriptorLimit (mem : Nat → UInt8) (p : Nat) : Nat :=
  (mem p).toNat + 0x100 * (mem (p + 1)).toNat + 0x10000 * ((mem (p + 6)).toNat % 0x10)

/-- The base: bytes 2, 3, 4 and 7. -/
def descriptorBase (mem : Nat → UInt8) (p : Nat) : Nat :=
  (mem (p + 2)).toNat + 0x100 * (mem (p + 3)).toNat + 0x10000 * (mem (p + 4)).toNat +
    0x1000000 * (mem (p + 7)).toNat

/-- The G bit of byte 6: the limit is counted in pages. -/
def descriptorGranular (mem : Nat → UInt8) (p : Nat) : Bool := 0x80 ≤ (mem (p + 6)).toNat

/-- The segment that a descriptor describes: its base, its last offset and its access byte. -/
def decodeDescriptor (mem : Nat → UInt8) (p : Nat) : GdtStructured where
  base := UInt32.ofNat (descriptorBase mem p)
  limit := UInt32.ofNat (if descriptorGranular mem p then descriptorLimit mem p * 4096 + 4095
    else descriptorLimit mem p)
  type := mem (p + 5)

/-! ### The bytes of a descriptor -/

/-- `encodeGdtEntry` does not panic. -/
def GdtStructured.Encodable (e : GdtStructured) : Prop :=
  e.limit ≤ 0x10000 ∨ e.limit &&& 0xFFF = 0xFFF

/-- The limit in the unit of the descriptor. -/
def GdtStructured.limitField (e : GdtStructured) : UInt32 :=
  if e.limit > 0x10000 then e.limit >>> 12 else e.limit

/-- The eight bytes. -/
def GdtStructured.bytes (e : GdtStructured) : List UInt8 :=
  [(e.limitField &&& 0xFF).toUInt8, ((e.limitField >>> 8) &&& 0xFF).toUInt8,
    (e.base &&& 0xFF).toUInt8, ((e.base >>> 8) &&& 0xFF).toUInt8,
    ((e.base >>> 16) &&& 0xFF).toUInt8, e.type,
    (if e.limit > 0x10000 then (0xc0 : UInt8) else 0x40) ||| ((e.limitField >>> 16) &&& 0x0F).toUInt8,
    ((e.base >>> 24) &&& 0xFF).toUInt8]

theorem gdtBytes_length (e : GdtStructured) : e.bytes.length = sizeofGdt := rfl

/-- What is stored behind the first value of byte 6. -/
def GdtStructured.stored (e : GdtStructured) (target : Nat) (mem : Nat → UInt8) : Nat → UInt8 :=
  let mem := Function.update mem target (e.limitField &&& 0xFF).toUInt8
  let mem := Function.update mem (target + 1) ((e.limitField >>> 8) &&& 0xFF).toUInt8
  let mem := Function.update mem (target + 6)
    (mem (target + 6) ||| ((e.limitField >>> 16) &&& 0x0F).toUInt8)
  let mem := Function.update mem (target + 2) (e.base &&& 0xFF).toUInt8
  let mem := Function.update mem (target + 3) ((e.base >>> 8) &&& 0xFF).toUInt8
  let mem := Function.update mem (target + 4) ((e.base >>> 16) &&& 0xFF).toUInt8
  let mem := Function.update mem (target + 7) ((e.base >>> 24) &&& 0xFF).toUInt8
  Function.update mem (target + 5) e.type

theorem gdtStored_eq {e : GdtStructured} {target : Nat} {mem mem' : Nat → UInt8}
    (hflags : mem' (target + 6) = if e.limit > 0x10000 then 0xc0 else 0x40)
    (hmem : ∀ a, a ≠ target + 6 → mem' a = mem a) :
    e.stored target mem' = writeBytes mem target e.bytes := by
  funext a
  unfold writeBytes
  rw [gdtBytes_length]
  unfold sizeofGdt
  by_cases hin : target ≤ a ∧ a < target + 8
  · obtain ⟨j, rfl⟩ := Nat.exists_eq_add_of_le hin.1
    have hj : j < 8 := by omega
    rw [if_pos hin, Nat.add_sub_cancel_left]
    interval_cases j <;>
      simp [GdtStructured.stored, GdtStructured.bytes, hflags]
  · rw [if_neg hin]
    unfold GdtStructured.stored
    simp only [Function.update_apply]
    repeat rw [if_neg (by omega)]
    exact hmem a (by omega)

/-- An entry is written to its own eight bytes. -/
theorem encodeGdtEntry_eq {e : GdtStructured} (he : e.Encodable) (target : Nat)
    (mem : Nat → UInt8) :
    encodeGdtEntry target e mem = .ok (⟨⟩, writeBytes mem target e.bytes) := by
  have hnot : ¬ (e.limit > 0x10000 ∧ e.limit &&& 0xFFF ≠ 0xFFF) := by
    rintro ⟨hgt, hne⟩
    exact he.elim (fun hle => absurd hgt (UInt32.not_lt.mpr hle)) hne
  have hpanic : (onlyIf (e.limit > 0x10000 ∧ e.limit &&& 0xFFF ≠ 0xFFF) (fails .panic) :
      GdtM PUnit) mem = .ok (⟨⟩, mem) := by
    unfold onlyIf
    rw [if_neg hnot]
    rfl
  unfold encodeGdtEntry
  rw [bind_of_ok hpanic, bind_of_ok (m := gdtStore _ _) rfl]
  by_cases hbig : e.limit > 0x10000
  · have hstored : e.stored target
        (Function.update (Function.update mem (target + 6) 0x40) (target + 6) 0xc0) =
          writeBytes mem target e.bytes := by
      apply gdtStored_eq
      · rw [Function.update_self, if_pos hbig]
      · exact fun a ha => by rw [Function.update_of_ne ha, Function.update_of_ne ha]
    unfold onlyIf
    rw [if_pos hbig, ← hstored]
    rfl
  · have hstored : e.stored target (Function.update mem (target + 6) 0x40) =
        writeBytes mem target e.bytes := by
      apply gdtStored_eq
      · rw [Function.update_self, if_neg hbig]
      · exact fun a ha => Function.update_of_ne ha _ _
    unfold onlyIf
    rw [if_neg hbig, ← hstored]
    rfl

/-- Any other entry stops the kernel. -/
theorem encodeGdtEntry_panics {e : GdtStructured} (he : ¬ e.Encodable) (target : Nat)
    (mem : Nat → UInt8) : encodeGdtEntry target e mem = .error .panic := by
  have hpanic : e.limit > 0x10000 ∧ e.limit &&& 0xFFF ≠ 0xFFF := by
    constructor
    · exact UInt32.not_le.mp fun hle => he (Or.inl hle)
    · exact fun heq => he (Or.inr heq)
  apply bind_of_error
  unfold onlyIf
  rw [if_pos hpanic]
  rfl

/-! ### Reading it back -/

theorem and_0xFF_toNat (x : UInt32) : (x &&& 0xFF).toUInt8.toNat = x.toNat % 0x100 := by
  rw [UInt32.toNat_toUInt8, UInt32.toNat_and]
  change (x.toNat &&& (2 ^ 8 - 1)) % 0x100 = _
  rw [Nat.and_two_pow_sub_one_eq_mod]
  exact Nat.mod_mod _ _

theorem and_0x0F_toNat (x : UInt32) : (x &&& 0x0F).toUInt8.toNat = x.toNat % 0x10 := by
  rw [UInt32.toNat_toUInt8, UInt32.toNat_and]
  change (x.toNat &&& (2 ^ 4 - 1)) % 0x100 = _
  rw [Nat.and_two_pow_sub_one_eq_mod]
  omega

/-- A byte of a word. -/
theorem byte_toNat (x : UInt32) {k : Nat} (hk : k < 32) :
    ((x >>> UInt32.ofNat k) &&& 0xFF).toUInt8.toNat = x.toNat / 2 ^ k % 0x100 := by
  rw [and_0xFF_toNat, UInt32.toNat_shiftRight, UInt32.toNat_ofNat', Nat.shiftRight_eq_div_pow,
    Nat.mod_eq_of_lt (by omega : k < 2 ^ 32), Nat.mod_eq_of_lt hk]

theorem nibble_toNat (x : UInt32) {k : Nat} (hk : k < 32) :
    ((x >>> UInt32.ofNat k) &&& 0x0F).toUInt8.toNat = x.toNat / 2 ^ k % 0x10 := by
  rw [and_0x0F_toNat, UInt32.toNat_shiftRight, UInt32.toNat_ofNat', Nat.shiftRight_eq_div_pow,
    Nat.mod_eq_of_lt (by omega : k < 2 ^ 32), Nat.mod_eq_of_lt hk]

/-- The two halves of byte 6 do not overlap. -/
theorem or_nibble_toNat (flags : Nat) {x : UInt8} (hflags : flags < 0x10) (hx : x.toNat < 0x10) :
    (UInt8.ofNat (0x10 * flags) ||| x).toNat = 0x10 * flags + x.toNat := by
  rw [UInt8.toNat_or, UInt8.toNat_ofNat', Nat.mod_eq_of_lt (by omega)]
  exact (Nat.two_pow_add_eq_or_of_lt (i := 4) hx flags).symm

section Decode

variable {e : GdtStructured} {mem : Nat → UInt8} {p : Nat}

/-- The eight bytes of the entry are at `p`. -/
def DescriptorAt (mem : Nat → UInt8) (p : Nat) (e : GdtStructured) : Prop :=
  readBytes mem p sizeofGdt = e.bytes

theorem DescriptorAt.byte (h : DescriptorAt mem p e) {i : Nat} (hi : i < 8) :
    mem (p + i) = e.bytes.getD i 0 := by
  rw [← h, List.getD_eq_getElem _ _ (by rw [readBytes_length]; exact hi), getElem_readBytes]

theorem DescriptorAt.base (h : DescriptorAt mem p e) : descriptorBase mem p = e.base.toNat := by
  have hlt := e.base.toNat_lt
  unfold descriptorBase
  rw [h.byte (i := 2) (by omega), h.byte (i := 3) (by omega), h.byte (i := 4) (by omega),
    h.byte (i := 7) (by omega)]
  change (e.base &&& 0xFF).toUInt8.toNat + 0x100 * ((e.base >>> 8) &&& 0xFF).toUInt8.toNat +
    0x10000 * ((e.base >>> 16) &&& 0xFF).toUInt8.toNat +
    0x1000000 * ((e.base >>> 24) &&& 0xFF).toUInt8.toNat = _
  have h₁ : ((e.base >>> 8) &&& 0xFF).toUInt8.toNat = _ := byte_toNat e.base (k := 8) (by decide)
  have h₂ : ((e.base >>> 16) &&& 0xFF).toUInt8.toNat = _ := byte_toNat e.base (k := 16) (by decide)
  have h₃ : ((e.base >>> 24) &&& 0xFF).toUInt8.toNat = _ := byte_toNat e.base (k := 24) (by decide)
  rw [and_0xFF_toNat, h₁, h₂, h₃]
  omega

/-- Byte 6: the flags above the high part of the limit. -/
theorem DescriptorAt.flags (h : DescriptorAt mem p e) : (mem (p + 6)).toNat =
    (if e.limit > 0x10000 then 0xc0 else 0x40) + e.limitField.toNat / 0x10000 % 0x10 := by
  rw [h.byte (i := 6) (by omega)]
  have hnibble := nibble_toNat e.limitField (k := 16) (by decide)
  have hlt : ((e.limitField >>> 16) &&& 0x0F).toUInt8.toNat < 0x10 :=
    hnibble ▸ Nat.mod_lt _ (by decide)
  change ((if e.limit > 0x10000 then (0xc0 : UInt8) else 0x40) |||
    ((e.limitField >>> 16) &&& 0x0F).toUInt8).toNat = _
  split
  · exact (or_nibble_toNat 12 (by decide) hlt).trans (congrArg (0xc0 + ·) hnibble)
  · exact (or_nibble_toNat 4 (by decide) hlt).trans (congrArg (0x40 + ·) hnibble)

theorem DescriptorAt.limit (h : DescriptorAt mem p e) (hlt : e.limitField.toNat < 0x100000) :
    descriptorLimit mem p = e.limitField.toNat := by
  have hflags := h.flags
  unfold descriptorLimit
  rw [hflags, show mem p = _ from h.byte (i := 0) (by omega), h.byte (i := 1) (by omega)]
  change (e.limitField &&& 0xFF).toUInt8.toNat +
    0x100 * ((e.limitField >>> 8) &&& 0xFF).toUInt8.toNat + _ = _
  have h₁ : ((e.limitField >>> 8) &&& 0xFF).toUInt8.toNat = _ :=
    byte_toNat e.limitField (k := 8) (by decide)
  rw [and_0xFF_toNat, h₁]
  split <;> omega

theorem DescriptorAt.granular (h : DescriptorAt mem p e) :
    descriptorGranular mem p = decide (e.limit > 0x10000) := by
  unfold descriptorGranular
  rw [h.flags]
  apply decide_eq_decide.mpr
  split
  · next hbig => exact iff_of_true (by omega) hbig
  · next hsmall => exact iff_of_false (by omega) hsmall

/-- The processor reads back the entry. -/
theorem DescriptorAt.decode (h : DescriptorAt mem p e) (he : e.Encodable) :
    decodeDescriptor mem p = e := by
  have htype : mem (p + 5) = e.type := h.byte (i := 5) (by omega)
  have hlt := e.limit.toNat_lt
  have hlimit : (if descriptorGranular mem p then descriptorLimit mem p * 4096 + 4095
      else descriptorLimit mem p) = e.limit.toNat := by
    rw [h.granular]
    by_cases hbig : e.limit > 0x10000
    · have hones : e.limit &&& 0xFFF = 0xFFF :=
        he.resolve_left fun hle => absurd hbig (UInt32.not_lt.mpr hle)
      have hmod : e.limit.toNat % 0x1000 = 0xFFF := by
        have := congrArg UInt32.toNat hones
        rw [UInt32.toNat_and] at this
        rw [← show 2 ^ 12 = 0x1000 from rfl, ← Nat.and_two_pow_sub_one_eq_mod]
        exact this
      have hfield : e.limitField.toNat = e.limit.toNat / 0x1000 := by
        unfold GdtStructured.limitField
        rw [if_pos hbig, UInt32.toNat_shiftRight]
        exact Nat.shiftRight_eq_div_pow _ _
      rw [if_pos (by rw [decide_eq_true_eq]; exact hbig), h.limit (by omega), hfield]
      omega
    · have hfield : e.limitField = e.limit := if_neg hbig
      have hle : e.limit.toNat ≤ 0x10000 := UInt32.le_iff_toNat_le.mp (UInt32.not_lt.mp hbig)
      rw [if_neg (by rw [decide_eq_true_eq]; exact hbig), h.limit (by rw [hfield]; omega), hfield]
  unfold decodeDescriptor
  rw [h.base, hlimit, htype, UInt32.ofNat_toNat, UInt32.ofNat_toNat]

end Decode

/-! ### The table -/

/-- The descriptors of the entries before `n` are in their places, and nothing else differs. -/
structure TableWritten (gdt : Nat) (structured_gdt : Nat → GdtStructured) (n : Nat)
    (mem mem' : Nat → UInt8) : Prop where
  entries : ∀ i < n, DescriptorAt mem' (gdt + sizeofGdt * i) (structured_gdt i)
  outside : ∀ a, a < gdt ∨ gdt + sizeofGdt * n ≤ a → mem' a = mem a

theorem TableWritten.step {gdt n : Nat} {structured_gdt : Nat → GdtStructured}
    {mem mem' : Nat → UInt8} (h : TableWritten gdt structured_gdt n mem mem') :
    TableWritten gdt structured_gdt (n + 1) mem
      (writeBytes mem' (gdt + sizeofGdt * n) (structured_gdt n).bytes) where
  entries i hi := by
    by_cases hlast : i = n
    · subst hlast
      exact readBytes_writeBytes _ _ _
    · refine (readBytes_congr fun j hj => writeBytes_of_not_mem ?_).trans (h.entries i (by omega))
      unfold sizeofGdt at hj ⊢
      omega
  outside a ha := by
    have hlen := gdtBytes_length (structured_gdt n)
    unfold sizeofGdt at ha hlen
    refine (writeBytes_of_not_mem ?_).trans (h.outside a ?_)
    · unfold sizeofGdt
      omega
    · unfold sizeofGdt
      omega

theorem gdtStructuredToGdt_loop (gdt : Nat) (structured_gdt : Nat → GdtStructured) (n : Nat)
    (he : ∀ i < n, (structured_gdt i).Encodable) (mem : Nat → UInt8) :
    Returns ((List.range n).forM fun i => encodeGdtEntry (gdt + sizeofGdt * i) (structured_gdt i))
      mem fun _ mem' => TableWritten gdt structured_gdt n mem mem' := by
  induction n with
  | zero => exact .pure ⟨fun i hi => absurd hi (Nat.not_lt_zero i), fun _ _ => rfl⟩
  | succ n ih =>
    rw [List.range_succ]
    change Returns (forM (List.range n ++ [n]) _) mem _
    rw [List.forM_append]
    refine .bind (ih fun i hi => he i (Nat.lt_succ_of_lt hi)) ?_
    intro _ mem' h
    refine ⟨⟨⟩, _, ?_, h.step⟩
    rw [List.forM_cons, bind_of_ok (encodeGdtEntry_eq (he n (Nat.lt_succ_self n)) _ mem')]
    rfl

/-- Every entry that is encoded without a panic is read back by the processor as it was given,
and its eight bytes are all that is written for it. -/
theorem gdtStructuredToGdt_decodes (gdt : Nat) (structured_gdt : Nat → GdtStructured)
    (total_entries : Int) (he : ∀ i < total_entries.toNat, (structured_gdt i).Encodable)
    (mem : Nat → UInt8) :
    (Returns (gdtStructuredToGdt gdt structured_gdt total_entries) mem fun _ mem' =>
      (∀ i < total_entries.toNat,
        decodeDescriptor mem' (gdt + sizeofGdt * i) = structured_gdt i) ∧
      ∀ a, a < gdt ∨ gdt + sizeofGdt * total_entries.toNat ≤ a → mem' a = mem a) ∧
    ∀ i < total_entries.toNat, ∀ target mem₁, Returns (encodeGdtEntry target (structured_gdt i)) mem₁
      fun _ mem₂ => ∀ a, a < target ∨ target + sizeofGdt ≤ a → mem₂ a = mem₁ a := by
  constructor
  · refine (gdtStructuredToGdt_loop gdt structured_gdt _ he mem).mono ?_
    intro _ mem' h
    exact ⟨fun i hi => (h.entries i hi).decode (he i hi), h.outside⟩
  · intro i hi target mem₁
    exact ⟨⟨⟩, _, encodeGdtEntry_eq (he i hi) target mem₁, fun a ha => writeBytes_of_not_mem ha⟩

/-- The entries of the kernel's table before that of its TSS. -/
def kernelSegments : Nat → GdtStructured
  | 0 => ⟨0x00, 0x00, 0x00⟩
  | 1 => ⟨0x00, 0xffffffff, 0x9a⟩
  | 2 => ⟨0x00, 0xffffffff, 0x92⟩
  | 3 => ⟨0x00, 0xffffffff, 0xf8⟩
  | _ => ⟨0x00, 0xffffffff, 0xf2⟩

theorem gdtStructuredToGdt_decodes_kernel :
    Returns (gdtStructuredToGdt 0x110000 kernelSegments 5) (fun _ => 0) fun _ mem' =>
      ∀ i < 5, decodeDescriptor mem' (0x110000 + sizeofGdt * i) = kernelSegments i := by
  have he : ∀ i < (5 : Int).toNat, (kernelSegments i).Encodable := by
    intro i hi
    have hlt : i < 5 := hi
    interval_cases i
    · exact Or.inl (by decide)
    · exact Or.inr (by decide)
    · exact Or.inr (by decide)
    · exact Or.inr (by decide)
    · exact Or.inr (by decide)
  have h := gdtStructuredToGdt_decodes 0x110000 kernelSegments 5 he (fun _ => 0)
  exact h.1.mono fun _ _ hmem => hmem.1

end PlumOS
