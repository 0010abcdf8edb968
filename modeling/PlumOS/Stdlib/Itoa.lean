import PlumOS.Kernel.State
import PlumOS.Lib.Decimal

/-!
# Numbers as text

`itoa` of `programs/stdlib/src/stdlib.c`: the digits are taken from a number that is not
positive, so that the most negative one needs no counterpart, and are written backwards into
an array of 12 bytes.

## Main definitions

- `itoa`
- `ItoaText` — the text of a number

## Main results

- `itoa_numeral`, `itoa_canonical`
-/

namespace PlumOS.Stdlib

open StateExcept Decimal

/-- Programs over the static array `text` of `itoa`. -/
abbrev TextM := StateT (Nat → UInt8) (Except Fault)

/-- `text[i] = c`. -/
def textStore (i : Int) (c : UInt8) : TextM PUnit := fun text =>
  if 0 ≤ i ∧ i < 12 then .ok (⟨⟩, Function.update text i.toNat c) else .error .outOfBounds

/-- The loop of `itoa`: where the first digit is. -/
def itoaLoop (i loc : Int) : TextM Int :=
  if i = 0 then pure loc
  else do
    let loc := loc - 1
    textStore loc (UInt8.ofNat (u32 (0x30 - i.tmod 10)))
    itoaLoop (i.tdiv 10) loc
termination_by i.natAbs
decreasing_by
  rw [Int.natAbs_tdiv]
  exact Nat.div_lt_self (Int.natAbs_pos.mpr ‹_›) (by decide)

/-- The loop, and the digit of zero. -/
def itoaDigits (i : Int) : TextM Int := do
  let loc ← itoaLoop i 11
  if loc = 11 then do
    textStore (loc - 1) 0x30
    pure (loc - 1)
  else pure loc

/-- `itoa`: the index of the first character. -/
def itoa (i : Int) : TextM Int := do
  textStore 11 0
  let neg := if 0 ≤ i then 0 else 1
  let loc ← itoaDigits (if 0 ≤ i then i32 (- i) else i)
  if neg ≠ 0 then do
    textStore (loc - 1) 0x2d
    pure (loc - 1)
  else pure loc

/-! ### The array -/

/-- The string `t` is at the end of the array, from index `loc` on. -/
structure TextAt (text : Nat → UInt8) (loc : Int) (t : List UInt8) : Prop where
  nonneg : 0 ≤ loc
  string : StringAt text loc.toNat t
  ends : loc + t.length = 11

theorem TextAt.store {text : Nat → UInt8} {loc : Int} {t : List UInt8} (h : TextAt text loc t)
    {c : UInt8} (hc : c ≠ 0) (hloc : 0 < loc) :
    textStore (loc - 1) c text = .ok (⟨⟩, Function.update text (loc - 1).toNat c) ∧
      TextAt (Function.update text (loc - 1).toNat c) (loc - 1) (c :: t) := by
  have hlen := h.ends
  refine ⟨if_pos (by omega), by omega, ⟨?_, ?_⟩, ?_⟩
  · rw [List.mem_cons, not_or]
    exact ⟨hc.symm, h.string.1⟩
  · rw [List.length_cons, readBytes_succ, Function.update_self]
    have hrest : readBytes (Function.update text (loc - 1).toNat c) ((loc - 1).toNat + 1)
        (t.length + 1) = readBytes text loc.toNat (t.length + 1) := by
      rw [show (loc - 1).toNat + 1 = loc.toNat by omega]
      exact readBytes_congr fun j _ => Function.update_of_ne (by omega) _ _
    rw [hrest, h.string.2]
    rfl
  · rw [List.length_cons]
    omega

/-! ### The digits -/

theorem significant_length_le {n : Nat} (hn : n ≤ 0x80000000) : (significant n).length ≤ 10 := by
  unfold significant
  rw [List.length_reverse, List.length_map, Nat.digits_length_le_iff (by decide)]
  omega

theorem digit_ne_zero {d : Nat} (hd : d < 10) : digit d ≠ 0 := by
  intro h
  have := digit_toNat hd
  rw [h] at this
  exact absurd this (by change ¬ 0 = 0x30 + d; omega)

/-- One digit, and the number left. -/
theorem itoaLoop_succ {n : Nat} (hn : n ≠ 0) (loc : Int) :
    itoaLoop (-(n : Int)) loc = (do
      textStore (loc - 1) (digit (n % 10))
      itoaLoop (-((n / 10 : Nat) : Int)) (loc - 1)) := by
  rw [itoaLoop, if_neg (by omega), Int.neg_tmod, Int.neg_tdiv]
  change (do textStore (loc - 1) (UInt8.ofNat (u32 (0x30 - -((n % 10 : Nat) : Int)))); _) = _
  rw [show u32 (0x30 - -((n % 10 : Nat) : Int)) = 0x30 + n % 10 by unfold u32; omega]
  rfl

/-- The loop writes the digits in front of what is there. -/
theorem itoaLoop_returns (n : Nat) {loc : Int} {text : Nat → UInt8} {t : List UInt8}
    (h : TextAt text loc t) (hroom : ((significant n).length : Int) ≤ loc) :
    Returns (itoaLoop (-(n : Int)) loc) text fun loc' text' =>
      TextAt text' loc' (significant n ++ t) := by
  induction n using Nat.strong_induction_on generalizing loc text t with
  | _ n ih =>
    by_cases hn : n = 0
    · subst hn
      rw [itoaLoop, if_pos (by decide), significant_zero]
      exact .pure h
    · rw [significant_succ hn, List.length_append, List.length_singleton] at hroom
      have hmod : n % 10 < 10 := Nat.mod_lt _ (by decide)
      obtain ⟨hstore, hat⟩ := h.store (digit_ne_zero hmod) (by omega)
      rw [itoaLoop_succ hn, significant_succ hn, List.append_assoc]
      exact .of_eq (bind_of_ok hstore) (ih _ (by omega) hat (by omega))

/-- The digits of a number that is made negative. -/
theorem itoaDigits_returns {n : Nat} (hn : n ≤ 0x80000000) {text : Nat → UInt8}
    (h : TextAt text 11 []) :
    Returns (itoaDigits (-(n : Int))) text fun loc text' => TextAt text' loc (digits n) := by
  have hlen := significant_length_le hn
  refine .bind (itoaLoop_returns n h (by omega)) ?_
  intro loc text' hat
  rw [List.append_nil] at hat
  have hends := hat.ends
  unfold digits
  by_cases hzero : n = 0
  · subst hzero
    rw [significant_zero] at hat hends
    obtain rfl : loc = 11 := by simpa using hends
    obtain ⟨hstore, hat'⟩ := hat.store (c := 0x30) (by decide) (by decide)
    rw [if_pos rfl, if_pos rfl]
    exact ⟨_, _, bind_of_ok hstore, hat'⟩
  · have hne : 0 < (significant n).length := List.length_pos_iff.mpr (significant_ne_nil hzero)
    rw [if_neg (by omega), if_neg hzero]
    exact .pure hat

/-- `itoa` writes the decimal numeral, inside the array. -/
theorem itoa_numeral {i : Int} (hlo : -0x80000000 ≤ i) (hhi : i < 0x80000000)
    (text : Nat → UInt8) :
    Returns (itoa i) text fun loc text' => TextAt text' loc (numeral i) := by
  have hstart : TextAt (Function.update text 11 0) 11 [] := by
    refine ⟨by decide, ⟨by simp, ?_⟩, rfl⟩
    change [Function.update text 11 0 11] = _
    rw [Function.update_self]
    rfl
  have habs : (if 0 ≤ i then i32 (- i) else i) = -(i.natAbs : Int) := by
    split
    · rw [i32_of_range (by omega) (by omega)]
      omega
    · omega
  have hdigits := itoaDigits_returns (n := i.natAbs) (by omega) hstart
  unfold itoa
  rw [habs]
  refine .of_eq (bind_of_ok (m := textStore 11 0) (if_pos (by decide))) ?_
  refine .bind hdigits ?_
  intro loc text' hat
  have hends := hat.ends
  have hne := List.length_pos_iff.mpr (digits_ne_nil i.natAbs)
  have hlen : (digits i.natAbs).length ≤ 10 := by
    unfold digits
    split
    · decide
    · exact significant_length_le (by omega)
  have hsign : (if 0 ≤ i then 0 else 1) ≠ 0 ↔ i < 0 := by
    split
    · exact iff_of_false (fun h => h rfl) (by omega)
    · exact iff_of_true (by decide) (by omega)
  unfold numeral
  by_cases hneg : i < 0
  · obtain ⟨hstore, hat'⟩ := hat.store (c := 0x2d) (by decide) (by omega)
    rw [if_pos (hsign.mpr hneg), if_pos hneg]
    exact ⟨_, _, bind_of_ok hstore, hat'⟩
  · rw [if_neg (mt hsign.mp hneg), if_neg hneg]
    exact .pure hat

/-- `t` is the text of `i`, whatever the array held before. -/
def ItoaText (i : Int) (t : List UInt8) : Prop :=
  ∀ text, Returns (itoa i) text fun loc text' => TextAt text' loc t

/-- The text of an `int` is canonical, can be read back, and is that of no other `int`. -/
theorem itoa_canonical {i : Int} (hlo : -0x80000000 ≤ i) (hhi : i < 0x80000000) :
    ∃ t, ItoaText i t ∧ Canonical i t ∧ parse t = i ∧
      ∀ j, -0x80000000 ≤ j → j < 0x80000000 → ItoaText j t → j = i := by
  refine ⟨numeral i, itoa_numeral hlo hhi, numeral_canonical i, parse_numeral i, ?_⟩
  intro j hjlo hjhi hj
  obtain ⟨loc, text', hrun, hat⟩ := hj fun _ => 0
  have hat' := (itoa_numeral hjlo hjhi fun _ => 0).ensures _ _ hrun
  exact numeral_injective (hat'.string.unique hat.string)

/-- The most negative `int`. -/
theorem itoa_canonical_min : ∃ t, ItoaText (-0x80000000) t ∧ parse t = -0x80000000 := by
  obtain ⟨t, htext, -, hparse, -⟩ := itoa_canonical (i := -0x80000000) (by decide) (by decide)
  exact ⟨t, htext, hparse⟩

end PlumOS.Stdlib
