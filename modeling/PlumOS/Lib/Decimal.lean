import Mathlib.Data.Nat.Digits.Lemmas

/-!
# Decimal numerals

The decimal numerals of integers as strings of bytes: a minus sign for the negative ones, and
digits without leading zeros.

## Main definitions

- `digits`, `numeral` — the numerals
- `value`, `parse` — what they denote
- `Canonical` — the form of a numeral

## Main results

- `parse_numeral`, `numeral_injective`, `numeral_canonical`
-/

namespace Decimal

/-- The character of a digit. -/
def digit (d : Nat) : UInt8 := UInt8.ofNat (0x30 + d)

/-- The character is a digit. -/
def IsDigit (c : UInt8) : Prop := 0x30 ≤ c.toNat ∧ c.toNat ≤ 0x39

/-- The digits of a number, and none of zero. -/
def significant (n : Nat) : List UInt8 := ((Nat.digits 10 n).map digit).reverse

/-- The numeral of a natural number. -/
def digits (n : Nat) : List UInt8 := if n = 0 then [digit 0] else significant n

/-- The numeral of an integer. -/
def numeral (i : Int) : List UInt8 := if i < 0 then 0x2d :: digits i.natAbs else digits i.natAbs

/-- The number that a string of digits denotes. -/
def value (t : List UInt8) : Nat := t.foldl (fun v c => 10 * v + (c.toNat - 0x30)) 0

/-- The integer that a numeral denotes. -/
def parse : List UInt8 → Int
  | [] => 0
  | c :: t => if c = 0x2d then - (value t : Int) else value (c :: t)

/-- A sign for the negative integers only, then digits, and no zero in front of others. -/
def Canonical (i : Int) (t : List UInt8) : Prop :=
  ∃ ds, t = (if i < 0 then [0x2d] else []) ++ ds ∧ ds ≠ [] ∧ (∀ c ∈ ds, IsDigit c) ∧
    (ds.head? = some 0x30 → ds = [0x30] ∧ i = 0)

theorem digit_toNat {d : Nat} (hd : d < 10) : (digit d).toNat = 0x30 + d := by
  unfold digit
  rw [UInt8.toNat_ofNat']
  omega

theorem digit_isDigit {d : Nat} (hd : d < 10) : IsDigit (digit d) := by
  unfold IsDigit
  rw [digit_toNat hd]
  omega

theorem significant_zero : significant 0 = [] := by
  simp [significant]

/-- The last digit is the remainder by ten. -/
theorem significant_succ {n : Nat} (hn : n ≠ 0) :
    significant n = significant (n / 10) ++ [digit (n % 10)] := by
  unfold significant
  rw [Nat.digits_def' (by decide) (Nat.pos_of_ne_zero hn), List.map_cons, List.reverse_cons]

theorem significant_isDigit {n : Nat} {c : UInt8} (hc : c ∈ significant n) : IsDigit c := by
  unfold significant at hc
  rw [List.mem_reverse, List.mem_map] at hc
  obtain ⟨d, hd, rfl⟩ := hc
  exact digit_isDigit (Nat.digits_lt_base (by decide) hd)

theorem significant_ne_nil {n : Nat} (hn : n ≠ 0) : significant n ≠ [] := by
  rw [significant_succ hn]
  simp

/-- The first digit is not zero. -/
theorem significant_head {n : Nat} (hn : n ≠ 0) : (significant n).head? ≠ some 0x30 := by
  induction n using Nat.strong_induction_on with
  | _ n ih =>
    rw [significant_succ hn]
    by_cases hten : n / 10 = 0
    · rw [hten, significant_zero]
      intro h
      have hd := congrArg UInt8.toNat (Option.some.inj h)
      rw [digit_toNat (Nat.mod_lt _ (by decide))] at hd
      change 0x30 + n % 10 = 0x30 at hd
      omega
    · rw [List.head?_append_of_ne_nil _ (significant_ne_nil hten)]
      exact ih _ (by omega) hten

theorem value_append (t : List UInt8) (c : UInt8) :
    value (t ++ [c]) = 10 * value t + (c.toNat - 0x30) := by
  unfold value
  rw [List.foldl_append]
  rfl

theorem value_significant (n : Nat) : value (significant n) = n := by
  induction n using Nat.strong_induction_on with
  | _ n ih =>
    by_cases hn : n = 0
    · rw [hn, significant_zero]
      rfl
    · rw [significant_succ hn, value_append, ih _ (by omega),
        digit_toNat (Nat.mod_lt _ (by decide))]
      omega

theorem value_digits (n : Nat) : value (digits n) = n := by
  unfold digits
  split
  · next hn => rw [hn]; rfl
  · exact value_significant n

theorem digits_isDigit {n : Nat} {c : UInt8} (hc : c ∈ digits n) : IsDigit c := by
  unfold digits at hc
  split at hc
  · rw [List.mem_singleton.mp hc]
    exact digit_isDigit (by decide)
  · exact significant_isDigit hc

theorem digits_ne_nil (n : Nat) : digits n ≠ [] := by
  unfold digits
  split
  · simp
  · next hn => exact significant_ne_nil hn

/-- A zero in front is the whole numeral. -/
theorem digits_head {n : Nat} (h : (digits n).head? = some 0x30) : digits n = [0x30] ∧ n = 0 := by
  unfold digits at h ⊢
  split
  · next hn => exact ⟨rfl, hn⟩
  · next hn =>
    rw [if_neg hn] at h
    exact absurd h (significant_head hn)

theorem numeral_canonical (i : Int) : Canonical i (numeral i) := by
  refine ⟨digits i.natAbs, ?_, digits_ne_nil _, fun c hc => digits_isDigit hc, fun h => ?_⟩
  · unfold numeral
    split <;> rfl
  · obtain ⟨hds, hzero⟩ := digits_head h
    exact ⟨hds, Int.natAbs_eq_zero.mp hzero⟩

/-- Reading a numeral gives back the integer. -/
theorem parse_numeral (i : Int) : parse (numeral i) = i := by
  unfold numeral
  split
  · next hneg =>
    dsimp only [parse]
    rw [if_pos rfl, value_digits]
    omega
  · next hpos =>
    have hvalue := value_digits i.natAbs
    cases hds : digits i.natAbs with
    | nil => exact absurd hds (digits_ne_nil _)
    | cons c t =>
      rw [hds] at hvalue
      have hc : IsDigit c := digits_isDigit (hds ▸ List.mem_cons_self)
      have hsign : c ≠ 0x2d := by
        rintro rfl
        exact absurd hc.1 (by decide)
      dsimp only [parse]
      rw [if_neg hsign, hvalue]
      omega

theorem numeral_injective : Function.Injective numeral :=
  Function.LeftInverse.injective parse_numeral

end Decimal
