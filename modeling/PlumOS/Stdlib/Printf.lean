import PlumOS.Stdlib.Itoa
import Mathlib.Data.List.DropRight
import Mathlib.Algebra.Group.Nat.Even

/-!
# Formatted output

`printf` of `programs/stdlib/src/stdio.c`. A string is given by its bytes from the pointer on,
up to and with its NUL, so a read behind them is a read behind the NUL. What is handed to the
kernel to be shown, by `print` or by `plumos_putchar`, is kept in the order of the requests.

## Main definitions

- `printf`
- `printfText` — the text of a format and its arguments
- `percentsAtEnd` — the number of `%` that a format ends in

## Main results

- `printf_text_iff`
-/

namespace PlumOS.Stdlib

open StateExcept Decimal

/-- The array of `itoa`, and what is handed to the kernel to be shown. -/
structure Printing where
  text : Nat → UInt8
  shown : List UInt8

/-- Programs of `stdio.c`. -/
abbrev PrintM := StateT Printing (Except Fault)

/-- An argument behind the format: a number, or the string that a pointer leads to. -/
inductive PrintfArgument where
  | int (ival : Int32)
  | str (sval : List UInt8)

/-- `putchar`. -/
def putchar (c : UInt8) : PrintM PUnit := modifies fun s => { s with shown := s.shown ++ [c] }

/-- `print`. -/
def print : (message : List UInt8) → PrintM PUnit
  | [] => fails .outOfBounds
  | c :: message =>
    if c = 0 then pure ⟨⟩
    else do
      putchar c
      print message

/-- `print(itoa(ival))`: the array has 12 bytes. -/
def printItoa (ival : Int32) : PrintM PUnit := fun s =>
  match itoa ival.toInt s.text with
  | .ok (loc, text) => print (readBytes text loc.toNat (12 - loc.toNat)) { s with text := text }
  | .error e => .error e

/-- The `switch` of `printf`, for the character behind a `%`: the arguments that are left. -/
def printfDirective (c : UInt8) (ap : List PrintfArgument) : PrintM (List PrintfArgument) :=
  if c = 0x69 then
    match ap with
    | .int ival :: ap => do
      printItoa ival
      pure ap
    | _ => fails .badPointer
  else if c = 0x73 then
    match ap with
    | .str sval :: ap => do
      print sval
      pure ap
    | _ => fails .badPointer
  else do
    putchar c
    pure ap

/-- The loop of `printf`. -/
def printfLoop : (p : List UInt8) → (ap : List PrintfArgument) → PrintM PUnit
  | [], _ => fails .outOfBounds
  | c :: p, ap =>
    if c = 0 then pure ⟨⟩
    else if c ≠ 0x25 then do
      putchar c
      printfLoop p ap
    else
      match p with
      | [] => fails .outOfBounds
      | d :: p => do
        let ap ← printfDirective d ap
        printfLoop p ap

/-- `printf`. -/
def printf (fmt : List UInt8) (ap : List PrintfArgument) : PrintM Int := do
  printfLoop fmt ap
  pure 0

/-! ### The text of a format -/

/-- What stands for `%c`, and the arguments that are left; `none` where the next argument does
not match. -/
def directiveText (c : UInt8) (args : List PrintfArgument) :
    Option (List UInt8 × List PrintfArgument) :=
  if c = 0x69 then
    match args with
    | .int i :: args => some (numeral i.toInt, args)
    | _ => none
  else if c = 0x73 then
    match args with
    | .str s :: args => if 0 ∈ s then some (s.takeWhile (· ≠ 0), args) else none
    | _ => none
  else some ([c], args)

/-- The text of a format; `none` where the arguments do not match. A `%` that nothing follows
stands for nothing. -/
def printfText : (fmt : List UInt8) → (args : List PrintfArgument) → Option (List UInt8)
  | [], _ => some []
  | [c], _ => some (if c = 0x25 then [] else [c])
  | c :: d :: fmt, args =>
    if c ≠ 0x25 then (printfText (d :: fmt) args).map (c :: ·)
    else
      match directiveText d args with
      | some (t, args) => (printfText fmt args).map (t ++ ·)
      | none => none

/-- The number of `%` at the end of a format. -/
def percentsAtEnd (fmt : List UInt8) : Nat := (fmt.rtakeWhile (· = 0x25)).length

/-! ### Pairs of `%` at the end -/

theorem percentsAtEnd_concat_percent (fmt : List UInt8) :
    percentsAtEnd (fmt ++ [0x25]) = percentsAtEnd fmt + 1 := by
  simp [percentsAtEnd]

theorem percentsAtEnd_concat_other (fmt : List UInt8) {c : UInt8} (hc : c ≠ 0x25) :
    percentsAtEnd (fmt ++ [c]) = 0 := by
  simp [percentsAtEnd, hc]

theorem percentsAtEnd_append_of_all (l : List UInt8) {fmt : List UInt8}
    (h : ∀ c ∈ fmt, c = 0x25) : percentsAtEnd (l ++ fmt) = percentsAtEnd l + fmt.length := by
  induction fmt using List.reverseRecOn with
  | nil => simp
  | append_singleton fmt c ih =>
    obtain rfl := h c (by simp)
    have hfmt := ih fun d hd => h d (by simp [hd])
    rw [← List.append_assoc, percentsAtEnd_concat_percent, hfmt, List.length_append]
    rfl

theorem percentsAtEnd_append_of_not (l : List UInt8) {fmt : List UInt8}
    (h : ¬ ∀ c ∈ fmt, c = 0x25) : percentsAtEnd (l ++ fmt) = percentsAtEnd fmt := by
  induction fmt using List.reverseRecOn with
  | nil => exact absurd (by simp) h
  | append_singleton fmt c ih =>
    rw [← List.append_assoc]
    by_cases hc : c = 0x25
    · subst hc
      have hfmt := ih fun hall => h (by simpa [or_imp, forall_and] using hall)
      rw [percentsAtEnd_concat_percent, percentsAtEnd_concat_percent, hfmt]
    · rw [percentsAtEnd_concat_other _ hc, percentsAtEnd_concat_other _ hc]

theorem percentsAtEnd_cons {c : UInt8} (hc : c ≠ 0x25) (fmt : List UInt8) :
    percentsAtEnd (c :: fmt) = percentsAtEnd fmt := by
  have hone : percentsAtEnd [c] = 0 := percentsAtEnd_concat_other [] hc
  have hnil : percentsAtEnd [] = 0 := rfl
  by_cases hall : ∀ d ∈ fmt, d = 0x25
  · have hcons := percentsAtEnd_append_of_all [c] hall
    have hself := percentsAtEnd_append_of_all [] hall
    rw [hone] at hcons
    rw [hnil] at hself
    exact hcons.trans hself.symm
  · exact percentsAtEnd_append_of_not [c] hall

/-- A `%` and the character behind it. -/
theorem percentsAtEnd_directive (d : UInt8) (fmt : List UInt8) :
    Even (percentsAtEnd (0x25 :: d :: fmt)) ↔ Even (percentsAtEnd fmt) := by
  have htwo : Even (percentsAtEnd [0x25, d]) := by
    by_cases hd : d = 0x25
    · subst hd
      exact even_two
    · rw [show percentsAtEnd [0x25, d] = 0 from percentsAtEnd_concat_other [0x25] hd]
      exact Even.zero
  have hnil : percentsAtEnd [] = 0 := rfl
  by_cases hall : ∀ c ∈ fmt, c = 0x25
  · have hcons := percentsAtEnd_append_of_all [0x25, d] hall
    have hself := percentsAtEnd_append_of_all [] hall
    rw [hnil, Nat.zero_add] at hself
    change percentsAtEnd fmt = _ at hself
    change percentsAtEnd (0x25 :: d :: fmt) = _ at hcons
    rw [hcons, hself, Nat.even_add]
    exact iff_true_left htwo
  · have hcons := percentsAtEnd_append_of_not [0x25, d] hall
    change percentsAtEnd (0x25 :: d :: fmt) = _ at hcons
    rw [hcons]

/-! ### The directives -/

theorem print_returns {message : List UInt8} (h : 0 ∈ message) (s : Printing) :
    Returns (print message) s fun _ s' => s'.shown = s.shown ++ message.takeWhile (· ≠ 0) := by
  induction message generalizing s with
  | nil => cases h
  | cons c message ih =>
    by_cases hc : c = 0
    · subst hc
      exact ⟨_, s, rfl, by simp⟩
    · have hmem : 0 ∈ message := (List.mem_cons.mp h).resolve_left (Ne.symm hc)
      have hrest := ih hmem { s with shown := s.shown ++ [c] }
      rw [print, if_neg hc]
      refine .of_eq (bind_of_ok rfl) (hrest.mono ?_)
      intro _ s' hs'
      rw [hs', List.takeWhile_cons_of_pos (by simpa using hc), List.append_assoc]
      rfl

theorem printItoa_returns (i : Int32) (s : Printing) :
    Returns (printItoa i) s fun _ s' => s'.shown = s.shown ++ numeral i.toInt := by
  obtain ⟨loc, text, hrun, hat⟩ := itoa_numeral i.le_toInt i.toInt_lt s.text
  have hends := hat.ends
  have hbytes : readBytes text loc.toNat (12 - loc.toNat) = numeral i.toInt ++ [0] := by
    rw [show 12 - loc.toNat = (numeral i.toInt).length + 1 by have := hat.nonneg; omega]
    exact hat.string.2
  have hnul : ∀ c ∈ numeral i.toInt, decide (c ≠ 0) = true := by
    intro c hc
    exact decide_eq_true fun hzero => hat.string.1 (hzero ▸ hc)
  have hmem : 0 ∈ numeral i.toInt ++ [0] := by simp
  have hprint := print_returns hmem { s with text := text }
  rw [List.takeWhile_append_of_pos hnul] at hprint
  have heq : printItoa i s = print (numeral i.toInt ++ [0]) { s with text := text } := by
    unfold printItoa
    rw [hrun]
    exact congrArg (print · _) hbytes
  exact .of_eq heq (by simpa using hprint)

/-- A directive shows its text, where the next argument matches. -/
theorem printfDirective_returns {d : UInt8} {args rest : List PrintfArgument} {t : List UInt8}
    (h : directiveText d args = some (t, rest)) (s : Printing) :
    Returns (printfDirective d args) s fun ap s' => ap = rest ∧ s'.shown = s.shown ++ t := by
  unfold directiveText at h
  unfold printfDirective
  by_cases hi : d = 0x69
  · rw [if_pos hi] at h ⊢
    cases args with
    | nil => cases h
    | cons arg args =>
      cases arg with
      | str s => cases h
      | int i =>
        cases h
        exact .bind (printItoa_returns i s) fun _ s' hs' => .pure ⟨rfl, hs'⟩
  · rw [if_neg hi] at h ⊢
    by_cases hs : d = 0x73
    · rw [if_pos hs] at h ⊢
      cases args with
      | nil => cases h
      | cons arg args =>
        cases arg with
        | int i => cases h
        | str sval =>
          dsimp only at h
          by_cases hnul : 0 ∈ sval
          · rw [if_pos hnul] at h
            cases h
            exact .bind (print_returns hnul s) fun _ s' hs' => .pure ⟨rfl, hs'⟩
          · rw [if_neg hnul] at h
            cases h
    · rw [if_neg hs] at h ⊢
      cases h
      exact ⟨_, _, bind_of_ok rfl, rfl, rfl⟩

/-! ### The format -/

theorem printfLoop_char {c : UInt8} (hnul : c ≠ 0) (hc : c ≠ 0x25) (p : List UInt8)
    (ap : List PrintfArgument) (s : Printing) :
    printfLoop (c :: p) ap s = printfLoop p ap { s with shown := s.shown ++ [c] } := by
  rw [printfLoop.eq_def]
  dsimp only
  rw [if_neg hnul, if_pos hc]
  rfl

theorem printfLoop_directive (d : UInt8) (p : List UInt8) (ap : List PrintfArgument) :
    printfLoop (0x25 :: d :: p) ap = printfDirective d ap >>= printfLoop p := by
  rw [printfLoop.eq_def]
  rfl

/-- The loop shows the text of the format, unless it runs past the NUL. -/
theorem printfLoop_text_iff {fmt : List UInt8} (hfmt : 0 ∉ fmt) {args : List PrintfArgument}
    {out : List UInt8} (hargs : printfText fmt args = some out) (s : Printing) :
    (Returns (printfLoop (fmt ++ [0]) args) s fun _ s' => s'.shown = s.shown ++ out) ↔
      Even (percentsAtEnd fmt) := by
  induction fmt, args using printfText.induct generalizing s out with
  | case1 args =>
    cases hargs
    exact iff_of_true ⟨_, _, rfl, (List.append_nil _).symm⟩ Even.zero
  | case2 args c =>
    cases hargs
    by_cases hc : c = 0x25
    · -- the NUL is taken for the character behind the `%`
      subst hc
      refine iff_of_false ?_ (by decide)
      rintro ⟨_, _, hrun, -⟩
      cases hrun
    · have hnul : c ≠ 0 := fun h => hfmt (by simp [h])
      rw [if_neg hc, percentsAtEnd_cons hc]
      refine iff_of_true (.of_eq (printfLoop_char hnul hc [0] args s) ?_) Even.zero
      exact ⟨_, _, rfl, rfl⟩
  | case3 c d fmt args hc ih =>
    have hnul : c ≠ 0 := fun h => hfmt (by simp [h])
    have hrun := printfLoop_char hnul hc (d :: fmt ++ [0]) args s
    obtain ⟨rest, hrest, rfl⟩ := Option.map_eq_some_iff.mp ((if_pos hc).symm.trans hargs)
    have hshown : s.shown ++ c :: rest = s.shown ++ [c] ++ rest := by simp
    rw [percentsAtEnd_cons hc, ← ih (fun h => hfmt (.tail _ h)) hrest, hshown]
    exact ⟨.of_eq hrun.symm, .of_eq hrun⟩
  | case4 c d fmt args hc t args' hd ih =>
    obtain rfl : c = 0x25 := not_not.mp hc
    have hmap : (printfText fmt args').map (t ++ ·) = some out := by
      rw [← hargs, printfText, if_neg hc, hd]
    obtain ⟨rest, hrest, rfl⟩ := Option.map_eq_some_iff.mp hmap
    obtain ⟨ap, s', hrun, hap, hs'⟩ := printfDirective_returns hd s
    rw [hap] at hrun
    have hloop : printfLoop (0x25 :: d :: fmt ++ [0]) args s =
        printfLoop (fmt ++ [0]) args' s' := by
      rw [List.cons_append, List.cons_append, printfLoop_directive]
      exact bind_of_ok hrun
    rw [percentsAtEnd_directive, ← ih (fun h => hfmt (.tail _ (.tail _ h))) hrest, hs',
      List.append_assoc]
    exact ⟨.of_eq hloop.symm, .of_eq hloop⟩
  | case5 c d fmt args hc hd =>
    rw [printfText, if_neg hc, hd] at hargs
    cases hargs

/-- `printf` stops at the NUL and shows the text of the format exactly when the format ends in
an even number of `%`. -/
theorem printf_text_iff {fmt : List UInt8} (hfmt : 0 ∉ fmt) {args : List PrintfArgument}
    {out : List UInt8} (hargs : printfText fmt args = some out) (s : Printing) :
    (Returns (printf (fmt ++ [0]) args) s fun r s' => r = 0 ∧ s'.shown = s.shown ++ out) ↔
      Even (percentsAtEnd fmt) := by
  rw [← printfLoop_text_iff hfmt hargs s]
  constructor
  · rintro ⟨_, _, hrun, -, hshown⟩
    obtain ⟨_, s', hloop, hpure⟩ := bind_eq_ok.mp hrun
    cases hpure
    exact ⟨_, _, hloop, hshown⟩
  · intro hloop
    exact .bind hloop fun _ _ hshown => .pure ⟨rfl, hshown⟩

/-- `printf("%s%i%%", "a", -5)`. -/
theorem printf_text_two :
    Returns (printf ([0x25, 0x73, 0x25, 0x69, 0x25, 0x25] ++ [0]) [.str [0x61, 0], .int (-5)])
      ⟨fun _ => 0, []⟩ fun r s' => r = 0 ∧ s'.shown = [0x61, 0x2d, 0x35, 0x25] :=
  (printf_text_iff (by decide) rfl ⟨fun _ => 0, []⟩).mpr (by decide)

/-- `printf("%")` takes the NUL for the character behind the `%`, and reads on behind it. -/
theorem printf_overrun : ∃ fmt args out s, 0 ∉ fmt ∧ printfText fmt args = some out ∧
    printf (fmt ++ [0]) args s = .error .outOfBounds :=
  ⟨[0x25], [], [], ⟨fun _ => 0, []⟩, by decide, rfl, rfl⟩

end PlumOS.Stdlib
