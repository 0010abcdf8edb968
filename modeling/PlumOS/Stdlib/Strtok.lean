import PlumOS.Stdlib.Strings
import PlumOS.Lib.Runs

/-!
# `strtok`

`strtok` of `programs/stdlib/src/string.c`. The delimiters are a string constant, given by its
characters.

## Main definitions

- `strtok`
- `startOf` — where a call begins
- `TokenTaken` — what a call does that finds a token

## Main results

- `strtok_eq`, `strtokFrom_nil`, `strtokFrom_cons` — one call
-/

namespace PlumOS.Stdlib

open StateExcept Runs

/-- The loop over the delimiters: the index `i` that it ends with. -/
def delimiterIndex (delimiters : List UInt8) (c : UInt8) : Nat := delimiters.findIdx (c == ·)

/-- The loop that skips delimiters: the first character behind them. -/
def strtokSkip (delimiters : List UInt8) : (fuel p_start : Nat) → PM Nat
  | 0, _ => fails .divergence
  | fuel + 1, p_start => do
    let c ← load p_start
    if delimiterIndex delimiters c = delimiters.length then pure p_start
    else strtokSkip delimiters fuel (p_start + 1)

/-- The loop that looks for the end of the token, from `sp`: the `sp` that it ends with. -/
def strtokEnd (delimiters : List UInt8) : (fuel sp : Nat) → PM Nat
  | 0, _ => fails .divergence
  | fuel + 1, sp => do
    let c ← load sp
    if c = 0 then pure sp
    else if delimiterIndex delimiters c < delimiters.length then do
      store sp [0]
      pure (sp + 1)
    else strtokEnd delimiters fuel (sp + 1)

/-- `sp = p`. -/
def setCursor (p : Nat) : PM PUnit := modifies fun s => { s with sp := p }

/-- `strtok` from its loops on. They go up, and stop at the end of the address space. -/
def strtokFrom (delimiters : List UInt8) (p_start : Nat) : PM Nat := do
  let p_start ← strtokSkip delimiters (0x100000001 - p_start) p_start
  setCursor p_start
  let c ← load p_start
  if c = 0 then do
    setCursor 0
    pure 0
  else do
    let sp ← strtokEnd delimiters (0x100000001 - p_start) p_start
    setCursor sp
    pure p_start

/-- `strtok`. -/
def strtok (str : Nat) (delimiters : List UInt8) : PM Nat := do
  let sp ← reads (·.sp)
  if str = 0 ∧ sp = 0 then pure 0
  else do
    onlyIf (str ≠ 0 ∧ sp = 0) (setCursor str)
    let p_start ← reads (·.sp)
    strtokFrom delimiters p_start

/-- The character is one of the delimiters. -/
def isDelimiter (delimiters : List UInt8) (c : UInt8) : Bool := delimiters.contains c

/-- How the search for the end of a token ends, when the token ends at `q` and `t` is left: a
delimiter is overwritten, and the cursor goes behind it. -/
def endToken (q : Nat) (st : ProgramState) : (t : List UInt8) → Nat × ProgramState
  | [] => (q, st)
  | _ :: _ => (q + 1, { st with mem := writeBytes st.mem q [0] })

/-! ### The loops -/

section Loops

variable {d : List UInt8} {c : UInt8} {st : ProgramState} {p : Nat}

theorem delimiterIndex_eq_iff :
    delimiterIndex d c = d.length ↔ isDelimiter d c = false := by
  unfold delimiterIndex isDelimiter
  rw [List.findIdx_eq_length, ← Bool.not_eq_true, List.contains_iff_mem]
  simp only [beq_eq_false_iff_ne]
  exact ⟨fun h hc => h c hc rfl, fun h x hx hcx => h (hcx ▸ hx)⟩

theorem delimiterIndex_lt_iff :
    delimiterIndex d c < d.length ↔ isDelimiter d c = true := by
  have hle : delimiterIndex d c ≤ d.length := List.findIdx_le_length
  rw [← Bool.not_eq_false, ← delimiterIndex_eq_iff]
  omega

theorem load_of_lt (h : p < 0x100000000) : load p st = .ok (st.mem p, st) := if_pos h

/-- Behind the delimiters there is a character that is none, or the NUL. -/
theorem isDelimiter_next (hd : 0 ∉ d) {t : List UInt8} (hat : StringAt st.mem p t)
    (ht : ∀ c ∈ t.head?, isDelimiter d c = false) : isDelimiter d (st.mem p) = false := by
  cases t with
  | nil =>
    rw [stringAt_nil.mp hat]
    simpa [isDelimiter] using hd
  | cons c t =>
    rw [(stringAt_cons.mp hat).2.1]
    exact ht c rfl

/-- The delimiters in front of a string are skipped. -/
theorem strtokSkip_eq (hd : 0 ∉ d) {g t : List UInt8} (hg : ∀ c ∈ g, isDelimiter d c = true)
    (ht : ∀ c ∈ t.head?, isDelimiter d c = false) (hat : StringAt st.mem p (g ++ t))
    (hspace : p + (g ++ t).length < 0x100000000) {fuel : Nat} (hfuel : g.length < fuel) :
    strtokSkip d fuel p st = .ok (p + g.length, st) := by
  induction g generalizing p fuel with
  | nil =>
    obtain ⟨fuel, rfl⟩ := Nat.exists_eq_succ_of_ne_zero (Nat.ne_of_gt hfuel)
    unfold strtokSkip
    rw [bind_of_ok (load_of_lt (by omega)),
      if_pos (delimiterIndex_eq_iff.mpr (isDelimiter_next hd hat ht))]
    rfl
  | cons c g ih =>
    obtain ⟨fuel, rfl⟩ := Nat.exists_eq_succ_of_ne_zero (Nat.ne_of_gt (Nat.zero_lt_of_lt hfuel))
    obtain ⟨-, hc, htail⟩ := stringAt_cons.mp hat
    rw [List.cons_append, List.length_cons] at hspace
    rw [List.length_cons] at hfuel ⊢
    have hdelim : ¬ delimiterIndex d (st.mem p) = d.length := by
      rw [hc, delimiterIndex_eq_iff, hg c (.head _)]
      exact Bool.noConfusion
    unfold strtokSkip
    rw [bind_of_ok (load_of_lt (by omega)), if_neg hdelim,
      ih (fun x hx => hg x (.tail _ hx)) htail (by omega) (by omega), Nat.add_assoc, Nat.add_comm 1]

/-- The token is read up to its end. -/
theorem strtokEnd_eq {w t : List UInt8} (hw : ∀ c ∈ w, isDelimiter d c = false)
    (hat : StringAt st.mem p (w ++ t)) (hspace : p + (w ++ t).length < 0x100000000) {fuel : Nat}
    (hfuel : w.length < fuel) (ht : ∀ c ∈ t.head?, isDelimiter d c = true) :
    strtokEnd d fuel p st = .ok (endToken (p + w.length) st t) := by
  induction w generalizing p fuel with
  | nil =>
    obtain ⟨fuel, rfl⟩ := Nat.exists_eq_succ_of_ne_zero (Nat.ne_of_gt hfuel)
    unfold strtokEnd
    rw [bind_of_ok (load_of_lt (by omega))]
    cases t with
    | nil =>
      rw [if_pos (stringAt_nil.mp hat)]
      rfl
    | cons c t =>
      obtain ⟨hne, hc, -⟩ := stringAt_cons.mp hat
      rw [List.nil_append, List.length_cons] at hspace
      have hstore : store p [0] st = .ok (⟨⟩, { st with mem := writeBytes st.mem p [0] }) :=
        if_pos (by rw [List.length_singleton]; omega)
      rw [hc, if_neg hne, if_pos (delimiterIndex_lt_iff.mpr (ht c rfl)), bind_of_ok hstore]
      rfl
  | cons c w ih =>
    obtain ⟨fuel, rfl⟩ := Nat.exists_eq_succ_of_ne_zero (Nat.ne_of_gt (Nat.zero_lt_of_lt hfuel))
    obtain ⟨hne, hc, htail⟩ := stringAt_cons.mp hat
    rw [List.cons_append, List.length_cons] at hspace
    rw [List.length_cons] at hfuel ⊢
    have hdelim : ¬ delimiterIndex d c < d.length := by
      rw [delimiterIndex_lt_iff, hw c (.head _)]
      exact Bool.false_ne_true
    unfold strtokEnd
    rw [bind_of_ok (load_of_lt (by omega)), hc, if_neg hne, if_neg hdelim,
      ih (fun x hx => hw x (.tail _ hx)) htail (by omega) (by omega), Nat.add_assoc, Nat.add_comm 1]

end Loops

/-! ### One call -/

/-- Where a call begins: at the cursor, unless there is none. -/
def startOf (str : Nat) (st : ProgramState) : Nat := if st.sp = 0 then str else st.sp

/-- The token `w` at `q` is taken off the string `t` at `p`, and the cursor leads to what is
left. -/
structure TokenTaken (d : List UInt8) (p : Nat) (t : List UInt8) (q : Nat) (w : List UInt8)
    (ts : List (Nat × List UInt8)) (st st' : ProgramState) : Prop where
  token : StringAt st'.mem q w
  inside : p ≤ q ∧ q + w.length ≤ p + t.length
  left : ∃ t', StringAt st'.mem st'.sp t' ∧ runs (isDelimiter d) st'.sp t' = ts ∧
    p < st'.sp ∧ st'.sp + t'.length = p + t.length
  frame : ∀ a, (a < p ∨ p + t.length ≤ a) → st'.mem a = st.mem a
  blocks : st'.blocks = st.blocks

section Call

variable {d : List UInt8} {st : ProgramState} {str p : Nat} {t : List UInt8}

theorem strtok_eq (hp : startOf str st ≠ 0) :
    strtok str d st = strtokFrom d (startOf str st) { st with sp := startOf str st } := by
  unfold startOf at hp ⊢
  unfold strtok
  rw [bind_of_ok (show reads (·.sp) st = .ok (st.sp, st) from rfl)]
  by_cases hsp : st.sp = 0
  · rw [if_pos hsp] at hp ⊢
    have hset : onlyIf (str ≠ 0 ∧ st.sp = 0) (setCursor str) st =
        .ok (⟨⟩, { st with sp := str }) := by
      unfold onlyIf
      rw [if_pos ⟨hp, hsp⟩]
      rfl
    rw [if_neg (fun h => hp h.1), bind_of_ok hset]
    rfl
  · rw [if_neg hsp]
    have hset : onlyIf (str ≠ 0 ∧ st.sp = 0) (setCursor str) st = .ok (⟨⟩, st) := by
      unfold onlyIf
      rw [if_neg (fun h => hsp h.2)]
      rfl
    rw [if_neg (fun h => hsp h.2), bind_of_ok hset]
    rfl

/-- Where only delimiters are left, there is no token, and no cursor. -/
theorem strtokFrom_nil (hd : 0 ∉ d) (hat : StringAt st.mem p t)
    (hspace : p + t.length < 0x100000000) (hruns : runs (isDelimiter d) p t = []) :
    strtokFrom d p st = .ok (0, { st with sp := 0 }) := by
  have hparts : Parts (isDelimiter d) p t _ := parts_runs p t
  rw [hruns] at hparts
  cases hparts with
  | gap hg =>
    have hskip : strtokSkip d (0x100000001 - p) p st = .ok (p + t.length, st) := by
      refine strtokSkip_eq hd hg (t := []) (by simp) ?_ ?_ (by omega)
      · rwa [List.append_nil]
      · rwa [List.append_nil]
    unfold strtokFrom
    rw [bind_of_ok hskip, bind_of_ok (show setCursor (p + t.length) st = .ok (⟨⟩, _) from rfl),
      bind_of_ok (load_of_lt hspace), if_pos hat.end]
    rfl

theorem stringAt_cut {mem : Nat → UInt8} {w s : List UInt8} (h : StringAt mem p (w ++ s)) :
    StringAt (writeBytes mem (p + w.length) [0]) p w := by
  refine ⟨fun hmem => h.1 (List.mem_append_left _ hmem), ?_⟩
  have hbytes := h.2
  rw [List.length_append, Nat.add_assoc, readBytes_append, List.append_assoc] at hbytes
  have hw := List.append_inj_left hbytes (readBytes_length ..)
  rw [readBytes_append, readBytes_writeBytes_apart (.inl (Nat.le_refl _)), hw]
  exact congrArg (w ++ ·) (readBytes_writeBytes mem (p + w.length) [0])

/-- Where a token is left, it is taken. -/
theorem strtokFrom_cons (hd : 0 ∉ d) (hat : StringAt st.mem p t)
    (hspace : p + t.length < 0x100000000) {q : Nat} {w : List UInt8} {ts : List (Nat × List UInt8)}
    (hruns : runs (isDelimiter d) p t = (q, w) :: ts) :
    Returns (strtokFrom d p) st fun r st' => r = q ∧ TokenTaken d p t q w ts st st' := by
  have hparts : Parts (isDelimiter d) p t _ := parts_runs p t
  rw [hruns] at hparts
  cases hparts with
  | @run _ g w s ts hg hne hw hs htail =>
    have hlen := List.length_pos_iff.mpr hne
    have htoken : StringAt st.mem (p + g.length) (w ++ s) := by
      rw [List.append_assoc] at hat
      exact hat.drop
    have htotal : (g ++ w ++ s).length = g.length + w.length + s.length := by
      rw [List.length_append, List.length_append]
    rw [htotal] at hspace
    have hskip : strtokSkip d (0x100000001 - p) p st = .ok (p + g.length, st) := by
      refine strtokSkip_eq hd hg (t := w ++ s) ?_ ?_ ?_ (by omega)
      · intro c hc
        rw [List.head?_append_of_ne_nil _ hne] at hc
        exact hw c (List.mem_of_mem_head? hc)
      · rwa [← List.append_assoc]
      · rw [← List.append_assoc, htotal]
        exact hspace
    have hchar : st.mem (p + g.length) ≠ 0 := by
      cases w with
      | nil => exact absurd rfl hne
      | cons c w =>
        obtain ⟨hnul, hc, -⟩ := stringAt_cons.mp htoken
        exact hc ▸ hnul
    let st₁ : ProgramState := { st with sp := p + g.length }
    have htoken₁ : StringAt st₁.mem (p + g.length) (w ++ s) := htoken
    have hend : strtokEnd d (0x100000001 - (p + g.length)) (p + g.length) st₁ =
        .ok (endToken (p + g.length + w.length) st₁ s) := by
      refine strtokEnd_eq hw htoken₁ ?_ ?_ hs
      · rw [List.length_append]
        omega
      · omega
    unfold strtokFrom
    refine .of_eq (bind_of_ok hskip) (.of_eq (bind_of_ok rfl) ?_)
    refine .of_eq (bind_of_ok (load_of_lt (by omega))) ?_
    rw [if_neg hchar]
    refine .of_eq (bind_of_ok hend) ?_
    refine ⟨_, _, rfl, rfl, ?_⟩
    cases s with
    | nil =>
      obtain rfl : ts = [] := htail.eq_runs
      rw [List.append_nil] at htoken
      refine ⟨htoken, ⟨by omega, by omega⟩, ⟨[], ?_, rfl, by change p < p + _ + _; omega, ?_⟩,
        fun _ _ => rfl, rfl⟩
      · exact stringAt_nil.mpr htoken.end
      · change p + g.length + w.length + 0 = _
        rw [htotal, List.length_nil]
        omega
    | cons c s =>
      have hsep := hs c rfl
      have hafter : StringAt st.mem (p + g.length + w.length + 1) s :=
        (stringAt_cons.mp htoken.drop).2.2
      rw [List.length_cons] at htotal
      refine ⟨stringAt_cut htoken, ⟨by omega, by omega⟩, ⟨s, ?_, ?_, ?_, ?_⟩, ?_, rfl⟩
      · refine hafter.congr fun i _ => ?_
        exact writeBytes_of_not_mem (.inr (by rw [List.length_singleton]; exact Nat.le_add_right ..))
      · rw [htail.eq_runs, runs, if_pos hsep]
      · change p < p + _ + _ + 1
        omega
      · change p + _ + _ + 1 + _ = _
        omega
      · intro a ha
        refine writeBytes_of_not_mem ?_
        rw [List.length_singleton]
        omega

end Call

end PlumOS.Stdlib
