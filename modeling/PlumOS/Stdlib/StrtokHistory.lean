import PlumOS.Stdlib.ParseCommand
import PlumOS.Lib.LabelledRun

/-!
# `strtok` after other calls

`strtok` keeps its cursor when a string is not taken apart to its end, and then the next string
that it is given is not looked at. Programs run with any calls of `strtok`, and with anything
between them that leaves the cursor alone; behind such a history a string is taken apart exactly
when there is no cursor, or when it leads to where the string does.

## Main definitions

- `ProgramStep` — a call of `strtok`, or another step of the program
- `ReturnsTokens` — what calls of `strtok` should return
- `LeadTogether` — two addresses with the same next token

## Main results

- `strtok_history_iff`
-/

namespace PlumOS.Stdlib

open StateExcept Runs LabelledRun

/-- A step of a program, with what `strtok` returns if it is a call of it. -/
inductive ProgramStep : ProgramState → Option Nat → ProgramState → Prop
  | strtok {s s' : ProgramState} (str : Nat) (d : List UInt8) {r : Nat}
      (h : strtok str d s = .ok (r, s')) : ProgramStep s (some r) s'
  | other {s s' : ProgramState} (h : s'.sp = s.sp) : ProgramStep s none s'

/-- What the last call of `strtok` returned, and `r` if there was none. -/
def lastReturned : (r : Nat) → (tr : List (Option Nat × ProgramState)) → Nat
  | r, [] => r
  | r, (none, _) :: tr => lastReturned r tr
  | _, (some r, _) :: tr => lastReturned r tr

/-- `strtok(str, d)` and then `strtok(NULL, d)`, again and again, return the tokens `ts` in their
order, each as a string, and then NULL. -/
def ReturnsTokens (d : List UInt8) : (str : Nat) → (ts : List (Nat × List UInt8)) →
    ProgramState → Prop
  | str, [], s => Returns (strtok str d) s fun r _ => r = 0
  | str, (q, w) :: ts, s => Returns (strtok str d) s fun r s' =>
      r = q ∧ StringAt s'.mem q w ∧ ReturnsTokens d 0 ts s'

/-- The first character from `p` on that is no delimiter is at `a`. -/
structure LeadsTo (d : List UInt8) (mem : Nat → UInt8) (p a : Nat) : Prop where
  le : p ≤ a
  space : a < 0x100000000
  skipped : ∀ i, p ≤ i → i < a → isDelimiter d (mem i) = true
  stops : isDelimiter d (mem a) = false

/-- From `p` and from `q` on, the first character that is no delimiter is the same one, or is a NUL
both times. -/
def LeadTogether (d : List UInt8) (mem : Nat → UInt8) (p q : Nat) : Prop :=
  ∃ a b, LeadsTo d mem p a ∧ LeadsTo d mem q b ∧ (a = b ∨ mem a = 0 ∧ mem b = 0)

/-! ### The skipped delimiters -/

section Skip

variable {d : List UInt8} {s s' : ProgramState} {p a : Nat}

theorem LeadsTo.skip (h : LeadsTo d s.mem p a) {fuel : Nat} (hfuel : a - p < fuel) :
    strtokSkip d fuel p s = .ok (a, s) := by
  induction fuel generalizing p with
  | zero => cases hfuel
  | succ fuel ih =>
    have hspace := h.space
    have hle := h.le
    unfold strtokSkip
    rw [bind_of_ok (load_of_lt (by omega))]
    by_cases hpa : p = a
    · rw [if_pos (delimiterIndex_eq_iff.mpr (hpa ▸ h.stops)), hpa]
      rfl
    · have hlt : p < a := Nat.lt_of_le_of_ne hle hpa
      have hdelim : ¬ delimiterIndex d (s.mem p) = d.length := by
        rw [delimiterIndex_eq_iff, h.skipped p (Nat.le_refl p) hlt]
        exact Bool.noConfusion
      rw [if_neg hdelim]
      exact ih ⟨hlt, hspace, fun i hi => h.skipped i (Nat.le_of_succ_le hi), h.stops⟩ (by omega)

theorem LeadsTo.eq_of_stops {mem : Nat → UInt8} (h : LeadsTo d mem p a)
    (hp : isDelimiter d (mem p) = false) : a = p := by
  by_contra hne
  have hskipped := h.skipped p (Nat.le_refl p) (Nat.lt_of_le_of_ne h.le (Ne.symm hne))
  rw [hp] at hskipped
  cases hskipped

theorem leadsTo_of_skip {fuel : Nat} (h : strtokSkip d fuel p s = .ok (a, s')) :
    s' = s ∧ LeadsTo d s.mem p a := by
  induction fuel generalizing p with
  | zero => cases h
  | succ fuel ih =>
    unfold strtokSkip at h
    by_cases hspace : p < 0x100000000
    · rw [bind_of_ok (load_of_lt hspace)] at h
      split at h
      · next hdelim =>
        cases h
        exact ⟨rfl, Nat.le_refl _, hspace, fun i hi hi' => by omega, delimiterIndex_eq_iff.mp hdelim⟩
      · next hdelim =>
        obtain ⟨hs, hlead⟩ := ih h
        refine ⟨hs, Nat.le_of_succ_le hlead.le, hlead.space, fun i hi hi' => ?_, hlead.stops⟩
        rcases Nat.lt_or_eq_of_le hi with hi | rfl
        · exact hlead.skipped i hi hi'
        · rw [delimiterIndex_eq_iff, Bool.not_eq_false] at hdelim
          exact hdelim
    · rw [bind_of_error (show load p s = .error .badPointer from if_neg hspace)] at h
      cases h

theorem strtokEnd_le {fuel r : Nat} (h : strtokEnd d fuel p s = .ok (r, s')) : p ≤ r := by
  induction fuel generalizing p s with
  | zero => cases h
  | succ fuel ih =>
    unfold strtokEnd at h
    obtain ⟨c, t, -, h⟩ := bind_eq_ok.mp h
    split at h
    · cases h
      exact Nat.le_refl _
    · split at h
      · obtain ⟨_, _, -, h⟩ := bind_eq_ok.mp h
        cases h
        exact Nat.le_succ _
      · exact Nat.le_of_succ_le (ih h)

/-- A call, once the delimiters are skipped. -/
theorem LeadsTo.strtokFrom_eq (h : LeadsTo d s.mem p a) :
    strtokFrom d p s = if s.mem a = 0 then .ok (0, { s with sp := 0 })
      else (do
        let sp ← strtokEnd d (0x100000001 - a) a
        setCursor sp
        pure a : PM Nat) { s with sp := a } := by
  have hle := h.le
  have hspace := h.space
  have hskip : strtokSkip d (0x100000001 - p) p s = .ok (a, s) := h.skip (by omega)
  unfold strtokFrom
  rw [bind_of_ok hskip, bind_of_ok (show setCursor a s = .ok (⟨⟩, { s with sp := a }) from rfl),
    bind_of_ok (load_of_lt hspace)]
  split
  · rfl
  · rfl

/-- What a call that returns has found. -/
theorem leadsTo_of_strtokFrom (hp : p ≠ 0) {r : Nat} (h : strtokFrom d p s = .ok (r, s')) :
    ∃ a, LeadsTo d s.mem p a ∧ r = (if s.mem a = 0 then 0 else a) ∧ (r = 0 ↔ s'.sp = 0) := by
  obtain ⟨a, t, hskip, -⟩ := bind_eq_ok.mp h
  obtain ⟨-, hlead⟩ := leadsTo_of_skip hskip
  have hle := hlead.le
  rw [hlead.strtokFrom_eq] at h
  refine ⟨a, hlead, ?_⟩
  by_cases hnul : s.mem a = 0
  · rw [if_pos hnul] at h ⊢
    cases h
    exact ⟨rfl, iff_of_true rfl rfl⟩
  · rw [if_neg hnul] at h ⊢
    obtain ⟨sp, t', hend, h⟩ := bind_eq_ok.mp h
    have hsp := strtokEnd_le hend
    cases h
    exact ⟨rfl, iff_of_false (by omega) (by change ¬ sp = 0; omega)⟩

/-- Calls that skip to the same character do the same. -/
theorem LeadTogether.strtokFrom_eq {q x y : Nat} (h : LeadTogether d s.mem p q) :
    strtokFrom d p { s with sp := x } = strtokFrom d q { s with sp := y } := by
  obtain ⟨a, b, ha, hb, hab⟩ := h
  have ha' : LeadsTo d ({ s with sp := x } : ProgramState).mem p a := ha
  have hb' : LeadsTo d ({ s with sp := y } : ProgramState).mem q b := hb
  rw [ha'.strtokFrom_eq, hb'.strtokFrom_eq]
  rcases hab with rfl | ⟨hzero, hzero'⟩
  · rfl
  · rw [if_pos hzero, if_pos hzero']

end Skip

/-! ### The cursor -/

/-- `strtok` returns NULL exactly when it leaves no cursor. -/
theorem strtok_cursor {str : Nat} {d : List UInt8} {s s' : ProgramState} {r : Nat}
    (h : strtok str d s = .ok (r, s')) : r = 0 ↔ s'.sp = 0 := by
  by_cases hstart : startOf str s = 0
  · have hsp : s.sp = 0 := by
      by_contra hne
      exact hne ((if_neg hne).symm.trans hstart)
    have hstr : str = 0 := (if_pos hsp).symm.trans hstart
    unfold strtok at h
    rw [bind_of_ok (show reads (·.sp) s = .ok (s.sp, s) from rfl), if_pos ⟨hstr, hsp⟩] at h
    cases h
    exact iff_of_true rfl hsp
  · rw [strtok_eq hstart] at h
    obtain ⟨a, -, -, hsp⟩ := leadsTo_of_strtokFrom hstart h
    exact hsp

theorem lastReturned_iff {s : ProgramState} {tr : List (Option Nat × ProgramState)}
    (hrun : Run ProgramStep s tr) {r : Nat} (hr : r = 0 ↔ s.sp = 0) :
    lastReturned r tr = 0 ↔ (lastState s tr).sp = 0 := by
  induction hrun generalizing r with
  | nil s => exact hr
  | cons hstep _ ih =>
    cases hstep with
    | strtok str d h => exact ih (strtok_cursor h)
    | other h => exact ih (hr.trans (by rw [h]))

/-! ### The tokens -/

section Tokens

variable {d : List UInt8} {s : ProgramState} {str p : Nat} {t : List UInt8}

/-- From where the first call begins, all the tokens are returned. -/
theorem returnsTokens_of_startOf (hd : 0 ∉ d) (hp : p ≠ 0) (hstart : startOf str s = p)
    (hat : StringAt s.mem p t) (hspace : p + t.length < 0x100000000) :
    ReturnsTokens d str (runs (isDelimiter d) p t) s := by
  generalize hts : runs (isDelimiter d) p t = ts
  induction ts generalizing str s p t with
  | nil =>
    have hat' : StringAt ({ s with sp := p } : ProgramState).mem p t := hat
    rw [ReturnsTokens, Returns, strtok_eq (hstart ▸ hp), hstart]
    exact ⟨_, _, strtokFrom_nil hd hat' hspace hts, rfl⟩
  | cons x ts ih =>
    obtain ⟨q, w⟩ := x
    have hat' : StringAt ({ s with sp := p } : ProgramState).mem p t := hat
    obtain ⟨_, s', hrun, rfl, htaken⟩ := strtokFrom_cons hd hat' hspace hts
    obtain ⟨t', hleft, hruns, hpos, hend⟩ := htaken.left
    have hsp : s'.sp ≠ 0 := by omega
    refine ⟨_, s', ?_, rfl, htaken.token, ih hsp (if_neg hsp) hleft (by omega) hruns⟩
    rw [strtok_eq (hstart ▸ hp), hstart]
    exact hrun

theorem ReturnsTokens.congr {s' : ProgramState} {ts : List (Nat × List UInt8)}
    (heq : strtok str d s = strtok str d s') (h : ReturnsTokens d str ts s') :
    ReturnsTokens d str ts s := by
  cases ts with
  | nil => exact .of_eq heq h
  | cons x ts => exact .of_eq heq h

/-- What the first call returns. -/
theorem ReturnsTokens.first {ts : List (Nat × List UInt8)} (h : ReturnsTokens d str ts s) :
    Returns (strtok str d) s fun r _ => r = ((ts.head?.map Prod.fst).getD 0) := by
  cases ts with
  | nil => exact h
  | cons x ts => exact h.mono fun _ _ hr => hr.1

/-- Where the cursor leads to where the string does, it makes no difference. -/
theorem LeadTogether.strtok_eq (hcursor : s.sp ≠ 0) (hstr : str ≠ 0)
    (h : LeadTogether d s.mem s.sp str) : strtok str d s = strtok str d { s with sp := 0 } := by
  have hstart : startOf str s = s.sp := if_neg hcursor
  have hstart' : startOf str { s with sp := 0 } = str := if_pos rfl
  rw [Stdlib.strtok_eq (hstart ▸ hcursor), Stdlib.strtok_eq (hstart' ▸ hstr), hstart, hstart']
  exact h.strtokFrom_eq

/-- A string is taken apart exactly when there is no cursor, or one that leads to where the string
does. -/
theorem returnsTokens_iff (hd : 0 ∉ d) (hstr : str ≠ 0) (hat : StringAt s.mem str t)
    (hspace : str + t.length < 0x100000000) :
    ReturnsTokens d str (runs (isDelimiter d) str t) s ↔
      s.sp = 0 ∨ LeadTogether d s.mem s.sp str := by
  have hfresh : ReturnsTokens d str (runs (isDelimiter d) str t) { s with sp := 0 } :=
    returnsTokens_of_startOf hd hstr (if_pos rfl) hat hspace
  by_cases hcursor : s.sp = 0
  · refine iff_of_true (hfresh.congr ?_) (.inl hcursor)
    rw [← hcursor]
  · rw [or_iff_right hcursor]
    constructor
    · intro h
      obtain ⟨r, s', hrun, hr⟩ := h.first
      obtain ⟨r', s'', hrun', hr'⟩ := hfresh.first
      have hstart : startOf str s = s.sp := if_neg hcursor
      have hstart' : startOf str { s with sp := 0 } = str := if_pos rfl
      rw [Stdlib.strtok_eq (hstart ▸ hcursor), hstart] at hrun
      rw [Stdlib.strtok_eq (hstart' ▸ hstr), hstart'] at hrun'
      obtain ⟨a, ha, hra, -⟩ := leadsTo_of_strtokFrom hcursor hrun
      obtain ⟨b, hb, hrb, -⟩ := leadsTo_of_strtokFrom hstr hrun'
      refine ⟨a, b, ha, hb, ?_⟩
      have hab : (if s.mem a = 0 then 0 else a) = if s.mem b = 0 then 0 else b :=
        hra.symm.trans (hr.trans (hr'.symm.trans hrb))
      have ha₀ := ha.le
      have hb₀ := hb.le
      by_cases hza : s.mem a = 0
      · rw [if_pos hza] at hab
        refine .inr ⟨hza, ?_⟩
        by_contra hzb
        rw [if_neg hzb] at hab
        omega
      · rw [if_neg hza] at hab
        split at hab
        · omega
        · exact .inl hab
    · intro h
      exact hfresh.congr (h.strtok_eq hcursor hstr)

end Tokens

/-! ### Histories -/

/-- The program only makes steps of a history. -/
def Traced {α : Type} (m : PM α) : Prop :=
  ∀ s a s', m s = .ok (a, s') → ∃ tr, Run ProgramStep s tr ∧ lastState s tr = s'

section Traced

variable {α β : Type}

theorem Traced.bind {m : PM α} {f : α → PM β} (hm : Traced m) (hf : ∀ a, Traced (f a)) :
    Traced (m >>= f) := by
  intro s b s'' h
  obtain ⟨a, s', hma, hfb⟩ := bind_eq_ok.mp h
  obtain ⟨tr, hrun, rfl⟩ := hm s a s' hma
  obtain ⟨tr', hrun', rfl⟩ := hf a _ b s'' hfb
  exact ⟨tr ++ tr', hrun.append hrun', lastState_append s tr tr'⟩

/-- What leaves the cursor alone is one step. -/
theorem Traced.other {m : PM α} (h : ∀ s a s', m s = .ok (a, s') → s'.sp = s.sp) : Traced m :=
  fun s a s' hm => ⟨[(none, s')], .cons (.other (h s a s' hm)) (.nil s'), rfl⟩

theorem Traced.pure (a : α) : Traced (Pure.pure a) := by
  apply Traced.other
  rintro s _ _ ⟨⟩
  rfl

theorem Traced.ite {c : Prop} [Decidable c] {m m' : PM α} (h : Traced m) (h' : Traced m') :
    Traced (if c then m else m') := by
  split
  · exact h
  · exact h'

theorem traced_strtok (str : Nat) (d : List UInt8) : Traced (strtok str d) :=
  fun _ r s' h => ⟨[(some r, s')], .cons (.strtok str d h) (.nil s'), rfl⟩

theorem traced_load (p : Nat) : Traced (load p) := by
  apply Traced.other
  intro s a s' h
  unfold load at h
  split at h
  · cases h
    rfl
  · cases h

theorem traced_store (p : Nat) (bytes : List UInt8) : Traced (store p bytes) := by
  apply Traced.other
  intro s a s' h
  unfold store at h
  split at h
  · cases h
    rfl
  · cases h

theorem traced_plumosMalloc : Traced plumosMalloc := by
  apply Traced.other
  rintro s _ _ ⟨⟩
  rfl

theorem traced_strncpy (dest src count : Nat) : Traced (strncpy dest src count) := by
  have hloop : ∀ n i, Traced (strncpyLoop dest src n i) := by
    intro n
    induction n with
    | zero => exact fun i => .pure i
    | succ n ih =>
      exact fun i => .bind (traced_load _) fun c =>
        .ite (.pure i) (.bind (traced_store _ _) fun _ => ih (i + 1))
  exact .bind (hloop _ _) fun i => .bind (traced_store _ _) fun _ => .pure dest

theorem traced_parseCommandLoop (fuel current token : Nat) :
    Traced (parseCommandLoop fuel current token) := by
  induction fuel generalizing current token with
  | zero =>
    rintro s _ _ ⟨⟩
  | succ fuel ih =>
    refine .ite (.pure _) (.bind traced_plumosMalloc fun b => .ite (.pure _) ?_)
    exact .bind (traced_strncpy _ _ _) fun _ => .bind (traced_store _ _) fun _ =>
      .bind (traced_store _ _) fun _ => .bind (traced_strtok _ _) fun _ => ih _ _

/-- A call of `plumos_parse_command`, complete or not, is a part of a history. -/
theorem traced_plumosParseCommand (scommand command : Nat) (max : Int) :
    Traced (plumosParseCommand scommand command max) := by
  refine .ite (.pure _) (.bind (traced_strncpy _ _ _) fun _ => .bind (traced_strtok _ _) fun _ => ?_)
  refine .ite (.pure _) (.bind traced_plumosMalloc fun b => .ite (.pure _) ?_)
  exact .bind (traced_strncpy _ _ _) fun _ => .bind (traced_store _ _) fun _ =>
    .bind (traced_strtok _ _) fun _ => .bind (traced_parseCommandLoop _ _ _) fun _ => .pure b

end Traced

/-- Behind every history a string is taken apart exactly when the last call of `strtok` returned
NULL, or the cursor leads to where the string does; and then so is a command. -/
theorem strtok_history_iff {s₀ : ProgramState} {tr : List (Option Nat × ProgramState)}
    (hcursor : s₀.sp = 0) (hrun : Run ProgramStep s₀ tr) :
    (∀ str t d, str ≠ 0 → 0 ∉ d → StringAt (lastState s₀ tr).mem str t →
      str + t.length < 0x100000000 →
      (ReturnsTokens d str (runs (isDelimiter d) str t) (lastState s₀ tr) ↔
        lastReturned 0 tr = 0 ∨
          LeadTogether d (lastState s₀ tr).mem (lastState s₀ tr).sp str)) ∧
    ∀ scommand command max cmd, CommandCall scommand command max cmd (lastState s₀ tr) →
      (lastReturned 0 tr = 0 ∨ LeadTogether [0x20] (copied scommand cmd (lastState s₀ tr)).mem
        (lastState s₀ tr).sp scommand) →
      ParsesCommand scommand command max cmd (lastState s₀ tr) := by
  have hlast := lastReturned_iff hrun (r := 0) (iff_of_true rfl hcursor)
  rw [hlast]
  constructor
  · intro str t d hstr hd hat hspace
    exact returnsTokens_iff hd hstr hat hspace
  · intro scommand command max cmd hcall h
    refine hcall.parses ?_
    by_cases hsp : (lastState s₀ tr).sp = 0
    · rw [← hsp]
      rfl
    · exact (h.resolve_left hsp).strtok_eq hsp hcall.array

/-- No call of `strtok` before, and the string `" a"`. -/
theorem strtok_history_none :
    ReturnsTokens [0x20] 0x1000 [(0x1001, [0x61])] ⟨writeBytes (fun _ => 0) 0x1000 [0x20, 0x61], 0, []⟩ :=
  ((strtok_history_iff rfl (.nil _)).1 0x1000 [0x20, 0x61] [0x20] (by decide) (by decide)
    ⟨by decide, rfl⟩ (by decide)).mpr (.inl rfl)

/-- `plumos_malloc` fails for the second word of `"a b"`, and then neither `strtok` nor
`plumos_parse_command` looks at `"c"`. -/
theorem strtok_keeps_cursor : ∃ s₀ tr, s₀.sp = 0 ∧ Run ProgramStep s₀ tr ∧
    CommandCall 0x2000 0x1100 1024 [0x63] (lastState s₀ tr) ∧
    ¬ ReturnsTokens [0x20] 0x1100 (runs (isDelimiter [0x20]) 0x1100 [0x63]) (lastState s₀ tr) ∧
    ¬ ParsesCommand 0x2000 0x1100 1024 [0x63] (lastState s₀ tr) := by
  let s₀ : ProgramState :=
    ⟨writeBytes (writeBytes (fun _ => 0) 0x1000 [0x61, 0x20, 0x62]) 0x1100 [0x63], 0, [0x3000]⟩
  let first : PM PUnit := do
    let _ ← plumosParseCommand 0x2000 0x1000 1024
    modifies fun s => { s with blocks := [0x4000] }
  have hfirst : checks first s₀ (fun _ s => s.sp == 0x2003 && s.mem 0x2003 == 0 &&
      (s.mem 0x1100 == 0x63 && s.mem 0x1101 == 0 && s.blocks == [0x4000])) = true := by
    decide +kernel
  have hsecond : checks (first >>= fun _ => plumosParseCommand 0x2000 0x1100 1024) s₀
      (fun r _ => r == 0) = true := by
    decide +kernel
  have htraced : Traced first :=
    (traced_plumosParseCommand _ _ _).bind fun _ => .other fun _ _ _ h => by cases h; rfl
  obtain ⟨_, s, hrun, hs⟩ := Returns.of_checks hfirst
  obtain ⟨r, s', hrun', hr⟩ := Returns.of_checks hsecond
  rw [bind_of_ok hrun] at hrun'
  simp only [Bool.and_eq_true, beq_iff_eq] at hs hr
  obtain ⟨⟨hsp, hnul⟩, ⟨hc, hend⟩, hblocks⟩ := hs
  obtain ⟨tr, hhistory, hlast⟩ := htraced _ _ _ hrun
  have hat : StringAt s.mem 0x1100 [0x63] :=
    stringAt_cons.mpr ⟨by decide, hc, stringAt_nil.mpr hend⟩
  refine ⟨s₀, tr, rfl, hhistory, ?_⟩
  rw [hlast]
  refine ⟨?_, ?_, ?_⟩
  · exact
      { string := hat
        space := by decide
        length := by decide
        max := by decide
        array := by decide
        array_space := by decide
        apart := .inl (by decide)
        blocks := hblocks ▸ ⟨by decide, by unfold Apart; decide, by unfold Apart; decide⟩
        enough := hblocks ▸ by decide }
  · intro h
    rcases (returnsTokens_iff (by decide) (by decide) hat (by decide)).mp h with h | h
    · rw [hsp] at h
      cases h
    · obtain ⟨a, b, ha, hb, hab⟩ := h
      rw [hsp] at ha
      obtain rfl := ha.eq_of_stops (by rw [hnul]; decide)
      obtain rfl := hb.eq_of_stops (by rw [hc]; decide)
      rcases hab with hab | ⟨-, hzero⟩
      · cases hab
      · cases hc.symm.trans hzero
  · rintro ⟨root, t, hparse, -, hroot, -⟩
    cases hparse.symm.trans hrun'
    exact absurd (hroot.mp hr) (by decide)
end PlumOS.Stdlib
