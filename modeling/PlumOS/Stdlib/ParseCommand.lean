import PlumOS.Stdlib.Strtok

/-!
# Commands and their arguments

`plumos_parse_command` of `programs/stdlib/src/plumos.c`: a command is copied into a local array
and taken apart at its spaces, and the words are kept in a linked list of
`struct command_argument`, 512 bytes of text and a pointer.

## Main definitions

- `plumosParseCommand`
- `FreshBlocks` — what `plumos_malloc` promises
- `HoldsArguments` — a list of arguments in memory

## Main results

- `plumosParseCommand_words`
-/

namespace PlumOS.Stdlib

open StateExcept Runs

/-- The loop of `plumos_parse_command`. The tokens are found at growing addresses. -/
def parseCommandLoop : (fuel current token : Nat) → PM PUnit
  | 0, _, _ => fails .divergence
  | fuel + 1, current, token =>
    if token = 0 then pure ⟨⟩
    else do
      let new_command ← plumosMalloc
      if new_command = 0 then pure ⟨⟩
      else do
        let _ ← strncpy new_command token 512
        store (new_command + 512) (wordBytes 0)
        store (current + 512) (wordBytes new_command)
        let token ← strtok 0 [0x20]
        parseCommandLoop fuel new_command token

/-- `plumos_parse_command`, with the address of its local array of 1025 bytes. -/
def plumosParseCommand (scommand command : Nat) (max : Int) : PM Nat :=
  if 1025 ≤ max then pure 0
  else do
    let _ ← strncpy scommand command 1025
    let token ← strtok scommand [0x20]
    if token = 0 then pure 0
    else do
      let root_command ← plumosMalloc
      if root_command = 0 then pure 0
      else do
        let _ ← strncpy root_command token 512
        store (root_command + 512) (wordBytes 0)
        let token ← strtok 0 [0x20]
        parseCommandLoop 0x100000001 root_command token
        pure root_command

/-- The list at `p` has the arguments `ws`, and ends with NULL. -/
def HoldsArguments (mem : Nat → UInt8) : (p : Nat) → (ws : List (List UInt8)) → Prop
  | p, [] => p = 0
  | p, w :: ws => p ≠ 0 ∧ StringAt mem p w ∧ HoldsArguments mem (readWord mem (p + 512)) ws

/-- The calls of `plumos_malloc` succeed: they return blocks of 516 bytes that have nothing to do
with each other, nor with the array of the caller. -/
structure FreshBlocks (scommand : Nat) (blocks : List Nat) : Prop where
  room : ∀ b ∈ blocks, b ≠ 0 ∧ b + 516 ≤ 0x100000000
  buffer : ∀ b ∈ blocks, Apart b 516 scommand 1025
  apart : blocks.Pairwise fun b b' => Apart b 516 b' 516

/-- A command at `command`, the array of the call, and the limit `max` are as the caller has to
provide them, and the calls of `plumos_malloc` succeed. -/
structure CommandCall (scommand command : Nat) (max : Int) (cmd : List UInt8) (st : ProgramState) :
    Prop where
  string : StringAt st.mem command cmd
  space : command + cmd.length < 0x100000000
  length : cmd.length ≤ 1023
  max : max ≤ 1024
  array : scommand ≠ 0
  array_space : scommand + 1025 ≤ 0x100000000
  apart : Apart command (cmd.length + 1) scommand 1025
  blocks : FreshBlocks scommand st.blocks
  enough : (words (isDelimiter [0x20]) cmd).length ≤ st.blocks.length

/-- `plumos_parse_command` returns the list of the words of the command, each cut to its first
511 bytes, or NULL where there is none; and it leaves no cursor behind. -/
def ParsesCommand (scommand command : Nat) (max : Int) (cmd : List UInt8) (st : ProgramState) :
    Prop :=
  Returns (plumosParseCommand scommand command max) st fun root st' =>
    HoldsArguments st'.mem root ((words (isDelimiter [0x20]) cmd).map (·.take 511)) ∧
      (root = 0 ↔ words (isDelimiter [0x20]) cmd = []) ∧ st'.sp = 0

/-! ### An argument -/

/-- Memory with a new argument at `b`. -/
def withArgument (mem : Nat → UInt8) (b : Nat) (w : List UInt8) : Nat → UInt8 :=
  writeBytes (writeBytes mem b (w.take 511 ++ [0])) (b + 512) (wordBytes 0)

section Argument

variable {mem : Nat → UInt8} {b : Nat} {w : List UInt8}

theorem argument_length (w : List UInt8) : (w.take 511 ++ [0]).length ≤ 512 := by
  rw [List.length_append, List.length_take, List.length_singleton]
  omega

theorem stringAt_withArgument (hw : 0 ∉ w) (mem : Nat → UInt8) (b : Nat) :
    StringAt (withArgument mem b w) b (w.take 511) := by
  have hnul : 0 ∉ w.take 511 := fun h => hw (List.mem_of_mem_take h)
  refine (stringAt_writeBytes hnul mem b).congr fun i hi => writeBytes_of_not_mem (.inl ?_)
  have := argument_length w
  rw [List.length_append, List.length_singleton] at this
  omega

theorem readWord_withArgument (mem : Nat → UInt8) (b : Nat) (w : List UInt8) :
    readWord (withArgument mem b w) (b + 512) = 0 := readWord_wordBytes _ _ (by decide)

theorem withArgument_of_outside {a : Nat} (ha : a < b ∨ b + 516 ≤ a) :
    withArgument mem b w a = mem a := by
  have := argument_length w
  have hword : (wordBytes 0).length = 4 := rfl
  unfold withArgument
  rw [writeBytes_of_not_mem (by omega), writeBytes_of_not_mem (by omega)]

end Argument

/-! ### The tokens of the array -/

section Tokens

variable {scommand : Nat}

/-- The text `t` at `p` is inside the array. -/
def InArray (scommand p : Nat) (t : List UInt8) : Prop :=
  scommand ≤ p ∧ p + t.length < scommand + 1025

/-- `strtok` has returned `token`, and the tokens from this one on are `ts`. -/
def AtToken (scommand : Nat) (st : ProgramState) (token : Nat) : List (Nat × List UInt8) → Prop
  | [] => token = 0 ∧ st.sp = 0
  | (q, w) :: ts => token = q ∧ q ≠ 0 ∧ StringAt st.mem q w ∧ InArray scommand q w ∧
      ∃ t, StringAt st.mem st.sp t ∧ InArray scommand st.sp t ∧ st.sp ≠ 0 ∧
        runs (isDelimiter [0x20]) st.sp t = ts

/-- Only the array is changed. -/
structure KeepsBlocks (scommand : Nat) (st st' : ProgramState) : Prop where
  mem : ∀ a, (a < scommand ∨ scommand + 1025 ≤ a) → st'.mem a = st.mem a
  blocks : st'.blocks = st.blocks

theorem strtok_atToken (hspace : scommand + 1025 ≤ 0x100000000) {st : ProgramState} {str : Nat}
    {t : List UInt8} (hp : startOf str st ≠ 0) (hat : StringAt st.mem (startOf str st) t)
    (hin : InArray scommand (startOf str st) t) :
    Returns (strtok str [0x20]) st fun token st' => KeepsBlocks scommand st st' ∧
      AtToken scommand st' token (runs (isDelimiter [0x20]) (startOf str st) t) := by
  have hd : (0 : UInt8) ∉ [(0x20 : UInt8)] := by decide
  obtain ⟨hlo, hhi⟩ := hin
  let st₁ : ProgramState := { st with sp := startOf str st }
  have hat₁ : StringAt st₁.mem (startOf str st) t := hat
  rw [Returns, strtok_eq hp]
  cases hruns : runs (isDelimiter [0x20]) (startOf str st) t with
  | nil => exact ⟨_, _, strtokFrom_nil hd hat₁ (by omega) hruns, ⟨fun _ _ => rfl, rfl⟩, rfl, rfl⟩
  | cons x ts =>
    obtain ⟨q, w⟩ := x
    obtain ⟨_, st', hrun, rfl, htaken⟩ := strtokFrom_cons hd hat₁ (by omega) hruns
    obtain ⟨t', hat', hruns', hpos, hend⟩ := htaken.left
    have hinside := htaken.inside
    refine ⟨_, st', hrun, ⟨fun a ha => htaken.frame a (by omega), htaken.blocks⟩, rfl, by omega,
      htaken.token, ⟨by omega, by omega⟩, t', hat', ⟨by omega, by omega⟩, by omega, hruns'⟩

/-- What a token is copied from is not changed by stores outside of the array. -/
theorem AtToken.congr {st st' : ProgramState} {token : Nat} {ts : List (Nat × List UInt8)}
    (h : AtToken scommand st token ts) (hsp : st'.sp = st.sp)
    (hmem : ∀ a, scommand ≤ a → a < scommand + 1025 → st'.mem a = st.mem a) :
    AtToken scommand st' token ts := by
  cases ts with
  | nil => exact ⟨h.1, hsp.trans h.2⟩
  | cons x ts =>
    obtain ⟨htoken, hne, hw, hin, t, hat, htin, hcursor, hruns⟩ := h
    have hkeeps : ∀ {p s}, StringAt st.mem p s → InArray scommand p s → StringAt st'.mem p s := by
      intro p s hs hp
      obtain ⟨hlo, hhi⟩ := hp
      exact hs.congr fun i hi => hmem _ (by omega) (by omega)
    rw [← hsp] at hat htin hcursor hruns
    exact ⟨htoken, hne, hkeeps hw hin, hin, t, hkeeps hat htin, htin, hcursor, hruns⟩

/-- The next call takes the next token. -/
theorem AtToken.next (hspace : scommand + 1025 ≤ 0x100000000) {st : ProgramState} {token : Nat}
    {x : Nat × List UInt8} {ts : List (Nat × List UInt8)}
    (h : AtToken scommand st token (x :: ts)) :
    Returns (strtok 0 [0x20]) st fun token' st' => KeepsBlocks scommand st st' ∧
      AtToken scommand st' token' ts := by
  obtain ⟨-, -, -, -, t, hat, hin, hcursor, rfl⟩ := h
  have hstart : startOf 0 st = st.sp := if_neg hcursor
  rw [← hstart] at hat hin hcursor ⊢
  exact strtok_atToken hspace hcursor hat hin

end Tokens

/-! ### The list -/

section List

variable {scommand : Nat}

theorem FreshBlocks.tail {b : Nat} {bs : List Nat} (h : FreshBlocks scommand (b :: bs)) :
    FreshBlocks scommand bs :=
  ⟨fun b' hb => h.room b' (.tail _ hb), fun b' hb => h.buffer b' (.tail _ hb),
    (List.pairwise_cons.mp h.apart).2⟩

/-- The state with a new argument at `b`, when the blocks `bs` are left. -/
def newArgument (st : ProgramState) (b : Nat) (w : List UInt8) (bs : List Nat) : ProgramState :=
  { mem := withArgument st.mem b w, sp := st.sp, blocks := bs }

/-- A token becomes an argument, at a new block. -/
theorem newArgument_eq (hspace : scommand + 1025 ≤ 0x100000000) {b : Nat} {bs : List Nat}
    (hblocks : FreshBlocks scommand (b :: bs)) {st : ProgramState} (hbs : st.blocks = b :: bs)
    {token : Nat} {x : Nat × List UInt8} {ts : List (Nat × List UInt8)}
    (h : AtToken scommand st token (x :: ts)) :
    ∃ st₁ st₂, plumosMalloc st = .ok (b, st₁) ∧ strncpy b token 512 st₁ = .ok (b, st₂) ∧
      store (b + 512) (wordBytes 0) st₂ = .ok (⟨⟩, newArgument st b x.2 bs) := by
  obtain ⟨rfl, -, hw, ⟨hlo, hhi⟩, -⟩ := h
  obtain ⟨-, hroom⟩ := hblocks.room b (.head _)
  have hbuffer := hblocks.buffer b (.head _)
  refine ⟨{ st with blocks := bs }, _, ?_, strncpy_returns (by decide) hw (by omega) (by omega) ?_,
    if_pos hroom⟩
  · unfold plumosMalloc
    rw [hbs]
    rfl
  · rcases hbuffer with hbuffer | hbuffer
    · exact .inr (by omega)
    · exact .inl (by omega)

/-- Outside of the array, the blocks `bs` and the pointer to the next argument at `b`, memory is
kept. -/
def KeepsOthers (scommand b : Nat) (bs : List Nat) (mem mem' : Nat → UInt8) : Prop :=
  ∀ a, (a < scommand ∨ scommand + 1025 ≤ a) → (∀ b' ∈ bs, a < b' ∨ b' + 516 ≤ a) →
    (a < b + 512 ∨ b + 516 ≤ a) → mem' a = mem a

/-- The tokens `ts` are appended to the argument `b`. -/
def AppendsTokens (scommand b : Nat) (ts : List (Nat × List UInt8)) (st st' : ProgramState) :
    Prop :=
  st'.sp = 0 ∧
    HoldsArguments st'.mem (readWord st'.mem (b + 512)) (ts.map fun t => t.2.take 511) ∧
    KeepsOthers scommand b st.blocks st.mem st'.mem

/-- Behind a new argument `b`, the loop goes on with the next token. -/
theorem AtToken.append (hspace : scommand + 1025 ≤ 0x100000000) {b fuel : Nat}
    {st : ProgramState} (hblocks : FreshBlocks scommand (b :: st.blocks)) {token : Nat}
    {x : Nat × List UInt8} {ts : List (Nat × List UInt8)}
    (h : AtToken scommand st token (x :: ts)) (harg : StringAt st.mem b (x.2.take 511))
    (hnext : readWord st.mem (b + 512) = 0)
    (hloop : ∀ token st₁, AtToken scommand st₁ token ts → st₁.blocks = st.blocks →
      readWord st₁.mem (b + 512) = 0 → Returns (parseCommandLoop fuel b token) st₁ fun _ st' =>
        AppendsTokens scommand b ts st₁ st') :
    Returns (strtok 0 [0x20] >>= parseCommandLoop fuel b) st fun _ st' => st'.sp = 0 ∧
      HoldsArguments st'.mem b ((x :: ts).map fun t => t.2.take 511) ∧
      KeepsOthers scommand b st.blocks st.mem st'.mem := by
  obtain ⟨hne, hroom⟩ := hblocks.room b (.head _)
  have hbuffer := hblocks.buffer b (.head _)
  have hapart := (List.pairwise_cons.mp hblocks.apart).1
  unfold Apart at hbuffer hapart
  obtain ⟨token', st₁, hstrtok, hkeeps, htoken⟩ := h.next hspace
  have hnext₁ : readWord st₁.mem (b + 512) = 0 :=
    (readWord_congr fun o ho => hkeeps.mem _ (by omega)).trans hnext
  obtain ⟨_, st', hrun, hsp, hargs, hothers⟩ := hloop token' st₁ htoken hkeeps.blocks hnext₁
  rw [hkeeps.blocks] at hothers
  have hkept : KeepsOthers scommand b st.blocks st.mem st'.mem := fun a ha hbs ha' =>
    (hothers a ha hbs ha').trans (hkeeps.mem a ha)
  refine ⟨_, st', (bind_of_ok hstrtok).trans hrun, hsp, ⟨hne, ?_, hargs⟩, hkept⟩
  refine harg.congr fun i hi => ?_
  have hlen := List.length_take_le 511 x.2
  refine hkept _ (by omega) (fun b' hb' => ?_) (by omega)
  have := hapart b' hb'
  omega

/-- The loop appends the tokens to the list. -/
theorem parseCommandLoop_returns (hspace : scommand + 1025 ≤ 0x100000000)
    {ts : List (Nat × List UInt8)} {fuel : Nat} (hfuel : ts.length < fuel) {st : ProgramState}
    {current token : Nat} (htoken : AtToken scommand st token ts)
    (hblocks : FreshBlocks scommand (current :: st.blocks)) (hlen : ts.length ≤ st.blocks.length)
    (hnext : readWord st.mem (current + 512) = 0) :
    Returns (parseCommandLoop fuel current token) st fun _ st' =>
      AppendsTokens scommand current ts st st' := by
  induction ts generalizing fuel st current token with
  | nil =>
    obtain ⟨fuel, rfl⟩ := Nat.exists_eq_succ_of_ne_zero (Nat.ne_of_gt hfuel)
    obtain ⟨rfl, hsp⟩ := htoken
    exact ⟨_, st, rfl, hsp, hnext, fun _ _ _ _ => rfl⟩
  | cons x ts ih =>
    obtain ⟨fuel, rfl⟩ := Nat.exists_eq_succ_of_ne_zero (Nat.ne_of_gt (Nat.zero_lt_of_lt hfuel))
    cases hbs : st.blocks with
    | nil =>
      rw [hbs] at hlen
      cases hlen
    | cons b bs =>
      rw [hbs] at hblocks hlen
      have htail := hblocks.tail
      obtain ⟨-, hcurrent⟩ := hblocks.room current (.head _)
      obtain ⟨hne, hroom⟩ := htail.room b (.head _)
      have hapart := (List.pairwise_cons.mp hblocks.apart).1
      have hcs := hblocks.buffer current (.head _)
      have hbuffer := hblocks.buffer b (.tail _ (.head _))
      unfold Apart at hapart hcs hbuffer
      have hcb := hapart b (.head _)
      -- the argument, and the pointer to it
      obtain ⟨st₁, st₂, hmalloc, hcopy, hzero⟩ := newArgument_eq hspace htail hbs htoken
      let st₃ : ProgramState := { newArgument st b x.2 bs with
        mem := writeBytes (withArgument st.mem b x.2) (current + 512) (wordBytes b) }
      have hlink : store (current + 512) (wordBytes b) (newArgument st b x.2 bs) =
          .ok (⟨⟩, st₃) := if_pos hcurrent
      have hword : ∀ {a}, (a < current + 512 ∨ current + 516 ≤ a) →
          st₃.mem a = withArgument st.mem b x.2 a := fun ha => writeBytes_of_not_mem ha
      have htoken₃ : AtToken scommand st₃ token (x :: ts) := by
        refine htoken.congr rfl fun a hlo hhi => ?_
        rw [hword (by omega), withArgument_of_outside (by omega)]
      have harg : StringAt st₃.mem b (x.2.take 511) := by
        refine (stringAt_withArgument htoken.2.2.1.1 st.mem b).congr fun i hi => hword ?_
        have := List.length_take_le 511 x.2
        omega
      have hnext₃ : readWord st₃.mem (b + 512) = 0 :=
        (readWord_congr fun o ho => hword (by omega)).trans (readWord_withArgument st.mem b x.2)
      have hlinked₃ : readWord st₃.mem (current + 512) = b :=
        readWord_wordBytes (withArgument st.mem b x.2) (current + 512) (by omega)
      obtain ⟨_, st', hrun, hsp, hargs, hothers⟩ := htoken₃.append hspace htail harg hnext₃
        fun token' st₄ htoken₄ hblocks₄ hnext₄ => ih (Nat.lt_of_succ_lt_succ hfuel) htoken₄
          (hblocks₄ ▸ htail) (hblocks₄ ▸ Nat.le_of_succ_le_succ hlen) hnext₄
      have hlinked : readWord st'.mem (current + 512) = b := by
        refine (readWord_congr fun o ho => ?_).trans hlinked₃
        refine hothers _ (by omega) (fun b' hb' => ?_) (by omega)
        have := hapart b' (.tail _ hb')
        omega
      refine ⟨⟨⟩, st', ?_, hsp, hlinked.symm ▸ hargs, ?_⟩
      · obtain ⟨htok, hq, -⟩ := htoken
        unfold parseCommandLoop
        rw [if_neg (htok ▸ hq), bind_of_ok hmalloc, if_neg hne, bind_of_ok hcopy, bind_of_ok hzero]
        exact (bind_of_ok hlink).trans hrun
      · intro a ha hbs' ha'
        rw [hbs] at hbs'
        obtain ⟨hb, hbs'⟩ := List.forall_mem_cons.mp hbs'
        rw [hothers a ha hbs' (by omega), hword ha', withArgument_of_outside hb]

/-- The state when the command is copied. -/
def copied (scommand : Nat) (cmd : List UInt8) (st : ProgramState) : ProgramState :=
  { st with mem := writeBytes st.mem scommand (cmd ++ [0]) }

/-- A command is taken apart if the first call of `strtok` begins with it. -/
theorem CommandCall.parses {command : Nat} {max : Int} {cmd : List UInt8} {st : ProgramState}
    (h : CommandCall scommand command max cmd st)
    (hfirst : strtok scommand [0x20] (copied scommand cmd st) =
      strtok scommand [0x20] { copied scommand cmd st with sp := 0 }) :
    ParsesCommand scommand command max cmd st := by
  obtain ⟨hcmd, hcommand, hlen, hmax, hne, hspace, hapart, hblocks, henough⟩ := h
  have hcopy := strncpy_returns (by decide : 0 < 1025) hcmd hcommand hspace hapart
  rw [List.take_of_length_le (by omega)] at hcopy
  let st₁ : ProgramState := { copied scommand cmd st with sp := 0 }
  have hat : StringAt st₁.mem scommand cmd := stringAt_writeBytes hcmd.1 _ _
  have hstart : startOf scommand st₁ = scommand := if_pos rfl
  rw [← hstart] at hat
  obtain ⟨token, st₂, hstrtok, hkeeps, htoken⟩ := strtok_atToken hspace (by rwa [hstart]) hat
    (hstart.symm ▸ ⟨Nat.le_refl _, by omega⟩)
  rw [hstart] at htoken
  have hcount : (runs (isDelimiter [0x20]) scommand cmd).length ≤ cmd.length :=
    length_runs_le scommand cmd
  rw [← map_runs scommand cmd, List.length_map] at henough
  unfold ParsesCommand
  rw [← map_runs scommand cmd, List.map_map, List.map_eq_nil_iff]
  generalize runs (isDelimiter [0x20]) scommand cmd = ts at htoken hcount henough
  have hrun : plumosParseCommand scommand command max st = _ :=
    (congrFun (if_neg (by omega)) st).trans
      ((bind_of_ok hcopy).trans (bind_of_ok (hfirst.trans hstrtok)))
  cases ts with
  | nil =>
    obtain ⟨rfl, hcursor⟩ := htoken
    exact ⟨0, st₂, hrun, rfl, iff_of_true rfl rfl, hcursor⟩
  | cons x ts =>
    obtain ⟨q, w⟩ := x
    have htoken₂ := htoken
    obtain ⟨rfl, hq, hw, -⟩ := htoken₂
    rw [if_neg hq] at hrun
    have hkept : st₂.blocks = st.blocks := hkeeps.blocks
    rw [← hkept] at hblocks henough
    cases hbs : st₂.blocks with
    | nil =>
      rw [hbs] at henough
      cases henough
    | cons b bs =>
      rw [hbs] at hblocks henough
      obtain ⟨hb, hroom⟩ := hblocks.room b (.head _)
      have hbuffer := hblocks.buffer b (.head _)
      unfold Apart at hbuffer
      obtain ⟨st₃, st₄, hmalloc, hcopy, hzero⟩ := newArgument_eq hspace hblocks hbs htoken
      have htoken₅ : AtToken scommand (newArgument st₂ b w bs) token ((token, w) :: ts) :=
        htoken.congr rfl fun a hlo hhi => withArgument_of_outside (by omega)
      have hfuel : ts.length < 0x100000001 := by
        rw [List.length_cons] at hcount
        omega
      obtain ⟨_, st', hloop, hsp, hargs, -⟩ := htoken₅.append hspace hblocks
        (stringAt_withArgument hw.1 st₂.mem b) (readWord_withArgument st₂.mem b w)
        fun token' st₆ htoken₆ hblocks₆ hnext₆ => parseCommandLoop_returns hspace hfuel htoken₆
          (hblocks₆ ▸ hblocks) (hblocks₆ ▸ Nat.le_of_succ_le_succ henough) hnext₆
      refine ⟨b, st', ?_, hargs, iff_of_false hb (List.cons_ne_nil _ _), hsp⟩
      rw [hrun, bind_of_ok hmalloc, if_neg hb, bind_of_ok hcopy, bind_of_ok hzero]
      obtain ⟨token', st₆, hstrtok, hrest⟩ := bind_eq_ok.mp hloop
      exact (bind_of_ok hstrtok).trans (bind_of_ok hrest)

/-- `plumos_parse_command` takes every command apart, if no cursor was left behind. -/
theorem plumosParseCommand_words {command : Nat} {max : Int} {cmd : List UInt8}
    {st : ProgramState} (h : CommandCall scommand command max cmd st) (hsp : st.sp = 0) :
    ParsesCommand scommand command max cmd st := by
  refine h.parses ?_
  rw [← hsp]
  rfl

/-- The command `" a  bc"`. -/
theorem plumosParseCommand_words_two :
    Returns (plumosParseCommand 0x2000 0x1000 1024)
      ⟨writeBytes (fun _ => 0) 0x1000 [0x20, 0x61, 0x20, 0x20, 0x62, 0x63], 0, [0x3000, 0x4000]⟩
      fun root st' => HoldsArguments st'.mem root [[0x61], [0x62, 0x63]] ∧ st'.sp = 0 := by
  have hfresh : FreshBlocks 0x2000 [0x3000, 0x4000] :=
    ⟨by decide, by unfold Apart; decide, by unfold Apart; decide⟩
  have hcall : CommandCall 0x2000 0x1000 1024 [0x20, 0x61, 0x20, 0x20, 0x62, 0x63]
      ⟨writeBytes (fun _ => 0) 0x1000 [0x20, 0x61, 0x20, 0x20, 0x62, 0x63], 0, [0x3000, 0x4000]⟩ :=
    { string := ⟨by decide, rfl⟩
      space := by decide
      length := by decide
      max := by decide
      array := by decide
      array_space := by decide
      apart := .inl (by decide)
      blocks := hfresh
      enough := by decide }
  exact (plumosParseCommand_words hcall rfl).mono fun _ _ h => ⟨h.1, h.2.2⟩

end List

end PlumOS.Stdlib
