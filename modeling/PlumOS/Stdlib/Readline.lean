import PlumOS.Kernel.State

/-!
# Reading a line

`plumos_terminal_readline` of `programs/stdlib/src/plumos.c`. What `plumos_getkey` answers, call
by call, is a list of characters, with NUL for no key; a program that has used them up waits for
more.

## Main definitions

- `plumosTerminalReadline`
- `edit` — a line that grows key by key
- `lineKey`, `bufferKey` — the key of an editor, and of the program
- `straysPaired` — how the backspaces on the empty line stand

## Main results

- `plumosTerminalReadline_edit` — what the program stores
- `readline_lineEdit_iff`
-/

namespace PlumOS.Stdlib

open StateExcept

/-- The answers of `plumos_getkey`, the buffer, and what is shown while typing. -/
structure Typing where
  keys : List UInt8
  out : Nat → UInt8
  shown : List UInt8

/-- Programs that read keys. -/
abbrev ReadM := StateT Typing (Except Fault)

def BACKSPACE_KEY : UInt8 := 0x08

def CARRIEGE_RETURN_KEY : UInt8 := 0x0D

/-- The loop of `plumos_getkeyblock`: the first key, and the answers behind it. -/
def nextKey : (keys : List UInt8) → Option (UInt8 × List UInt8)
  | [] => none
  | val :: keys => if val = 0 then nextKey keys else some (val, keys)

/-- `plumos_getkeyblock`. -/
def plumosGetkeyblock : ReadM UInt8 := fun s =>
  match nextKey s.keys with
  | some (val, keys) => .ok (val, { s with keys := keys })
  | none => .error .divergence

/-- `plumos_putchar`. -/
def plumosPutchar (c : UInt8) : ReadM PUnit := modifies fun s => { s with shown := s.shown ++ [c] }

/-- `out[i] = c`, for a buffer of `max` characters. -/
def outStore (max i : Int) (c : UInt8) : ReadM PUnit := fun s =>
  if 0 ≤ i ∧ i < max then .ok (⟨⟩, { s with out := Function.update s.out i.toNat c })
  else .error .outOfBounds

/-- The loop of `plumos_terminal_readline`: the index that it ends with. -/
def readlineLoop (max : Int) (output_while_typing : Bool) : (fuel : Nat) → (i : Int) → ReadM Int
  | 0, _ => fails .divergence
  | fuel + 1, i =>
    if i < max - 1 then do
      let key ← plumosGetkeyblock
      if key = CARRIEGE_RETURN_KEY then pure i
      else do
        onlyIf (output_while_typing = true) (plumosPutchar key)
        if key = BACKSPACE_KEY ∧ 1 ≤ i then do
          outStore max (i - 1) 0
          readlineLoop max output_while_typing fuel (i - 2 + 1)
        else do
          outStore max i key
          readlineLoop max output_while_typing fuel (i + 1)
    else pure i

/-- `plumos_terminal_readline`. Every turn of the loop takes a key. -/
def plumosTerminalReadline (max : Int) (output_while_typing : Bool) : ReadM PUnit := fun s =>
  (do
    let i ← readlineLoop max output_while_typing (s.keys.length + 1) 0
    outStore max i 0 : ReadM PUnit) s

/-! ### Editing -/

/-- The keys that are pressed. -/
def typed (keys : List UInt8) : List UInt8 := keys.filter (· ≠ 0)

/-- The line that is read: `step` says what a key does to it, and reading stops at Enter and
when `n` characters are held. `none` while the line is not complete. -/
def edit (step : List UInt8 → UInt8 → List UInt8) (n : Nat) :
    (line keys : List UInt8) → Option (List UInt8)
  | line, [] => if n ≤ line.length then some line else none
  | line, k :: keys =>
    if n ≤ line.length ∨ k = CARRIEGE_RETURN_KEY then some line
    else edit step n (step line k) keys

/-- Backspace removes the last character that is left; every other key is appended. -/
def lineKey (line : List UInt8) (k : UInt8) : List UInt8 :=
  if k = BACKSPACE_KEY then line.dropLast else line ++ [k]

/-- What the program does: on the empty line a backspace is a character. -/
def bufferKey (line : List UInt8) (k : UInt8) : List UInt8 :=
  if k = BACKSPACE_KEY ∧ line ≠ [] then line.dropLast else line ++ [k]

/-- The program stores the line, with its NUL, or waits for keys while there is none. -/
def StoresLine (m : ReadM PUnit) (s : Typing) : (line : Option (List UInt8)) → Prop
  | some line => Returns m s fun _ s' => StringAt s'.out 0 line
  | none => m s = .error .divergence

/-- A program stores one line. -/
theorem StoresLine.unique {m : ReadM PUnit} {s : Typing} {l l' : Option (List UInt8)}
    (h : StoresLine m s l) (h' : StoresLine m s l') : l = l' := by
  cases l with
  | none =>
    cases l' with
    | none => rfl
    | some l' =>
      obtain ⟨_, _, hrun, -⟩ := h'
      cases h.symm.trans hrun
  | some l =>
    cases l' with
    | none =>
      obtain ⟨_, _, hrun, -⟩ := h
      cases h'.symm.trans hrun
    | some l' =>
      obtain ⟨_, _, hrun, hl⟩ := h
      exact congrArg some (hl.unique (h'.ensures _ _ hrun))

/-- What a line consists of. -/
theorem edit_invariant {step : List UInt8 → UInt8 → List UInt8} {I : List UInt8 → Prop}
    {keys : List UInt8} (hstep : ∀ l, I l → ∀ k ∈ keys, I (step l k)) {n : Nat}
    {line l : List UInt8} (h : I line) (hedit : edit step n line keys = some l) : I l := by
  induction keys generalizing line with
  | nil =>
    unfold edit at hedit
    split at hedit
    · cases hedit
      exact h
    · cases hedit
  | cons k keys ih =>
    unfold edit at hedit
    split at hedit
    · cases hedit
      exact h
    · exact ih (fun l hl k hk => hstep l hl k (.tail _ hk)) (hstep line h k (.head _)) hedit

/-! ### The keys -/

theorem nextKey_of_typed_nil {keys : List UInt8} (h : typed keys = []) : nextKey keys = none := by
  induction keys with
  | nil => rfl
  | cons k keys ih =>
    unfold typed at h
    rw [List.filter_cons] at h
    by_cases hk : k = 0
    · rw [if_neg (by simpa using hk)] at h
      rw [nextKey, if_pos hk, ih h]
    · rw [if_pos (by simpa using hk)] at h
      cases h

theorem nextKey_of_typed_cons {keys ks : List UInt8} {k : UInt8} (h : typed keys = k :: ks) :
    ∃ rest, nextKey keys = some (k, rest) ∧ typed rest = ks ∧ rest.length < keys.length := by
  induction keys with
  | nil => cases h
  | cons c keys ih =>
    unfold typed at h
    rw [List.filter_cons] at h
    by_cases hc : c = 0
    · rw [if_neg (by simpa using hc)] at h
      obtain ⟨rest, hnext, htyped, hlen⟩ := ih h
      refine ⟨rest, ?_, htyped, Nat.lt_succ_of_lt hlen⟩
      rw [nextKey, if_pos hc, hnext]
    · rw [if_pos (by simpa using hc)] at h
      obtain ⟨rfl, rfl⟩ := List.cons.inj h
      exact ⟨keys, if_neg hc, rfl, Nat.lt_succ_self _⟩

theorem plumosGetkeyblock_of_some {s : Typing} {k : UInt8} {keys : List UInt8}
    (h : nextKey s.keys = some (k, keys)) :
    plumosGetkeyblock s = .ok (k, { s with keys := keys }) := by
  unfold plumosGetkeyblock
  rw [h]

theorem plumosGetkeyblock_of_none {s : Typing} (h : nextKey s.keys = none) :
    plumosGetkeyblock s = .error .divergence := by
  unfold plumosGetkeyblock
  rw [h]

/-! ### The buffer -/

/-- The buffer holds `line`. -/
def HoldsLine (s : Typing) (line : List UInt8) : Prop := readBytes s.out 0 line.length = line

/-- Behind the line anything can be stored. -/
theorem HoldsLine.front {s : Typing} {line rest : List UInt8} (h : HoldsLine s (line ++ rest))
    {max i : Int} (hi : i = line.length) (hlen : line.length < max) (c : UInt8) :
    ∃ s', outStore max i c s = .ok (⟨⟩, s') ∧ s'.keys = s.keys ∧ HoldsLine s' line ∧
      s'.out line.length = c := by
  subst hi
  refine ⟨_, if_pos ⟨by omega, hlen⟩, rfl, ?_, Function.update_self ..⟩
  have hline : readBytes s.out 0 line.length = line := by
    unfold HoldsLine at h
    rw [List.length_append, readBytes_append] at h
    exact List.append_inj_left h (readBytes_length ..)
  refine (readBytes_congr fun j hj => ?_).trans hline
  exact Function.update_of_ne (by omega) _ _

theorem HoldsLine.concat {s : Typing} {line : List UInt8} (h : HoldsLine s line) :
    readBytes s.out 0 (line.length + 1) = line ++ [s.out line.length] := by
  rw [readBytes_append, h, Nat.zero_add]
  rfl

/-- One key, as the program stores it. -/
theorem HoldsLine.key {s : Typing} {line : List UInt8} (h : HoldsLine s line) {max : Int}
    (hlen : line.length < max - 1) {k : UInt8} (hk : k ≠ CARRIEGE_RETURN_KEY) {keys : List UInt8}
    (hnext : nextKey s.keys = some (k, keys)) (output : Bool) (fuel : Nat) :
    ∃ s', readlineLoop max output (fuel + 1) line.length s =
        readlineLoop max output fuel (bufferKey line k).length s' ∧
      s'.keys = keys ∧ HoldsLine s' (bufferKey line k) := by
  have hget := plumosGetkeyblock_of_some hnext
  obtain ⟨t, hecho, hkeys, hout⟩ : ∃ t, onlyIf (output = true) (plumosPutchar k)
      { s with keys := keys } = .ok (⟨⟩, t) ∧ t.keys = keys ∧ t.out = s.out := by
    cases output with
    | false => exact ⟨_, rfl, rfl, rfl⟩
    | true => exact ⟨_, rfl, rfl, rfl⟩
  have ht : HoldsLine t line := (congrArg (readBytes · 0 line.length) hout).trans h
  rw [readlineLoop, if_pos hlen, bind_of_ok hget, if_neg hk, bind_of_ok hecho]
  have hcond : (k = BACKSPACE_KEY ∧ (1 : Int) ≤ line.length) ↔ k = BACKSPACE_KEY ∧ line ≠ [] := by
    refine and_congr_right fun _ => ?_
    rw [← List.length_pos_iff]
    omega
  unfold bufferKey
  by_cases hback : k = BACKSPACE_KEY ∧ line ≠ []
  · rw [if_pos (hcond.mpr hback), if_pos hback]
    obtain ⟨l, c, rfl⟩ : ∃ l c, line = l ++ [c] :=
      ⟨_, _, (List.dropLast_concat_getLast hback.2).symm⟩
    rw [List.length_append, List.length_singleton] at hlen ⊢
    have hindex : ((l.length + 1 : Nat) : Int) - 1 = l.length := by omega
    obtain ⟨s', hstore, hkeys', hl, -⟩ := ht.front hindex (show (l.length : Int) < max by omega) 0
    rw [bind_of_ok hstore, List.dropLast_concat]
    refine ⟨s', ?_, hkeys'.trans hkeys, hl⟩
    rw [show ((l.length + 1 : Nat) : Int) - 2 + 1 = l.length by omega]
  · rw [if_neg (mt hcond.mp hback), if_neg hback]
    rw [← List.append_nil line] at ht
    obtain ⟨s', hstore, hkeys', hl, hat⟩ := ht.front rfl (show line.length < max by omega) k
    rw [bind_of_ok hstore]
    refine ⟨s', by simp, hkeys'.trans hkeys, ?_⟩
    unfold HoldsLine
    rw [List.length_append, List.length_singleton, hl.concat, hat]

theorem bufferKey_length_le (line : List UInt8) (k : UInt8) :
    (bufferKey line k).length ≤ line.length + 1 := by
  unfold bufferKey
  split
  · rw [List.length_dropLast]
    omega
  · rw [List.length_append, List.length_singleton]

/-- The loop reads the line that `bufferKey` makes, or waits. -/
theorem readlineLoop_edit {max : Int} (hmax : 1 ≤ max) (output : Bool) {fuel : Nat} {s : Typing}
    (hfuel : s.keys.length < fuel) {line : List UInt8} (h : HoldsLine s line)
    (hlen : line.length ≤ (max - 1).toNat) :
    match edit bufferKey (max - 1).toNat line (typed s.keys) with
    | some l => Returns (readlineLoop max output fuel line.length) s fun i s' =>
        i = l.length ∧ l.length < max ∧ HoldsLine s' l
    | none => readlineLoop max output fuel line.length s = .error .divergence := by
  induction fuel generalizing s line with
  | zero => cases hfuel
  | succ fuel ih =>
    have hfull : (line.length : Int) < max - 1 ↔ ¬ (max - 1).toNat ≤ line.length := by omega
    cases hkeys : typed s.keys with
    | nil =>
      unfold edit
      by_cases hroom : (max - 1).toNat ≤ line.length
      · rw [if_pos hroom, readlineLoop, if_neg (by omega)]
        exact .pure ⟨rfl, by omega, h⟩
      · have hget := plumosGetkeyblock_of_none (nextKey_of_typed_nil hkeys)
        rw [if_neg hroom, readlineLoop, if_pos (hfull.mpr hroom)]
        exact bind_of_error hget
    | cons k ks =>
      obtain ⟨rest, hnext, htyped, hless⟩ := nextKey_of_typed_cons hkeys
      unfold edit
      by_cases hroom : (max - 1).toNat ≤ line.length
      · rw [if_pos (.inl hroom), readlineLoop, if_neg (by omega)]
        exact .pure ⟨rfl, by omega, h⟩
      · by_cases hk : k = CARRIEGE_RETURN_KEY
        · have hget := plumosGetkeyblock_of_some hnext
          rw [if_pos (.inr hk), readlineLoop, if_pos (hfull.mpr hroom)]
          refine .of_eq (bind_of_ok hget) ?_
          rw [if_pos hk]
          exact .pure ⟨rfl, by omega, h⟩
        · obtain ⟨s', hrun, hkeys', hl⟩ := h.key (hfull.mpr hroom) hk hnext output fuel
          have hlen' : (bufferKey line k).length ≤ (max - 1).toNat := by
            have := bufferKey_length_le line k
            omega
          have hrest := ih (by rw [hkeys']; omega) hl hlen'
          rw [hkeys', htyped] at hrest
          rw [if_neg (not_or.mpr ⟨hroom, hk⟩)]
          cases hedit : edit bufferKey (max - 1).toNat (bufferKey line k) ks with
          | none =>
            rw [hedit] at hrest
            exact hrun.trans hrest
          | some l =>
            rw [hedit] at hrest
            exact .of_eq hrun hrest

/-! ### The line -/

theorem bufferKey_mem {line : List UInt8} {k c : UInt8} (h : c ∈ bufferKey line k) :
    c ∈ line ∨ c = k := by
  unfold bufferKey at h
  split at h
  · exact .inl (List.dropLast_subset line h)
  · simpa using h

/-- What `plumos_terminal_readline` stores for the keys that are pressed; it never stores
outside of the buffer. -/
theorem plumosTerminalReadline_edit {max : Int} (hmax : 1 ≤ max) (output : Bool) (s : Typing) :
    StoresLine (plumosTerminalReadline max output) s
      (edit bufferKey (max - 1).toNat [] (typed s.keys)) := by
  have hloop := readlineLoop_edit hmax output (Nat.lt_succ_self s.keys.length)
    (show HoldsLine s [] from rfl) (Nat.zero_le _)
  cases hedit : edit bufferKey (max - 1).toNat [] (typed s.keys) with
  | none =>
    rw [hedit] at hloop
    exact bind_of_error hloop
  | some l =>
    rw [hedit] at hloop
    obtain ⟨i, s', hrun, rfl, hlen, hl⟩ := hloop
    have hnul : 0 ∉ l := by
      refine edit_invariant (I := (0 ∉ ·)) ?_ List.not_mem_nil hedit
      intro l hl k hk hmem
      rcases bufferKey_mem hmem with hmem | rfl
      · exact hl hmem
      · simp [typed] at hk
    rw [← List.append_nil l] at hl
    obtain ⟨t, hstore, -, ht, hat⟩ := hl.front rfl hlen 0
    refine ⟨_, t, (bind_of_ok hrun).trans hstore, hnul, ?_⟩
    rw [ht.concat, hat]

/-- No sequence of keys makes it store outside of the buffer. -/
theorem plumosTerminalReadline_inBounds {max : Int} (hmax : 1 ≤ max) (output : Bool) (s : Typing) :
    plumosTerminalReadline max output s ≠ .error .outOfBounds := by
  have hstores := plumosTerminalReadline_edit hmax output s
  intro hbad
  cases hedit : edit bufferKey (max - 1).toNat [] (typed s.keys) with
  | none =>
    rw [hedit] at hstores
    cases hbad.symm.trans hstores
  | some l =>
    rw [hedit] at hstores
    obtain ⟨_, _, hrun, -⟩ := hstores
    cases hbad.symm.trans hrun

/-! ### The empty line -/

/-- The buffer of the program, where a backspace may stand before the line. -/
def withStray (stray : Bool) (line : List UInt8) : List UInt8 :=
  if stray then BACKSPACE_KEY :: line else line

/-- The backspaces on the empty line come in pairs: `stray` says that there is one more than
pairs, and then the line must neither end nor reach `n - 1` characters. -/
def straysPaired (n : Nat) : (line : List UInt8) → (stray : Bool) → (keys : List UInt8) → Bool
  | line, stray, [] => !stray || line.length + 1 < n
  | line, stray, k :: keys =>
    if n ≤ (withStray stray line).length ∨ k = CARRIEGE_RETURN_KEY then !stray
    else straysPaired n (lineKey line k) (stray ^^ (k = BACKSPACE_KEY && line.isEmpty)) keys

theorem bufferKey_withStray (stray : Bool) (line : List UInt8) (k : UInt8) :
    bufferKey (withStray stray line) k =
      withStray (stray ^^ (k = BACKSPACE_KEY && line.isEmpty)) (lineKey line k) := by
  by_cases hk : k = BACKSPACE_KEY
  · subst hk
    cases stray <;> cases line <;> rfl
  · cases stray <;> simp [bufferKey, lineKey, withStray, hk]

theorem lineKey_backspace {line : List UInt8} (h : BACKSPACE_KEY ∉ line) (k : UInt8) :
    BACKSPACE_KEY ∉ lineKey line k := by
  unfold lineKey
  split
  · exact fun hmem => h (List.dropLast_subset line hmem)
  · next hk =>
    rw [List.mem_append, List.mem_singleton, not_or]
    exact ⟨h, Ne.symm hk⟩

/-- The two editors agree exactly when the backspaces on the empty line come in pairs. -/
theorem edit_withStray_iff {n : Nat} {line keys : List UInt8} {stray : Bool}
    (hline : BACKSPACE_KEY ∉ line) (hlen : (withStray stray line).length ≤ n) :
    edit bufferKey n (withStray stray line) keys = edit lineKey n line keys ↔
      straysPaired n line stray keys = true := by
  induction keys generalizing line stray with
  | nil =>
    unfold edit straysPaired
    cases stray with
    | false => simp [withStray]
    | true =>
      change line.length + 1 ≤ n at hlen
      change (if n ≤ line.length + 1 then some (BACKSPACE_KEY :: line) else none) = _ ↔ _
      rw [if_neg (show ¬ n ≤ line.length by omega)]
      by_cases hfull : n ≤ line.length + 1
      · simp [hfull]
      · simp [hfull, Nat.lt_of_not_le hfull]
  | cons k keys ih =>
    unfold straysPaired
    by_cases hstop : n ≤ (withStray stray line).length ∨ k = CARRIEGE_RETURN_KEY
    · rw [edit, if_pos hstop, if_pos hstop]
      cases stray with
      | false =>
        rw [edit, if_pos (show n ≤ line.length ∨ _ from hstop)]
        exact iff_of_true rfl rfl
      | true =>
        -- the backspace is in the buffer, and in no line
        refine iff_of_false ?_ Bool.false_ne_true
        intro h
        have hno := edit_invariant (I := (BACKSPACE_KEY ∉ ·)) (fun l hl k _ => lineKey_backspace hl k)
          hline h.symm
        exact hno (.head _)
    · have hgrow : line.length ≤ (withStray stray line).length := by
        cases stray with
        | false => exact Nat.le_refl _
        | true => exact Nat.le_succ _
      have hroom : ¬ (n ≤ line.length ∨ k = CARRIEGE_RETURN_KEY) :=
        fun h => hstop (h.imp_left (Nat.le_trans · hgrow))
      rw [edit, edit, if_neg hstop, if_neg hroom, if_neg hstop, bufferKey_withStray]
      apply ih
      · exact lineKey_backspace hline k
      · rw [← bufferKey_withStray]
        have := bufferKey_length_le (withStray stray line) k
        omega

/-- `plumos_terminal_readline` stores the line exactly when the backspaces on the empty line
come in pairs. -/
theorem readline_lineEdit_iff {max : Int} (hmax : 1 ≤ max) (output : Bool) (s : Typing) :
    StoresLine (plumosTerminalReadline max output) s
        (edit lineKey (max - 1).toNat [] (typed s.keys)) ↔
      straysPaired (max - 1).toNat [] false (typed s.keys) = true := by
  have hstores := plumosTerminalReadline_edit hmax output s
  rw [← edit_withStray_iff List.not_mem_nil (Nat.zero_le _)]
  constructor
  · exact hstores.unique
  · intro h
    exact (show _ = _ from h) ▸ hstores

/-- The keys `a`, backspace, `b` and Enter. -/
theorem readline_lineEdit_three :
    StoresLine (plumosTerminalReadline 4 true) ⟨[0x61, 0x08, 0x62, 0x0D], fun _ => 0, []⟩
      (some [0x62]) :=
  (readline_lineEdit_iff (show (1 : Int) ≤ 4 by decide) true ⟨_, fun _ => 0, []⟩).mpr (by decide)

/-- A backspace on the empty line, and Enter: the line is not empty. -/
theorem readline_keeps_backspace : ∃ s, typed s.keys = [BACKSPACE_KEY, CARRIEGE_RETURN_KEY] ∧
    edit lineKey 3 [] (typed s.keys) = some [] ∧
    ¬ StoresLine (plumosTerminalReadline 4 true) s (some []) := by
  refine ⟨⟨[0x08, 0x0D], fun _ => 0, []⟩, rfl, rfl, ?_⟩
  intro h
  cases h.unique (plumosTerminalReadline_edit (show (1 : Int) ≤ 4 by decide) true _)

end PlumOS.Stdlib
