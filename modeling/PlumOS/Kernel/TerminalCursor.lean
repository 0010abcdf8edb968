import PlumOS.Kernel.Terminal

/-!
# The cursor of the terminal

`kernel.c` keeps the cursor in two 16-bit counters. A full line and a newline go on to the
next row, and nothing stops the rows at the bottom of the screen. A backspace writes a blank
through the routine that moves the cursor on, and then steps back one column: at the end of a
line that leaves the cursor one column before the next line.

## Main definitions

- `System.put`, `System.steppedBack` — the cursor
- `Place`, `TextFits` — where the characters of a text go, and whether they fit
- `StaysOnScreen`, `BackspaceErases` — what is expected of the terminal

## Main results

- `terminalRun_staysOnScreen_iff`, `terminalBackspace_erases_iff`
-/

namespace PlumOS

open StateExcept

/-! ### The cursor -/

theorem u16_add_one (x : UInt16) : (x + 1).toNat = (x.toNat + 1) % 0x10000 :=
  UInt16.toNat_add x 1

theorem u16_sub_one (x : UInt16) : (x - 1).toNat = (x.toNat + 0xffff) % 0x10000 := by
  rw [UInt16.toNat_sub, Nat.add_comm]
  rfl

/-- Where the cell of the cursor is. -/
def System.cursor (s : System) : Nat := cellAddress s.terminal_col.toNat s.terminal_row.toNat

/-- A character is put at the cursor, which goes on to the next cell. -/
def System.put (s : System) (L : Layout) (c color : UInt8) : System :=
  let full := VGA_WIDTH ≤ (s.terminal_col + 1).toNat
  { s with
    kernel := L.store s.kernel s.cursor (terminalMakeChar c color)
    terminal_col := if full then 0 else s.terminal_col + 1
    terminal_row := if full then s.terminal_row + 1 else s.terminal_row }

section Put

variable {L : Layout} {s : System}

theorem terminalPutWatched_run (h : ScreenFree L s.kernel) (hx : s.terminal_col.toNat < VGA_WIDTH)
    (hy : s.terminal_row.toNat < VGA_HEIGHT) (c color : UInt8) :
    (terminalPutWatched L c color).run s = .ok (.ok ⟨⟩, s.put L c color) := by
  unfold terminalPutWatched
  rw [run_stays_bind (m := reads id) (s := s) rfl]
  dsimp only [id]
  rw [run_bind, terminalPutcharWatched_passes h hx hy]
  dsimp only
  rw [run_stays_bind (m := modifies _) rfl, run_stays_bind (m := reads id) rfl]
  unfold leavingIf System.put
  dsimp only [id]
  split
  · rfl
  · rfl

theorem terminalPutWatched_leaves
    (h : ¬ (s.terminal_col.toNat < VGA_WIDTH ∧ s.terminal_row.toNat < VGA_HEIGHT))
    (c color : UInt8) : ∃ r s', (terminalPutWatched L c color).run s = .ok (.error r, s') := by
  refine ⟨(s.terminal_col.toNat, s.terminal_row.toNat), s, ?_⟩
  unfold terminalPutWatched
  rw [run_stays_bind (m := reads id) (s := s) rfl]
  dsimp only [id]
  rw [run_bind, terminalPutcharWatched_leaves h]

/-- The state in which a backspace writes its blank. -/
def System.steppedBack (s : System) : System :=
  { s with
    terminal_row := if s.terminal_col = 0 then s.terminal_row - 1 else s.terminal_row
    terminal_col := (if s.terminal_col = 0 then UInt16.ofNat VGA_WIDTH else s.terminal_col) - 1 }

theorem steppedBack_of_zero (h : s.terminal_col = 0) : s.steppedBack =
    { s with terminal_row := s.terminal_row - 1, terminal_col := 79 } := by
  unfold System.steppedBack
  rw [if_pos h, if_pos h]
  rfl

theorem steppedBack_of_ne (h : s.terminal_col ≠ 0) : s.steppedBack =
    { s with terminal_col := s.terminal_col - 1 } := by
  unfold System.steppedBack
  rw [if_neg h, if_neg h]

theorem terminalBackspaceWatched_home (h : s.terminal_row = 0 ∧ s.terminal_col = 0) :
    (terminalBackspaceWatched L).run s = .ok (.ok ⟨⟩, s) := by
  unfold terminalBackspaceWatched
  rw [run_stays_bind (m := reads id) (s := s) rfl]
  dsimp only [id]
  rw [if_pos h]
  rfl

theorem terminalBackspaceWatched_run (h : ¬ (s.terminal_row = 0 ∧ s.terminal_col = 0)) :
    (terminalBackspaceWatched L).run s = (terminalPutWatched L 0x20 15 >>= fun _ =>
      stays (modifies fun s => { s with terminal_col := s.terminal_col - 1 })).run
        s.steppedBack := by
  unfold terminalBackspaceWatched
  rw [run_stays_bind (m := reads id) (s := s) rfl]
  dsimp only [id]
  rw [if_neg h]
  unfold leavingIf System.steppedBack
  by_cases hcol : s.terminal_col = 0
  · simp only [if_pos hcol]
    rw [run_stays_bind (m := modifies _) rfl, run_stays_bind (m := modifies _) rfl]
  · simp only [if_neg hcol]
    rw [pure_bind, run_stays_bind (m := modifies _) rfl]

/-- A backspace that writes its blank on the screen. -/
theorem terminalBackspaceWatched_writes (h : ScreenFree L s.kernel)
    (hhome : ¬ (s.terminal_row = 0 ∧ s.terminal_col = 0))
    (hx : s.steppedBack.terminal_col.toNat < VGA_WIDTH)
    (hy : s.steppedBack.terminal_row.toNat < VGA_HEIGHT) :
    (terminalBackspaceWatched L).run s = .ok (.ok ⟨⟩, { s.steppedBack.put L 0x20 15 with
      terminal_col := (s.steppedBack.put L 0x20 15).terminal_col - 1 }) := by
  have hput := terminalPutWatched_run (s := s.steppedBack) h hx hy 0x20 15
  rw [terminalBackspaceWatched_run hhome, run_bind, hput]
  rfl

end Put

/-! ### Where the characters of a text go -/

/-- Where the next character goes: the line, counted from the first one, and the column. There
is none when a backspace has gone back over the start of the line. -/
structure Place where
  line : Nat
  column : Option Nat

def Place.start : Place := ⟨0, some 0⟩

/-- The row of the screen; it is counted in 16 bits. -/
def Place.row (p : Place) : Nat := p.line % 0x10000

/-- The place behind a character. -/
def Place.next (p : Place) (c : UInt8) : Place :=
  if c = 0x0a then ⟨p.line + 1, some 0⟩
  else match p.column with
    | none => p
    | some n =>
      if c = 0x08 then
        if n = 0 then if p.row = 0 then p else ⟨p.line, none⟩
        else ⟨p.line, some (n - 1)⟩
      else if n + 1 < VGA_WIDTH then ⟨p.line, some (n + 1)⟩
      else ⟨p.line + 1, some 0⟩

/-- There is a line for the character. A newline needs none, and is all that may follow a
backspace over the start of a line. -/
def Place.Fits (p : Place) (c : UInt8) : Prop :=
  c = 0x0a ∨ ∃ n ∈ p.column, if c = 0x08 then n = 0 → p.row ≤ VGA_HEIGHT else p.row < VGA_HEIGHT

/-- The text, from a place on, fits on the lines of the screen. -/
def TextFits : Place → List UInt8 → Prop
  | _, [] => True
  | p, c :: text => p.Fits c ∧ TextFits (p.next c) text

/-- The cursor is at the place. -/
structure PlaceAt (p : Place) (s : System) : Prop where
  row : s.terminal_row.toNat = p.row
  column : match p.column with
    | none => s.terminal_col.toNat = 0xffff
    | some n => s.terminal_col.toNat = n ∧ n < VGA_WIDTH ∧ (0 < n → p.row < VGA_HEIGHT)

theorem u16_eq_zero {x : UInt16} : x = 0 ↔ x.toNat = 0 := by
  rw [← UInt16.toNat_inj]
  rfl

section Step

variable {L : Layout} {s : System} {p : Place} {c : UInt8}

theorem PlaceAt.newline (h : PlaceAt p s) (hc : c = 0x0a) (color : UInt8) :
    Passes (terminalWritecharWatched L c color) s fun _ s' =>
      PlaceAt (p.next c) s' ∧ s'.kernel = s.kernel := by
  subst hc
  refine ⟨⟨⟩, _, rfl, ⟨?_, rfl, by decide, fun hlt => absurd hlt (by decide)⟩, rfl⟩
  change (s.terminal_row + 1).toNat = (p.line + 1) % 0x10000
  rw [u16_add_one, h.row]
  exact Nat.mod_add_mod p.line 0x10000 1

/-- A character other than a newline or a backspace goes into the next cell. -/
theorem PlaceAt.printable {n : Nat} (h : PlaceAt p s) (hfree : ScreenFree L s.kernel)
    (hcol : p.column = some n) (hrow : p.row < VGA_HEIGHT) (hnl : c ≠ 0x0a) (hbs : c ≠ 0x08)
    (color : UInt8) : Passes (terminalWritecharWatched L c color) s fun _ s' =>
      PlaceAt (p.next c) s' ∧ ScreenFree L s'.kernel := by
  have hat := h.column
  rw [hcol] at hat
  obtain ⟨hx, hlt, -⟩ := hat
  have hnext := u16_add_one s.terminal_col
  have hrow' := h.row
  unfold terminalWritecharWatched
  rw [if_neg hnl, if_neg hbs]
  have hrun := terminalPutWatched_run hfree (hx ▸ hlt) (h.row ▸ hrow) c color
  refine ⟨⟨⟩, _, hrun, ?_, hfree.store _ _⟩
  unfold Place.next
  rw [if_neg hnl, hcol]
  dsimp only
  rw [if_neg hbs]
  unfold VGA_WIDTH at hlt
  by_cases hfull : n + 1 < VGA_WIDTH
  · have hnot : ¬ VGA_WIDTH ≤ (s.terminal_col + 1).toNat := by
      unfold VGA_WIDTH at hfull ⊢
      omega
    rw [if_pos hfull]
    refine ⟨?_, ?_, hfull, fun _ => hrow⟩
    · exact (congrArg UInt16.toNat (if_neg hnot)).trans h.row
    · exact (congrArg UInt16.toNat (if_neg hnot)).trans (by omega)
  · have hyes : VGA_WIDTH ≤ (s.terminal_col + 1).toNat := by
      unfold VGA_WIDTH at hfull ⊢
      omega
    rw [if_neg hfull]
    refine ⟨?_, ?_, by decide, fun hlt => absurd hlt (by decide)⟩
    · refine (congrArg UInt16.toNat (if_pos hyes)).trans ?_
      rw [u16_add_one, h.row]
      exact Nat.mod_add_mod p.line 0x10000 1
    · exact congrArg UInt16.toNat (if_pos hyes)

/-- A backspace in a line takes the cursor back to the cell before. -/
theorem PlaceAt.backspace_inside {n : Nat} (h : PlaceAt p s) (hfree : ScreenFree L s.kernel)
    (hcol : p.column = some (n + 1)) : Passes (terminalBackspaceWatched L) s fun _ s' =>
      PlaceAt ⟨p.line, some n⟩ s' ∧ ScreenFree L s'.kernel := by
  have hat := h.column
  rw [hcol] at hat
  obtain ⟨hx, hlt, hrow⟩ := hat
  have hcol0 : ¬ s.terminal_col = 0 := by
    rw [u16_eq_zero]
    omega
  have hback : s.steppedBack.terminal_col.toNat = n := by
    rw [steppedBack_of_ne hcol0, u16_sub_one]
    unfold VGA_WIDTH at hlt
    omega
  have hbackrow : s.steppedBack.terminal_row.toNat = p.row := by
    rw [steppedBack_of_ne hcol0, h.row]
  have hnot : ¬ VGA_WIDTH ≤ (s.steppedBack.terminal_col + 1).toNat := by
    rw [u16_add_one, hback]
    unfold VGA_WIDTH at hlt ⊢
    omega
  have hrun := terminalBackspaceWatched_writes hfree (fun hhome => hcol0 hhome.2) (by omega)
    (hbackrow ▸ hrow (by omega))
  refine ⟨⟨⟩, _, hrun, ⟨?_, ?_, by omega, fun _ => hrow (by omega)⟩, hfree⟩
  · exact (congrArg UInt16.toNat (if_neg hnot)).trans hbackrow
  · change ((if VGA_WIDTH ≤ (s.steppedBack.terminal_col + 1).toNat then 0
      else s.steppedBack.terminal_col + 1) - 1).toNat = n
    rw [if_neg hnot, u16_sub_one, u16_add_one, hback]
    unfold VGA_WIDTH at hlt
    omega

/-- The blank at the end of the line before takes the cursor back to the start of the line,
and the step back from there goes over it. -/
theorem PlaceAt.backspace_start (h : PlaceAt p s) (hfree : ScreenFree L s.kernel)
    (hcol : p.column = some 0) (hpos : p.row ≠ 0) (hrow : p.row ≤ VGA_HEIGHT) :
    Passes (terminalBackspaceWatched L) s fun _ s' =>
      PlaceAt ⟨p.line, none⟩ s' ∧ ScreenFree L s'.kernel := by
  have hat := h.column
  rw [hcol] at hat
  have hcol0 : s.terminal_col = 0 := u16_eq_zero.mpr hat.1
  have hrow0 : ¬ s.terminal_row = 0 := by
    rw [u16_eq_zero, h.row]
    exact hpos
  have hlt : p.row < 0x10000 := Nat.mod_lt _ (by decide)
  have hback : s.steppedBack.terminal_col = 79 := by
    rw [steppedBack_of_zero hcol0]
  have hbackrow : s.steppedBack.terminal_row.toNat = p.row - 1 := by
    rw [steppedBack_of_zero hcol0, u16_sub_one, h.row]
    omega
  have hyes : VGA_WIDTH ≤ (s.steppedBack.terminal_col + 1).toNat := by
    rw [hback]
    decide
  have hrun := terminalBackspaceWatched_writes hfree (fun hhome => hrow0 hhome.1)
    (by rw [hback]; decide) (by rw [hbackrow]; omega)
  refine ⟨⟨⟩, _, hrun, ⟨?_, ?_⟩, hfree⟩
  · refine (congrArg UInt16.toNat (if_pos hyes)).trans ?_
    rw [u16_add_one, hbackrow]
    change _ = p.row
    omega
  · change ((if VGA_WIDTH ≤ (s.steppedBack.terminal_col + 1).toNat then 0
      else s.steppedBack.terminal_col + 1) - 1).toNat = 0xffff
    rw [if_pos hyes]
    decide

/-- A character that fits is written on the screen. -/
theorem PlaceAt.step (h : PlaceAt p s) (hfree : ScreenFree L s.kernel) (hfits : p.Fits c)
    (color : UInt8) : Passes (terminalWritecharWatched L c color) s fun _ s' =>
      PlaceAt (p.next c) s' ∧ ScreenFree L s'.kernel := by
  by_cases hnl : c = 0x0a
  · refine (h.newline hnl color).mono ?_
    rintro _ s' ⟨hat, hk⟩
    exact ⟨hat, hk ▸ hfree⟩
  obtain ⟨n, hcol, hline⟩ := hfits.resolve_left hnl
  by_cases hbs : c = 0x08
  · rw [if_pos hbs] at hline
    unfold terminalWritecharWatched Place.next
    rw [if_neg hnl, if_pos hbs, if_neg hnl, show p.column = some n from hcol]
    dsimp only
    rw [if_pos hbs]
    cases n with
    | zero =>
      rw [if_pos rfl]
      by_cases hrow : p.row = 0
      · have hat := h.column
        rw [show p.column = some 0 from hcol] at hat
        have hhome : s.terminal_row = 0 ∧ s.terminal_col = 0 :=
          ⟨u16_eq_zero.mpr (h.row.trans hrow), u16_eq_zero.mpr hat.1⟩
        rw [if_pos hrow]
        exact ⟨⟨⟩, s, terminalBackspaceWatched_home hhome, h, hfree⟩
      · rw [if_neg hrow]
        exact h.backspace_start hfree hcol hrow (hline rfl)
    | succ n =>
      rw [if_neg (Nat.succ_ne_zero n)]
      exact h.backspace_inside hfree hcol
  · rw [if_neg hbs] at hline
    exact h.printable hfree hcol hline hnl hbs color

/-- One that does not fit is not. -/
theorem PlaceAt.step_leaves (h : PlaceAt p s) (hfits : ¬ p.Fits c) (color : UInt8) :
    ∃ r s', (terminalWritecharWatched L c color).run s = .ok (.error r, s') := by
  have hnl : ¬ c = 0x0a := fun heq => hfits (Or.inl heq)
  have hnot := fun hfit => hfits (Or.inr hfit)
  have hat := h.column
  have hlt : p.row < 0x10000 := Nat.mod_lt _ (by decide)
  unfold terminalWritecharWatched
  rw [if_neg hnl]
  cases hcol : p.column with
  | none =>
    rw [hcol] at hat
    by_cases hbs : c = 0x08
    · have hcol0 : ¬ s.terminal_col = 0 := by
        rw [u16_eq_zero, hat]
        decide
      have hback : s.steppedBack.terminal_col.toNat = 0xfffe := by
        rw [steppedBack_of_ne hcol0, u16_sub_one, hat]
      obtain ⟨r, s', hrun⟩ := terminalPutWatched_leaves (L := L) (s := s.steppedBack)
        (by rw [hback]; exact fun hon => absurd hon.1 (by decide)) 0x20 15
      refine ⟨r, s', ?_⟩
      rw [if_pos hbs, terminalBackspaceWatched_run fun hhome => hcol0 hhome.2, run_bind, hrun]
    · rw [if_neg hbs]
      exact terminalPutWatched_leaves (by rw [hat]; exact fun hon => absurd hon.1 (by decide)) _ _
  | some n =>
    rw [hcol] at hat
    have hline := fun h => hnot ⟨n, hcol, h⟩
    by_cases hbs : c = 0x08
    · rw [if_pos hbs] at hline ⊢
      have hn : n = 0 := by
        by_contra hne
        exact hline fun h0 => absurd h0 hne
      have hrow : VGA_HEIGHT < p.row := by
        by_contra hle
        exact hline fun _ => not_lt.mp hle
      have hcol0 : s.terminal_col = 0 := u16_eq_zero.mpr (hat.1.trans hn)
      have hrow0 : ¬ s.terminal_row = 0 := by
        rw [u16_eq_zero, h.row]
        omega
      have hbackrow : s.steppedBack.terminal_row.toNat = p.row - 1 := by
        rw [steppedBack_of_zero hcol0, u16_sub_one, h.row]
        omega
      obtain ⟨r, s', hrun⟩ := terminalPutWatched_leaves (L := L) (s := s.steppedBack)
        (by rw [hbackrow]; omega) 0x20 15
      refine ⟨r, s', ?_⟩
      rw [terminalBackspaceWatched_run fun hhome => hrow0 hhome.1, run_bind, hrun]
    · rw [if_neg hbs] at hline ⊢
      exact terminalPutWatched_leaves (by rw [h.row]; exact fun hon => hline hon.2) _ _

end Step

/-! ### Texts -/

instance (p : Place) (c : UInt8) : Decidable (p.Fits c) :=
  inferInstanceAs (Decidable (_ ∨ _))

instance decidableTextFits : (p : Place) → (text : List UInt8) → Decidable (TextFits p text)
  | _, [] => isTrue trivial
  | p, c :: text =>
    have := decidableTextFits (p.next c) text
    inferInstanceAs (Decidable (_ ∧ _))

theorem textFits_append {p : Place} {text text' : List UInt8} :
    TextFits p (text ++ text') ↔ TextFits p text ∧ TextFits (text.foldl Place.next p) text' := by
  induction text generalizing p with
  | nil => exact (and_iff_right trivial).symm
  | cons c text ih => exact (and_congr_right fun _ => ih).trans and_assoc.symm

/-- The program writes the text from the cursor on, as long as it fits. -/
def WritesText (L : Layout) (w : WM PUnit) (text : List UInt8) : Prop :=
  ∀ p s, PlaceAt p s → ScreenFree L s.kernel →
    (TextFits p text → Passes w s fun _ s' =>
      PlaceAt (text.foldl Place.next p) s' ∧ ScreenFree L s'.kernel) ∧
    (¬ TextFits p text → ∃ r s', w.run s = .ok (.error r, s'))

section Texts

variable {L : Layout}

theorem WritesText.nil : WritesText L (pure ⟨⟩) [] := fun _ s hat hfree =>
  ⟨fun _ => ⟨⟨⟩, s, rfl, hat, hfree⟩, fun hnot => absurd trivial hnot⟩

theorem WritesText.writechar (c color : UInt8) :
    WritesText L (terminalWritecharWatched L c color) [c] := by
  intro p s hat hfree
  constructor
  · intro hfits
    exact hat.step hfree hfits.1 color
  · intro hnot
    exact hat.step_leaves (fun h => hnot ⟨h, trivial⟩) color

theorem WritesText.bind {w w' : WM PUnit} {text text' : List UInt8} (h : WritesText L w text)
    (h' : WritesText L w' text') : WritesText L (w >>= fun _ => w') (text ++ text') := by
  intro p s hat hfree
  obtain ⟨hpass, hleave⟩ := h p s hat hfree
  rw [textFits_append, List.foldl_append]
  constructor
  · rintro ⟨hfits, hfits'⟩
    refine .bind (hpass hfits) ?_
    rintro _ s' ⟨hat', hfree'⟩
    exact (h' _ s' hat' hfree').1 hfits'
  · intro hnot
    by_cases hfits : TextFits p text
    · obtain ⟨_, s', hrun, hat', hfree'⟩ := hpass hfits
      obtain ⟨r, s'', hrun'⟩ := (h' _ s' hat' hfree').2 fun hfits' => hnot ⟨hfits, hfits'⟩
      refine ⟨r, s'', ?_⟩
      rw [run_bind, hrun]
      exact hrun'
    · obtain ⟨r, s', hrun⟩ := hleave hfits
      refine ⟨r, s', ?_⟩
      rw [run_bind, hrun]

theorem WritesText.printLoop (str : List UInt8) : WritesText L (printLoopWatched L str) str := by
  induction str with
  | nil => exact .nil
  | cons c str ih => exact .bind (.writechar c 15) ih

theorem WritesText.run (ops : List TerminalOp) :
    WritesText L (terminalRunWatched L ops) (ops.flatMap TerminalOp.text) := by
  induction ops with
  | nil => exact .nil
  | cons op ops ih =>
    rw [List.flatMap_cons]
    cases op with
    | writechar c color => exact .bind (.writechar c color) ih
    | print str => exact .bind (.printLoop _) ih

/-- Clearing the screen leaves the cursor where it is. -/
theorem terminalInitializeWatched_passes {p : Place} {s : System} (hat : PlaceAt p s)
    (hfree : ScreenFree L s.kernel) : Passes (terminalInitializeWatched L) s fun _ s' =>
      PlaceAt p s' ∧ ScreenFree L s'.kernel := by
  refine Passes.forM (I := fun s' => PlaceAt p s' ∧ ScreenFree L s'.kernel) _ ?_ ⟨hat, hfree⟩
  intro y hy s₁ h₁
  refine Passes.forM (I := fun s' => PlaceAt p s' ∧ ScreenFree L s'.kernel) _ ?_ h₁
  rintro x hx s₂ ⟨hat₂, hfree₂⟩
  have hrun := terminalPutcharWatched_passes hfree₂ (List.mem_range.mp hx) (List.mem_range.mp hy)
    0x20 0
  exact ⟨⟨⟩, _, hrun, ⟨hat₂.row, hat₂.column⟩, hfree₂.store _ _⟩

end Texts

/-- What is expected of the terminal, from its initialisation on: no call of
`terminal_putchar` is for a cell that is not on the screen, and nothing is stored elsewhere. -/
def StaysOnScreen (L : Layout) (ops : List TerminalOp) (s : System) : Prop :=
  NeverLeaves (do terminalInitializeWatched L; terminalRunWatched L ops) s ∧
    Ensures (do terminalInitialize L; terminalRun L ops) s fun _ s' => SameOffScreen s s'

theorem staysOnScreen_of_fits {L : Layout} {s : System} (hfree : ScreenFree L s.kernel)
    (hat : PlaceAt .start s) {ops : List TerminalOp}
    (hfits : TextFits .start (ops.flatMap TerminalOp.text)) : StaysOnScreen L ops s := by
  have hpass : Passes (do terminalInitializeWatched L; terminalRunWatched L ops) s
      fun _ _ => True := by
    refine .bind (terminalInitializeWatched_passes hat hfree) ?_
    rintro _ s' ⟨hat', hfree'⟩
    exact ((WritesText.run ops _ s' hat' hfree').1 hfits).mono fun _ _ _ => trivial
  have hnever : NeverLeaves (do terminalInitializeWatched L; terminalRunWatched L ops) s := by
    obtain ⟨_, s', hrun, -⟩ := hpass
    intro r s'' hr
    rw [hrun] at hr
    cases hr
    trivial
  have hwatch : Watches (do terminalInitializeWatched L; terminalRunWatched L ops)
      (do terminalInitialize L; terminalRun L ops) :=
    .bind (terminalInitializeWatched_watches L) fun _ => terminalRunWatched_watches L ops
  have hkeep : Watched (do terminalInitializeWatched L; terminalRunWatched L ops) := by
    unfold terminalInitializeWatched
    infer_instance
  exact ⟨hnever, hwatch.ensures hnever (hkeep.keeping s)⟩

theorem fits_of_staysOnScreen {L : Layout} {s : System} (hfree : ScreenFree L s.kernel)
    (hat : PlaceAt .start s) {ops : List TerminalOp} (h : StaysOnScreen L ops s) :
    TextFits .start (ops.flatMap TerminalOp.text) := by
  by_contra hnot
  obtain ⟨_, s', hinit, hat', hfree'⟩ := terminalInitializeWatched_passes hat hfree
  obtain ⟨r, s'', hrun⟩ := (WritesText.run ops _ s' hat' hfree').2 hnot
  refine h.1 (.error r) s'' ?_
  change (terminalInitializeWatched L >>= fun _ => terminalRunWatched L ops).run s = _
  rw [run_bind, hinit]
  exact hrun

/-- All that is written to the terminal lands on the screen exactly when the text fits. -/
theorem terminalRun_staysOnScreen_iff {L : Layout} {s : System} (hfree : ScreenFree L s.kernel)
    (hrow : s.terminal_row = 0) (hcol : s.terminal_col = 0) (ops : List TerminalOp) :
    StaysOnScreen L ops s ↔ TextFits .start (ops.flatMap TerminalOp.text) := by
  have hat : PlaceAt .start s :=
    ⟨u16_eq_zero.mp hrow, u16_eq_zero.mp hcol, by decide, fun hlt => absurd hlt (by decide)⟩
  exact ⟨fits_of_staysOnScreen hfree hat, staysOnScreen_of_fits hfree hat⟩

/-- The system before anything is written. -/
def System.booted : System := ⟨Kernel.boot Disk.blank, 0, 0, false⟩

theorem booted_screenFree : ScreenFree Layout.small System.booted.kernel := by
  intro a ha
  unfold OnScreen videoMemory VGA_WIDTH VGA_HEIGHT at ha
  refine ⟨?_, rfl⟩
  change (decide (0x100000 ≤ a) && decide (a < 0x180000)) = false
  rw [decide_eq_false (by omega), Bool.false_and]

/-- A character, and a string that ends with a backspace at the start of its second line. -/
theorem terminalRun_staysOnScreen_iff_two :
    StaysOnScreen Layout.small [.writechar 0x41 15, .print [0x0a, 0x08]] System.booted ↔
      TextFits .start [0x41, 0x0a, 0x08] :=
  terminalRun_staysOnScreen_iff booted_screenFree rfl rfl _

/-- Behind 20 newlines the next character is below the screen. -/
theorem terminalRun_below : ¬ StaysOnScreen Layout.small
    [.print (List.replicate 20 0x0a), .writechar 0x41 15] System.booted := by
  have hat : PlaceAt .start System.booted :=
    ⟨rfl, rfl, by decide, fun hlt => absurd hlt (by decide)⟩
  exact fun h => absurd (fits_of_staysOnScreen booted_screenFree hat h) (by decide)

/-! ### A character and a backspace -/

section Erase

variable {L : Layout} {s : System} {c : UInt8}

/-- On the screen a store changes two bytes, and none of the kernel's variables. -/
theorem Layout.store_cursor (hk : s.kernel.current_task < 0x100000000)
    (hx : s.terminal_col.toNat < VGA_WIDTH) (hy : s.terminal_row.toNat < VGA_HEIGHT)
    (c color : UInt8) : L.store s.kernel s.cursor (terminalMakeChar c color) =
      { s.kernel with mem := writeBytes s.kernel.mem s.cursor (terminalMakeChar c color) } := by
  have hload := L.load_le
  have hon := (onScreen_cell hx hy (i := 1) (by decide)).2
  have hbelow : s.cursor + (terminalMakeChar c color).length ≤ L.current_task := by
    unfold videoMemory VGA_WIDTH VGA_HEIGHT at hon
    rw [terminalMakeChar_length]
    unfold System.cursor
    omega
  have htask := L.store_current_task hk (.inl hbelow)
  change { L.store s.kernel s.cursor (terminalMakeChar c color) with
    current_task := (L.store s.kernel s.cursor (terminalMakeChar c color)).current_task } = _
  rw [htask]
  rfl

/-- What is expected of a character and a backspace behind it: the cursor is where it was, its
cell is blank, and nothing else is changed. -/
def BackspaceErases (L : Layout) (c color color' : UInt8) (s : System) : Prop :=
  Returns (terminalWritechar L c color >>= fun _ => terminalWritechar L 0x08 color') s fun _ s' =>
    s'.terminal_row = s.terminal_row ∧ s'.terminal_col = s.terminal_col ∧
      s'.kernel = { s.kernel with
        mem := writeBytes s.kernel.mem s.cursor (terminalMakeChar 0x20 15) }

theorem terminalWritechar_put (hfree : ScreenFree L s.kernel)
    (hx : s.terminal_col.toNat < VGA_WIDTH) (hy : s.terminal_row.toNat < VGA_HEIGHT)
    (hnl : c ≠ 0x0a) (hbs : c ≠ 0x08) (color : UInt8) :
    terminalWritechar L c color s = .ok (⟨⟩, s.put L c color) := by
  unfold terminalWritechar
  rw [if_neg hnl, if_neg hbs]
  exact (terminalPutWatched_watches L c color).ok (terminalPutWatched_run hfree hx hy c color)

theorem terminalWritechar_backspace (hfree : ScreenFree L s.kernel)
    (hhome : ¬ (s.terminal_row = 0 ∧ s.terminal_col = 0))
    (hx : s.steppedBack.terminal_col.toNat < VGA_WIDTH)
    (hy : s.steppedBack.terminal_row.toNat < VGA_HEIGHT) (color : UInt8) :
    terminalWritechar L 0x08 color s = .ok (⟨⟩, { s.steppedBack.put L 0x20 15 with
      terminal_col := (s.steppedBack.put L 0x20 15).terminal_col - 1 }) :=
  (terminalBackspaceWatched_watches L).ok (terminalBackspaceWatched_writes hfree hhome hx hy)

theorem put_inside (hx : s.terminal_col.toNat + 1 < VGA_WIDTH) (color : UInt8) :
    s.put L c color = { s with
      kernel := L.store s.kernel s.cursor (terminalMakeChar c color)
      terminal_col := s.terminal_col + 1 } := by
  have hnot : ¬ VGA_WIDTH ≤ (s.terminal_col + 1).toNat := by
    rw [u16_add_one]
    unfold VGA_WIDTH at hx ⊢
    omega
  unfold System.put
  dsimp only
  rw [if_neg hnot, if_neg hnot]

theorem put_last (hx : s.terminal_col.toNat + 1 = VGA_WIDTH) (color : UInt8) :
    s.put L c color = { s with
      kernel := L.store s.kernel s.cursor (terminalMakeChar c color)
      terminal_col := 0
      terminal_row := s.terminal_row + 1 } := by
  have hyes : VGA_WIDTH ≤ (s.terminal_col + 1).toNat := by
    rw [u16_add_one]
    unfold VGA_WIDTH at hx ⊢
    omega
  unfold System.put
  dsimp only
  rw [if_pos hyes, if_pos hyes]

theorem backspaceErases_inside (hfree : ScreenFree L s.kernel)
    (htask : s.kernel.current_task < 0x100000000) (hx : s.terminal_col.toNat + 1 < VGA_WIDTH)
    (hy : s.terminal_row.toNat < VGA_HEIGHT) (hnl : c ≠ 0x0a) (hbs : c ≠ 0x08)
    (color color' : UInt8) : BackspaceErases L c color color' s := by
  have hx' : s.terminal_col.toNat < VGA_WIDTH := Nat.lt_of_succ_lt hx
  have hcol : (s.terminal_col + 1).toNat = s.terminal_col.toNat + 1 := by
    rw [u16_add_one]
    unfold VGA_WIDTH at hx
    omega
  have hput := terminalWritechar_put hfree hx' hy hnl hbs color
  rw [put_inside hx, Layout.store_cursor htask hx' hy] at hput
  generalize hs₁ : ({ s with
    kernel := { s.kernel with mem := writeBytes s.kernel.mem s.cursor (terminalMakeChar c color) }
    terminal_col := s.terminal_col + 1 } : System) = s₁ at hput
  have hne : s₁.terminal_col ≠ 0 := by
    rw [← hs₁, Ne, u16_eq_zero]
    change ¬ (s.terminal_col + 1).toNat = 0
    omega
  have hback : s₁.steppedBack = { s₁ with terminal_col := s.terminal_col } := by
    rw [steppedBack_of_ne hne, ← hs₁]
    congr 1
    exact UInt16.add_sub_cancel s.terminal_col 1
  have hfree₁ : ScreenFree L s₁.kernel := by
    rw [← hs₁]
    exact hfree
  have hrun := terminalWritechar_backspace hfree₁ (fun hhome => hne hhome.2)
    (by rw [hback]; exact hx') (by rw [hback, ← hs₁]; exact hy) color'
  rw [hback, put_inside (s := { s₁ with terminal_col := s.terminal_col }) hx] at hrun
  refine ⟨⟨⟩, _, (bind_of_ok hput).trans hrun, ?_, ?_, ?_⟩
  · rw [← hs₁]
  · exact UInt16.add_sub_cancel s.terminal_col 1
  · have hstore := Layout.store_cursor (L := L) (s := { s₁ with terminal_col := s.terminal_col })
      (by rw [← hs₁]; exact htask) hx' (by rw [← hs₁]; exact hy) 0x20 15
    refine hstore.trans ?_
    rw [← hs₁]
    have hmem : writeBytes (writeBytes s.kernel.mem s.cursor (terminalMakeChar c color)) s.cursor
        (terminalMakeChar 0x20 15) = writeBytes s.kernel.mem s.cursor (terminalMakeChar 0x20 15) :=
      writeBytes_front _ _ _ _ (le_of_eq rfl)
    exact congrArg (fun mem => { s.kernel with mem := mem }) hmem

/-- At the end of the line the cursor is left behind the columns. -/
theorem not_backspaceErases_last (hfree : ScreenFree L s.kernel)
    (hx : s.terminal_col.toNat + 1 = VGA_WIDTH) (hy : s.terminal_row.toNat + 1 < VGA_HEIGHT)
    (hnl : c ≠ 0x0a) (hbs : c ≠ 0x08) (color color' : UInt8) :
    ¬ BackspaceErases L c color color' s := by
  have hx' : s.terminal_col.toNat < VGA_WIDTH := by omega
  have hput := terminalWritechar_put hfree hx' (Nat.lt_of_succ_lt hy) hnl hbs color
  rw [put_last hx] at hput
  generalize hs₁ : ({ s with
    kernel := L.store s.kernel s.cursor (terminalMakeChar c color)
    terminal_col := 0
    terminal_row := s.terminal_row + 1 } : System) = s₁ at hput
  have hzero : s₁.terminal_col = 0 := by rw [← hs₁]
  have hrow : (s.terminal_row + 1).toNat = s.terminal_row.toNat + 1 := by
    rw [u16_add_one]
    unfold VGA_HEIGHT at hy
    omega
  have hhome : ¬ (s₁.terminal_row = 0 ∧ s₁.terminal_col = 0) := by
    rw [← hs₁, u16_eq_zero]
    dsimp only
    omega
  have hback : s₁.steppedBack = { s₁ with terminal_row := s.terminal_row, terminal_col := 79 } := by
    rw [steppedBack_of_zero hzero, ← hs₁]
    congr 1
    exact UInt16.add_sub_cancel s.terminal_row 1
  have hfree₁ : ScreenFree L s₁.kernel := by
    rw [← hs₁]
    exact hfree.store _ _
  have hrun := terminalWritechar_backspace hfree₁ hhome
    (by rw [hback]; exact (by decide : (79 : UInt16).toNat < VGA_WIDTH))
    (by rw [hback]; exact Nat.lt_of_succ_lt hy) color'
  rw [hback, put_last (s := { s₁ with terminal_row := s.terminal_row, terminal_col := 79 }) rfl]
    at hrun
  intro herases
  have hcol := (herases.ensures _ _ ((bind_of_ok hput).trans hrun)).2.1
  have hlast : s.terminal_col.toNat = 0xffff := by
    rw [← hcol]
    rfl
  unfold VGA_WIDTH at hx
  omega

/-- A backspace takes back the character before it exactly when that was not at the end of a
line. -/
theorem terminalBackspace_erases_iff (hfree : ScreenFree L s.kernel)
    (htask : s.kernel.current_task < 0x100000000) (hx : s.terminal_col.toNat < VGA_WIDTH)
    (hy : s.terminal_row.toNat + 1 < VGA_HEIGHT) (hnl : c ≠ 0x0a) (hbs : c ≠ 0x08)
    (color color' : UInt8) :
    BackspaceErases L c color color' s ↔ s.terminal_col.toNat + 1 < VGA_WIDTH := by
  constructor
  · intro h
    by_contra hlast
    exact not_backspaceErases_last hfree (by omega) hy hnl hbs color color' h
  · intro hlt
    exact backspaceErases_inside hfree htask hlt (Nat.lt_of_succ_lt hy) hnl hbs color color'

end Erase

/-- A character in the corner. -/
theorem terminalBackspace_erases_iff_corner :
    BackspaceErases Layout.small 0x41 15 15 System.booted ↔ (0 : UInt16).toNat + 1 < VGA_WIDTH :=
  terminalBackspace_erases_iff booted_screenFree (by decide) (by decide) (by decide) (by decide)
    (by decide) 15 15

/-- A character in the last column of the first line. -/
theorem terminalBackspace_beyond :
    ¬ BackspaceErases Layout.small 0x41 15 15 { System.booted with terminal_col := 79 } :=
  have hnl : (0x41 : UInt8) ≠ 0x0a := by decide
  have hbs : (0x41 : UInt8) ≠ 0x08 := by decide
  not_backspaceErases_last (s := { System.booted with terminal_col := 79 }) booted_screenFree rfl
    (by decide) hnl hbs 15 15

end PlumOS
