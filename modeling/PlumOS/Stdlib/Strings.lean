import PlumOS.Kernel.State

/-!
# The memory of a program

The memory that the C library of the programs works on, and `strncpy` of
`programs/stdlib/src/string.c`. An access outside of the 32-bit address space is a fault.

## Main definitions

- `ProgramState` — memory, the cursor of `strtok`, and the answers of `plumos_malloc`
- `strncpy`

## Main results

- `strncpy_returns`
-/

namespace PlumOS.Stdlib

open StateExcept

/-- The memory of a program; the cursor `sp` of `strtok`; and what `plumos_malloc` returns, call
by call, with 0 where it fails. -/
structure ProgramState where
  mem : Nat → UInt8
  sp : Nat
  blocks : List Nat

/-- Programs of the C library. -/
abbrev PM := StateT ProgramState (Except Fault)

/-- `*p`. -/
def load (p : Nat) : PM UInt8 := fun s =>
  if p < 0x100000000 then .ok (s.mem p, s) else .error .badPointer

/-- The bytes are stored at `p`. -/
def store (p : Nat) (bytes : List UInt8) : PM PUnit := fun s =>
  if p + bytes.length ≤ 0x100000000 then .ok (⟨⟩, { s with mem := writeBytes s.mem p bytes })
  else .error .badPointer

/-- `plumos_malloc`. -/
def plumosMalloc : PM Nat := fun s => .ok (s.blocks.headD 0, { s with blocks := s.blocks.tail })

/-- The loop of `strncpy`, with `n` turns left: the index that it ends with. -/
def strncpyLoop (dest src : Nat) : (n i : Nat) → PM Nat
  | 0, i => pure i
  | n + 1, i => do
    let c ← load (src + i)
    if c = 0 then pure i
    else do
      store (dest + i) [c]
      strncpyLoop dest src n (i + 1)

/-- `strncpy`. -/
def strncpy (dest src count : Nat) : PM Nat := do
  let i ← strncpyLoop dest src (count - 1) 0
  store (dest + i) [0]
  pure dest

/-! ### `strncpy` -/

section Strncpy

variable {dest src : Nat} {s : List UInt8}

/-- The loop copies until the NUL, or until it has made its turns. -/
theorem strncpyLoop_returns {n i : Nat} {l : List UInt8} (hl : l.length = i) {st : ProgramState}
    {mem : Nat → UInt8} (hmem : st.mem = writeBytes mem dest l)
    (hsrc : StringAt mem src (l ++ s)) (hspace : src + (l ++ s).length < 0x100000000)
    (hroom : dest + i + n ≤ 0x100000000)
    (hapart : Apart src ((l ++ s).length + 1) dest (i + n)) :
    Returns (strncpyLoop dest src n i) st fun r st' => r = (l ++ s.take n).length ∧
      st' = { st with mem := writeBytes mem dest (l ++ s.take n) } := by
  induction n generalizing i l s st with
  | zero =>
    refine .pure ⟨by simp [hl], ?_⟩
    rw [List.take_zero, List.append_nil, ← hmem]
  | succ n ih =>
    have hread : st.mem (src + i) = mem (src + i) := by
      rw [hmem]
      rw [List.length_append] at hapart
      exact writeBytes_of_not_mem (by rcases hapart with h | h <;> omega)
    rw [List.length_append] at hspace
    have hload : load (src + i) st = .ok (mem (src + i), st) := by
      rw [← hread]
      exact if_pos (by omega)
    subst hl
    refine .of_eq (bind_of_ok hload) ?_
    cases s with
    | nil =>
      rw [List.append_nil] at hsrc
      rw [if_pos hsrc.end, List.take_nil, List.append_nil, ← hmem]
      exact .pure ⟨rfl, rfl⟩
    | cons c s =>
      obtain ⟨hc, hne⟩ := hsrc.get
      let st₁ : ProgramState := { st with mem := writeBytes mem dest (l ++ [c]) }
      have hstore : store (dest + l.length) [c] st = .ok (⟨⟩, st₁) := by
        unfold store
        rw [if_pos (by rw [List.length_singleton]; omega), hmem, writeBytes_append]
      rw [hc, if_neg hne]
      refine .of_eq (bind_of_ok hstore) ?_
      rw [List.append_cons] at hsrc hapart
      have hlen : (l ++ [c]).length = l.length + 1 := by simp
      have hmem₁ : st₁.mem = writeBytes mem dest (l ++ [c]) := rfl
      have hrest := ih hlen hmem₁ hsrc (by simpa using hspace) (by omega)
        (by rwa [Nat.add_assoc, Nat.add_comm 1])
      rwa [List.append_assoc] at hrest

/-- `strncpy` copies as much of the string as there is room for, and a NUL. -/
theorem strncpy_returns {count : Nat} (hcount : 0 < count) {st : ProgramState}
    (hsrc : StringAt st.mem src s) (hspace : src + s.length < 0x100000000)
    (hroom : dest + count ≤ 0x100000000) (hapart : Apart src (s.length + 1) dest count) :
    strncpy dest src count st =
      .ok (dest, { st with mem := writeBytes st.mem dest (s.take (count - 1) ++ [0]) }) := by
  obtain ⟨i, st', hloop, hi, hst⟩ := strncpyLoop_returns (n := count - 1) (i := 0) (l := []) rfl
    (writeBytes_nil st.mem dest).symm hsrc hspace (by omega)
    (by rcases hapart with h | h; exacts [.inl h, .inr (by omega)])
  rw [List.nil_append] at hi hst
  have hlen : (s.take (count - 1)).length ≤ count - 1 := List.length_take_le _ _
  have hstore : store (dest + i) [0] st' =
      .ok (⟨⟩, { st with mem := writeBytes st.mem dest (s.take (count - 1) ++ [0]) }) := by
    unfold store
    rw [if_pos (by rw [List.length_singleton]; omega), hst, hi, writeBytes_append]
  exact (bind_of_ok hloop).trans (bind_of_ok hstore)

end Strncpy

end PlumOS.Stdlib
