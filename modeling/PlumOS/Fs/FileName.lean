import PlumOS.Fs.DirectoryLookup

/-!
# The names of directory entries

A directory entry has two fields of fixed width, padded with spaces: eight bytes of a stem
and three of an extension. `fat16_get_full_relative_filename` makes a string of them in a
buffer, through a pointer that both fields move on.

## Main definitions

- `fat16ToProperStringInto`, `fat16GetFullRelativeFilenameInto` — the string in the buffer
- `ShortName` — a stem and an extension

## Main results

- `fat16GetFullRelativeFilenameInto_eq` — what is written to the buffer
- `fat16GetFullRelativeFilename_exact` — the name of an entry, and its comparison
-/

namespace PlumOS

/-! ### The buffer -/

/-- The loop of `fat16_to_proper_string`: `*out` and the memory behind it. `left` is
`size-1` less `i`. -/
def fat16ToProperStringLoop (mem : Nat → UInt8) (in_ out : Nat) :
    (left : Nat) → Nat × (Nat → UInt8)
  | 0 =>
    if mem in_ ≠ 0x00 ∧ mem in_ ≠ 0x20 then (out + 1, writeBytes mem out [mem in_])
    else (out, mem)
  | left + 1 =>
    if mem in_ ≠ 0x00 ∧ mem in_ ≠ 0x20 then
      fat16ToProperStringLoop (writeBytes mem out [mem in_]) (in_ + 1) (out + 1) left
    else (out, mem)

/-- `fat16_to_proper_string`: `*out` and the memory behind it. -/
def fat16ToProperStringInto (mem : Nat → UInt8) (out in_ size : Nat) : Nat × (Nat → UInt8) :=
  let r := fat16ToProperStringLoop mem in_ out (u32 ((size : Int) - 1))
  (r.1, writeBytes r.2 r.1 [0x00])

/-- `fat16_get_full_relative_filename` for the entry at `item`: the memory behind it. -/
def fat16GetFullRelativeFilenameInto (item out max_len : Nat) (mem : Nat → UInt8) :
    Nat → UInt8 :=
  let mem := writeBytes mem out (List.replicate max_len 0x00)
  let r := fat16ToProperStringInto mem out item 8
  if r.2 (item + 8) ≠ 0x00 ∧ r.2 (item + 8) ≠ 0x20 then
    (fat16ToProperStringInto (writeBytes r.2 r.1 [0x2E]) (r.1 + 1) (item + 8) 3).2
  else r.2

theorem fat16ToProperStringLoop_eq (left : Nat) : ∀ (mem : Nat → UInt8) (in_ out : Nat),
    Apart in_ (left + 1) out (left + 1) → fat16ToProperStringLoop mem in_ out left =
      (out + (fat16ToProperString (readBytes mem in_ (left + 1))).length,
        writeBytes mem out (fat16ToProperString (readBytes mem in_ (left + 1)))) := by
  induction left with
  | zero =>
    intro mem in_ out _
    rw [fat16ToProperStringLoop, readBytes_succ, fat16ToProperString]
    split
    · rfl
    · rw [writeBytes_nil]
      rfl
  | succ left ih =>
    intro mem in_ out hapart
    rw [fat16ToProperStringLoop, readBytes_succ, fat16ToProperString]
    split
    · have hnext : readBytes (writeBytes mem out [mem in_]) (in_ + 1) (left + 1) =
          readBytes mem (in_ + 1) (left + 1) :=
        readBytes_writeBytes_apart (by unfold Apart at *; simp; omega)
      rw [ih _ _ _ (by unfold Apart at *; omega), hnext]
      have happend := writeBytes_append mem out [mem in_]
        (fat16ToProperString (readBytes mem (in_ + 1) (left + 1)))
      rw [List.length_singleton] at happend
      rw [happend, List.length_cons, List.singleton_append]
      congr 1
      omega
    · rw [writeBytes_nil]
      rfl

theorem fat16ToProperStringInto_eq {mem : Nat → UInt8} {out in_ size : Nat} (hpos : 1 ≤ size)
    (hsize : size < 0x100000000) (hapart : Apart in_ size out size) :
    fat16ToProperStringInto mem out in_ size =
      (out + (fat16ToProperString (readBytes mem in_ size)).length,
        writeBytes mem out (fat16ToProperString (readBytes mem in_ size) ++ [0x00])) := by
  obtain ⟨left, rfl⟩ : ∃ left, size = left + 1 := ⟨size - 1, by omega⟩
  have hleft : u32 (((left + 1 : Nat) : Int) - 1) = left := by
    rw [u32_of_range (by omega) (by omega)]
    omega
  unfold fat16ToProperStringInto
  rw [hleft, fat16ToProperStringLoop_eq left mem in_ out hapart]
  exact congrArg (Prod.mk _) (writeBytes_append _ _ _ _)

/-- What the buffer holds in the end: a string of fewer than `max_len` bytes, and zeros. -/
def padName (max_len : Nat) (s : List UInt8) : List UInt8 :=
  s ++ List.replicate (max_len - s.length) 0x00

theorem padName_length {max_len : Nat} {s : List UInt8} (h : s.length ≤ max_len) :
    (padName max_len s).length = max_len := by
  simp [padName, h]

/-- A string written over zeros. -/
theorem writeBytes_zeros {mem : Nat → UInt8} {out max_len : Nat} {s : List UInt8}
    (h : s.length < max_len) :
    writeBytes (writeBytes mem out (List.replicate max_len 0x00)) out (s ++ [0x00]) =
      writeBytes mem out (padName max_len s) := by
  have hpad : padName max_len s =
      (s ++ [0x00]) ++ (List.replicate max_len 0x00).drop (s ++ [0x00]).length := by
    unfold padName
    rw [List.drop_replicate, List.length_append, List.length_singleton, List.append_assoc,
      List.singleton_append, ← List.replicate_succ]
    congr 2
    omega
  rw [hpad]
  exact writeBytes_front _ _ _ _ (by simp; omega)

/-- The buffer holds the name of the entry, and zeros behind it; nothing else is written. -/
theorem fat16GetFullRelativeFilenameInto_eq {mem : Nat → UInt8} {item out max_len : Nat}
    (hmax : 13 ≤ max_len) (hapart : Apart item 11 out max_len) :
    fat16GetFullRelativeFilenameInto item out max_len mem = writeBytes mem out
      (padName max_len (fat16GetFullRelativeFilename (readFatDirectoryItem mem item))) := by
  -- the fields are not written
  have hfield : ∀ (m : Nat → UInt8) (at_ : Nat) (l : List UInt8), out ≤ at_ →
      at_ + l.length ≤ out + max_len → ∀ i n, i + n ≤ 11 →
      readBytes (writeBytes m at_ l) (item + i) n = readBytes m (item + i) n := by
    intro m at_ l hfrom hto i n hn
    exact readBytes_writeBytes_apart (by unfold Apart at *; omega)
  have hstemLen := (fat16ToProperString_spec (readBytes mem item 8)).1
  have hextLen := (fat16ToProperString_spec (readBytes mem (item + 8) 3)).1
  rw [readBytes_length] at hstemLen hextLen
  have hstem := @fat16ToProperStringInto_eq
    (writeBytes mem out (List.replicate max_len 0x00)) out item 8 (by omega) (by omega)
    (by unfold Apart at *; omega)
  have hstemField := hfield mem out (List.replicate max_len 0x00) le_rfl (by simp) 0 8 (by decide)
  rw [Nat.add_zero] at hstemField
  rw [hstemField] at hstem
  generalize hs : fat16ToProperString (readBytes mem item 8) = stem at hstem hstemLen
  generalize he : fat16ToProperString (readBytes mem (item + 8) 3) = ext at hextLen
  have hextField : readBytes (writeBytes (writeBytes mem out (List.replicate max_len 0x00)) out
      (stem ++ [0x00])) (item + 8) 3 = readBytes mem (item + 8) 3 := by
    rw [hfield _ out _ le_rfl (by simp; omega) 8 3 (by decide),
      hfield _ out _ le_rfl (by simp) 8 3 (by decide)]
  have hbyte : writeBytes (writeBytes mem out (List.replicate max_len 0x00)) out
      (stem ++ [0x00]) (item + 8) = mem (item + 8) := (readBytes_inj.mp hextField) 0 (by decide)
  have hname : fat16GetFullRelativeFilename (readFatDirectoryItem mem item) =
      stem ++ if mem (item + 8) ≠ 0x00 ∧ mem (item + 8) ≠ 0x20 then 0x2E :: ext else [] := by
    rw [← hs, ← he]
    rfl
  unfold fat16GetFullRelativeFilenameInto
  dsimp only
  rw [hname, hstem]
  simp only [hbyte]
  split
  · -- the dot replaces the NUL behind the stem
    rw [writeBytes_overwrite _ _ _ _ _ (by simp)]
    have hlen : out + stem.length + 1 = out + (stem ++ [0x2E]).length := by simp; omega
    rw [fat16ToProperStringInto_eq (by decide) (by decide) (by unfold Apart at *; omega),
      hfield _ out _ le_rfl (by simp; omega) 8 3 (by decide),
      hfield _ out _ le_rfl (by simp) 8 3 (by decide), he, hlen, writeBytes_append,
      ← writeBytes_zeros (by simp; omega)]
    simp
  · rw [List.append_nil]
    exact writeBytes_zeros (by omega)

/-! ### Stem and extension -/

/-- A byte of a stem or of an extension. -/
def IsNameByte (c : UInt8) : Prop := c ≠ 0x00 ∧ c ≠ 0x20 ∧ c ≠ 0x2E

instance (c : UInt8) : Decidable (IsNameByte c) := inferInstanceAs (Decidable (_ ∧ _))

/-- A stem of one to eight bytes, and an extension of at most three. -/
structure ShortName where
  stem : List UInt8
  ext : List UInt8
  stem_pos : 1 ≤ stem.length
  stem_le : stem.length ≤ 8
  ext_le : ext.length ≤ 3
  stem_bytes : ∀ c ∈ stem, IsNameByte c
  ext_bytes : ∀ c ∈ ext, IsNameByte c

/-- The two fields of a directory entry. -/
def ShortName.fields (n : ShortName) : List UInt8 :=
  (n.stem ++ List.replicate (8 - n.stem.length) 0x20) ++
    (n.ext ++ List.replicate (3 - n.ext.length) 0x20)

/-- The name with its dot, if there is an extension. -/
def ShortName.full (n : ShortName) : List UInt8 :=
  if n.ext = [] then n.stem else n.stem ++ 0x2E :: n.ext

/-- Padding is left out of a string. -/
theorem fat16ToProperString_padded {s : List UInt8} (hs : ∀ c ∈ s, IsNameByte c) (n : Nat) :
    fat16ToProperString (s ++ List.replicate n 0x20) = s := by
  induction s with
  | nil =>
    cases n with
    | zero => rfl
    | succ n => rfl
  | cons c s ih =>
    have hc := hs c (by simp)
    rw [List.cons_append, fat16ToProperString, if_pos ⟨hc.1, hc.2.1⟩,
      ih fun d hd => hs d (List.mem_cons_of_mem _ hd)]

/-- The stem ends at the first dot. -/
theorem ShortName.full_injective : Function.Injective ShortName.full := by
  have hstem : ∀ n : ShortName, n.full.takeWhile (· ≠ 0x2E) = n.stem := by
    intro n
    have hall : ∀ c ∈ n.stem, decide (c ≠ 0x2E) = true := fun c hc =>
      decide_eq_true (n.stem_bytes c hc).2.2
    unfold ShortName.full
    split
    · have happend : (n.stem ++ []).takeWhile (· ≠ 0x2E) = n.stem ++ [] :=
        List.takeWhile_append_of_pos hall
      rwa [List.append_nil] at happend
    · rw [List.takeWhile_append_of_pos hall]
      simp
  have hext : ∀ n : ShortName, n.full.drop (n.stem.length + 1) = n.ext := by
    intro n
    unfold ShortName.full
    split
    · next hnil => simp [hnil]
    · simp [List.drop_append]
  intro n n' h
  have hs : n.stem = n'.stem := by rw [← hstem n, ← hstem n', h]
  have he : n.ext = n'.ext := by rw [← hext n, ← hext n', h, hs]
  cases n
  cases n'
  cases hs
  cases he
  rfl

/-- The list of the name's bytes for an entry with these fields. -/
theorem ShortName.fullRelativeFilename {mem : Nat → UInt8} {item : Nat} {n : ShortName}
    (h : readBytes mem item 11 = n.fields) :
    fat16GetFullRelativeFilename (readFatDirectoryItem mem item) = n.full := by
  have hstemLen := n.stem_le
  have hextLen := n.ext_le
  have hsplit := readBytes_append mem item 8 3
  rw [h] at hsplit
  obtain ⟨hstem, hext⟩ := List.append_inj hsplit (by simp; omega)
  unfold fat16GetFullRelativeFilename ShortName.full
  change fat16ToProperString (readBytes mem item 8) ++ (if (readBytes mem (item + 8) 3).getD 0 0 ≠
    0x00 ∧ (readBytes mem (item + 8) 3).getD 0 0 ≠ 0x20 then
      0x2E :: fat16ToProperString (readBytes mem (item + 8) 3) else []) = _
  rw [← hstem, ← hext, fat16ToProperString_padded n.stem_bytes, fat16ToProperString_padded n.ext_bytes]
  cases hn : n.ext with
  | nil => simp
  | cons c rest =>
    have hc := n.ext_bytes c (by simp [hn])
    simp [hc.1, hc.2.1]

theorem ShortName.full_length (n : ShortName) : n.full.length ≤ 12 := by
  have hstem := n.stem_le
  have hext := n.ext_le
  unfold ShortName.full
  split
  · omega
  · simp
    omega

theorem ShortName.full_ne_zero (n : ShortName) : ∀ c ∈ n.full, c ≠ 0 := by
  intro c hc
  unfold ShortName.full at hc
  split at hc
  · exact (n.stem_bytes c hc).1
  · rcases List.mem_append.mp hc with hstem | hdot
    · exact (n.stem_bytes c hstem).1
    rcases List.mem_cons.mp hdot with rfl | hext
    · decide
    · exact (n.ext_bytes c hext).1

/-! ### The name of an entry -/

/-- No other string lies in the same place. -/
theorem HoldsString.unique {k : Kernel} {p : Nat} {s s' : List UInt8} (h : HoldsString k p s)
    (h' : HoldsString k p s') : s = s' := by
  have hle : ∀ {s s' : List UInt8}, HoldsString k p s → HoldsString k p s' →
      s.length ≤ s'.length := by
    intro s s' h h'
    by_contra hlt
    have hzero := (h.bytes s'.length (by omega)).symm.trans (h'.bytes s'.length le_rfl)
    rw [List.getD_eq_getElem _ _ (by omega), List.getD_eq_default _ _ le_rfl] at hzero
    exact h.chars _ (List.getElem_mem _) hzero
  have hlen := le_antisymm (hle h h') (hle h' h)
  refine List.ext_getElem hlen fun i hi hi' => ?_
  rw [← List.getD_eq_getElem s 0 hi, ← List.getD_eq_getElem s' 0 hi', ← h.bytes i hi.le,
    h'.bytes i hi'.le]

/-- The comparison of two strings of memory of which the first one is short enough. -/
theorem HoldsString.istrncmp_iff {k : Kernel} {p q n : Nat} {l s : List UInt8}
    (hl : HoldsString k p l) (hs : HoldsString k q s) (hn : l.length < n) :
    istrncmp (fun j => k.mem (p + j)) (fun j => k.mem (q + j)) n = 0 ↔
      l.map tolower = s.map tolower := by
  refine istrncmpLoop_eq_zero_iff l s n 0 hn hl.chars hs.chars ?_ ?_
  · intro j hj
    rw [Nat.zero_add]
    exact hl.bytes j hj
  · intro j hj
    rw [Nat.zero_add]
    exact hs.bytes j hj

/-- The kernel with the name of the entry at `item` in the `PLUMOS_MAX_PATH` bytes at `out`. -/
def Kernel.withFilename (k : Kernel) (item out : Nat) : Kernel :=
  { k with mem := fat16GetFullRelativeFilenameInto item out PLUMOS_MAX_PATH k.mem }

theorem ShortName.holdsString {k : Kernel} {item out : Nat} {n : ShortName}
    (hitem : readBytes k.mem item 11 = n.fields) (hapart : Apart item 11 out PLUMOS_MAX_PATH) :
    HoldsString (k.withFilename item out) out n.full where
  chars := n.full_ne_zero
  bytes := by
    intro j hj
    have hlen := n.full_length
    have hpad : (padName PLUMOS_MAX_PATH n.full).length = PLUMOS_MAX_PATH :=
      padName_length (by simp only [PLUMOS_MAX_PATH]; omega)
    change fat16GetFullRelativeFilenameInto item out PLUMOS_MAX_PATH k.mem (out + j) = _
    rw [fat16GetFullRelativeFilenameInto_eq (by decide) hapart, ShortName.fullRelativeFilename hitem]
    unfold writeBytes
    rw [hpad, if_pos (by simp only [PLUMOS_MAX_PATH]; omega), Nat.add_sub_cancel_left]
    unfold padName
    rcases Nat.lt_or_ge j n.full.length with hlt | hge
    · rw [List.getD_append _ _ _ _ hlt]
    · rw [List.getD_append_right _ _ _ _ hge, List.getD_eq_default n.full 0 hge]
      rw [List.getD_eq_getElem?_getD, List.getElem?_replicate]
      split <;> rfl

/-- The buffer holds the stem, and a dot and the extension where there is one, up to a NUL;
two different pairs of stem and extension give different strings; and the comparison with a
string is 0 exactly when the two are equal but for the case of ASCII letters. -/
theorem fat16GetFullRelativeFilename_exact (k : Kernel) (item out : Nat) (n : ShortName)
    (hitem : readBytes k.mem item 11 = n.fields) (hapart : Apart item 11 out PLUMOS_MAX_PATH) :
    HoldsString (k.withFilename item out) out n.full ∧
      (∀ (k₂ : Kernel) (item₂ out₂ : Nat) (n₂ : ShortName),
        readBytes k₂.mem item₂ 11 = n₂.fields → Apart item₂ 11 out₂ PLUMOS_MAX_PATH → n₂ ≠ n →
        ∀ s, HoldsString (k.withFilename item out) out s →
          ¬ HoldsString (k₂.withFilename item₂ out₂) out₂ s) ∧
      ∀ name s, HoldsString (k.withFilename item out) name s →
        (istrncmp (fun j => (k.withFilename item out).mem (out + j))
          (fun j => (k.withFilename item out).mem (name + j)) PLUMOS_MAX_PATH = 0 ↔
            n.full.map tolower = s.map tolower) := by
  have hname := ShortName.holdsString hitem hapart
  refine ⟨hname, ?_, fun name s hs => ?_⟩
  · intro k₂ item₂ out₂ n₂ hitem₂ hapart₂ hne s hs hs₂
    have hname₂ := ShortName.holdsString hitem₂ hapart₂
    apply hne
    apply ShortName.full_injective
    exact (hname₂.unique hs₂).trans (hs.unique hname)
  · have hlen := n.full_length
    exact hname.istrncmp_iff hs (by simp only [PLUMOS_MAX_PATH]; omega)

/-- The file `A.B`. -/
def ShortName.aDotB : ShortName :=
  ⟨[0x41], [0x42], by decide, by decide, by decide, by simp [IsNameByte], by simp [IsNameByte]⟩

/-- The name of an entry in the heap, in a buffer on the stack. -/
theorem fat16GetFullRelativeFilename_exact_aDotB :
    HoldsString (Kernel.withFilename { Kernel.boot Disk.blank with
        mem := writeBytes (fun _ => 0) 0x1000000 ShortName.aDotB.fields } 0x1000000 0x1FFF00)
      0x1FFF00 [0x41, 0x2E, 0x42] :=
  (fat16GetFullRelativeFilename_exact { Kernel.boot Disk.blank with
      mem := writeBytes (fun _ => 0) 0x1000000 ShortName.aDotB.fields } 0x1000000 0x1FFF00
    ShortName.aDotB (readBytes_writeBytes _ _ _) (Or.inr (by decide))).1

end PlumOS
