import PlumOS.Fs.PathParts
import PlumOS.Lib.Avoidance

/-!
# The accesses of the path parser

The parser once more, one character at a time. The path is the list of its bytes up to and
with its NUL, so a read at the end of the list is a read behind the NUL; a part is stored
byte for byte into its buffer of `PLUMOS_MAX_PATH` bytes. On every path that has a NUL this
is the parser of `PathParser`, and no access is out of bounds.

## Main definitions

- `readChar`, `pathPartStore` — one access, with its bounds
- `pathparserParseRead`

## Main results

- `pathparserParseRead_eq`, `pathparserParseRead_inBounds`
-/

namespace PlumOS

open StateExcept

/-- `*ptr`, for the string that `ptr` points to. -/
def readChar : (s : List UInt8) → KM UInt8
  | [] => fails .outOfBounds
  | c :: _ => pure c

/-- `result_path_part[i] = c`. -/
def pathPartStore (result_path_part i : Nat) (c : UInt8) : KM PUnit :=
  if result_path_part = 0 then fails .badPointer
  else if PLUMOS_MAX_PATH ≤ i then fails .outOfBounds
  else storeBytes (result_path_part + i) [c]

/-- `strlen`. -/
def strlenRead : (s : List UInt8) → KM Nat
  | [] => fails .outOfBounds
  | c :: s =>
    if c = 0 then pure 0
    else do
      let count ← strlenRead s
      pure (count + 1)

/-- `strnlen`. -/
def strnlenRead : (max : Nat) → (s : List UInt8) → KM Nat
  | 0, _ => pure 0
  | _ + 1, [] => fails .outOfBounds
  | max + 1, c :: s =>
    if c = 0 then pure 0
    else do
      let count ← strnlenRead max s
      pure (count + 1)

/-- `pathparser_path_valid_format`. A character is read when those before it are right. -/
def pathparserPathValidFormatRead (filename : List UInt8) : KM Bool := do
  let len ← strnlenRead PLUMOS_MAX_PATH filename
  if len < 3 then pure false
  else do
    let c₀ ← readChar filename
    if isdigit c₀ = false then pure false
    else do
      let c₁ ← readChar (filename.drop 1)
      if c₁ ≠ 0x3A then pure false
      else do
        let c₂ ← readChar (filename.drop 2)
        pure (c₂ == 0x2F)

/-- `pathparser_get_drive_by_path`. -/
def pathparserGetDriveByPathRead (path : List UInt8) : KM (Int × List UInt8) := do
  let valid ← pathparserPathValidFormatRead path
  if !valid then pure (-EBADPATH, path)
  else do
    let c ← readChar path
    pure (toenumericdigit c, path.drop 3)

/-- The loop of `pathparser_get_path_part`: the index `i` and the path afterwards. -/
def pathparserGetPathPartLoop (result_path_part : Nat) : (i : Nat) → (path : List UInt8) →
    KM (Nat × List UInt8)
  | _, [] => fails .outOfBounds
  | i, c :: path =>
    if isPartChar c then do
      pathPartStore result_path_part i c
      pathparserGetPathPartLoop result_path_part (i + 1) path
    else pure (i, c :: path)

/-- `pathparser_get_path_part`. -/
def pathparserGetPathPartRead (path : List UInt8) : KM (Nat × List UInt8) := do
  let result_path_part ← kzalloc PLUMOS_MAX_PATH
  let r ← pathparserGetPathPartLoop result_path_part 0 path
  let c ← readChar r.2
  let path := if c = 0x2F then r.2.drop 1 else r.2
  if r.1 = 0 then do
    kfree result_path_part
    pure (0, path)
  else pure (result_path_part, path)

/-- `pathparser_parse_path_part`. -/
def pathparserParsePathPartRead (last_part : Nat) (path : List UInt8) : KM (Nat × List UInt8) := do
  let r ← pathparserGetPathPartRead path
  if r.1 = 0 then pure (0, r.2)
  else do
    let part ← kzallocObj sizeofPathPart (.pathPart ⟨0, 0⟩)
    modifyPathPart part fun _ => ⟨r.1, 0⟩
    onlyIf (last_part ≠ 0) (modifyPathPart last_part fun p => { p with next := part })
    pure (part, r.2)

/-- The loop of `pathparser_parse`. -/
def pathparserParseLoopRead : (fuel part : Nat) → (path : List UInt8) → KM PUnit
  | 0, _, _ => fails .divergence
  | fuel + 1, part, path =>
    if part = 0 then pure ⟨⟩
    else do
      let r ← pathparserParsePathPartRead part path
      pathparserParseLoopRead fuel r.1 r.2

/-- `pathparser_parse`. -/
def pathparserParseRead (path : List UInt8) : KM Nat := do
  let len ← strlenRead path
  if PLUMOS_MAX_PATH < len then pure 0
  else do
    let r ← pathparserGetDriveByPathRead path
    if r.1 < 0 then pure 0
    else do
      let path_root ← pathparserCreateRoot r.1
      if path_root = 0 then pure 0
      else do
        let first ← pathparserParsePathPartRead 0 r.2
        if first.1 = 0 then pure path_root
        else do
          modifyPathRoot path_root fun r => { r with first := first.1 }
          let part ← pathparserParsePathPartRead first.1 first.2
          pathparserParseLoopRead (path.length + 1) part.1 part.2
          pure path_root

/-! ### The string functions -/

section Strings

variable {s : List UInt8}

theorem strlen_cons {c : UInt8} (hc : c ≠ 0) (s : List UInt8) :
    strlen (c :: s) = strlen s + 1 := by
  simp [strlen, hc]

theorem strlenRead_eq (h : 0 ∈ s) : strlenRead s = pure (strlen s) := by
  induction s with
  | nil => simp at h
  | cons c s ih =>
    unfold strlenRead
    by_cases hc : c = 0
    · subst hc
      rfl
    · have hs := (List.mem_cons.mp h).resolve_left (Ne.symm hc)
      rw [if_neg hc, ih hs, pure_bind, strlen_cons hc]

theorem strnlenRead_eq (h : 0 ∈ s) (max : Nat) : strnlenRead max s = pure (strnlen s max) := by
  induction max generalizing s with
  | zero =>
    unfold strnlenRead strnlen
    rw [Nat.min_zero]
  | succ max ih =>
    cases s with
    | nil => simp at h
    | cons c s =>
      unfold strnlenRead
      by_cases hc : c = 0
      · subst hc
        rfl
      · have hs := (List.mem_cons.mp h).resolve_left (Ne.symm hc)
        rw [if_neg hc, ih hs, pure_bind]
        unfold strnlen
        rw [strlen_cons hc, Nat.add_min_add_right]

theorem strlen_le_length (s : List UInt8) : strlen s ≤ s.length :=
  (List.takeWhile_prefix _).length_le

/-- A character of the string is read. -/
theorem readChar_drop {i : Nat} (hi : i < s.length) : readChar (s.drop i) = pure (charAt s i) := by
  rw [List.drop_eq_getElem_cons hi]
  unfold readChar charAt
  rw [List.getD_eq_getElem _ _ hi]

theorem pathparserPathValidFormatRead_eq (h : 0 ∈ s) :
    pathparserPathValidFormatRead s = pure (pathparserPathValidFormat s) := by
  unfold pathparserPathValidFormatRead
  rw [strnlenRead_eq h, pure_bind]
  unfold pathparserPathValidFormat
  by_cases hlen : strnlen s PLUMOS_MAX_PATH < 3
  · rw [if_pos hlen]
    simp [Nat.not_le.mpr hlen]
  · have h3 : 3 ≤ s.length := by
      have := strlen_le_length s
      unfold strnlen at hlen
      omega
    have hread := readChar_drop (s := s) (i := 0) (by omega)
    rw [List.drop_zero] at hread
    rw [if_neg hlen, hread, pure_bind, readChar_drop (by omega), readChar_drop (by omega)]
    simp only [Nat.not_lt.mp hlen, decide_true, Bool.true_and, pure_bind]
    cases isdigit (charAt s 0) with
    | false => rfl
    | true =>
      by_cases hcolon : charAt s 1 = 0x3A
      · simp [hcolon]
      · have hbeq : (charAt s 1 == 0x3A) = false := beq_eq_false_iff_ne.mpr hcolon
        rw [if_pos hcolon, hbeq]
        rfl

theorem pathparserGetDriveByPathRead_eq (h : 0 ∈ s) :
    pathparserGetDriveByPathRead s = pure (pathparserGetDriveByPath s) := by
  unfold pathparserGetDriveByPathRead
  rw [pathparserPathValidFormatRead_eq h, pure_bind]
  unfold pathparserGetDriveByPath
  cases hvalid : pathparserPathValidFormat s with
  | false => rfl
  | true =>
    have hread := readChar_drop (s := s) (i := 0)
      (by have := strlen_le_length s; have := pathparserPathValidFormat_length hvalid; omega)
    rw [List.drop_zero] at hread
    rw [hread]
    rfl

end Strings

/-! ### The parts -/

section Parts

variable {path : List UInt8}

theorem storeBytes_nil (p : Nat) : storeBytes p [] = pure ⟨⟩ := by
  funext k
  change Except.ok (PUnit.unit, { k with mem := writeBytes k.mem p [] }) = Except.ok (⟨⟩, k)
  rw [writeBytes_nil]

theorem storeBytes_cons (p : Nat) (c : UInt8) (l : List UInt8) :
    storeBytes p (c :: l) = (do storeBytes p [c]; storeBytes (p + 1) l) := by
  funext k
  change Except.ok (PUnit.unit, { k with mem := writeBytes k.mem p (c :: l) }) =
    Except.ok (⟨⟩, { k with mem := writeBytes (writeBytes k.mem p [c]) (p + [c].length) l })
  rw [writeBytes_append]
  rfl

/-- What is behind the characters of a part: the string goes on with a `/` or its NUL. -/
theorem dropWhile_isPartChar_ne_nil (h : 0 ∈ path) : path.dropWhile isPartChar ≠ [] := by
  intro hnil
  have hall := List.dropWhile_eq_nil_iff.mp hnil 0 h
  exact absurd hall (by decide)

/-- The loop stores the characters of the part. -/
theorem pathparserGetPathPartLoop_eq {buffer : Nat} (hne : buffer ≠ 0) (h : 0 ∈ path) {i : Nat}
    (hlen : i + (path.takeWhile isPartChar).length ≤ PLUMOS_MAX_PATH) :
    pathparserGetPathPartLoop buffer i path = (do
      storeBytes (buffer + i) (path.takeWhile isPartChar)
      pure (i + (path.takeWhile isPartChar).length, path.dropWhile isPartChar)) := by
  induction path generalizing i with
  | nil => simp at h
  | cons c path ih =>
    unfold pathparserGetPathPartLoop
    by_cases hpart : isPartChar c = true
    · rw [List.takeWhile_cons_of_pos hpart, List.length_cons] at hlen
      have hpath : 0 ∈ path :=
        (List.mem_cons.mp h).resolve_left (Ne.symm (isPartChar_iff.mp hpart).2)
      have hstore : pathPartStore buffer i c = storeBytes (buffer + i) [c] := by
        unfold pathPartStore
        rw [if_neg hne, if_neg (by omega)]
      rw [if_pos hpart, hstore, ih hpath (by omega), List.takeWhile_cons_of_pos hpart,
        List.dropWhile_cons_of_pos hpart, storeBytes_cons _ c (path.takeWhile isPartChar), bind_assoc, List.length_cons,
        Nat.add_assoc, Nat.add_assoc, Nat.add_comm 1]
    · rw [if_neg hpart, List.takeWhile_cons_of_neg hpart, List.dropWhile_cons_of_neg hpart,
        storeBytes_nil, pure_bind]
      rfl

/-- Without a buffer only an empty part is taken. -/
theorem pathparserGetPathPartLoop_zero (h : 0 ∈ path) (i : Nat) :
    pathparserGetPathPartLoop 0 i path =
      if path.takeWhile isPartChar = [] then pure (i, path) else fails .badPointer := by
  cases path with
  | nil => simp at h
  | cons c path =>
    unfold pathparserGetPathPartLoop
    by_cases hpart : isPartChar c = true
    · rw [if_pos hpart, List.takeWhile_cons_of_pos hpart, if_neg (List.cons_ne_nil _ _)]
      rfl
    · rw [if_neg hpart, List.takeWhile_cons_of_neg hpart, if_pos rfl]

/-- The end of the part is read, and one `/` is skipped. -/
theorem readChar_end {α : Type} (h : 0 ∈ path) (f : List UInt8 → KM α) :
    (do
      let c ← readChar (path.dropWhile isPartChar)
      f (if c = 0x2F then (path.dropWhile isPartChar).drop 1 else path.dropWhile isPartChar)) =
    f (pathRest path) := by
  unfold pathRest
  cases hend : path.dropWhile isPartChar with
  | nil => exact absurd hend (dropWhile_isPartChar_ne_nil h)
  | cons c rest =>
    unfold readChar
    rw [pure_bind]
    by_cases hc : c = 0x2F
    · subst hc
      rfl
    · rw [if_neg hc]
      congr 1
      split
      · next heq =>
        cases heq
        exact absurd rfl hc
      · rfl

theorem pathparserGetPathPartRead_eq (h : 0 ∈ path)
    (hlen : (path.takeWhile isPartChar).length ≤ PLUMOS_MAX_PATH) :
    pathparserGetPathPartRead path = pathparserGetPathPart path := by
  unfold pathparserGetPathPartRead pathparserGetPathPart
  congr 1
  funext buffer
  by_cases hnil : path.takeWhile isPartChar = []
  · have hdrop : path.dropWhile isPartChar = path := by
      have := List.takeWhile_append_dropWhile (p := isPartChar) (l := path)
      rwa [hnil, List.nil_append] at this
    have hloop : pathparserGetPathPartLoop buffer 0 path =
        pure (0, path.dropWhile isPartChar) := by
      by_cases hbuffer : buffer = 0
      · subst hbuffer
        rw [pathparserGetPathPartLoop_zero h, if_pos hnil, hdrop]
      · rw [pathparserGetPathPartLoop_eq hbuffer h (by omega), hnil, storeBytes_nil, pure_bind]
        rfl
    rw [hloop, pure_bind, if_pos hnil]
    exact readChar_end h fun path => do
      kfree buffer
      pure (0, path)
  · rw [if_neg hnil]
    by_cases hbuffer : buffer = 0
    · subst hbuffer
      rw [pathparserGetPathPartLoop_zero h, if_neg hnil, if_pos rfl]
      rfl
    · have hpos : 0 + (path.takeWhile isPartChar).length ≠ 0 := by
        rw [Nat.zero_add]
        exact fun h0 => hnil (List.eq_nil_of_length_eq_zero h0)
      rw [pathparserGetPathPartLoop_eq hbuffer h (by omega), if_neg hbuffer,
        if_neg (Nat.not_lt.mpr hlen), bind_assoc, Nat.add_zero]
      congr 1
      funext _
      rw [pure_bind]
      simp only [if_neg hpos]
      exact readChar_end h fun path => pure (buffer, path)

theorem zero_mem_pathRest (h : 0 ∈ path) : 0 ∈ pathRest path := by
  have hdrop : 0 ∈ path.dropWhile isPartChar := by
    rw [← List.takeWhile_append_dropWhile (p := isPartChar) (l := path), List.mem_append] at h
    exact h.resolve_left fun hmem => (isPartChar_iff.mp (List.mem_takeWhile_imp hmem)).2 rfl
  unfold pathRest
  split
  · next heq =>
    rw [heq] at hdrop
    exact (List.mem_cons.mp hdrop).resolve_left (by decide)
  · exact hdrop

theorem pathparserParsePathPartRead_eq (h : 0 ∈ path)
    (hlen : (path.takeWhile isPartChar).length ≤ PLUMOS_MAX_PATH) (last_part : Nat) :
    pathparserParsePathPartRead last_part path = pathparserParsePathPart last_part path := by
  unfold pathparserParsePathPartRead
  rw [pathparserGetPathPartRead_eq h hlen]
  rfl

/-- What is left of the path behind a part. -/
theorem pathparserParsePathPart_rest (last_part : Nat) (path : List UInt8) (k : Kernel) :
    Ensures (pathparserParsePathPart last_part path) k fun r _ => r.2 = pathRest path := by
  refine .bind (R := fun r _ => r.2 = pathRest path) ?_ fun r k₁ hr => ?_
  · refine .bind (R := fun _ _ => True) (fun _ _ _ => trivial) fun buffer k₁ _ => ?_
    dsimp only
    split
    · exact .bind (R := fun _ _ => True) (fun _ _ _ => trivial) fun _ _ _ => .pure rfl
    split
    · exact .fails
    split
    · exact .fails
    · exact .bind (R := fun _ _ => True) (fun _ _ _ => trivial) fun _ _ _ => .pure rfl
  · split
    · exact .pure hr
    refine .bind (R := fun _ _ => True) (fun _ _ _ => trivial) fun _ _ _ => ?_
    refine .bind (R := fun _ _ => True) (fun _ _ _ => trivial) fun _ _ _ => ?_
    exact .bind (R := fun _ _ => True) (fun _ _ _ => trivial) fun _ _ _ => .pure hr

theorem pathparserParseLoopRead_eq {fuel part : Nat} (h : 0 ∈ path)
    (hlen : (characters path).length ≤ PLUMOS_MAX_PATH) (k : Kernel) :
    pathparserParseLoopRead fuel part path k = pathparserParseLoop fuel part path k := by
  induction fuel generalizing part path k with
  | zero => rfl
  | succ fuel ih =>
    unfold pathparserParseLoopRead pathparserParseLoop
    split
    · rfl
    rw [pathparserParsePathPartRead_eq h ((takeWhile_isPartChar_length path).trans hlen)]
    refine Ensures.bind_congr (pathparserParsePathPart_rest part path k) ?_
    intro r k' hr
    rw [hr]
    exact ih (zero_mem_pathRest h) ((characters_pathRest_length path).trans hlen) k'

end Parts

/-! ### pathparser_parse -/

section Parse

variable {path : List UInt8}

theorem characters_length (path : List UInt8) : (characters path).length = strlen path := rfl

/-- The rest of the path behind the drive. -/
theorem pathparserGetDriveByPath_cases (path : List UInt8) :
    (pathparserGetDriveByPath path).1 < 0 ∨ pathparserPathValidFormat path = true ∧
      pathparserGetDriveByPath path = (toenumericdigit (charAt path 0), path.drop 3) := by
  unfold pathparserGetDriveByPath
  cases pathparserPathValidFormat path with
  | false => exact .inl (show (-EBADPATH : Int) < 0 by decide)
  | true => exact .inr ⟨rfl, rfl⟩

theorem zero_mem_drop (hvalid : pathparserPathValidFormat path = true) (h : 0 ∈ path) :
    0 ∈ path.drop 3 := by
  have hlen := pathparserPathValidFormat_length hvalid
  rw [← List.take_append_drop 3 path, List.mem_append] at h
  refine h.resolve_left fun hmem => ?_
  have htake : path.take 3 <+: characters path :=
    List.prefix_of_prefix_length_le (List.take_prefix 3 path) (List.takeWhile_prefix _)
      ((List.length_take_le 3 path).trans hlen)
  have hne := List.mem_takeWhile_imp (htake.subset hmem)
  exact absurd hne (by decide)

/-- On every path with a NUL the parser that looks at the bounds does what the parser does. -/
theorem pathparserParseRead_eq (h : 0 ∈ path) (k : Kernel) :
    pathparserParseRead path k = pathparserParse path k := by
  unfold pathparserParseRead pathparserParse
  rw [strlenRead_eq h, pure_bind]
  by_cases hlong : PLUMOS_MAX_PATH < strlen path
  · rw [if_pos hlong, if_pos hlong]
  rw [if_neg hlong, if_neg hlong, pathparserGetDriveByPathRead_eq h, pure_bind]
  rcases pathparserGetDriveByPath_cases path with hbad | ⟨hvalid, hdrive⟩
  · rw [if_pos hbad, if_pos hbad]
  split
  · rfl
  have hrest : (pathparserGetDriveByPath path).2 = path.drop 3 := by rw [hdrive]
  have hzero := zero_mem_drop hvalid h
  have hlen : (characters (path.drop 3)).length ≤ PLUMOS_MAX_PATH := by
    rw [characters_drop hvalid, List.length_drop, characters_length]
    omega
  rw [hrest]
  refine Ensures.bind_congr (R := fun _ _ => True) (fun _ _ _ => trivial) fun root k₁ _ => ?_
  split
  · rfl
  rw [pathparserParsePathPartRead_eq hzero ((takeWhile_isPartChar_length _).trans hlen)]
  refine Ensures.bind_congr (pathparserParsePathPart_rest _ _ _) fun first k₂ hfirst => ?_
  split
  · rfl
  have hzero₁ := zero_mem_pathRest hzero
  have hlen₁ := (characters_pathRest_length (path.drop 3)).trans hlen
  refine Ensures.bind_congr (R := fun _ _ => True) (fun _ _ _ => trivial) fun _ k₃ _ => ?_
  rw [hfirst, pathparserParsePathPartRead_eq hzero₁ ((takeWhile_isPartChar_length _).trans hlen₁)]
  refine Ensures.bind_congr (pathparserParsePathPart_rest _ _ _) fun part k₄ hpart => ?_
  rw [hpart]
  have hloop : pathparserParseLoopRead (path.length + 1) part.1 (pathRest (pathRest (path.drop 3))) k₄
      = pathparserParseLoop (path.length + 1) part.1 (pathRest (pathRest (path.drop 3))) k₄ :=
    pathparserParseLoopRead_eq (zero_mem_pathRest hzero₁)
      ((characters_pathRest_length _).trans hlen₁) k₄
  cases hrun : pathparserParseLoop (path.length + 1) part.1
      (pathRest (pathRest (path.drop 3))) k₄ with
  | error e => rw [bind_of_error (hloop.trans hrun), bind_of_error hrun]
  | ok r => rw [bind_of_ok (hloop.trans hrun), bind_of_ok hrun]

end Parse

/-! ### The bounds -/

section Bounds

instance deref_inBounds {α : Type} (sel : Obj → Option α) (p : Nat) :
    NeverFails Fault.outOfBounds (deref sel p) where
  avoids k := by
    unfold Avoids deref pointerFault
    split
    · rintro ⟨⟩
    · split
      · rintro ⟨⟩
      · split
        · rintro ⟨⟩
        · rintro ⟨⟩

instance storeObj_inBounds (p : Nat) (o : Obj) : NeverFails Fault.outOfBounds (storeObj p o) :=
  inferInstanceAs (NeverFails _ (modifies _))

instance storeBytes_inBounds (p : Nat) (bytes : List UInt8) :
    NeverFails Fault.outOfBounds (storeBytes p bytes) := inferInstanceAs (NeverFails _ (modifies _))

instance kfree_inBounds (p : Nat) : NeverFails Fault.outOfBounds (kfree p) :=
  inferInstanceAs (NeverFails _ (modifies _))

instance modifyPathPart_inBounds (p : Nat) (f : PathPart → PathPart) :
    NeverFails Fault.outOfBounds (modifyPathPart p f) := by
  unfold modifyPathPart
  infer_instance

instance modifyPathRoot_inBounds (p : Nat) (f : PathRoot → PathRoot) :
    NeverFails Fault.outOfBounds (modifyPathRoot p f) := by
  unfold modifyPathRoot
  infer_instance

theorem heapMalloc_inBounds (heap : Heap) (size : Nat) :
    heapMalloc heap size ≠ .error .outOfBounds := by
  unfold heapMalloc heapMallocBlcoks heapMarkBlocksTaken
  dsimp only
  split
  · rintro ⟨⟩
  · split
    · next heq =>
      split at heq
      · cases heq
        rintro ⟨⟩
      · cases heq
    · rintro ⟨⟩

instance kmalloc_inBounds (size : Nat) : NeverFails Fault.outOfBounds (kmalloc size) where
  avoids k := by
    have hmalloc := heapMalloc_inBounds k.heap size
    unfold Avoids kmalloc
    cases hrun : heapMalloc k.heap size with
    | error f =>
      rintro ⟨⟩
      exact hmalloc hrun
    | ok r => rintro ⟨⟩

instance memsetZero_inBounds (ptr size : Nat) :
    NeverFails Fault.outOfBounds (memsetZero ptr size) where
  avoids k := by
    unfold Avoids memsetZero
    split
    · rintro ⟨⟩
    · rintro ⟨⟩

instance kzalloc_inBounds (size : Nat) : NeverFails Fault.outOfBounds (kzalloc size) := by
  unfold kzalloc
  infer_instance

instance kzallocObj_inBounds (size : Nat) (zero : Obj) :
    NeverFails Fault.outOfBounds (kzallocObj size zero) := by
  unfold kzallocObj
  infer_instance

variable {path : List UInt8}

theorem pathparserParsePathPart_inBounds
    (hlen : (path.takeWhile isPartChar).length ≤ PLUMOS_MAX_PATH) (last_part : Nat) :
    NeverFails Fault.outOfBounds (pathparserParsePathPart last_part path) := by
  have hpart : NeverFails Fault.outOfBounds (pathparserGetPathPart path) := by
    have hnull : NeverFails Fault.outOfBounds
        (fails Fault.badPointer : KM (Nat × List UInt8)) := .fails (by decide)
    unfold pathparserGetPathPart
    simp only [if_neg (Nat.not_lt.mpr hlen)]
    infer_instance
  unfold pathparserParsePathPart
  infer_instance

theorem pathparserParseLoop_inBounds {fuel part : Nat}
    (hlen : (characters path).length ≤ PLUMOS_MAX_PATH) (k : Kernel) :
    Avoids .outOfBounds (pathparserParseLoop fuel part path) k := by
  induction fuel generalizing part path k with
  | zero => rintro ⟨⟩
  | succ fuel ih =>
    unfold pathparserParseLoop
    split
    · rintro ⟨⟩
    have hpart := pathparserParsePathPart_inBounds
      ((takeWhile_isPartChar_length path).trans hlen) part
    refine .bind (hpart.avoids k) (pathparserParsePathPart_rest part path k) ?_
    intro r k' hr
    rw [hr]
    exact ih ((characters_pathRest_length path).trans hlen) k'

theorem pathparserParse_inBounds (path : List UInt8) (k : Kernel) :
    Avoids .outOfBounds (pathparserParse path) k := by
  unfold pathparserParse
  split
  · rintro ⟨⟩
  next hlong =>
  rcases pathparserGetDriveByPath_cases path with hbad | ⟨hvalid, hdrive⟩
  · rw [if_pos hbad]
    rintro ⟨⟩
  rw [hdrive]
  dsimp only
  split
  · rintro ⟨⟩
  have hlen : (characters (path.drop 3)).length ≤ PLUMOS_MAX_PATH := by
    rw [characters_drop hvalid, List.length_drop, characters_length]
    omega
  have hroot : NeverFails Fault.outOfBounds
      (pathparserCreateRoot (toenumericdigit (charAt path 0))) := by
    unfold pathparserCreateRoot
    infer_instance
  refine .bind (R := fun _ _ => True) (hroot.avoids k) (fun _ _ _ => trivial) fun root k₁ _ => ?_
  split
  · rintro ⟨⟩
  have hfirst := pathparserParsePathPart_inBounds ((takeWhile_isPartChar_length _).trans hlen) 0
  refine .bind (hfirst.avoids k₁) (pathparserParsePathPart_rest _ _ _) fun first k₂ hrest => ?_
  split
  · rintro ⟨⟩
  have hlen₁ := (characters_pathRest_length (path.drop 3)).trans hlen
  refine .bind (R := fun _ _ => True) (NeverFails.run _ _ k₂) (fun _ _ _ => trivial)
    fun _ k₃ _ => ?_
  rw [hrest]
  have hpart := pathparserParsePathPart_inBounds ((takeWhile_isPartChar_length _).trans hlen₁)
    first.1
  refine .bind (hpart.avoids k₃) (pathparserParsePathPart_rest _ _ _) fun part k₄ hrest₁ => ?_
  rw [hrest₁]
  refine .bind (R := fun _ _ => True)
    (pathparserParseLoop_inBounds ((characters_pathRest_length _).trans hlen₁) k₄)
    (fun _ _ _ => trivial) fun _ k₅ _ => ?_
  rintro ⟨⟩

/-- No access of the parser is out of bounds, on any path with a NUL. -/
theorem pathparserParseRead_inBounds (h : 0 ∈ path) (k : Kernel) :
    Avoids .outOfBounds (pathparserParseRead path) k := by
  unfold Avoids
  rw [pathparserParseRead_eq h]
  exact pathparserParse_inBounds path k

end Bounds

end PlumOS
