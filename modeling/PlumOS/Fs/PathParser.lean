import PlumOS.Memory.KHeap

/-!
# The path parser

`fs/pparser.c`. A string is the list of its characters; it ends at its first NUL or,
if it has none, at the end of the list.

## Main definitions

- `pathparserParse` — from a path to the list of its parts
- `pathparserFree` — the release of such a list
-/

namespace PlumOS

open StateExcept

def sizeofPathRoot : Nat := 8
def sizeofPathPart : Nat := 8

/-- Character `i` of a string. -/
def charAt (s : List UInt8) (i : Nat) : UInt8 := s.getD i 0

/-- `strlen` of `string.c`. -/
def strlen (s : List UInt8) : Nat := (s.takeWhile fun c => c ≠ 0).length

/-- `strnlen`. -/
def strnlen (s : List UInt8) (max : Nat) : Nat := min (strlen s) max

/-- `isdigit`. -/
def isdigit (c : UInt8) : Bool := 48 ≤ c && c ≤ 57

/-- `toenumericdigit`. -/
def toenumericdigit (c : UInt8) : Int := (c.toNat : Int) - 48

/-- `pathparser_path_valid_format`. -/
def pathparserPathValidFormat (filename : List UInt8) : Bool :=
  let len := strnlen filename PLUMOS_MAX_PATH
  3 ≤ len && isdigit (charAt filename 0) && charAt filename 1 == 0x3A && charAt filename 2 == 0x2F

/-- `pathparser_get_drive_by_path`: the drive, or an error, and the rest of the path. -/
def pathparserGetDriveByPath (path : List UInt8) : Int × List UInt8 :=
  if !pathparserPathValidFormat path then (-EBADPATH, path)
  else (toenumericdigit (charAt path 0), path.drop 3)

def modifyPathRoot (p : Nat) (f : PathRoot → PathRoot) : KM PUnit := do
  let r ← deref Obj.pathRoot? p
  storeObj p (.pathRoot (f r))

def modifyPathPart (p : Nat) (f : PathPart → PathPart) : KM PUnit := do
  let r ← deref Obj.pathPart? p
  storeObj p (.pathPart (f r))

/-- `pathparser_create_root`. -/
def pathparserCreateRoot (drive_number : Int) : KM Nat := do
  let path_r ← kzallocObj sizeofPathRoot (.pathRoot ⟨0, 0⟩)
  modifyPathRoot path_r fun _ => ⟨drive_number, 0⟩
  pure path_r

/-- The characters of a path that belong to a part. -/
def isPartChar (c : UInt8) : Bool := c ≠ 0x2F && c ≠ 0

/-- What is left of `path` behind its first part and one `/`. -/
def pathRest (path : List UInt8) : List UInt8 :=
  match path.dropWhile isPartChar with
  | 0x2F :: rest => rest
  | rest => rest

/-- `pathparser_get_path_part`: the buffer with the part, and the rest of the path. -/
def pathparserGetPathPart (path : List UInt8) : KM (Nat × List UInt8) := do
  let result_path_part ← kzalloc PLUMOS_MAX_PATH
  let chars := path.takeWhile isPartChar
  if chars = [] then do
    kfree result_path_part
    pure (0, pathRest path)
  else if result_path_part = 0 then fails .badPointer
  else if PLUMOS_MAX_PATH < chars.length then fails .outOfBounds
  else do
    storeBytes result_path_part chars
    pure (result_path_part, pathRest path)

/-- `pathparser_parse_path_part`. -/
def pathparserParsePathPart (last_part : Nat) (path : List UInt8) : KM (Nat × List UInt8) := do
  let r ← pathparserGetPathPart path
  if r.1 = 0 then pure (0, r.2)
  else do
    let part ← kzallocObj sizeofPathPart (.pathPart ⟨0, 0⟩)
    modifyPathPart part fun _ => ⟨r.1, 0⟩
    onlyIf (last_part ≠ 0) (modifyPathPart last_part fun p => { p with next := part })
    pure (part, r.2)

/-- The loop of `pathparser_parse`. Each part takes a character of the path. -/
def pathparserParseLoop : (fuel part : Nat) → (path : List UInt8) → KM PUnit
  | 0, _, _ => fails .divergence
  | fuel + 1, part, path =>
    if part = 0 then pure ⟨⟩
    else do
      let r ← pathparserParsePathPart part path
      pathparserParseLoop fuel r.1 r.2

/-- `pathparser_parse`. Its second parameter is not used. -/
def pathparserParse (path : List UInt8) : KM Nat :=
  if PLUMOS_MAX_PATH < strlen path then pure 0
  else
    let r := pathparserGetDriveByPath path
    if r.1 < 0 then pure 0
    else do
      let path_root ← pathparserCreateRoot r.1
      if path_root = 0 then pure 0
      else do
        let first ← pathparserParsePathPart 0 r.2
        if first.1 = 0 then pure path_root
        else do
          modifyPathRoot path_root fun r => { r with first := first.1 }
          let part ← pathparserParsePathPart first.1 first.2
          pathparserParseLoop (path.length + 1) part.1 part.2
          pure path_root

/-- The loop of `pathparser_free`. -/
def pathparserFreeLoop : (fuel part : Nat) → KM PUnit
  | 0, _ => fails .divergence
  | fuel + 1, part =>
    if part = 0 then pure ⟨⟩
    else do
      let p ← deref Obj.pathPart? part
      kfree p.part
      kfree part
      pathparserFreeLoop fuel p.next

/-- `pathparser_free`. A list of more parts than there are blocks in the address
space has a cycle. -/
def pathparserFree (root : Nat) : KM PUnit := do
  let r ← deref Obj.pathRoot? root
  pathparserFreeLoop 0x100000 r.first
  kfree root

end PlumOS
