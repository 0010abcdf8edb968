import PlumOS.Fs.FileName
import PlumOS.Isr80h.Commands
import PlumOS.Task.StringCopy

/-!
# The path of a program

Commands 6 and 7 put `"0:/"` and the name of a program into a local array of
`PLUMOS_MAX_PATH` bytes. Command 6 copies a name that was itself cut to that size, command 7
gives `strncpy` the size of the whole array, so both have three bytes too few for the
longest names.

## Main definitions

- `pathStore`, `strcpyPath`, `strncpyPath` — byte for byte, with the bounds of the array
- `isr80hCommand6Path`, `isr80hCommand7Path`
- `BuildsPath` — what a caller expects

## Main results

- `programPath_eq_strcpy`, `programPath_eq_strncpy`, `programPath_built_iff`
-/

namespace PlumOS

open StateExcept

/-! ### The array -/

/-- Programs over the bytes of the array `path`. -/
abbrev PathM := StateT (Nat → UInt8) (Except Fault)

/-- `path[i] = c`. -/
def pathStore (i : Nat) (c : UInt8) : PathM PUnit := fun path =>
  if i < PLUMOS_MAX_PATH then .ok (⟨⟩, writeBytes path i [c]) else .error .outOfBounds

/-- `strcpy(path + dest, src)`; the string `src` ends with the list. -/
def strcpyPath : (src : List UInt8) → (dest : Nat) → PathM PUnit
  | [], dest => pathStore dest 0x00
  | c :: src, dest =>
    if c = 0x00 then pathStore dest 0x00
    else do
      pathStore dest c
      strcpyPath src (dest + 1)

/-- The loop of `strncpy(path + dest, src, count)`, with `fuel` characters left. -/
def strncpyPathLoop : (fuel : Nat) → (src : List UInt8) → (dest : Nat) → PathM PUnit
  | 0, _, dest => pathStore dest 0x00
  | _ + 1, [], dest => pathStore dest 0x00
  | fuel + 1, c :: src, dest =>
    if c = 0x00 then pathStore dest 0x00
    else do
      pathStore dest c
      strncpyPathLoop fuel src (dest + 1)

/-- `strncpy(path + dest, src, count)`: the terminator is counted. -/
def strncpyPath (src : List UInt8) (dest count : Nat) : PathM PUnit :=
  strncpyPathLoop (count - 1) src dest

/-- `"0:/"`. -/
def programPrefix : List UInt8 := [0x30, 0x3a, 0x2f]

/-- The path in `isr80h_command6_process_load_start`: two `strcpy`. -/
def isr80hCommand6Path (filename : List UInt8) : PathM PUnit := do
  strcpyPath programPrefix 0
  strcpyPath filename 3

/-- The path in `isr80h_command7_invoke_system_command`: the count is `sizeof(path)`. -/
def isr80hCommand7Path (program_name : List UInt8) : PathM PUnit := do
  strcpyPath programPrefix 0
  strncpyPath program_name 3 PLUMOS_MAX_PATH

section Array

variable {src : List UInt8} {dest : Nat} {path : Nat → UInt8}

/-- A string is copied when there is room for it and its terminator. -/
theorem strcpyPath_eq (hnul : 0x00 ∉ src) : strcpyPath src dest path =
    if dest + src.length < PLUMOS_MAX_PATH then .ok (⟨⟩, writeBytes path dest (src ++ [0x00]))
    else .error .outOfBounds := by
  induction src generalizing dest path with
  | nil => rfl
  | cons c src ih =>
    rw [List.mem_cons, not_or] at hnul
    unfold strcpyPath
    rw [if_neg (Ne.symm hnul.1), List.length_cons]
    by_cases hdest : dest < PLUMOS_MAX_PATH
    · have hstore : pathStore dest c path = .ok (⟨⟩, writeBytes path dest [c]) := if_pos hdest
      rw [bind_of_ok hstore, ih hnul.2]
      congr 1
      · rw [Nat.add_assoc, Nat.add_comm 1]
      · rw [show c :: src ++ [0x00] = [c] ++ (src ++ [0x00]) from rfl,
          ← writeBytes_append path dest [c]]
        rfl
    · have hstore : pathStore dest c path = .error .outOfBounds := if_neg hdest
      rw [bind_of_error hstore, if_neg (by omega)]

/-- `strncpy` is `strcpy` of the first `count - 1` characters. -/
theorem strncpyPath_eq (hnul : 0x00 ∉ src) (count : Nat) :
    strncpyPath src dest count = strcpyPath (src.take (count - 1)) dest := by
  unfold strncpyPath
  generalize count - 1 = fuel
  induction src generalizing dest fuel with
  | nil => cases fuel <;> rfl
  | cons c src ih =>
    rw [List.mem_cons, not_or] at hnul
    cases fuel with
    | zero => rfl
    | succ fuel =>
      unfold strncpyPathLoop
      rw [List.take_succ_cons]
      unfold strcpyPath
      rw [if_neg (Ne.symm hnul.1), if_neg (Ne.symm hnul.1), ih hnul.2]

/-- The prefix and a name behind it. -/
theorem isr80hCommand6Path_eq {filename : List UInt8} (hnul : 0x00 ∉ filename) :
    isr80hCommand6Path filename path =
      if 3 + filename.length < PLUMOS_MAX_PATH then
        .ok (⟨⟩, writeBytes path 0 (programPrefix ++ filename ++ [0x00]))
      else .error .outOfBounds := by
  have hprefix : strcpyPath programPrefix 0 path =
      .ok (⟨⟩, writeBytes path 0 (programPrefix ++ [0x00])) :=
    (strcpyPath_eq (by decide)).trans (if_pos (by decide))
  unfold isr80hCommand6Path
  rw [bind_of_ok hprefix, strcpyPath_eq hnul]
  congr 3
  rw [List.append_assoc]
  exact writeBytes_overwrite path 0 programPrefix [0x00] (filename ++ [0x00]) (by simp)

theorem isr80hCommand7Path_eq {program_name : List UInt8} (hnul : 0x00 ∉ program_name) :
    isr80hCommand7Path program_name =
      isr80hCommand6Path (program_name.take (PLUMOS_MAX_PATH - 1)) := by
  unfold isr80hCommand7Path isr80hCommand6Path
  rw [strncpyPath_eq hnul]

end Array

/-! ### The step of the commands -/

/-- The path that the commands go on with is the string in the array, as command 6 builds it
from the name that was copied. -/
theorem programPath_eq_strcpy {filename : List UInt8} (hnul : 0x00 ∉ filename)
    (path : Nat → UInt8) (k : Kernel) : programPath filename k =
      (isr80hCommand6Path filename path).map fun r => (readString r.2 0 PLUMOS_MAX_PATH, k) := by
  rw [isr80hCommand6Path_eq hnul]
  unfold programPath
  split
  · next hlong => rw [if_neg (by omega)]; rfl
  · next hshort =>
    rw [if_pos (by omega)]
    have hread : readString (writeBytes path 0 (programPrefix ++ filename ++ [0x00])) 0
        PLUMOS_MAX_PATH = programPrefix ++ filename := by
      refine readString_writeBytes ?_ ?_
      · rw [List.length_append]
        change 3 + filename.length ≤ _
        omega
      · rintro c hc rfl
        rcases List.mem_append.mp hc with hmem | hmem
        · exact absurd hmem (by decide)
        · exact hnul hmem
    exact congrArg (fun str => Except.ok (str, k)) hread.symm

/-- The same for command 7, which reads as many characters as `strncpy` does. -/
theorem programPath_eq_strncpy {program_name : List UInt8} (hnul : 0x00 ∉ program_name)
    (path : Nat → UInt8) (k : Kernel) :
    programPath (program_name.take (PLUMOS_MAX_PATH - 1)) k =
      (isr80hCommand7Path program_name path).map fun r =>
        (readString r.2 0 PLUMOS_MAX_PATH, k) := by
  rw [isr80hCommand7Path_eq hnul]
  exact programPath_eq_strcpy (fun hmem => hnul (List.mem_of_mem_take hmem)) path k

/-! ### Names -/

/-- `filename` is what `copy_string_from_task` delivers of the string `name` for a buffer of
`PLUMOS_MAX_PATH` bytes. -/
def CopiedName (name filename : List UInt8) : Prop :=
  StringFrom (fun i => (name ++ [0x00])[i]?) 0 (PLUMOS_MAX_PATH - 1) filename

/-- The program stores inside the array, and leaves `"0:/"`, a prefix of the name and a NUL
there. -/
def BuildsPath (build : PathM PUnit) (name : List UInt8) : Prop :=
  ∀ path, ∃ path' str, build path = .ok (⟨⟩, path') ∧ str <+: name ∧
    readBytes path' 0 (3 + str.length + 1) = programPrefix ++ str ++ [0x00]

/-- What is expected of both commands when a program passes `name`. -/
structure ProgramPaths (name : List UInt8) : Prop where
  command6 : ∀ filename, CopiedName name filename → BuildsPath (isr80hCommand6Path filename) name
  command7 : BuildsPath (isr80hCommand7Path name) name

section Names

variable {name filename : List UInt8}

/-- A copy of at most `n` characters is the first `n` characters. -/
theorem stringFrom_iff_take {byte : Nat → Option UInt8} {i n : Nat} {str : List UInt8}
    (hnul : 0x00 ∉ name) (hbyte : ∀ j ≤ name.length, byte (i + j) = (name ++ [0x00])[j]?) :
    StringFrom byte i n str ↔ str = name.take n := by
  induction name generalizing i n str with
  | nil =>
    have hend : byte i = some 0x00 := hbyte 0 le_rfl
    rw [List.take_nil]
    constructor
    · intro h
      cases h with
      | full => rfl
      | nul _ => rfl
      | cons hc hne _ => exact absurd (Option.some.inj (hc.symm.trans hend)) hne
    · rintro rfl
      cases n with
      | zero => exact .full
      | succ n => exact .nul hend
  | cons c name ih =>
    rw [List.mem_cons, not_or] at hnul
    have hfirst : byte i = some c := hbyte 0 (Nat.zero_le _)
    have hrest : ∀ {n str}, StringFrom byte (i + 1) n str ↔ str = name.take n :=
      ih hnul.2 fun j hj => by
        rw [Nat.add_assoc, Nat.add_comm 1]
        exact hbyte (j + 1) (Nat.succ_le_succ hj)
    constructor
    · intro h
      cases h with
      | full => rfl
      | nul h0 => exact absurd (Option.some.inj (h0.symm.trans hfirst)) hnul.1
      | cons hc _ hstr =>
        cases hc.symm.trans hfirst
        rw [List.take_succ_cons, hrest.mp hstr]
    · rintro rfl
      cases n with
      | zero => exact .full
      | succ n =>
        rw [List.take_succ_cons]
        exact .cons hfirst (Ne.symm hnul.1) (hrest.mpr rfl)

theorem copiedName_iff (hnul : 0x00 ∉ name) :
    CopiedName name filename ↔ filename = name.take (PLUMOS_MAX_PATH - 1) :=
  stringFrom_iff_take hnul fun j _ => by rw [Nat.zero_add]

/-- What `copy_string_from_task` copies when the task sees the string `name` at `virt`. -/
theorem copiedName_of_task {k : Kernel} {d virt : Nat} (hnul : 0x00 ∉ name)
    (hname : ∀ j ≤ name.length,
      k.userByte d (u32 ((virt + j : Nat) : Int)) = (name ++ [0x00])[j]?)
    (hcopy : StringFrom (fun i => k.userByte d (u32 ((virt + i : Nat) : Int))) 0
      (PLUMOS_MAX_PATH - 1) filename) : CopiedName name filename := by
  refine (copiedName_iff hnul).mpr ((stringFrom_iff_take hnul fun j hj => ?_).mp hcopy)
  rw [Nat.zero_add]
  exact hname j hj

/-- The path is built exactly when the part of the name that is copied leaves room for the
prefix and the NUL. -/
theorem buildsPath_iff {n : Nat} (hnul : 0x00 ∉ name) :
    BuildsPath (isr80hCommand6Path (name.take n)) name ↔
      3 + (name.take n).length < PLUMOS_MAX_PATH := by
  have heq : ∀ path, isr80hCommand6Path (name.take n) path = _ := fun path =>
    isr80hCommand6Path_eq fun hmem => hnul (List.mem_of_mem_take hmem)
  constructor
  · intro h
    obtain ⟨path', str, hrun, -⟩ := h fun _ => 0x00
    by_contra hlong
    rw [heq, if_neg hlong] at hrun
    cases hrun
  · intro hshort path
    refine ⟨_, name.take n, (heq path).trans (if_pos hshort), List.take_prefix n name, ?_⟩
    have hlen : 3 + (name.take n).length + 1 = (programPrefix ++ name.take n ++ [0x00]).length := by
      simp only [List.length_append]
      rfl
    rw [hlen, readBytes_writeBytes]

/-- For every name that a program passes: both commands build its path inside their arrays
exactly when it has at most 104 characters. -/
theorem programPaths_iff (hnul : 0x00 ∉ name) :
    ProgramPaths name ↔ name.length ≤ PLUMOS_MAX_PATH - 4 := by
  have hboth : ProgramPaths name ↔
      BuildsPath (isr80hCommand6Path (name.take (PLUMOS_MAX_PATH - 1))) name := by
    constructor
    · intro h
      exact h.command6 _ ((copiedName_iff hnul).mpr rfl)
    · intro h
      refine ⟨fun filename hcopy => ?_, ?_⟩
      · rwa [(copiedName_iff hnul).mp hcopy]
      · rwa [isr80hCommand7Path_eq hnul]
  rw [hboth, buildsPath_iff hnul, List.length_take]
  unfold PLUMOS_MAX_PATH
  omega

/-- `blank.elf`. -/
theorem programPaths_iff_blank : ProgramPaths [0x62, 0x6c, 0x61, 0x6e, 0x6b, 0x2e, 0x65, 0x6c, 0x66] :=
  (programPaths_iff (by decide)).mpr (by decide)

/-- A name of 105 characters: both commands store the NUL behind their arrays. -/
theorem programPaths_long : ∃ name : List UInt8, 0x00 ∉ name ∧ name.length = 105 ∧
    isr80hCommand6Path (name.take (PLUMOS_MAX_PATH - 1)) (fun _ => 0x00) = .error .outOfBounds ∧
    isr80hCommand7Path name (fun _ => 0x00) = .error .outOfBounds ∧ ¬ ProgramPaths name := by
  have hnul : 0x00 ∉ List.replicate 105 (0x61 : UInt8) := by decide
  have hrun : isr80hCommand7Path (List.replicate 105 0x61) (fun _ => 0x00) =
      .error .outOfBounds := by
    rw [isr80hCommand7Path_eq hnul]
    exact (isr80hCommand6Path_eq (by decide)).trans (if_neg (by decide))
  refine ⟨List.replicate 105 0x61, hnul, rfl, ?_, hrun, fun h => ?_⟩
  · rwa [← isr80hCommand7Path_eq hnul]
  · obtain ⟨path', str, hok, -⟩ := h.command7 fun _ => 0x00
    rw [hrun] at hok
    cases hok

end Names

end PlumOS
