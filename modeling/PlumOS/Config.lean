import Mathlib.Data.Int.Basic
import Mathlib.Tactic.Common

/-!
# Constants and machine integers

The constants of `config.h`, `status.h` and `paging.h` that the model uses, the
two's complement readings of a 32-bit word, and the ways a C function can go
wrong without returning.
-/

namespace PlumOS

/-- Why a call has no result: the C code has no defined behaviour there, or does
not come back. -/
inductive Fault
  /-- A pointer is dereferenced that is NULL or an error code. -/
  | badPointer
  /-- A pointer is dereferenced whose memory was released or holds another type. -/
  | stalePointer
  /-- A local variable is read before anything was stored in it. -/
  | uninitialised
  /-- A local array is indexed outside its bounds. -/
  | outOfBounds
  /-- A write goes over the kernel's own image or its structures. -/
  | wildWrite
  /-- A division by zero. -/
  | divByZero
  /-- A loop or a recursion that never ends. -/
  | divergence
  /-- `panic` was called. -/
  | panic
  deriving DecidableEq, Repr

/-- The `int` with the same low 32 bits. -/
def i32 (x : Int) : Int := (x + 0x80000000) % 0x100000000 - 0x80000000

/-- The `uint32_t` with the same low 32 bits. -/
def u32 (x : Int) : Nat := (x % 0x100000000).toNat

theorem i32_mem (x : Int) : -0x80000000 ≤ i32 x ∧ i32 x < 0x80000000 := by
  unfold i32
  omega

theorem i32_of_range {x : Int} (h₁ : -0x80000000 ≤ x) (h₂ : x < 0x80000000) : i32 x = x := by
  unfold i32
  omega

theorem i32_add_left (x y : Int) : i32 (i32 x + y) = i32 (x + y) := by
  unfold i32
  omega

theorem u32_of_range {x : Int} (h₁ : 0 ≤ x) (h₂ : x < 0x100000000) : u32 x = x.toNat := by
  unfold u32
  rw [Int.emod_eq_of_lt h₁ h₂]

theorem u32_natCast {n : Nat} (h : n < 0x100000000) : u32 (n : Int) = n := by
  rw [u32_of_range (by omega) (by omega), Int.toNat_natCast]

theorem u32_lt (x : Int) : u32 x < 0x100000000 := by
  unfold u32
  omega

/-! ### status.h -/

def PLUMOS_ALL_OK : Int := 0
def EIO : Int := 1
def EINVARG : Int := 2
def ENOMEM : Int := 3
def EBADPATH : Int := 4
def EFSNOTUS : Int := 5
def ERDONLY : Int := 6
def EUNIMP : Int := 7
def EISTKN : Int := 8
def EINVFORMAT : Int := 9

/-! ### kernel.h -/

/-- `ERROR(value)`: a status as a pointer. -/
def ERROR (value : Int) : Nat := u32 value

/-- `ERROR_I(value)`: a pointer as a status. -/
def ERROR_I (ptr : Nat) : Int := i32 ptr

/-- `ISERR(value)` of a pointer. -/
def ISERR (ptr : Nat) : Bool := decide (ERROR_I ptr < 0)

/-- What is wrong with a pointer that no structure is at. -/
def pointerFault (ptr : Nat) : Fault := if ptr = 0 ∨ ISERR ptr then .badPointer else .stalePointer

/-! ### config.h -/

def PLUMOS_HEAP_SIZE_BYTES : Nat := 0x6400000
def PLUMOS_HEAP_BLOCK_SIZE : Nat := 4096
def PLUMOS_HEAP_ADDRESS : Nat := 0x01000000
def PLUMOS_SECTOR_SIZE : Nat := 512
def PLUMOS_MAX_FILE_DESCRIPTORS : Nat := 512
def PLUMOS_MAX_PATH : Nat := 108
def PLUMOS_PROGRAM_VIRTUAL_ADDRESS : Nat := 0x400000
def PLUMOS_USER_PROGRAM_STACK_SIZE : Nat := 1024 * 16
def PLUMOS_PROGRAM_VIRTUAL_STACK_ADDRESS_START : Nat := 0x3FF000
def PLUMOS_PROGRAM_VIRTUAL_STACK_ADDRESS_END : Nat :=
  PLUMOS_PROGRAM_VIRTUAL_STACK_ADDRESS_START - PLUMOS_USER_PROGRAM_STACK_SIZE
def PLUMOS_MAX_PROGRAM_ALLOCATIONS : Nat := 1024
def PLUMOS_MAX_PROCESSES : Nat := 12
def PLUMOS_KEYBOARD_BUFFER_SIZE : Nat := 1024
def PLUMOS_TOTAL_INTERRUPTS : Nat := 512
def PLUMOS_MAX_ISR80H_COMMANDS : Nat := 1024
def USER_DATA_SEGMENT : Nat := 0x23
def USER_CODE_SEGMENT : Nat := 0x1b

/-! ### paging.h -/

def PAGING_ACCESS_FROM_ALL : Nat := 4
def PAGING_IS_WRITEABLE : Nat := 2
def PAGING_IS_PRESENT : Nat := 1
def PAGING_TOTAL_ENTRIES_PER_TABLE : Nat := 1024
def PAGING_PAGE_SIZE : Nat := 4096

end PlumOS
