import PlumOS.Kernel.State

/-!
# The ELF format

`loader/formats/elf.h`: the ELF header and the program headers as they lie in
memory, little endian and packed.
-/

namespace PlumOS

open StateExcept

def PF_W : Nat := 0x02
def PT_LOAD : Nat := 1
def ET_EXEC : Nat := 2
def ELFCLASSNONE : UInt8 := 0
def ELFCLASS32 : UInt8 := 1
def ELFDATANONE : UInt8 := 0
def ELFDATA2LSB : UInt8 := 1
def EI_CLASS : Nat := 4
def EI_DATA : Nat := 5

/-- The fields of `struct elf_header` that are read. -/
structure ElfHeader where
  e_ident : Nat → UInt8
  e_type : Nat
  e_entry : Nat
  e_phoff : Nat
  e_phnum : Nat

def readElfHeader (mem : Nat → UInt8) (p : Nat) : ElfHeader where
  e_ident := fun i => mem (p + i)
  e_type := readHalf mem (p + 16)
  e_entry := readWord mem (p + 24)
  e_phoff := readWord mem (p + 28)
  e_phnum := readHalf mem (p + 44)

/-- The fields of `struct elf32_phdr` that are read. -/
structure Elf32Phdr where
  p_type : Nat
  p_offset : Nat
  p_vaddr : Nat
  p_filesz : Nat
  p_memsz : Nat
  p_flags : Nat

def sizeofElf32Phdr : Nat := 32

def readElf32Phdr (mem : Nat → UInt8) (p : Nat) : Elf32Phdr where
  p_type := readWord mem p
  p_offset := readWord mem (p + 4)
  p_vaddr := readWord mem (p + 8)
  p_filesz := readWord mem (p + 16)
  p_memsz := readWord mem (p + 20)
  p_flags := readWord mem (p + 24)

/-- `elf_header(file)`, with the header read. -/
def elfHeader (file : Nat) : KM ElfHeader := do
  let f ← deref Obj.elfFile? file
  derefMem readElfHeader f.elf_memory

theorem elfHeader_spec (file : Nat) (k : Kernel) :
    Ensures (elfHeader file) k fun _ k' => k = k' := by
  refine Ensures.bind (deref_spec _ _ _) ?_
  rintro f _ ⟨rfl, -, -⟩
  exact (derefMem_spec _ _ _).mono fun _ _ h => h.1

end PlumOS
