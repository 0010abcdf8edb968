import PlumOS.Fs.File
import PlumOS.Loader.Elf

/-!
# The ELF loader

`loader/formats/elfloader.c`: a file is read into memory as a whole, and its headers
are looked at there.

## Main definitions

- `elfValidateLoaded` — which headers are accepted
- `elfLoad`, `elfClose`
-/

namespace PlumOS

open StateExcept

def sizeofElfFile : Nat := 132

/-- `elf_valid_signature`. -/
def elfValidSignature (header : ElfHeader) : Bool :=
  header.e_ident 0 == 0x7f && header.e_ident 1 == 0x45 && header.e_ident 2 == 0x4C &&
    header.e_ident 3 == 0x46

/-- `elf_valid_class`. -/
def elfValidClass (header : ElfHeader) : Bool :=
  header.e_ident EI_CLASS == ELFCLASSNONE || header.e_ident EI_CLASS == ELFCLASS32

/-- `elf_valid_encoding`. -/
def elfValidEncoding (header : ElfHeader) : Bool :=
  header.e_ident EI_DATA == ELFDATANONE || header.e_ident EI_DATA == ELFDATA2LSB

/-- `elf_has_program_header`. -/
def elfHasProgramHeader (header : ElfHeader) : Bool := header.e_phoff != 0

/-- `elf_validate_loaded`. -/
def elfValidateLoaded (header : ElfHeader) : Int :=
  if elfValidSignature header && elfValidClass header && elfValidEncoding header &&
      elfHasProgramHeader header then PLUMOS_ALL_OK
  else -EINVFORMAT

/-- `elf_pheader` of the header at `header_address`. -/
def elfPheader (header_address : Nat) (header : ElfHeader) : Nat :=
  if header.e_phoff = 0 then 0 else u32 ((header_address + header.e_phoff : Nat) : Int)

/-- `&phdrs[index]`. -/
def elfPhdrAddress (phdrs index : Nat) : Nat := u32 ((phdrs + sizeofElf32Phdr * index : Nat) : Int)

/-- `elf_phdr_phys_address`. -/
def elfPhdrPhysAddress (file : ElfFile) (phdr : Elf32Phdr) : Nat :=
  u32 ((file.elf_memory + phdr.p_offset : Nat) : Int)

/-- `elf_process_phdr_pt_load`. -/
def elfProcessPhdrPtLoad (elf_file : ElfFile) (phdr : Elf32Phdr) : ElfFile :=
  let elf_file :=
    if phdr.p_vaddr ≤ elf_file.virtual_base_address ∨ elf_file.virtual_base_address = 0 then
      { elf_file with
        virtual_base_address := phdr.p_vaddr
        physical_base_address := elfPhdrPhysAddress elf_file phdr }
    else elf_file
  let end_virtual_address := u32 ((phdr.p_vaddr + phdr.p_filesz : Nat) : Int)
  if elf_file.virtual_end_address ≤ end_virtual_address ∨ elf_file.virtual_end_address = 0 then
    { elf_file with
      virtual_end_address := end_virtual_address
      physical_end_address := u32 ((elf_file.elf_memory + phdr.p_offset + phdr.p_filesz : Nat) : Int) }
  else elf_file

/-- `elf_process_pheader`. -/
def elfProcessPheader (elf_file : Nat) (phdr : Elf32Phdr) : KM PUnit :=
  onlyIf (phdr.p_type = PT_LOAD) do
    let f ← deref Obj.elfFile? elf_file
    storeObj elf_file (.elfFile (elfProcessPhdrPtLoad f phdr))

/-- The loop of `elf_process_pheaders` from header `i` on. No header makes it fail. -/
def elfProcessPheadersLoop (elf_file phdrs : Nat) : (fuel i : Nat) → KM PUnit
  | 0, _ => pure ⟨⟩
  | fuel + 1, i => do
    let phdr ← derefMem readElf32Phdr (elfPhdrAddress phdrs i)
    elfProcessPheader elf_file phdr
    elfProcessPheadersLoop elf_file phdrs fuel (i + 1)

/-- `elf_process_loaded`. -/
def elfProcessLoaded (elf_file : Nat) : KM Int := do
  let header ← elfHeader elf_file
  let res := elfValidateLoaded header
  if res < 0 then pure res
  else do
    let f ← deref Obj.elfFile? elf_file
    elfProcessPheadersLoop elf_file (elfPheader f.elf_memory header) header.e_phnum 0
    pure 0

/-- `elf_load` up to its label `out`, with the file open. -/
def elfLoadOpened (elf_file : Nat) (fd : Int) : KM Int := do
  let r ← fstat fd
  if r.1 < 0 then pure r.1
  else match r.2 with
    | none => fails .uninitialised
    | some stat => do
      let memory ← kzalloc stat.filesize
      let f ← deref Obj.elfFile? elf_file
      storeObj elf_file (.elfFile { f with elf_memory := memory })
      let res ← fread memory stat.filesize 1 fd
      if res < 0 then pure res
      else elfProcessLoaded elf_file

/-- `elf_load`: the status, and `*file_out` if that is 0. -/
def elfLoad (filename : List UInt8) : KM (Int × Nat) := do
  let elf_file ← kzallocObj sizeofElfFile (.elfFile ElfFile.zero)
  let res ← fopen filename [0x72]
  if res ≤ 0 then do
    let _ ← fclose 0
    pure (- EIO, 0)
  else do
    let fd := res
    let res ← elfLoadOpened elf_file fd
    let _ ← fclose fd
    pure (res, if res < 0 then 0 else elf_file)

/-- `elf_close`. -/
def elfClose (file : Nat) : KM PUnit :=
  if file = 0 then pure ⟨⟩
  else do
    let f ← deref Obj.elfFile? file
    kfree f.elf_memory
    kfree file

end PlumOS
