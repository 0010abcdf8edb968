import PlumOS.Fs.Fat16
import PlumOS.Fs.PathParser

/-!
# Files

`fs/file.c`: the table of file descriptors and the functions the kernel uses. The only
filesystem is FAT16 and the only disk is disk 0.

## Main definitions

- `fileNewDescriptor`, `fileGetDescriptor`, `fileFreeDescriptor` — the table
- `fopen`, `fread`, `fseek`, `fstat`, `fclose`
-/

namespace PlumOS

open StateExcept

def sizeofFileDescriptor : Nat := 16

/-- A pointer to `fat16_fs`, and one to `disk`. Both are static and not NULL. -/
def fat16Fs : Nat := 1
def diskAddress : Nat := 1

/-- `disk->filesystem`. -/
def Disk.filesystem (d : Disk) : Nat := if d.fs_private.isSome then fat16Fs else 0

def modifyFileDescriptor (p : Nat) (f : FileDescriptor → FileDescriptor) : KM PUnit := do
  let d ← deref Obj.fileDescriptor? p
  storeObj p (.fileDescriptor (f d))

/-- The first free entry of `file_descriptors`. -/
def freeDescriptorSlot (file_descriptors : Nat → Nat) : Option Nat :=
  (List.range PLUMOS_MAX_FILE_DESCRIPTORS).find? fun i => file_descriptors i == 0

/-- `file_new_descriptor`: the status and `*desc_out`. -/
def fileNewDescriptor : KM (Int × Nat) := do
  let file_descriptors ← reads Kernel.file_descriptors
  match freeDescriptorSlot file_descriptors with
  | none => pure (-ENOMEM, 0)
  | some i => do
    let desc ← kzallocObj sizeofFileDescriptor (.fileDescriptor ⟨0, 0, 0, 0⟩)
    modifyFileDescriptor desc fun d => { d with index := i + 1 }
    modifies fun k => { k with file_descriptors := Function.update k.file_descriptors i desc }
    pure (0, desc)

/-- `file_free_descriptor`. The entry is found by the `index` in the descriptor. -/
def fileFreeDescriptor (desc : Nat) : KM PUnit := do
  let d ← deref Obj.fileDescriptor? desc
  if d.index - 1 < 0 ∨ PLUMOS_MAX_FILE_DESCRIPTORS ≤ d.index - 1 then fails .outOfBounds
  else do
    modifies fun k =>
      { k with file_descriptors := Function.update k.file_descriptors (d.index - 1).toNat 0 }
    kfree desc

/-- `file_get_descriptor`. -/
def fileGetDescriptor (fd : Int) : KM Nat :=
  if fd ≤ 0 ∨ PLUMOS_MAX_FILE_DESCRIPTORS ≤ fd then pure 0
  else reads fun k => k.file_descriptors (fd - 1).toNat

/-- `file_get_mode_by_string`: `strncmp` of one character. -/
def fileGetModeByString (str : List UInt8) : Nat :=
  if charAt str 0 = 0x72 then FILE_MODE_READ
  else if charAt str 0 = 0x77 then FILE_MODE_WRITE
  else if charAt str 0 = 0x61 then FILE_MODE_APPEND
  else FILE_MODE_INVALID

/-- `fopen` up to its label `out`: the value of `res` there. -/
def fopenRes (filename mode_str : List UInt8) : KM Int := do
  let root_path ← pathparserParse filename
  if root_path = 0 then pure (-EINVARG)
  else do
    let root ← deref Obj.pathRoot? root_path
    if root.first = 0 then pure (-EINVARG)
    else if root.drive_no ≠ 0 then pure (- EIO)
    else do
      let filesystem ← reads fun k => k.disk.filesystem
      if filesystem = 0 then pure (- EIO)
      else
        let mode := fileGetModeByString mode_str
        if mode = FILE_MODE_INVALID then pure (-EINVARG)
        else do
          let descriptor_private_data ← fat16Open root.first mode
          if ISERR descriptor_private_data then pure (ERROR_I descriptor_private_data)
          else do
            let r ← fileNewDescriptor
            if r.1 < 0 then pure r.1
            else do
              modifyFileDescriptor r.2 fun d => { d with
                filesystem := filesystem, private_ := descriptor_private_data
                disk := diskAddress }
              let d ← deref Obj.fileDescriptor? r.2
              pure d.index

/-- `fopen`. It reports every failure as 0. -/
def fopen (filename mode_str : List UInt8) : KM Int := do
  let res ← fopenRes filename mode_str
  pure (if res < 0 then 0 else res)

/-- `desc->filesystem`, whose functions are those of the driver. -/
def descFilesystem (d : FileDescriptor) : KM PUnit :=
  if d.filesystem = 0 then fails .badPointer else pure ⟨⟩

/-- `fstat`: the status, and `*stat` if it is written. -/
def fstat (fd : Int) : KM (Int × Option FileStat) := do
  let desc ← fileGetDescriptor fd
  if desc = 0 then pure (- EIO, none)
  else do
    let d ← deref Obj.fileDescriptor? desc
    descFilesystem d
    fat16Stat d.private_

/-- `fclose`. -/
def fclose (fd : Int) : KM Int := do
  let desc ← fileGetDescriptor fd
  if desc = 0 then pure (- EIO)
  else do
    let d ← deref Obj.fileDescriptor? desc
    descFilesystem d
    let res ← fat16Close d.private_
    if res = PLUMOS_ALL_OK then do
      fileFreeDescriptor desc
      pure res
    else pure res

/-- `fseek`. -/
def fseek (fd offset : Int) (whence : Nat) : KM Int := do
  let desc ← fileGetDescriptor fd
  if desc = 0 then pure (- EIO)
  else do
    let d ← deref Obj.fileDescriptor? desc
    descFilesystem d
    fat16Seek d.private_ (u32 offset) whence

/-- `fread`. -/
def fread (ptr size nmemb : Nat) (fd : Int) : KM Int :=
  if size = 0 ∨ nmemb = 0 ∨ fd < 1 then pure (-EINVARG)
  else do
    let desc ← fileGetDescriptor fd
    if desc = 0 then pure (-EINVARG)
    else do
      let d ← deref Obj.fileDescriptor? desc
      descFilesystem d
      fat16Read d.private_ size nmemb ptr

end PlumOS
