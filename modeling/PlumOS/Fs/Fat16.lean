import PlumOS.Fs.Fat16Cluster
import PlumOS.Memory.KHeap

/-!
# The FAT16 driver

`fs/fat/fat16.c` from the directory entries up: scanning a directory, building the
item of a file or directory, resolving a path, and the five functions of the
filesystem interface.

## Main definitions

- `FatDirectoryItem` — a 32-byte directory entry
- `fat16LoadFatDirectory`, `fat16FindItemInDirectory`, `fat16GetDirectoryEntry` — lookup
- `fat16Open`, `fat16Read`, `fat16Seek`, `fat16Stat`, `fat16Close`
-/

namespace PlumOS

open StateExcept

def FAT_FILE_READ_ONLY : UInt8 := 0x01
def FAT_FILE_SUBDIRECTORY : UInt8 := 0x10

def sizeofFatDirectoryItem : Nat := 32
def sizeofFatDirectory : Nat := 16
def sizeofFatItem : Nat := 8
def sizeofFatFileDescriptor : Nat := 8

def FILE_MODE_READ : Nat := 0
def FILE_MODE_WRITE : Nat := 1
def FILE_MODE_APPEND : Nat := 2
def FILE_MODE_INVALID : Nat := 3

def SEEK_SET : Nat := 0
def SEEK_CUR : Nat := 1
def SEEK_END : Nat := 2

def FILE_STAT_READ_ONLY : Nat := 1

/-- The fields of `struct fat_directory_item` that the driver reads. -/
structure FatDirectoryItem where
  filename : List UInt8
  ext : List UInt8
  attribute_ : UInt8
  high_16_bits_first_cluster : Nat
  low_16_bits_first_cluster : Nat
  filesize : Nat

def readFatDirectoryItem (mem : Nat → UInt8) (p : Nat) : FatDirectoryItem where
  filename := readBytes mem p 8
  ext := readBytes mem (p + 8) 3
  attribute_ := mem (p + 11)
  high_16_bits_first_cluster := readHalf mem (p + 20)
  low_16_bits_first_cluster := readHalf mem (p + 26)
  filesize := readWord mem (p + 28)

/-- Read the directory entry at `p`; what lies there must not be a structure of
another type. -/
def derefItem (p : Nat) : KM FatDirectoryItem := fun k =>
  if p = 0 ∨ (k.objs p).isSome then .error (pointerFault p)
  else .ok (readFatDirectoryItem k.mem p, k)

/-- `fat16_get_first_cluster`. -/
def fat16GetFirstCluster (item : FatDirectoryItem) : Nat :=
  (item.high_16_bits_first_cluster <<< 16) ||| item.low_16_bits_first_cluster

/-! ### Directories -/

/-- The loop of `fat16_get_total_items_for_directory`. The position grows by 32 from
a sector boundary, so it leaves the `int` range within the fuel. -/
def fat16GetTotalItemsLoop : (fuel : Nat) → (i : Int) → DM Int
  | 0, _ => fails .divergence
  | fuel + 1, i => do
    let item ← diskstreamerRead .directory_stream sizeofFatDirectoryItem
    if item.getD 0 0 = 0x00 then pure i
    else if item.getD 0 0 = 0xE5 then fat16GetTotalItemsLoop fuel i
    else fat16GetTotalItemsLoop fuel (i + 1)

/-- `fat16_get_total_items_for_directory`. -/
def fat16GetTotalItemsForDirectory (directory_start_sector : Nat) : DM Int := do
  let sector_size ← reads Disk.sector_size
  let directory_start_pos := i32 (u32 (directory_start_sector * sector_size))
  diskstreamerSeek .directory_stream directory_start_pos
  fat16GetTotalItemsLoop 0x10000000 0

/-- `fat16_to_proper_string`: `in_` up to a NUL, a space or its end. -/
def fat16ToProperString : (in_ : List UInt8) → List UInt8
  | [] => []
  | c :: in_ => if c ≠ 0x00 ∧ c ≠ 0x20 then c :: fat16ToProperString in_ else []

/-- `fat16_get_full_relative_filename`: the string in `out`. -/
def fat16GetFullRelativeFilename (item : FatDirectoryItem) : List UInt8 :=
  fat16ToProperString item.filename ++
    if item.ext.getD 0 0 ≠ 0x00 ∧ item.ext.getD 0 0 ≠ 0x20 then
      0x2E :: fat16ToProperString item.ext
    else []

/-- `tolower` of `string.c`. -/
def tolower (s1 : UInt8) : UInt8 := if 65 ≤ s1 ∧ s1 ≤ 90 then s1 + 32 else s1

/-- `istrncmp` from index `i` on. -/
def istrncmpLoop (str1 str2 : Nat → UInt8) : (n i : Nat) → Int
  | 0, _ => 0
  | n + 1, i =>
    if str1 i ≠ str2 i ∧ tolower (str1 i) ≠ tolower (str2 i) then
      (str1 i).toNat - (str2 i).toNat
    else if str1 i = 0 then 0
    else istrncmpLoop str1 str2 n (i + 1)

/-- `istrncmp`. -/
def istrncmp (str1 str2 : Nat → UInt8) (n : Nat) : Int := istrncmpLoop str1 str2 n 0

/-- `fat16_clone_directory_item` of `sizeof(struct fat_directory_item)` bytes. -/
def fat16CloneDirectoryItem (item : Nat) : KM Nat := do
  let item_copy ← kzalloc sizeofFatDirectoryItem
  if item_copy = 0 then pure 0
  else do
    let mem ← reads Kernel.mem
    storeBytes item_copy (readBytes mem item sizeofFatDirectoryItem)
    pure item_copy

/-- `fat16_free_directory`. -/
def fat16FreeDirectory (directory : Nat) : KM PUnit :=
  if directory = 0 then pure ⟨⟩
  else do
    let d ← deref Obj.fatDirectory? directory
    onlyIf (d.item ≠ 0) (kfree d.item)
    kfree directory

/-- `fat16_fat_item_free`. -/
def fat16FatItemFree (item : Nat) : KM PUnit := do
  let i ← deref Obj.fatItem? item
  onlyIf (i.type = FAT_ITEM_TYPE_DIRECTORY) (fat16FreeDirectory i.directory)
  onlyIf (i.type ≠ FAT_ITEM_TYPE_DIRECTORY ∧ i.type = FAT_ITEM_TYPE_FILE) (kfree i.item)
  kfree item

def modifyFatDirectory (p : Nat) (f : FatDirectory → FatDirectory) : KM PUnit := do
  let d ← deref Obj.fatDirectory? p
  storeObj p (.fatDirectory (f d))

/-- `fat16_load_fat_directory`. When the entries cannot be read the directory is
released, and its address is returned all the same. -/
def fat16LoadFatDirectory (item : Nat) : KM Nat := do
  let i ← derefItem item
  if i.attribute_ &&& FAT_FILE_SUBDIRECTORY = 0 then pure 0
  else do
    let directory ← kzallocObj sizeofFatDirectory (.fatDirectory ⟨0, 0, 0, 0⟩)
    if directory = 0 then pure 0
    else do
      let i ← derefItem item
      let cluster := i32 (fat16GetFirstCluster i)
      let fat_private ← onDisk fsPrivate
      let cluster_sector := fat16ClusterToSector fat_private cluster
      let total_items ← onDisk (fat16GetTotalItemsForDirectory (u32 cluster_sector))
      modifyFatDirectory directory fun d => { d with total := total_items }
      let directory_size := i32 (total_items * sizeofFatDirectoryItem)
      let entries ← kzalloc (u32 directory_size)
      modifyFatDirectory directory fun d => { d with item := entries }
      if entries = 0 then do
        fat16FreeDirectory directory
        pure directory
      else do
        let r ← onDisk (fat16ReadInternal cluster 0x00 directory_size)
        storeBytes entries r.2
        onlyIf (r.1 ≠ PLUMOS_ALL_OK) (fat16FreeDirectory directory)
        pure directory

def modifyFatItem (p : Nat) (f : FatItem → FatItem) : KM PUnit := do
  let i ← deref Obj.fatItem? p
  storeObj p (.fatItem (f i))

/-- `fat16_new_fat_item_for_directory_item`. -/
def fat16NewFatItemForDirectoryItem (item : Nat) : KM Nat := do
  let f_item ← kzallocObj sizeofFatItem (.fatItem ⟨0, 0⟩)
  if f_item = 0 then pure 0
  else do
    let i ← derefItem item
    if i.attribute_ &&& FAT_FILE_SUBDIRECTORY ≠ 0 then do
      let directory ← fat16LoadFatDirectory item
      modifyFatItem f_item fun _ => ⟨directory, FAT_ITEM_TYPE_DIRECTORY⟩
      pure f_item
    else do
      modifyFatItem f_item fun i => { i with type := FAT_ITEM_TYPE_FILE }
      let item_copy ← fat16CloneDirectoryItem item
      modifyFatItem f_item fun i => { i with item := item_copy }
      pure f_item

/-- The loop of `fat16_find_item_in_directory` from item `i` on. It does not stop at
the first item of the name. -/
def fat16FindItemLoop (directory : FatDirectory) (name : Nat) :
    (fuel i f_item : Nat) → KM Nat
  | 0, _, f_item => pure f_item
  | fuel + 1, i, f_item => do
    let item := directory.item + sizeofFatDirectoryItem * i
    let entry ← derefItem item
    let mem ← reads Kernel.mem
    let tmp_filename := fat16GetFullRelativeFilename entry
    if istrncmp (fun j => tmp_filename.getD j 0) (fun j => mem (name + j)) PLUMOS_MAX_PATH = 0 then do
      let f_item ← fat16NewFatItemForDirectoryItem item
      fat16FindItemLoop directory name fuel (i + 1) f_item
    else fat16FindItemLoop directory name fuel (i + 1) f_item

/-- `fat16_find_item_in_directory`, with what `directory` points to. -/
def fat16FindItemInDirectory (directory : FatDirectory) (name : Nat) : KM Nat :=
  fat16FindItemLoop directory name directory.total.toNat 0 0

/-- The loop of `fat16_get_directory_entry`. A list of more parts than there are
blocks in the address space has a cycle. -/
def fat16GetDirectoryEntryLoop : (fuel current_item next_part : Nat) → KM Nat
  | 0, _, _ => fails .divergence
  | fuel + 1, current_item, next_part =>
    if next_part = 0 then pure current_item
    else do
      let i ← deref Obj.fatItem? current_item
      if i.type ≠ FAT_ITEM_TYPE_DIRECTORY then pure 0
      else do
        let part ← deref Obj.pathPart? next_part
        let directory ← deref Obj.fatDirectory? i.directory
        let tmp_item ← fat16FindItemInDirectory directory part.part
        fat16FatItemFree current_item
        let part ← deref Obj.pathPart? next_part
        fat16GetDirectoryEntryLoop fuel tmp_item part.next

/-- `fat16_get_directory_entry`. -/
def fat16GetDirectoryEntry (path : Nat) : KM Nat := do
  let fat_private ← onDisk fsPrivate
  let part ← deref Obj.pathPart? path
  let root_item ← fat16FindItemInDirectory fat_private.root_directory part.part
  if root_item = 0 then pure 0
  else do
    let part ← deref Obj.pathPart? path
    fat16GetDirectoryEntryLoop 0x100000 root_item part.next

/-! ### The filesystem interface -/

def modifyFatFileDescriptor (p : Nat) (f : FatFileDescriptor → FatFileDescriptor) : KM PUnit := do
  let d ← deref Obj.fatFileDescriptor? p
  storeObj p (.fatFileDescriptor (f d))

/-- `fat16_open`: a descriptor, or an error as a pointer. -/
def fat16Open (path mode : Nat) : KM Nat :=
  if mode ≠ FILE_MODE_READ then pure (ERROR (-ERDONLY))
  else do
    let descriptor ← kzallocObj sizeofFatFileDescriptor (.fatFileDescriptor ⟨0, 0⟩)
    if descriptor = 0 then pure (ERROR (-ENOMEM))
    else do
      let item ← fat16GetDirectoryEntry path
      modifyFatFileDescriptor descriptor fun d => { d with item := item }
      if item = 0 then do
        kfree descriptor
        pure (ERROR (- EIO))
      else do
        modifyFatFileDescriptor descriptor fun d => { d with pos := 0 }
        pure descriptor

/-- The loop of `fat16_read`: `res` after the last round. -/
def fat16ReadLoop (item size : Nat) : (nmemb : Nat) → (offset : Int) → (out_ptr : Nat) →
    (res : Int) → KM Int
  | 0, _, _, res => pure res
  | nmemb + 1, offset, out_ptr, _ => do
    let i ← derefItem item
    let r ← onDisk (fat16ReadInternal (i32 (fat16GetFirstCluster i)) offset (i32 size))
    storeBytes out_ptr r.2
    if r.1 < 0 then pure r.1
    else fat16ReadLoop item size nmemb (i32 (offset + size)) (out_ptr + size) r.1

/-- `fat16_read`. -/
def fat16Read (descriptor size nmemb out_ptr : Nat) : KM Int := do
  let fat_desc ← deref Obj.fatFileDescriptor? descriptor
  let f_item ← deref Obj.fatItem? fat_desc.item
  let res ← fat16ReadLoop f_item.item size nmemb (i32 fat_desc.pos) out_ptr 0
  if res < 0 then pure res
  else pure (i32 nmemb)

/-- `fat16_seek`. -/
def fat16Seek (descriptor offset seek_mode : Nat) : KM Int := do
  let desc ← deref Obj.fatFileDescriptor? descriptor
  let desc_item ← deref Obj.fatItem? desc.item
  if desc_item.type ≠ FAT_ITEM_TYPE_FILE then pure (-EINVARG)
  else do
    let ritem ← derefItem desc_item.item
    if ritem.filesize ≤ offset then pure (- EIO)
    else if seek_mode = SEEK_SET then do
      modifyFatFileDescriptor descriptor fun d => { d with pos := offset }
      pure 0
    else if seek_mode = SEEK_END then pure (-EUNIMP)
    else if seek_mode = SEEK_CUR then do
      modifyFatFileDescriptor descriptor fun d => { d with pos := u32 (d.pos + offset) }
      pure 0
    else pure (-EINVARG)

/-- `struct file_stat`. -/
structure FileStat where
  flags : Nat
  filesize : Nat

/-- `fat16_stat`: the status, and `*stat` if it is written. -/
def fat16Stat (descriptor : Nat) : KM (Int × Option FileStat) := do
  let desc ← deref Obj.fatFileDescriptor? descriptor
  let desc_item ← deref Obj.fatItem? desc.item
  if desc_item.type ≠ FAT_ITEM_TYPE_FILE then pure (-EINVARG, none)
  else do
    let ritem ← derefItem desc_item.item
    let flags := if ritem.attribute_ &&& FAT_FILE_READ_ONLY ≠ 0 then FILE_STAT_READ_ONLY else 0
    pure (0, some ⟨flags, ritem.filesize⟩)

/-- `fat16_free_file_descriptor`. -/
def fat16FreeFileDescriptor (desc : Nat) : KM PUnit := do
  let d ← deref Obj.fatFileDescriptor? desc
  fat16FatItemFree d.item
  kfree desc

/-- `fat16_close`. -/
def fat16Close (descriptor : Nat) : KM Int := do
  fat16FreeFileDescriptor descriptor
  pure 0

end PlumOS
