import PlumOS.Fs.Fat16
import PlumOS.Lib.EarlyExit
import PlumOS.Memory.Holding

/-!
# The lookup of a path with its allocations

The functions that resolve a path and release what was found, with a look at the heap's
table before each use of an allocation and each release. Each says in addition what it
found.

## Main definitions

- `Found` — what is found for a part of a path
- `follows`, `kfreeTracked` — the use and the release of an allocation
- `fat16GetDirectoryEntryTracked`, `fat16FatItemFreeTracked`

## Main results

- `fat16GetDirectoryEntryTracked_watches`, `fat16FatItemFreeTracked_watches` — the tracked
  functions are the code
-/

namespace PlumOS

open StateExcept

/-- What is found for a part of a path. -/
inductive Found
  /-- no item, or none for which there is memory -/
  | nothing
  | file
  /-- a directory for which there is no memory -/
  | noDirectory
  /-- a directory that was released when its entries could not be loaded -/
  | failed
  /-- a directory without entries, for which `kzalloc` was asked for no memory -/
  | empty
  | loaded
  deriving DecidableEq

/-- Why a tracked function leaves. -/
inductive LookupFault
  /-- a pointer is used that is not to an allocation -/
  | used (p : Nat)
  /-- a pointer is released that is not to an allocation -/
  | released (p : Nat)
  /-- a branch is taken that does not allow for what was found -/
  | defect (found : Found)

def LookupFault.IsDefect : LookupFault → Prop
  | .defect _ => True
  | _ => False

/-- Functions of the driver that leave at a fault. -/
abbrev LM := Leaving LookupFault Kernel Fault

/-- A use of the allocation at `p`. -/
def follows (p : Nat) : LM PUnit := expects (fun k => k.Held p) (.used p)

/-- `kfree`. NULL is no allocation, and its release ends none. -/
def kfreeTracked (p : Nat) : LM PUnit := do
  expects (fun k => p = 0 ∨ k.Held p) (.released p)
  stays (kfree p)

/-- A look at the entry at `item`, which is in the allocation at `holder`. The root
directory, whose entries are never released, has no holder. -/
def followsEntry (holder : Nat) : LM PUnit :=
  expects (fun k => holder = 0 ∨ k.Held holder) (.used holder)

def fat16FreeDirectoryTracked (directory : Nat) : LM PUnit :=
  if directory = 0 then pure ⟨⟩
  else do
    follows directory
    let d ← stays (deref Obj.fatDirectory? directory)
    leavingIf (d.item ≠ 0) (kfreeTracked d.item)
    kfreeTracked directory

def fat16FatItemFreeTracked (item : Nat) : LM PUnit := do
  follows item
  let i ← stays (deref Obj.fatItem? item)
  leavingIf (i.type = FAT_ITEM_TYPE_DIRECTORY) (fat16FreeDirectoryTracked i.directory)
  leavingIf (i.type ≠ FAT_ITEM_TYPE_DIRECTORY ∧ i.type = FAT_ITEM_TYPE_FILE) (kfreeTracked i.item)
  kfreeTracked item

def fat16CloneDirectoryItemTracked (holder item : Nat) : LM Nat := do
  let item_copy ← stays (kzalloc sizeofFatDirectoryItem)
  if item_copy = 0 then pure 0
  else do
    followsEntry holder
    let mem ← stays (reads Kernel.mem)
    follows item_copy
    stays (storeBytes item_copy (readBytes mem item sizeofFatDirectoryItem))
    pure item_copy

/-- The directory, and what it is. -/
def fat16LoadFatDirectoryTracked (holder item : Nat) : LM (Nat × Found) := do
  followsEntry holder
  let i ← stays (derefItem item)
  if i.attribute_ &&& FAT_FILE_SUBDIRECTORY = 0 then pure (0, .noDirectory)
  else do
    let directory ← stays (kzallocObj sizeofFatDirectory (.fatDirectory ⟨0, 0, 0, 0⟩))
    if directory = 0 then pure (0, .noDirectory)
    else do
      followsEntry holder
      let i ← stays (derefItem item)
      let cluster := i32 (fat16GetFirstCluster i)
      let fat_private ← stays (onDisk fsPrivate)
      let cluster_sector := fat16ClusterToSector fat_private cluster
      let total_items ← stays (onDisk (fat16GetTotalItemsForDirectory (u32 cluster_sector)))
      follows directory
      stays (modifyFatDirectory directory fun d => { d with total := total_items })
      let directory_size := i32 (total_items * sizeofFatDirectoryItem)
      let entries ← stays (kzalloc (u32 directory_size))
      follows directory
      stays (modifyFatDirectory directory fun d => { d with item := entries })
      if entries = 0 then do
        fat16FreeDirectoryTracked directory
        pure (directory, .failed)
      else do
        let r ← stays (onDisk (fat16ReadInternal cluster 0x00 directory_size))
        -- nothing is stored for no entries
        expects (fun k => total_items = 0 ∨ k.Held entries) (.used entries)
        stays (storeBytes entries r.2)
        -- the release is of memory that `kzalloc` did not take
        expects (fun k => r.1 = PLUMOS_ALL_OK ∨ k.Held entries) (.defect .empty)
        leavingIf (r.1 ≠ PLUMOS_ALL_OK) (fat16FreeDirectoryTracked directory)
        pure (directory,
          if r.1 ≠ PLUMOS_ALL_OK then .failed else if total_items = 0 then .empty else .loaded)

/-- The item, and what it is. -/
def fat16NewFatItemForDirectoryItemTracked (holder item : Nat) : LM (Nat × Found) := do
  let f_item ← stays (kzallocObj sizeofFatItem (.fatItem ⟨0, 0⟩))
  if f_item = 0 then pure (0, .nothing)
  else do
    followsEntry holder
    let i ← stays (derefItem item)
    if i.attribute_ &&& FAT_FILE_SUBDIRECTORY ≠ 0 then do
      let directory ← fat16LoadFatDirectoryTracked holder item
      follows f_item
      stays (modifyFatItem f_item fun _ => ⟨directory.1, FAT_ITEM_TYPE_DIRECTORY⟩)
      pure (f_item, directory.2)
    else do
      follows f_item
      stays (modifyFatItem f_item fun i => { i with type := FAT_ITEM_TYPE_FILE })
      let item_copy ← fat16CloneDirectoryItemTracked holder item
      follows f_item
      stays (modifyFatItem f_item fun i => { i with item := item_copy })
      pure (f_item, .file)

/-- The item that was found, what it is, and whether another one was found before it:
that one is not released. -/
structure Lookup where
  item : Nat
  found : Found
  lost : Bool

def fat16FindItemLoopTracked (directory : FatDirectory) (holder name : Nat) :
    (fuel i : Nat) → Lookup → LM Lookup
  | 0, _, f => pure f
  | fuel + 1, i, f => do
    let item := directory.item + sizeofFatDirectoryItem * i
    followsEntry holder
    let entry ← stays (derefItem item)
    let mem ← stays (reads Kernel.mem)
    let tmp_filename := fat16GetFullRelativeFilename entry
    if istrncmp (fun j => tmp_filename.getD j 0) (fun j => mem (name + j)) PLUMOS_MAX_PATH = 0 then do
      let f_item ← fat16NewFatItemForDirectoryItemTracked holder item
      fat16FindItemLoopTracked directory holder name fuel (i + 1)
        ⟨f_item.1, f_item.2, f.lost || decide (f.item ≠ 0)⟩
    else fat16FindItemLoopTracked directory holder name fuel (i + 1) f

def fat16FindItemInDirectoryTracked (directory : FatDirectory) (holder name : Nat) : LM Lookup :=
  fat16FindItemLoopTracked directory holder name directory.total.toNat 0 ⟨0, .nothing, false⟩

/-- The lookup goes wrong when it ends here: the item cannot be closed, or there is none
and one was lost on the way. -/
def Lookup.EndsWrong (f : Lookup) : Prop :=
  f.found = .failed ∨ f.found = .empty ∨ f.found = .nothing ∧ f.lost

instance (f : Lookup) : Decidable f.EndsWrong := inferInstanceAs (Decidable (_ ∨ _))

/-- With `strict`, it leaves where a branch is taken that does not allow for what was found. -/
def fat16GetDirectoryEntryLoopTracked (strict : Bool) :
    (fuel : Nat) → (current : Lookup) → (next_part : Nat) → LM Nat
  | 0, _, _ => stays (fails .divergence)
  | fuel + 1, current, next_part =>
    if next_part = 0 then do
      expects (fun _ => strict → ¬ current.EndsWrong) (.defect current.found)
      pure current.item
    else do
      expects (fun _ => strict → current.found ≠ .nothing ∧ current.found ≠ .file)
        (.defect current.found)
      follows current.item
      let i ← stays (deref Obj.fatItem? current.item)
      if i.type ≠ FAT_ITEM_TYPE_DIRECTORY then pure 0
      else do
        let part ← stays (deref Obj.pathPart? next_part)
        expects (fun _ => strict → current.found = .loaded) (.defect current.found)
        follows i.directory
        let directory ← stays (deref Obj.fatDirectory? i.directory)
        let tmp_item ← fat16FindItemInDirectoryTracked directory directory.item part.part
        fat16FatItemFreeTracked current.item
        let part ← stays (deref Obj.pathPart? next_part)
        fat16GetDirectoryEntryLoopTracked strict fuel
          { tmp_item with lost := current.lost || tmp_item.lost } part.next

def fat16GetDirectoryEntryTracked (strict : Bool) (path : Nat) : LM Nat := do
  let fat_private ← stays (onDisk fsPrivate)
  let part ← stays (deref Obj.pathPart? path)
  let root_item ← fat16FindItemInDirectoryTracked fat_private.root_directory 0 part.part
  if root_item.item = 0 then do
    expects (fun _ => strict → ¬ root_item.EndsWrong) (.defect root_item.found)
    pure 0
  else do
    let part ← stays (deref Obj.pathPart? path)
    fat16GetDirectoryEntryLoopTracked strict 0x100000 root_item part.next

/-! ### The tracked functions are the code -/

theorem kfreeTracked_watches (p : Nat) : Watches (kfreeTracked p) (kfree p) :=
  .expects (.stays _)

theorem fat16FreeDirectoryTracked_watches (directory : Nat) :
    Watches (fat16FreeDirectoryTracked directory) (fat16FreeDirectory directory) := by
  apply Watches.ite (.pure _)
  apply Watches.expects
  apply Watches.bind (.stays _)
  intro d
  apply Watches.bind (.onlyIf (kfreeTracked_watches _))
  exact fun _ => kfreeTracked_watches _

theorem fat16FatItemFreeTracked_watches (item : Nat) :
    Watches (fat16FatItemFreeTracked item) (fat16FatItemFree item) := by
  apply Watches.expects
  apply Watches.bind (.stays _)
  intro i
  apply Watches.bind (.onlyIf (fat16FreeDirectoryTracked_watches _))
  intro _
  apply Watches.bind (.onlyIf (kfreeTracked_watches _))
  exact fun _ => kfreeTracked_watches _

theorem fat16CloneDirectoryItemTracked_watches (holder item : Nat) :
    Watches (fat16CloneDirectoryItemTracked holder item) (fat16CloneDirectoryItem item) := by
  apply Watches.bind (.stays _)
  intro item_copy
  apply Watches.ite (.pure _)
  apply Watches.expects
  apply Watches.bind (.stays _)
  intro mem
  apply Watches.expects
  exact .bind (.stays _) fun _ => .pure _

theorem fat16LoadFatDirectoryTracked_watches (holder item : Nat) :
    Watches (do let directory ← fat16LoadFatDirectoryTracked holder item; pure directory.1)
      (fat16LoadFatDirectory item) := by
  unfold fat16LoadFatDirectoryTracked fat16LoadFatDirectory
  simp only [bind_assoc]
  apply Watches.expects
  apply Watches.bind (.stays _)
  intro i
  apply Watches.ite_bind
  · exact .pure _
  rw [bind_assoc]
  apply Watches.bind (.stays _)
  intro directory
  apply Watches.ite_bind
  · exact .pure _
  simp only [bind_assoc]
  apply Watches.expects
  apply Watches.bind (.stays _)
  intro i
  apply Watches.bind (.stays _)
  intro fat_private
  apply Watches.bind (.stays _)
  intro total_items
  apply Watches.expects
  apply Watches.bind (.stays _)
  intro _
  apply Watches.bind (.stays _)
  intro entries
  apply Watches.expects
  apply Watches.bind (.stays _)
  intro _
  apply Watches.ite_bind
  · rw [bind_assoc]
    exact .bind (fat16FreeDirectoryTracked_watches _) fun _ => .pure _
  simp only [bind_assoc]
  apply Watches.bind (.stays _)
  intro r
  apply Watches.expects
  apply Watches.bind (.stays _)
  intro _
  apply Watches.expects
  exact .bind (.onlyIf (fat16FreeDirectoryTracked_watches _)) fun _ => .pure _

theorem fat16NewFatItemForDirectoryItemTracked_watches (holder item : Nat) :
    Watches (do let f_item ← fat16NewFatItemForDirectoryItemTracked holder item; pure f_item.1)
      (fat16NewFatItemForDirectoryItem item) := by
  unfold fat16NewFatItemForDirectoryItemTracked fat16NewFatItemForDirectoryItem
  simp only [bind_assoc]
  apply Watches.bind (.stays _)
  intro f_item
  apply Watches.ite_bind
  · exact .pure _
  simp only [bind_assoc]
  apply Watches.expects
  apply Watches.bind (.stays _)
  intro i
  apply Watches.ite_bind
  · rw [bind_assoc]
    apply Watches.bind_map (fat16LoadFatDirectoryTracked_watches _ _)
    intro directory
    rw [bind_assoc]
    apply Watches.expects
    rw [bind_assoc]
    exact .bind (.stays _) fun _ => .pure _
  · simp only [bind_assoc]
    apply Watches.expects
    apply Watches.bind (.stays _)
    intro _
    apply Watches.bind (fat16CloneDirectoryItemTracked_watches _ _)
    intro item_copy
    apply Watches.expects
    exact .bind (.stays _) fun _ => .pure _

theorem fat16FindItemLoopTracked_watches (directory : FatDirectory) (holder name : Nat) :
    ∀ (fuel i : Nat) (f : Lookup),
      Watches (do let f ← fat16FindItemLoopTracked directory holder name fuel i f; pure f.item)
        (fat16FindItemLoop directory name fuel i f.item) := by
  intro fuel
  induction fuel with
  | zero => exact fun _ _ => .pure _
  | succ fuel ih =>
    intro i f
    unfold fat16FindItemLoopTracked fat16FindItemLoop
    simp only [bind_assoc]
    apply Watches.expects
    apply Watches.bind (.stays _)
    intro entry
    apply Watches.bind (.stays _)
    intro mem
    apply Watches.ite_bind
    · rw [bind_assoc]
      apply Watches.bind_map (fat16NewFatItemForDirectoryItemTracked_watches _ _)
      exact fun f_item => ih _ _
    · exact ih _ _

theorem fat16FindItemInDirectoryTracked_watches (directory : FatDirectory) (holder name : Nat) :
    Watches (do let f ← fat16FindItemInDirectoryTracked directory holder name; pure f.item)
      (fat16FindItemInDirectory directory name) :=
  fat16FindItemLoopTracked_watches directory holder name _ _ ⟨0, .nothing, false⟩

theorem fat16GetDirectoryEntryLoopTracked_watches (strict : Bool) :
    ∀ (fuel : Nat) (current : Lookup) (next_part : Nat),
      Watches (fat16GetDirectoryEntryLoopTracked strict fuel current next_part)
        (fat16GetDirectoryEntryLoop fuel current.item next_part) := by
  intro fuel
  induction fuel with
  | zero => exact fun _ _ => .stays _
  | succ fuel ih =>
    intro current next_part
    apply Watches.ite
    · exact .expects (.pure _)
    apply Watches.expects
    apply Watches.expects
    apply Watches.bind (.stays _)
    intro i
    apply Watches.ite (.pure _)
    apply Watches.bind (.stays _)
    intro part
    apply Watches.expects
    apply Watches.expects
    apply Watches.bind (.stays _)
    intro directory
    apply Watches.bind_map (fat16FindItemInDirectoryTracked_watches _ _ _)
    intro tmp_item
    apply Watches.bind (fat16FatItemFreeTracked_watches _)
    intro _
    apply Watches.bind (.stays _)
    exact fun part => ih _ _

/-- Unless it leaves, the tracked lookup is the code. -/
theorem fat16GetDirectoryEntryTracked_watches (strict : Bool) (path : Nat) :
    Watches (fat16GetDirectoryEntryTracked strict path) (fat16GetDirectoryEntry path) := by
  apply Watches.bind (.stays _)
  intro fat_private
  apply Watches.bind (.stays _)
  intro part
  apply Watches.bind_map (fat16FindItemInDirectoryTracked_watches _ _ _)
  intro root_item
  apply Watches.ite
  · exact .expects (.pure _)
  apply Watches.bind (.stays _)
  exact fun part => fat16GetDirectoryEntryLoopTracked_watches _ _ _ _

end PlumOS
