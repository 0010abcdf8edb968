import PlumOS.Fs.FileOpen
import PlumOS.Fs.FileOwnership
import PlumOS.Lib.EarlyExit
import PlumOS.Lib.LabelledRun

/-!
# The union in an item

An item holds a pointer to a directory entry or to a directory, in a union, and a type
tag that says which. Of the functions that get a descriptor, `fat16_read` alone takes
the pointer for one to a directory entry without a look at the tag.

## Main definitions

- `FatItem.useMember` — a use of a member, watched
- `DriverCall` — the calls that get a descriptor
- `DriverCall.KeepsTag` — a call that respects the tag

## Main results

- `DriverCall.watched_watches` — the watched functions are the code
- `fat16Open_keepsTag_iff`
-/

namespace PlumOS

open StateExcept LabelledRun

/-! ### The code with its uses of the union -/

inductive UnionMember
  | item
  | directory
  deriving DecidableEq

/-- The type tag for which the member is the one in use. -/
def UnionMember.tag : UnionMember → Nat
  | .item => FAT_ITEM_TYPE_FILE
  | .directory => FAT_ITEM_TYPE_DIRECTORY

/-- A use of the union that its tag does not select. -/
structure WrongMember where
  used : FatItem
  member : UnionMember

/-- Functions of the driver that leave at a use of the wrong member. -/
abbrev UM := Leaving WrongMember Kernel Fault

/-- Use the union through `member`. -/
def FatItem.useMember (i : FatItem) (member : UnionMember) : UM Nat :=
  if i.type = member.tag then pure i.item else leaves ⟨i, member⟩

/-- `fat16Read`, watched. -/
def fat16ReadWatched (descriptor size nmemb out_ptr : Nat) : UM Int := do
  let fat_desc ← stays (deref Obj.fatFileDescriptor? descriptor)
  let f_item ← stays (deref Obj.fatItem? fat_desc.item)
  let item ← f_item.useMember .item
  let res ← stays (fat16ReadLoop item size nmemb (i32 fat_desc.pos) out_ptr 0)
  if res < 0 then pure res
  else pure (i32 nmemb)

/-- `fat16Seek`, watched. -/
def fat16SeekWatched (descriptor offset seek_mode : Nat) : UM Int := do
  let desc ← stays (deref Obj.fatFileDescriptor? descriptor)
  let desc_item ← stays (deref Obj.fatItem? desc.item)
  if desc_item.type ≠ FAT_ITEM_TYPE_FILE then pure (-EINVARG)
  else do
    let item ← desc_item.useMember .item
    let ritem ← stays (derefItem item)
    if ritem.filesize ≤ offset then pure (- EIO)
    else if seek_mode = SEEK_SET then do
      stays (modifyFatFileDescriptor descriptor fun d => { d with pos := offset })
      pure 0
    else if seek_mode = SEEK_END then pure (-EUNIMP)
    else if seek_mode = SEEK_CUR then do
      stays (modifyFatFileDescriptor descriptor fun d => { d with pos := u32 (d.pos + offset) })
      pure 0
    else pure (-EINVARG)

/-- `fat16Stat`, watched. -/
def fat16StatWatched (descriptor : Nat) : UM (Int × Option FileStat) := do
  let desc ← stays (deref Obj.fatFileDescriptor? descriptor)
  let desc_item ← stays (deref Obj.fatItem? desc.item)
  if desc_item.type ≠ FAT_ITEM_TYPE_FILE then pure (-EINVARG, none)
  else do
    let item ← desc_item.useMember .item
    let ritem ← stays (derefItem item)
    let flags := if ritem.attribute_ &&& FAT_FILE_READ_ONLY ≠ 0 then FILE_STAT_READ_ONLY else 0
    pure (0, some ⟨flags, ritem.filesize⟩)

/-- `fat16FatItemFree`, watched. -/
def fat16FatItemFreeWatched (item : Nat) : UM PUnit := do
  let i ← stays (deref Obj.fatItem? item)
  leavingIf (i.type = FAT_ITEM_TYPE_DIRECTORY) do
    let directory ← i.useMember .directory
    stays (fat16FreeDirectory directory)
  leavingIf (i.type ≠ FAT_ITEM_TYPE_DIRECTORY ∧ i.type = FAT_ITEM_TYPE_FILE) do
    let entry ← i.useMember .item
    stays (kfree entry)
  stays (kfree item)

/-- `fat16Close`, watched. -/
def fat16CloseWatched (descriptor : Nat) : UM Int := do
  let d ← stays (deref Obj.fatFileDescriptor? descriptor)
  fat16FatItemFreeWatched d.item
  stays (kfree descriptor)
  pure 0

/-! ### Calls with a descriptor -/

inductive DriverCall
  | read (size nmemb out_ptr : Nat)
  | seek (offset seek_mode : Nat)
  | stat
  | close
  deriving DecidableEq

def DriverCall.IsRead : DriverCall → Prop
  | .read _ _ _ => True
  | _ => False

/-- The call: the status, and `*stat` if it is written. -/
def DriverCall.run (descriptor : Nat) : DriverCall → KM (Int × Option FileStat)
  | .read size nmemb out_ptr => do
    let res ← fat16Read descriptor size nmemb out_ptr
    pure (res, none)
  | .seek offset seek_mode => do
    let res ← fat16Seek descriptor offset seek_mode
    pure (res, none)
  | .stat => fat16Stat descriptor
  | .close => do
    let res ← fat16Close descriptor
    pure (res, none)

def DriverCall.watched (descriptor : Nat) : DriverCall → UM (Int × Option FileStat)
  | .read size nmemb out_ptr => do
    let res ← fat16ReadWatched descriptor size nmemb out_ptr
    pure (res, none)
  | .seek offset seek_mode => do
    let res ← fat16SeekWatched descriptor offset seek_mode
    pure (res, none)
  | .stat => fat16StatWatched descriptor
  | .close => do
    let res ← fat16CloseWatched descriptor
    pure (res, none)

theorem FatItem.useMember_of_eq {i : FatItem} {member : UnionMember} (h : i.type = member.tag) :
    i.useMember member = pure i.item := if_pos h

theorem FatItem.useMember_of_ne {i : FatItem} {member : UnionMember} (h : i.type ≠ member.tag) :
    i.useMember member = leaves ⟨i, member⟩ := if_neg h

theorem FatItem.useMember_file {i : FatItem} (h : i.type = FAT_ITEM_TYPE_FILE) :
    i.useMember .item = pure i.item := useMember_of_eq h

theorem FatItem.useMember_directory {i : FatItem} (h : i.type = FAT_ITEM_TYPE_DIRECTORY) :
    i.useMember .directory = pure i.item := useMember_of_eq h

/-- A use of the union before the rest of the program. -/
theorem FatItem.useMember_watches {α : Type} (i : FatItem) (member : UnionMember)
    {f : Nat → UM α} {m : KM α} (h : Watches (f i.item) m) :
    Watches (i.useMember member >>= f) m := by
  by_cases htag : i.type = member.tag
  · rw [i.useMember_of_eq htag, pure_bind]
    exact h
  · intro s
    rw [i.useMember_of_ne htag, run_bind]
    exact Or.inl ⟨_, _, rfl⟩

theorem fat16ReadWatched_watches (descriptor size nmemb out_ptr : Nat) :
    Watches (fat16ReadWatched descriptor size nmemb out_ptr)
      (fat16Read descriptor size nmemb out_ptr) := by
  apply Watches.bind (.stays _)
  intro fat_desc
  apply Watches.bind (.stays _)
  intro f_item
  apply f_item.useMember_watches
  apply Watches.bind (.stays _)
  intro res
  exact .ite (.pure _) (.pure _)

theorem fat16SeekWatched_watches (descriptor offset seek_mode : Nat) :
    Watches (fat16SeekWatched descriptor offset seek_mode)
      (fat16Seek descriptor offset seek_mode) := by
  apply Watches.bind (.stays _)
  intro desc
  apply Watches.bind (.stays _)
  intro desc_item
  apply Watches.ite (.pure _)
  apply desc_item.useMember_watches
  apply Watches.bind (.stays _)
  intro ritem
  apply Watches.ite (.pure _)
  apply Watches.ite
  · exact .bind (.stays _) fun _ => .pure _
  apply Watches.ite (.pure _)
  apply Watches.ite
  · exact .bind (.stays _) fun _ => .pure _
  · exact .pure _

theorem fat16StatWatched_watches (descriptor : Nat) :
    Watches (fat16StatWatched descriptor) (fat16Stat descriptor) := by
  apply Watches.bind (.stays _)
  intro desc
  apply Watches.bind (.stays _)
  intro desc_item
  apply Watches.ite (.pure _)
  apply desc_item.useMember_watches
  apply Watches.bind (.stays _)
  exact fun ritem => .pure _

theorem fat16FatItemFreeWatched_watches (item : Nat) :
    Watches (fat16FatItemFreeWatched item) (fat16FatItemFree item) := by
  apply Watches.bind (.stays _)
  intro i
  apply Watches.bind
  · exact .onlyIf (i.useMember_watches _ (.stays _))
  intro _
  apply Watches.bind
  · exact .onlyIf (i.useMember_watches _ (.stays _))
  exact fun _ => .stays _

theorem fat16CloseWatched_watches (descriptor : Nat) :
    Watches (fat16CloseWatched descriptor) (fat16Close descriptor) := by
  unfold fat16Close fat16FreeFileDescriptor
  rw [bind_assoc]
  apply Watches.bind (.stays _)
  intro d
  rw [bind_assoc]
  apply Watches.bind (fat16FatItemFreeWatched_watches _)
  intro _
  exact .bind (.stays _) fun _ => .pure _

/-- Unless it uses the wrong member, the watched call is the code. -/
theorem DriverCall.watched_watches (descriptor : Nat) (call : DriverCall) :
    Watches (call.watched descriptor) (call.run descriptor) := by
  cases call with
  | read size nmemb out_ptr => exact .bind (fat16ReadWatched_watches _ _ _ _) fun _ => .pure _
  | seek offset seek_mode => exact .bind (fat16SeekWatched_watches _ _ _) fun _ => .pure _
  | stat => exact fat16StatWatched_watches _
  | close => exact .bind (fat16CloseWatched_watches _) fun _ => .pure _

/-! ### What a descriptor refers to -/

/-- The descriptor refers to an item, and that is `i`. -/
def RefersTo (k : Kernel) (descriptor : Nat) (i : FatItem) : Prop :=
  ∃ d, descriptor ≠ 0 ∧ k.objs descriptor = some (.fatFileDescriptor d) ∧ d.item ≠ 0 ∧
    k.objs d.item = some (.fatItem i)

/-- The call uses the union of the item through the member that its tag selects, and a
call that is not to close a directory is refused and changes nothing. -/
structure DriverCall.KeepsTag (call : DriverCall) (descriptor : Nat) (i : FatItem)
    (k : Kernel) : Prop where
  member : NeverLeaves (call.watched descriptor) k
  refused : i.type = FAT_ITEM_TYPE_DIRECTORY → call ≠ .close →
    ∃ res < 0, call.run descriptor k = .ok ((res, none), k)

/-! ### The calls one by one -/

theorem fat16SeekWatched_neverLeaves (descriptor offset seek_mode : Nat) (k : Kernel) :
    NeverLeaves (fat16SeekWatched descriptor offset seek_mode) k := by
  apply NeverLeaves.bind (.stays _)
  intro desc k₁
  apply NeverLeaves.bind (.stays _)
  intro desc_item k₂
  by_cases htype : desc_item.type ≠ FAT_ITEM_TYPE_FILE
  · rw [if_pos htype]
    exact .pure _
  rw [if_neg htype, desc_item.useMember_file (not_not.mp htype), pure_bind]
  apply NeverLeaves.bind (.stays _)
  intro ritem k₃
  split_ifs
  · exact .pure _
  · exact .bind (.stays _) fun _ _ => .pure _
  · exact .pure _
  · exact .bind (.stays _) fun _ _ => .pure _
  · exact .pure _

theorem fat16StatWatched_neverLeaves (descriptor : Nat) (k : Kernel) :
    NeverLeaves (fat16StatWatched descriptor) k := by
  apply NeverLeaves.bind (.stays _)
  intro desc k₁
  apply NeverLeaves.bind (.stays _)
  intro desc_item k₂
  by_cases htype : desc_item.type ≠ FAT_ITEM_TYPE_FILE
  · rw [if_pos htype]
    exact .pure _
  rw [if_neg htype, desc_item.useMember_file (not_not.mp htype), pure_bind]
  exact .bind (.stays _) fun _ _ => .pure _

theorem fat16CloseWatched_neverLeaves (descriptor : Nat) (k : Kernel) :
    NeverLeaves (fat16CloseWatched descriptor) k := by
  apply NeverLeaves.bind (.stays _)
  intro d k₁
  refine NeverLeaves.bind ?_ fun _ _ => .bind (.stays _) fun _ _ => .pure _
  apply NeverLeaves.bind (.stays _)
  intro i k₂
  apply NeverLeaves.bind
  · refine .leavingIf fun hdir => ?_
    rw [i.useMember_directory hdir, pure_bind]
    exact .stays _
  intro _ k₃
  refine NeverLeaves.bind (.leavingIf fun hfile => ?_) fun _ _ => .stays _
  rw [i.useMember_file hfile.2, pure_bind]
  exact .stays _

section RefersTo

variable {k : Kernel} {descriptor : Nat} {i : FatItem}

/-- What the calls read first. -/
theorem RefersTo.derefs (h : RefersTo k descriptor i) : ∃ d : FatFileDescriptor,
    deref Obj.fatFileDescriptor? descriptor k = .ok (d, k) ∧
      deref Obj.fatItem? d.item k = .ok (i, k) := by
  obtain ⟨d, hne, hd, hine, hi⟩ := h
  exact ⟨d, deref_ok hne hd rfl, deref_ok hine hi rfl⟩

/-- `fat16_read` respects the tag of a file and of nothing else. -/
theorem RefersTo.read_neverLeaves_iff (h : RefersTo k descriptor i) (size nmemb out_ptr : Nat) :
    NeverLeaves (fat16ReadWatched descriptor size nmemb out_ptr) k ↔
      i.type = FAT_ITEM_TYPE_FILE := by
  obtain ⟨d, hd, hi⟩ := h.derefs
  unfold fat16ReadWatched
  rw [NeverLeaves.congr (run_stays_bind hd), NeverLeaves.congr (run_stays_bind hi)]
  constructor
  · intro hnever
    by_contra htype
    have hleave : i.useMember .item = leaves ⟨i, .item⟩ := i.useMember_of_ne htype
    rw [hleave] at hnever
    exact hnever (.error ⟨i, .item⟩) k rfl
  · intro htype
    rw [i.useMember_file htype, pure_bind]
    refine NeverLeaves.bind (.stays _) fun res _ => ?_
    split
    · exact .pure _
    · exact .pure _

/-- `fat16_seek` refuses a directory. -/
theorem RefersTo.seek_refused (h : RefersTo k descriptor i) (htype : i.type ≠ FAT_ITEM_TYPE_FILE)
    (offset seek_mode : Nat) : fat16Seek descriptor offset seek_mode k = .ok (-EINVARG, k) := by
  obtain ⟨d, hd, hi⟩ := h.derefs
  unfold fat16Seek
  rw [bind_of_ok hd, bind_of_ok hi, if_pos htype]
  rfl

/-- `fat16_stat` refuses a directory. -/
theorem RefersTo.stat_refused (h : RefersTo k descriptor i) (htype : i.type ≠ FAT_ITEM_TYPE_FILE) :
    fat16Stat descriptor k = .ok ((-EINVARG, none), k) := by
  obtain ⟨d, hd, hi⟩ := h.derefs
  unfold fat16Stat
  rw [bind_of_ok hd, bind_of_ok hi, if_pos htype]
  rfl

theorem FatItem.Tagged.file_iff (h : i.Tagged) :
    i.type = FAT_ITEM_TYPE_FILE ↔ ¬ i.type = FAT_ITEM_TYPE_DIRECTORY := by
  unfold FatItem.Tagged at h
  simp only [FAT_ITEM_TYPE_DIRECTORY, FAT_ITEM_TYPE_FILE] at h ⊢
  omega

/-- A call respects the tag unless it reads a directory. -/
theorem RefersTo.keepsTag_iff (h : RefersTo k descriptor i) (htag : i.Tagged) (call : DriverCall) :
    call.KeepsTag descriptor i k ↔ ¬ (call.IsRead ∧ i.type = FAT_ITEM_TYPE_DIRECTORY) := by
  cases call with
  | read size nmemb out_ptr =>
    have hread := h.read_neverLeaves_iff size nmemb out_ptr
    rw [htag.file_iff] at hread
    constructor
    · rintro ⟨hnever, -⟩ ⟨-, hdir⟩
      refine hread.mp ?_ hdir
      rintro (w | res) k' hrun
      · refine hnever (.error w) k' ?_
        change (fat16ReadWatched descriptor size nmemb out_ptr >>= _).run k = _
        rw [run_bind, hrun]
      · trivial
    · intro hno
      have hfile : ¬ i.type = FAT_ITEM_TYPE_DIRECTORY := fun hdir => hno ⟨trivial, hdir⟩
      exact ⟨.bind (hread.mpr hfile) fun _ _ => .pure _, fun hdir => absurd hdir hfile⟩
  | seek offset seek_mode =>
    refine iff_of_true ⟨?_, fun hdir _ => ?_⟩ fun hno => hno.1
    · exact .bind (fat16SeekWatched_neverLeaves _ _ _ _) fun _ _ => .pure _
    · refine ⟨-EINVARG, by decide, ?_⟩
      have hseek := h.seek_refused (fun hfile => htag.file_iff.mp hfile hdir) offset seek_mode
      exact bind_of_ok hseek
  | stat =>
    refine iff_of_true ⟨fat16StatWatched_neverLeaves _ _, fun hdir _ => ?_⟩ fun hno => hno.1
    exact ⟨-EINVARG, by decide, h.stat_refused fun hfile => htag.file_iff.mp hfile hdir⟩
  | close =>
    refine iff_of_true ⟨?_, fun _ hne => absurd rfl hne⟩ fun hno => hno.1
    exact .bind (fat16CloseWatched_neverLeaves _ _) fun _ _ => .pure _

/-! ### Runs -/

/-- A call that leaves the descriptor open, or a step of the rest of the kernel that
leaves it and its item as they are. -/
inductive DriverStep (descriptor : Nat) : Kernel → Option DriverCall → Kernel → Prop
  | call {k k' : Kernel} {call : DriverCall} {r : Int × Option FileStat} (hopen : call ≠ .close)
      (h : call.run descriptor k = .ok (r, k')) : DriverStep descriptor k (some call) k'
  | other {k k' : Kernel} (hdesc : k'.objs descriptor = k.objs descriptor)
      (hitem : ∀ d, k.objs descriptor = some (.fatFileDescriptor d) → k'.objs d.item = k.objs d.item) :
      DriverStep descriptor k none k'

/-- A new position leaves the descriptor with its item. -/
theorem RefersTo.modify (h : RefersTo k descriptor i) {f : FatFileDescriptor → FatFileDescriptor}
    (hf : ∀ d, (f d).item = d.item) :
    Ensures (modifyFatFileDescriptor descriptor f) k fun _ k' => RefersTo k' descriptor i := by
  obtain ⟨d, hne, hd, hine, hi⟩ := h
  refine .bind (deref_spec _ _ _) ?_
  rintro d' _ ⟨rfl, -, hd'⟩
  rw [Obj.fatFileDescriptor?_eq_some, hd] at hd'
  cases hd'
  have hother : d.item ≠ descriptor := by
    intro heq
    rw [heq, hd] at hi
    cases hi
  refine (storeObj_spec _ _ _).ensures.mono ?_
  intro _ k' hst
  refine ⟨f d, hne, hst.self, ?_, ?_⟩
  · rw [hf]
    exact hine
  · rw [hf, hst.other _ hother, hi]

theorem RefersTo.seek (h : RefersTo k descriptor i) (offset seek_mode : Nat) :
    Ensures (fat16Seek descriptor offset seek_mode) k fun _ k' => RefersTo k' descriptor i := by
  refine .bind (deref_spec _ _ _) ?_
  rintro desc _ ⟨rfl, -, -⟩
  refine .bind (deref_spec _ _ _) ?_
  rintro desc_item _ ⟨rfl, -, -⟩
  split
  · exact .pure h
  refine .bind (derefItem_spec _ _) ?_
  rintro ritem _ rfl
  split_ifs
  · exact .pure h
  · exact .bind (h.modify fun _ => rfl) fun _ _ h' => .pure h'
  · exact .pure h
  · exact .bind (h.modify fun _ => rfl) fun _ _ h' => .pure h'
  · exact .pure h

/-- Every call but the last leaves the descriptor with its item. -/
theorem RefersTo.run (h : RefersTo k descriptor i) {call : DriverCall} (hopen : call ≠ .close) :
    Ensures (call.run descriptor) k fun _ k' => RefersTo k' descriptor i := by
  cases call with
  | close => exact absurd rfl hopen
  | stat =>
    refine (fat16Stat_data descriptor k).mono ?_
    rintro _ _ rfl
    exact h
  | seek offset seek_mode => exact .bind (h.seek offset seek_mode) fun _ _ h' => .pure h'
  | read size nmemb out_ptr =>
    refine .bind (fat16Read_data descriptor size nmemb out_ptr k) ?_
    rintro res k' ⟨hk', -⟩
    obtain ⟨d, hne, hd, hine, hi⟩ := h
    rw [hk']
    exact .pure ⟨d, hne, hd, hine, hi⟩

/-- Every step leaves the descriptor with its item. -/
theorem RefersTo.step {k' : Kernel} {call : Option DriverCall} (h : RefersTo k descriptor i)
    (hstep : DriverStep descriptor k call k') : RefersTo k' descriptor i := by
  cases hstep with
  | call hopen hrun => exact h.run hopen _ _ hrun
  | other hdesc hitem =>
    obtain ⟨d, hne, hd, hine, hi⟩ := h
    exact ⟨d, hne, hdesc.trans hd, hine, (hitem d hd).trans hi⟩

end RefersTo

/-- What `fat16_open` returns refers to an item that is tagged. -/
theorem fat16Open_refersTo {k k₁ : Kernel} {path mode descriptor : Nat} (h : k.Tidy)
    (hopen : fat16Open path mode k = .ok (descriptor, k₁)) (hok : ISERR descriptor = false) :
    ∃ i, i.Tagged ∧ RefersTo k₁ descriptor i := by
  obtain ⟨S, hS, hpriv, d, hd, i, hi, himem, htag, -⟩ :=
    (fat16Open_intact (.empty h) path mode _ _ hopen).2 hok
  exact ⟨i, htag, d, (hS.held _ hpriv).ne_zero, hd, (hS.held _ himem).ne_zero, hi⟩

/-- For every descriptor that `fat16_open` returns, in every state that any run of reads,
seeks, stats and of the rest of the kernel leads to: a call uses the union through the
member that the tag selects, and refuses a directory without a trace unless it closes it,
if and only if it is not a read of a directory. -/
theorem fat16Open_keepsTag_iff {k k₁ : Kernel} {path mode descriptor : Nat} (h : k.Tidy)
    (hopen : fat16Open path mode k = .ok (descriptor, k₁)) (hok : ISERR descriptor = false) :
    ∃ i, i.Tagged ∧ RefersTo k₁ descriptor i ∧
      ∀ tr, Run (DriverStep descriptor) k₁ tr → AllStates (fun k₂ => ∀ call : DriverCall,
        call.KeepsTag descriptor i k₂ ↔
          ¬ (call.IsRead ∧ i.type = FAT_ITEM_TYPE_DIRECTORY)) k₁ tr := by
  obtain ⟨i, htag, href⟩ := fat16Open_refersTo h hopen hok
  refine ⟨i, htag, href, fun tr hrun => ?_⟩
  have hall := hrun.invariant (C := fun _ _ => True)
    (fun {s c s'} (hs : RefersTo s descriptor i) _ hstep => hs.step hstep) href
    (allSteps_of_forall (fun _ _ => trivial) _ _)
  exact ⟨hall.1.keepsTag_iff htag, fun x hx => (hall.2 x hx).keepsTag_iff htag⟩

/-! ### A file and a directory of the root directory -/

/-- `0:/A` is opened by the driver. -/
def openPathA : KM Nat := do
  let root_path ← pathparserParse [0x30, 0x3A, 0x2F, 0x41]
  let root ← deref Obj.pathRoot? root_path
  fat16Open root.first FILE_MODE_READ

/-- The disk and the memory of `Kernel.withA` with `A` a directory of one entry. -/
def Kernel.withDirectoryA : Kernel :=
  { Kernel.withA with
    disk := { Disk.twoBytes with image := fun p => if p = 1536 then 0x42 else 0 }
    mem := fun p => if p = 0x100000B then FAT_FILE_SUBDIRECTORY else rootWithA p }

/-- The call of the driver in `openPathA`. -/
theorem openPathA_open {k k' : Kernel} {descriptor : Nat} (h : k.Tidy)
    (hrun : openPathA k = .ok (descriptor, k')) : ∃ k₁ path, k₁.Tidy ∧
      fat16Open path FILE_MODE_READ k₁ = .ok (descriptor, k') := by
  obtain ⟨root_path, k₁, hparse, hrun⟩ := bind_eq_ok.mp hrun
  have hk₁ := (pathparserParse_intact (.empty h) _ _ _ hparse).1
  obtain ⟨root, k₂, hderef, hopen⟩ := bind_eq_ok.mp hrun
  obtain ⟨rfl, -, -⟩ := deref_spec _ _ _ _ _ hderef
  exact ⟨k₁, root.first, hk₁.guards.tidy, hopen⟩

/-- The type tag of the item that a descriptor refers to. -/
def itemTag (k : Kernel) (descriptor : Nat) : Option Nat := do
  let d ← (k.objs descriptor).bind Obj.fatFileDescriptor?
  let i ← (k.objs d.item).bind Obj.fatItem?
  pure i.type

theorem RefersTo.itemTag_eq {k : Kernel} {descriptor : Nat} {i : FatItem}
    (h : RefersTo k descriptor i) : itemTag k descriptor = some i.type := by
  obtain ⟨d, -, hd, -, hi⟩ := h
  unfold itemTag
  rw [hd]
  change ((k.objs d.item).bind Obj.fatItem?).bind _ = _
  rw [hi]
  rfl

theorem openPathA_file : Returns openPathA Kernel.withA fun r k =>
    ISERR r = false ∧ itemTag k r = some FAT_ITEM_TYPE_FILE :=
  (Returns.of_checks (q := fun r k => decide _) (by decide +kernel)).mono
    fun _ _ => of_decide_eq_true

theorem openPathA_directory : Returns openPathA Kernel.withDirectoryA fun r k =>
    ISERR r = false ∧ itemTag k r = some FAT_ITEM_TYPE_DIRECTORY :=
  (Returns.of_checks (q := fun r k => decide _) (by decide +kernel)).mono
    fun _ _ => of_decide_eq_true

/-- For the file `A` every call respects the tag. -/
theorem fat16Open_keepsTag_iff_A : ∃ k k₁ path descriptor i,
    fat16Open path FILE_MODE_READ k = .ok (descriptor, k₁) ∧ RefersTo k₁ descriptor i ∧
      ∀ call : DriverCall, call.KeepsTag descriptor i k₁ := by
  obtain ⟨descriptor, k₁, hrun, hok, htag⟩ := openPathA_file
  obtain ⟨k, path, htidy, hopen⟩ := openPathA_open withA_tidy hrun
  obtain ⟨i, -, href, hall⟩ := fat16Open_keepsTag_iff htidy hopen hok
  rw [href.itemTag_eq] at htag
  refine ⟨k, k₁, path, descriptor, i, hopen, href, fun call => ?_⟩
  refine ((hall [] (.nil k₁)).1 call).mpr fun hdir => ?_
  rw [hdir.2] at htag
  exact absurd htag (by decide)

/-- The directory `A` is opened, and a read of it takes its header for an entry. -/
theorem fat16Open_reads_directory : ∃ k k₁ path descriptor i,
    k.Tidy ∧ fat16Open path FILE_MODE_READ k = .ok (descriptor, k₁) ∧ RefersTo k₁ descriptor i ∧
      i.type = FAT_ITEM_TYPE_DIRECTORY ∧
      ¬ (DriverCall.read 1 1 0x1010000).KeepsTag descriptor i k₁ := by
  have hwithA : Kernel.withDirectoryA.Tidy := withA_tidy.congr rfl
  obtain ⟨descriptor, k₁, hrun, hok, htag⟩ := openPathA_directory
  obtain ⟨k, path, htidy, hopen⟩ := openPathA_open hwithA hrun
  obtain ⟨i, htagged, href⟩ := fat16Open_refersTo htidy hopen hok
  rw [href.itemTag_eq] at htag
  have hdir := Option.some.inj htag
  exact ⟨k, k₁, path, descriptor, i, htidy, hopen, href, hdir,
    fun h => (href.keepsTag_iff htagged _).mp h ⟨trivial, hdir⟩⟩

end PlumOS
