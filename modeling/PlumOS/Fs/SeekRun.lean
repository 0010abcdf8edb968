import PlumOS.Fs.FileOpen

/-!
# Seeks and reads on an open file

Runs of `fseek` and `fread` on a descriptor of a regular file. `fat16_seek` compares the
offset with the file's size before it looks at the mode, so a seek from the current
position can pass the end.

## Main definitions

- `regularFile?` — the position of a descriptor and the address of its directory entry
- `SeekReadStep` — a call that returns
- `PositionInFile`, `StaysInFile` — the position is not behind the end, and what keeps it there

## Main results

- `fseek_cases` — everything that a seek can do
- `fopen_seek_run_iff` — the runs in which the position stays in the file
-/

namespace PlumOS

open StateExcept LabelledRun

/-- The position of the descriptor `fd` and the address of the directory entry, when it is
open on a regular file. -/
def regularFile? (k : Kernel) (fd : Int) : Option (Nat × Nat) :=
  if k.file_descriptors (fd - 1).toNat = 0 then none
  else do
    let d ← (k.objs (k.file_descriptors (fd - 1).toNat)).bind Obj.fileDescriptor?
    let desc ← (k.objs d.private_).bind Obj.fatFileDescriptor?
    let desc_item ← (k.objs desc.item).bind Obj.fatItem?
    if desc_item.type = FAT_ITEM_TYPE_FILE then some (desc.pos, desc_item.item) else none

/-- The size in the directory entry at `address`. -/
def Kernel.filesize (k : Kernel) (address : Nat) : Nat :=
  (readFatDirectoryItem k.mem address).filesize

variable {k k' : Kernel} {fd : Int} {pos address : Nat}

theorem regularFile?_eq_some : regularFile? k fd = some (pos, address) ↔
    k.file_descriptors (fd - 1).toNat ≠ 0 ∧ ∃ d item,
      k.objs (k.file_descriptors (fd - 1).toNat) = some (.fileDescriptor d) ∧
      k.objs d.private_ = some (.fatFileDescriptor ⟨item, pos⟩) ∧
      k.objs item = some (.fatItem ⟨address, FAT_ITEM_TYPE_FILE⟩) := by
  unfold regularFile?
  constructor
  · intro h
    split at h
    · cases h
    next hne =>
    obtain ⟨d, hd, h⟩ := Option.bind_eq_some_iff.mp h
    obtain ⟨desc, hdesc, h⟩ := Option.bind_eq_some_iff.mp h
    obtain ⟨i, hi, h⟩ := Option.bind_eq_some_iff.mp h
    rw [Obj.fileDescriptor?_eq_some] at hd
    rw [Obj.fatFileDescriptor?_eq_some] at hdesc
    rw [Obj.fatItem?_eq_some] at hi
    split at h
    · next htype =>
      cases h
      exact ⟨hne, d, desc.item, hd, hdesc, by rw [hi, ← htype]⟩
    · cases h
  · rintro ⟨hne, d, item, hd, hdesc, hi⟩
    rw [if_neg hne]
    refine Option.bind_eq_some_iff.mpr ⟨d, Obj.fileDescriptor?_eq_some.mpr hd, ?_⟩
    refine Option.bind_eq_some_iff.mpr ⟨_, Obj.fatFileDescriptor?_eq_some.mpr hdesc, ?_⟩
    refine Option.bind_eq_some_iff.mpr ⟨_, Obj.fatItem?_eq_some.mpr hi, ?_⟩
    exact if_pos rfl

/-- What `fopen` opens, it opens at the start. -/
theorem fopen_regularFile {filename mode_str : List UInt8} (hopen : fopen filename mode_str k = .ok (fd, k'))
    (hfd : fd ≠ 0) (hr : regularFile? k' fd = some (pos, address)) : pos = 0 := by
  obtain ⟨i, d, rfl, hd, hpos⟩ := (fopen_position _ _ _ _ _ hopen).resolve_left hfd
  obtain ⟨-, d', item, hd', hdesc, -⟩ := regularFile?_eq_some.mp hr
  rw [show ((i : Int) + 1 - 1).toNat = i by omega, hd] at hd'
  cases hd'
  exact hpos _ hdesc

/-- Changing the position of the driver's descriptor changes nothing else of the file. -/
theorem modifyFatFileDescriptor_pos {d : FileDescriptor} {item : Nat} {f : Nat → Nat}
    (hne : k.file_descriptors (fd - 1).toNat ≠ 0)
    (hd : k.objs (k.file_descriptors (fd - 1).toNat) = some (.fileDescriptor d))
    (hdesc : k.objs d.private_ = some (.fatFileDescriptor ⟨item, pos⟩))
    (hi : k.objs item = some (.fatItem ⟨address, FAT_ITEM_TYPE_FILE⟩)) :
    Ensures (modifyFatFileDescriptor d.private_ fun desc => { desc with pos := f desc.pos }) k
      fun _ k' => k'.mem = k.mem ∧ regularFile? k' fd = some (f pos, address) := by
  refine .bind (deref_spec _ _ _) ?_
  rintro desc _ ⟨rfl, -, hdesc'⟩
  rw [Obj.fatFileDescriptor?_eq_some, hdesc] at hdesc'
  cases hdesc'
  refine (storeObj_spec _ _ _).ensures.mono fun _ k' hst => ⟨hst.mem, ?_⟩
  have hslot : k'.file_descriptors = k.file_descriptors := hst.globals.file_descriptors
  refine regularFile?_eq_some.mpr ⟨hslot ▸ hne, d, item, ?_, hst.self, ?_⟩
  · rw [hslot, hst.other _ fun h => ?_]
    · exact hd
    · rw [h, hdesc] at hd
      cases hd
  · rw [hst.other _ fun h => ?_]
    · exact hi
    · rw [h, hdesc] at hi
      cases hi

/-- Everything that a seek can do: fail and change nothing, or move the position to the
offset or by the offset, which is smaller than the file. -/
theorem fseek_cases (hr : regularFile? k fd = some (pos, address)) (offset : Int) (whence : Nat) :
    Ensures (fseek fd offset whence) k fun res k' =>
      (res < 0 ∧ k = k' ∧ (fd ≤ 0 ∨ PLUMOS_MAX_FILE_DESCRIPTORS ≤ fd ∨
        k.filesize address ≤ u32 offset ∨ whence ≠ SEEK_SET ∧ whence ≠ SEEK_CUR)) ∨
      (res = 0 ∧ k'.mem = k.mem ∧ fd < PLUMOS_MAX_FILE_DESCRIPTORS ∧
        u32 offset < k.filesize address ∧
        (whence = SEEK_SET ∧ regularFile? k' fd = some (u32 offset, address) ∨
          whence = SEEK_CUR ∧ regularFile? k' fd = some (u32 (pos + u32 offset), address))) := by
  obtain ⟨hne, d, item, hd, hdesc, hi⟩ := regularFile?_eq_some.mp hr
  refine .bind (R := fun desc k' => k = k' ∧
    (desc = 0 ∧ (fd ≤ 0 ∨ PLUMOS_MAX_FILE_DESCRIPTORS ≤ fd) ∨
      desc = k.file_descriptors (fd - 1).toNat ∧ fd < PLUMOS_MAX_FILE_DESCRIPTORS)) ?_ ?_
  · unfold fileGetDescriptor
    split
    · next hfd => exact .pure ⟨rfl, .inl ⟨rfl, hfd⟩⟩
    · next hfd => exact .reads ⟨rfl, .inr ⟨rfl, by omega⟩⟩
  rintro desc _ ⟨rfl, ⟨rfl, hfd⟩ | ⟨rfl, hmax⟩⟩
  · exact .pure (.inl ⟨by decide, rfl, hfd.elim .inl fun h => .inr (.inl h)⟩)
  rw [if_neg hne]
  refine .bind (deref_spec _ _ _) ?_
  rintro d' _ ⟨rfl, -, hd'⟩
  rw [Obj.fileDescriptor?_eq_some, hd] at hd'
  cases hd'
  refine .bind (R := fun _ k' => k = k') ?_ ?_
  · unfold descFilesystem
    split
    · exact .fails
    · exact .pure rfl
  rintro _ _ rfl
  refine .bind (deref_spec _ _ _) ?_
  rintro desc _ ⟨rfl, -, hdesc'⟩
  rw [Obj.fatFileDescriptor?_eq_some, hdesc] at hdesc'
  cases hdesc'
  refine .bind (deref_spec _ _ _) ?_
  rintro i _ ⟨rfl, -, hi'⟩
  rw [Obj.fatItem?_eq_some, hi] at hi'
  cases hi'
  rw [if_neg (not_not_intro rfl)]
  refine .bind (R := fun ritem k' => k = k' ∧ ritem = readFatDirectoryItem k.mem address) ?_ ?_
  · intro ritem k' h
    unfold derefItem at h
    split at h
    · cases h
    · cases h
      exact ⟨rfl, rfl⟩
  rintro ritem _ ⟨rfl, rfl⟩
  split
  · next hle => exact .pure (.inl ⟨by decide, rfl, .inr (.inr (.inl hle))⟩)
  next hlt =>
  have hsize : u32 offset < k.filesize address := Nat.lt_of_not_le hlt
  split
  · next hset =>
    refine .bind (modifyFatFileDescriptor_pos (f := fun _ => u32 offset) hne hd hdesc hi) ?_
    rintro _ k' ⟨hmem, hr'⟩
    exact .pure (.inr ⟨rfl, hmem, hmax, hsize, .inl ⟨hset, hr'⟩⟩)
  next hset =>
  split
  · next hend =>
    have hcur : whence ≠ SEEK_CUR := by
      rw [hend]
      decide
    exact .pure (.inl ⟨by decide, rfl, .inr (.inr (.inr ⟨hset, hcur⟩))⟩)
  split
  · next hcur =>
    refine .bind (modifyFatFileDescriptor_pos (f := fun p => u32 (p + u32 offset)) hne hd hdesc
      hi) ?_
    rintro _ k' ⟨hmem, hr'⟩
    exact .pure (.inr ⟨rfl, hmem, hmax, hsize, .inr ⟨hcur, hr'⟩⟩)
  · next hcur => exact .pure (.inl ⟨by decide, rfl, .inr (.inr (.inr ⟨hset, hcur⟩))⟩)

/-- A read stores into its buffer and nowhere else. -/
theorem fat16ReadLoop_mem (item : Nat) {size : Nat} (hsize : size < 0x100000000) :
    ∀ (nmemb : Nat) (offset : Int) (out_ptr : Nat) (res : Int) (k : Kernel),
      Ensures (fat16ReadLoop item size nmemb offset out_ptr res) k fun _ k' =>
        ∀ a, a < out_ptr ∨ out_ptr + size * nmemb ≤ a → k'.mem a = k.mem a := by
  intro nmemb
  induction nmemb with
  | zero => exact fun _ _ _ _ => .pure fun _ _ => rfl
  | succ nmemb ih =>
    intro offset out_ptr res k
    rw [Nat.mul_succ]
    refine .bind (derefItem_spec _ _) ?_
    rintro i _ rfl
    have hrange := i32_mem size
    refine .bind ((onDisk_spec _ _).and (onDisk_ensures (fat16ReadInternal_length _ _ hrange.1
      hrange.2 _))) ?_
    rintro r k₁ ⟨hk₁, -, hlen⟩
    have hle := i32_toNat_le hsize
    refine .bind (R := fun _ k₂ => ∀ a, a < out_ptr ∨ out_ptr + size ≤ a →
      k₂.mem a = k.mem a) (.modifies fun a ha => ?_) ?_
    · rw [hk₁]
      exact writeBytes_of_not_mem (by omega)
    intro _ k₂ hk₂
    split
    · exact .pure fun a ha => hk₂ a (by omega)
    · exact (ih _ _ _ k₂).mono fun _ k₃ hk₃ a ha =>
        (hk₃ a (by omega)).trans (hk₂ a (by omega))

theorem fat16Read_mem {size : Nat} (hsize : size < 0x100000000) (descriptor nmemb out_ptr : Nat)
    (k : Kernel) : Ensures (fat16Read descriptor size nmemb out_ptr) k fun _ k' =>
      ∀ a, a < out_ptr ∨ out_ptr + size * nmemb ≤ a → k'.mem a = k.mem a := by
  refine .bind (deref_spec _ _ _) ?_
  rintro fat_desc _ ⟨rfl, -, -⟩
  refine .bind (deref_spec _ _ _) ?_
  rintro f_item _ ⟨rfl, -, -⟩
  refine .bind (fat16ReadLoop_mem _ hsize _ _ _ _ _) ?_
  intro res k₁ hk₁
  split
  · exact .pure hk₁
  · exact .pure hk₁

theorem fread_mem {ptr size nmemb : Nat} (hsize : size < 0x100000000) (fd : Int) (k : Kernel) :
    Ensures (fread ptr size nmemb fd) k fun _ k' =>
      ∀ a, a < ptr ∨ ptr + size * nmemb ≤ a → k'.mem a = k.mem a := by
  unfold fread
  split
  · exact .pure fun _ _ => rfl
  · exact withDescriptor_ensures fd (fun _ _ => rfl) fun priv => fat16Read_mem hsize priv nmemb ptr k

/-! ### Runs -/

/-- The calls on the descriptor, with the arguments the C functions take. -/
inductive SeekRead
  | fseek (offset : Int) (whence : Nat)
  | fread (ptr : Nat) (size nmemb : Nat)

/-- A call on `fd` that returns `res`. A read's buffer is apart from the kernel's copy of
the directory entry at `address`. -/
inductive SeekReadStep (fd : Int) (address : Nat) : Kernel → SeekRead × Int → Kernel → Prop
  | fseek {offset : Int} {whence : Nat} {res : Int} {k k' : Kernel}
      (h : PlumOS.fseek fd offset whence k = .ok (res, k')) :
      SeekReadStep fd address k (.fseek offset whence, res) k'
  | fread {ptr size nmemb : Nat} {res : Int} {k k' : Kernel} (hsize : size < 0x100000000)
      (hout : ptr + size * nmemb ≤ address ∨ address + sizeofFatDirectoryItem ≤ ptr)
      (h : PlumOS.fread ptr size nmemb fd k = .ok (res, k')) :
      SeekReadStep fd address k (.fread ptr size nmemb, res) k'

/-- The position is not behind the end of the file. -/
def PositionInFile (fd : Int) (k : Kernel) : Prop :=
  ∃ pos address, regularFile? k fd = some (pos, address) ∧ pos ≤ k.filesize address

/-- A seek that returns an error leaves the position where it was. -/
def ErrorKeepsPosition (fd : Int) (k : Kernel) : SeekRead × Int → Kernel → Prop
  | (.fseek _ _, res), k' => res < 0 → regularFile? k' fd = regularFile? k fd
  | _, _ => True

/-- A seek from the current position by less than the size of the file does not leave
the file. -/
def StaysInFile (fd : Int) (k : Kernel) : SeekRead × Int → Prop
  | (.fseek offset whence, _) => whence = SEEK_CUR → fd < PLUMOS_MAX_FILE_DESCRIPTORS →
      ∀ pos address, regularFile? k fd = some (pos, address) →
        u32 offset < k.filesize address → u32 (pos + u32 offset) ≤ k.filesize address
  | _ => True

/-- The descriptor is open on the regular file of `size` bytes with its entry at `address`. -/
def OpenRegular (fd : Int) (address size : Nat) (k : Kernel) : Prop :=
  k.filesize address = size ∧ ∃ pos, regularFile? k fd = some (pos, address)

theorem fread_regularFile {ptr size nmemb : Nat} {res : Int} (hsize : size < 0x100000000)
    (hout : ptr + size * nmemb ≤ address ∨ address + sizeofFatDirectoryItem ≤ ptr)
    (h : fread ptr size nmemb fd k = .ok (res, k')) :
    regularFile? k' fd = regularFile? k fd ∧ k'.filesize address = k.filesize address := by
  obtain ⟨hk', -⟩ := fread_data _ _ _ _ _ _ _ h
  have hmem := fread_mem hsize fd k _ _ h
  constructor
  · unfold regularFile?
    rw [hk']
  · unfold Kernel.filesize
    rw [readFatDirectoryItem_congr fun a h₁ h₂ => hmem a ?_]
    simp only [sizeofFatDirectoryItem] at hout
    omega

theorem SeekReadStep.openRegular {size : Nat} {l : SeekRead × Int}
    (h : OpenRegular fd address size k) (hst : SeekReadStep fd address k l k') :
    OpenRegular fd address size k' ∧ ErrorKeepsPosition fd k l k' := by
  obtain ⟨hsize, pos, hr⟩ := h
  cases hst with
  | fseek hok =>
    rcases fseek_cases hr _ _ _ _ hok with ⟨-, rfl, -⟩ | ⟨rfl, hmem, -, -, hpos⟩
    · exact ⟨⟨hsize, pos, hr⟩, fun _ => rfl⟩
    · refine ⟨⟨?_, ?_⟩, fun hneg => absurd hneg (by decide)⟩
      · unfold Kernel.filesize at hsize ⊢
        rw [hmem, hsize]
      · exact hpos.elim (fun h => ⟨_, h.2⟩) fun h => ⟨_, h.2⟩
  | fread hlt hout hok =>
    obtain ⟨hfile, hsame⟩ := fread_regularFile hlt hout hok
    exact ⟨⟨hsame.trans hsize, pos, hfile.trans hr⟩, trivial⟩

/-- One call keeps the position in the file exactly when it is no seek by too much. -/
theorem SeekReadStep.positionInFile_iff {size : Nat} {l : SeekRead × Int} (hfd : 0 < fd)
    (h : OpenRegular fd address size k) (hin : PositionInFile fd k)
    (hst : SeekReadStep fd address k l k') : PositionInFile fd k' ↔ StaysInFile fd k l := by
  obtain ⟨pos, address', hr', hle⟩ := hin
  obtain ⟨-, pos', hr⟩ := h
  cases hr'.symm.trans hr
  cases hst with
  | fseek hok =>
    rcases fseek_cases hr _ _ _ _ hok with ⟨-, rfl, hwhy⟩ | ⟨rfl, hmem, hmax, hlt, hpos⟩
    · refine iff_of_true ⟨_, _, hr, hle⟩ ?_
      intro hcur hmax pos₁ address₁ hr₁ hlt
      cases hr.symm.trans hr₁
      rcases hwhy with hneg | hmax' | hbig | ⟨-, hne⟩
      · omega
      · omega
      · omega
      · exact absurd hcur hne
    · have hsize : k'.filesize address = k.filesize address := by
        unfold Kernel.filesize
        rw [hmem]
      rcases hpos with ⟨rfl, hset⟩ | ⟨rfl, hcur⟩
      · exact iff_of_true ⟨_, _, hset, by omega⟩ fun h => absurd h (by decide)
      · constructor
        · rintro ⟨pos₁, address₁, hr₁, hle₁⟩ - - pos₂ address₂ hr₂ -
          cases hcur.symm.trans hr₁
          cases hr.symm.trans hr₂
          rwa [hsize] at hle₁
        · intro h
          exact ⟨_, _, hcur, by rw [hsize]; exact h rfl hmax _ _ hr hlt⟩
  | fread hlt hout hok =>
    obtain ⟨hfile, hsame⟩ := fread_regularFile hlt hout hok
    exact iff_of_true ⟨_, _, hfile.trans hr, by rw [hsame]; exact hle⟩ trivial

/-- In a run of seeks and reads behind the `fopen` of a regular file every failing seek
leaves the position, and the position stays in the file exactly when no seek from the
current position leaves it. -/
theorem fopen_seek_run_iff {filename mode_str : List UInt8} {k₀ : Kernel}
    (hopen : fopen filename mode_str k₀ = .ok (fd, k)) (hfd : 0 < fd)
    (hregular : ∃ pos, regularFile? k fd = some (pos, address))
    {tr : List ((SeekRead × Int) × Kernel)} (hrun : Run (SeekReadStep fd address) k tr) :
    AllStates (PositionInFile fd) k tr ∧ AllMoves (ErrorKeepsPosition fd) k tr ↔
      AllSteps (StaysInFile fd) k tr := by
  have hstart : OpenRegular fd address (k.filesize address) k := ⟨rfl, hregular⟩
  have hin : PositionInFile fd k := by
    obtain ⟨pos, hr⟩ := hregular
    refine ⟨pos, address, hr, ?_⟩
    rw [fopen_regularFile hopen hfd.ne' hr]
    exact Nat.zero_le _
  have herrors : AllMoves (ErrorKeepsPosition fd) k tr :=
    hrun.allMoves (fun h hst => (hst.openRegular h).1) (fun h hst => (hst.openRegular h).2) hstart
  rw [and_iff_left herrors]
  exact hrun.allStates_iff_allSteps
    (fun {k'} (h : OpenRegular fd address (k.filesize address) k' ∧ PositionInFile fd k') => h.2)
    (fun h hC hst => ⟨(hst.openRegular h.1).1, (hst.positionInFile_iff hfd h.1 h.2).mpr hC⟩)
    (fun h hC hst => fun hP => hC ((hst.positionInFile_iff hfd h.1 h.2).mp hP)) ⟨hstart, hin⟩

/-- The file `A` of two bytes is opened and sought in three times. -/
def seekA (whence : Nat) : KM (Int × Option (Nat × Nat) × Int × Int × Int) := do
  let fd ← fopen [0x30, 0x3A, 0x2F, 0x41] [0x72]
  let opened ← reads fun k => regularFile? k 1
  let r₁ ← fseek 1 1 whence
  let r₂ ← fseek 1 1 whence
  let r₃ ← fseek 1 1 whence
  pure (fd, opened, r₁, r₂, r₃)

/-- The run of the three seeks, for what the whole returns. -/
theorem seekA_run (whence : Nat) {q : Kernel → Bool} (h : Returns (seekA whence) Kernel.withA
    fun r k => (decide (r.1 = 1 ∧ r.2.1 = some (0, 0x1006000)) && q k) = true) :
    ∃ k r₁ k₁ r₂ k₂ r₃ k₃, fopen [0x30, 0x3A, 0x2F, 0x41] [0x72] Kernel.withA = .ok (1, k) ∧
      regularFile? k 1 = some (0, 0x1006000) ∧ q k₃ = true ∧
      Run (SeekReadStep 1 0x1006000) k [((.fseek 1 whence, r₁), k₁), ((.fseek 1 whence, r₂), k₂),
        ((.fseek 1 whence, r₃), k₃)] := by
  obtain ⟨r, k₃, hok, hq⟩ := h
  obtain ⟨fd, k, hopen, hok⟩ := bind_eq_ok.mp hok
  obtain ⟨opened, _, hread, hok⟩ := bind_eq_ok.mp hok
  cases hread
  obtain ⟨r₁, k₁, h₁, hok⟩ := bind_eq_ok.mp hok
  obtain ⟨r₂, k₂, h₂, hok⟩ := bind_eq_ok.mp hok
  obtain ⟨r₃, _, h₃, hok⟩ := bind_eq_ok.mp hok
  obtain ⟨rfl, rfl⟩ := pure_eq_ok.mp hok
  rw [Bool.and_eq_true, decide_eq_true_eq] at hq
  obtain ⟨⟨rfl, hopened⟩, hq⟩ := hq
  exact ⟨k, r₁, k₁, r₂, k₂, r₃, _, hopen, hopened, hq,
    .cons (.fseek h₁) (.cons (.fseek h₂) (.cons (.fseek h₃) (.nil _)))⟩

/-- Three seeks to the second byte of a file of two. -/
theorem fopen_seek_run_iff_set : ∃ k tr, tr.length = 3 ∧
    Run (SeekReadStep 1 0x1006000) k tr ∧ AllStates (PositionInFile 1) k tr ∧
      AllMoves (ErrorKeepsPosition 1) k tr := by
  obtain ⟨k, r₁, k₁, r₂, k₂, r₃, k₃, hopen, hr, -, hrun⟩ := seekA_run SEEK_SET
    (q := fun _ => true) (.of_checks (by decide +kernel))
  refine ⟨k, _, rfl, hrun, (fopen_seek_run_iff hopen (by decide) ⟨_, hr⟩ hrun).mpr ?_⟩
  exact ⟨fun h => absurd h (by decide), fun h => absurd h (by decide),
    fun h => absurd h (by decide), trivial⟩

/-- Three seeks by one byte in a file of two: the position is 3. -/
theorem seek_behind_end : ∃ k tr,
    fopen [0x30, 0x3A, 0x2F, 0x41] [0x72] Kernel.withA = .ok (1, k) ∧
      (∃ pos, regularFile? k 1 = some (pos, 0x1006000)) ∧
      Run (SeekReadStep 1 0x1006000) k tr ∧ ¬ AllStates (PositionInFile 1) k tr := by
  obtain ⟨k, r₁, k₁, r₂, k₂, r₃, k₃, hopen, hr, hq, hrun⟩ := seekA_run SEEK_CUR
    (q := fun k => decide (regularFile? k 1 = some (3, 0x1006000) ∧ k.filesize 0x1006000 = 2))
    (.of_checks (by decide +kernel))
  refine ⟨k, _, hopen, ⟨_, hr⟩, hrun, fun hall => ?_⟩
  obtain ⟨hthree, hsize⟩ := of_decide_eq_true hq
  obtain ⟨pos, address, hr₃, hle⟩ : PositionInFile 1 k₃ := hall.last
  cases hthree.symm.trans hr₃
  omega

end PlumOS
