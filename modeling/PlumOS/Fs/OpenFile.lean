import PlumOS.Fs.File
import PlumOS.Fs.FileRead
import PlumOS.Fs.StreamFree
import PlumOS.Lib.LabelledRun

/-!
# Reading an open file

`fread` finds the private data of its descriptor and hands over to the driver. Here the
contract of `fat16_read` becomes one of `fread`, for one call and for several calls in
a row.

## Main definitions

- `OpenDescriptor` — a number that `file_get_descriptor` accepts
- `OpenFile` — a descriptor of a file
- `ReadStep` — reads on one descriptor, with the bytes delivered so far

## Main results

- `fread_whole_file` — one read of the whole file
- `fread_run_consecutive_iff` — reads in a row
-/

namespace PlumOS

open StateExcept LabelledRun

/-- `fd` is the number of an open descriptor with the private data `priv`. -/
structure OpenDescriptor (k : Kernel) (fd : Int) (priv : Nat) : Prop where
  fd_pos : 0 < fd
  fd_lt : fd < PLUMOS_MAX_FILE_DESCRIPTORS
  ne_zero : k.file_descriptors (fd - 1).toNat ≠ 0
  desc : ∃ d, k.objs (k.file_descriptors (fd - 1).toNat) = some (.fileDescriptor d) ∧
    d.filesystem ≠ 0 ∧ d.private_ = priv

theorem OpenDescriptor.congr {k k' : Kernel} {fd : Int} {priv : Nat} (h : OpenDescriptor k fd priv)
    (hslot : k'.file_descriptors (fd - 1).toNat = k.file_descriptors (fd - 1).toNat)
    (hdesc : k'.objs (k.file_descriptors (fd - 1).toNat) =
      k.objs (k.file_descriptors (fd - 1).toNat)) : OpenDescriptor k' fd priv where
  fd_pos := h.fd_pos
  fd_lt := h.fd_lt
  ne_zero := by
    rw [hslot]
    exact h.ne_zero
  desc := by
    rw [hslot, hdesc]
    exact h.desc

/-- The functions of the file layer find an open descriptor and go on with it. -/
theorem OpenDescriptor.find_eq {α : Type} {k : Kernel} {fd : Int} {priv : Nat}
    (h : OpenDescriptor k fd priv) (none_ : KM α) (f : FileDescriptor → KM α)
    (f' : Nat → KM α) (hf : ∀ d : FileDescriptor, d.private_ = priv → f d = f' priv) :
    (do
      let desc ← fileGetDescriptor fd
      if desc = 0 then none_
      else do
        let d ← deref Obj.fileDescriptor? desc
        descFilesystem d
        f d) k = f' priv k := by
  obtain ⟨d, hd, hfs, hpriv⟩ := h.desc
  have hget : fileGetDescriptor fd k = .ok (k.file_descriptors (fd - 1).toNat, k) := by
    have h₁ := h.fd_pos
    have h₂ := h.fd_lt
    unfold fileGetDescriptor
    rw [if_neg (by omega)]
    rfl
  have hread : deref Obj.fileDescriptor? (k.file_descriptors (fd - 1).toNat) k = .ok (d, k) :=
    deref_ok h.ne_zero hd rfl
  have hok : descFilesystem d k = .ok (⟨⟩, k) := by
    unfold descFilesystem
    rw [if_neg hfs]
    rfl
  rw [bind_of_ok hget, if_neg h.ne_zero, bind_of_ok hread, bind_of_ok hok, hf d hpriv]

theorem OpenDescriptor.fread_eq {k : Kernel} {fd : Int} {priv : Nat} (h : OpenDescriptor k fd priv)
    {size nmemb : Nat} (hsize : size ≠ 0) (hnmemb : nmemb ≠ 0) (ptr : Nat) :
    fread ptr size nmemb fd k = fat16Read priv size nmemb ptr k := by
  have hpos := h.fd_pos
  unfold fread
  rw [if_neg (by omega)]
  refine h.find_eq _ _ (fun p => fat16Read p size nmemb ptr) fun d hd => ?_
  rw [hd]

theorem OpenDescriptor.fseek_eq {k : Kernel} {fd : Int} {priv : Nat} (h : OpenDescriptor k fd priv)
    (offset : Int) (whence : Nat) : fseek fd offset whence k = fat16Seek priv (u32 offset) whence k :=
  h.find_eq _ _ (fun p => fat16Seek p (u32 offset) whence) fun d hd => by rw [hd]

theorem OpenDescriptor.fstat_eq {k : Kernel} {fd : Int} {priv : Nat} (h : OpenDescriptor k fd priv) :
    fstat fd k = fat16Stat priv k :=
  h.find_eq _ _ fat16Stat fun d hd => by rw [hd]

/-! ### What a read changes -/

theorem derefItem_spec (p : Nat) (k : Kernel) : Ensures (derefItem p) k fun _ k' => k = k' := by
  intro i k' h
  unfold derefItem at h
  split at h
  · cases h
  · cases h
    rfl

theorem fat16ReadLoop_data (item size : Nat) :
    ∀ (nmemb : Nat) (offset : Int) (out_ptr : Nat) (res : Int) (k : Kernel),
      Ensures (fat16ReadLoop item size nmemb offset out_ptr res) k fun _ k' =>
        k' = { k with mem := k'.mem, disk := k'.disk } ∧ SameVolume k.disk k'.disk := by
  intro nmemb
  induction nmemb with
  | zero => exact fun _ _ _ _ => .pure ⟨rfl, .refl _⟩
  | succ nmemb ih =>
    intro offset out_ptr res k
    refine .bind (derefItem_spec _ _) ?_
    rintro i _ rfl
    refine .bind ((onDisk_spec _ _).and (onDisk_ensures (Alike.keeps_volume
      (fat16ReadInternal_alike _ _ _)))) ?_
    rintro r k₁ ⟨hk₁, hv₁⟩
    refine .bind (R := fun _ k₂ => k₂ = { k₁ with mem := k₂.mem }) (.modifies rfl) ?_
    intro _ k₂ hk₂
    have hv₂ : SameVolume k.disk k₂.disk := by
      rw [hk₂]
      exact hv₁
    split
    · refine .pure ⟨?_, hv₂⟩
      rw [hk₂, hk₁]
    · refine (ih _ _ _ k₂).mono fun _ k₃ hk₃ => ⟨?_, hv₂.trans hk₃.2⟩
      rw [hk₃.1, hk₂, hk₁]

theorem fat16Read_data (descriptor size nmemb out_ptr : Nat) (k : Kernel) :
    Ensures (fat16Read descriptor size nmemb out_ptr) k fun _ k' =>
      k' = { k with mem := k'.mem, disk := k'.disk } ∧ SameVolume k.disk k'.disk := by
  refine .bind (deref_spec _ _ _) ?_
  rintro fat_desc _ ⟨rfl, -, -⟩
  refine .bind (deref_spec _ _ _) ?_
  rintro f_item _ ⟨rfl, -, -⟩
  refine .bind (fat16ReadLoop_data _ _ _ _ _ _ _) ?_
  intro res k₁ hk₁
  split
  · exact .pure hk₁
  · exact .pure hk₁

/-- A function of the file layer finds no descriptor, or it is the driver's. -/
theorem withDescriptor_ensures {α : Type} {a : α} {f : Nat → KM α} {Q : α → Kernel → Prop}
    {k : Kernel} (fd : Int) (hnone : Q a k) (hf : ∀ priv, Ensures (f priv) k Q) :
    Ensures (do
      let desc ← fileGetDescriptor fd
      if desc = 0 then pure a
      else do
        let d ← deref Obj.fileDescriptor? desc
        descFilesystem d
        f d.private_) k Q := by
  refine .bind (R := fun _ k' => k = k') ?_ ?_
  · unfold fileGetDescriptor
    split
    · exact .pure rfl
    · exact .reads rfl
  rintro desc _ rfl
  split
  · exact .pure hnone
  refine .bind (deref_spec _ _ _) ?_
  rintro d _ ⟨rfl, -, -⟩
  refine .bind (R := fun _ k' => k = k') ?_ ?_
  · unfold descFilesystem
    split
    · exact .fails
    · exact .pure rfl
  rintro _ _ rfl
  exact hf _

/-- `fread` stores bytes and moves the streams of the volume, and that is all. -/
theorem fread_data (ptr size nmemb : Nat) (fd : Int) (k : Kernel) :
    Ensures (fread ptr size nmemb fd) k fun _ k' =>
      k' = { k with mem := k'.mem, disk := k'.disk } ∧ SameVolume k.disk k'.disk := by
  unfold fread
  split
  · exact .pure ⟨rfl, .refl _⟩
  exact withDescriptor_ensures fd ⟨rfl, .refl _⟩ fun priv => fat16Read_data priv size nmemb ptr k

/-! ### One read -/

/-- `fd` is open at `pos` on the file with the directory entry at `address`. -/
structure OpenFile (k : Kernel) (h : FatHeader) (chain : List Nat) (fd : Int)
    (priv f_item pos address : Nat) : Prop where
  opened : OpenDescriptor k fd priv
  file : OpenFatFile k h chain priv f_item pos address

section OpenFile

variable {k : Kernel} {h : FatHeader} {chain : List Nat} {fd : Int} {priv f_item pos address : Nat}

/-- A read leaves the file open where it was when it stores elsewhere than in its entry. -/
theorem OpenFile.data {k' : Kernel} (hf : OpenFile k h chain fd priv f_item pos address)
    (hk : k' = { k with mem := k'.mem, disk := k'.disk }) (hv : SameVolume k.disk k'.disk)
    (hentry : readFatDirectoryItem k'.mem address = readFatDirectoryItem k.mem address) :
    OpenFile k' h chain fd priv f_item pos address := by
  have hobjs : k'.objs = k.objs := by rw [hk]
  have hslots : k'.file_descriptors = k.file_descriptors := by rw [hk]
  refine ⟨hf.opened.congr (by rw [hslots]) (by rw [hobjs]),
    { volume := hf.file.volume.congr hv
      clusters := hv.image ▸ hf.file.clusters
      descriptor_ne := hf.file.descriptor_ne
      desc := hobjs ▸ hf.file.desc
      f_item_ne := hf.file.f_item_ne
      item := hobjs ▸ hf.file.item
      address_ne := hf.file.address_ne
      entry := hobjs ▸ hf.file.entry
      first := hentry ▸ hf.file.first
      long := hentry ▸ hf.file.long }⟩

/-- What `fread` stores. -/
theorem OpenFile.fread_spec (hf : OpenFile k h chain fd priv f_item pos address)
    {size nmemb o : Nat} (hsize : 1 ≤ size) (hnmemb : 1 ≤ nmemb)
    (hend : pos + size * nmemb ≤ (readFatDirectoryItem k.mem address).filesize)
    (hout : o + size * nmemb ≤ address ∨ address + 32 ≤ o) :
    Returns (fread o size nmemb fd) k fun res k' => res = nmemb ∧
      k'.mem = writeBytes k.mem o
        (readBytes (h.blockByte k.disk chain size pos) 0 (size * nmemb)) ∧
      OpenFile k' h chain fd priv f_item pos address ∧ SameVolume k.disk k'.disk ∧
      readFatDirectoryItem k'.mem address = readFatDirectoryItem k.mem address := by
  obtain ⟨res, k', hok, hres, hmem⟩ := fat16Read_spec hf.file hsize hend hout
  rw [← hf.opened.fread_eq (by omega) (by omega)] at hok
  obtain ⟨hk', hv⟩ := fread_data _ _ _ _ _ _ _ hok
  have hentry : readFatDirectoryItem k'.mem address = readFatDirectoryItem k.mem address := by
    rw [hmem]
    refine readFatDirectoryItem_congr fun a h₁ h₂ => writeBytes_of_not_mem ?_
    rw [readBytes_length]
    omega
  exact ⟨res, k', hok, hres, hmem, hf.data hk' hv hentry, hv, hentry⟩

/-- A read from the start of the file in one block delivers the file: every piece of it
starts a cluster. -/
theorem OpenFile.fread_whole (hf : OpenFile k h chain fd priv f_item 0 address) {out : Nat}
    (hsize : 1 ≤ (readFatDirectoryItem k.mem address).filesize)
    (hout : out + (readFatDirectoryItem k.mem address).filesize ≤ address ∨ address + 32 ≤ out) :
    Returns (fread out (readFatDirectoryItem k.mem address).filesize 1 fd) k fun res k' => res = 1 ∧
      k'.mem = writeBytes k.mem out (readBytes (h.contents k.disk.image chain) 0
        (readFatDirectoryItem k.mem address).filesize) := by
  have hpieces : PiecesAgree h k.disk chain 0 (readFatDirectoryItem k.mem address).filesize 1 := by
    intro i hi y _ hcross
    obtain rfl : i = 0 := by omega
    have hlt : y % h.clusterSize < h.clusterSize := Nat.mod_lt _ hf.file.volume.fatTable.clusterSize_pos
    rw [Nat.mul_zero, Nat.add_zero, Nat.zero_mod] at hcross
    omega
  have hbytes := (blockByte_eq_contents_iff hf.file.volume hf.file.clusters hsize
    (by rw [Nat.zero_add, Nat.mul_one]; exact hf.file.long)).mpr hpieces
  have hread := hf.fread_spec (o := out) hsize le_rfl (by rw [Nat.zero_add, Nat.mul_one])
    (by rw [Nat.mul_one]; exact hout)
  rw [Nat.mul_one] at hbytes hread
  rw [hbytes] at hread
  exact hread.mono fun res k' hk' => ⟨hk'.1, hk'.2.1⟩

/-! ### Reads in a row -/

/-- The kernel, with the number of bytes that the reads have delivered. -/
structure ReadRun where
  kernel : Kernel
  delivered : Nat

/-- The arguments of a read but for the descriptor. -/
structure ReadCall where
  ptr : Nat
  size : Nat
  nmemb : Nat

/-- A read that succeeds, of bytes of the file of `filesize` bytes that the descriptor is
opened on at `pos`, into a buffer apart from its directory entry at `address`. -/
inductive ReadStep (fd : Int) (pos filesize address : Nat) : ReadRun → ReadCall → ReadRun → Prop
  | fread {s : ReadRun} {c : ReadCall} {k' : Kernel} (hsize : 1 ≤ c.size)
      (hend : pos + s.delivered + c.size * c.nmemb ≤ filesize)
      (hout : c.ptr + c.size * c.nmemb ≤ address ∨ address + sizeofFatDirectoryItem ≤ c.ptr)
      (h : PlumOS.fread c.ptr c.size c.nmemb fd s.kernel = .ok ((c.nmemb : Int), k')) :
      ReadStep fd pos filesize address s c ⟨k', s.delivered + c.size * c.nmemb⟩

/-- The read returns the number of blocks and stores the file's bytes behind those that
have been delivered. -/
def DeliversNext (h : FatHeader) (image : Nat → UInt8) (chain : List Nat) (fd : Int) (pos : Nat)
    (s : ReadRun) (c : ReadCall) : Prop :=
  Returns (fread c.ptr c.size c.nmemb fd) s.kernel fun res k' => res = c.nmemb ∧
    k'.mem = writeBytes s.kernel.mem c.ptr
      (readBytes (h.contents image chain) (pos + s.delivered) (c.size * c.nmemb))

/-- The bytes on the disk where a read from `pos` takes them are the file's bytes behind
those that have been delivered. -/
def RepeatsFile (h : FatHeader) (disk : Disk) (chain : List Nat) (pos : Nat) (s : ReadRun)
    (c : ReadCall) : Prop :=
  ∀ i < c.nmemb, ∀ y < c.size, streamByte disk (h.readPosition chain (pos + c.size * i) y) =
    h.contents disk.image chain (pos + s.delivered + (c.size * i + y))

/-- A read in blocks, byte by byte. -/
theorem readBytes_blockByte_iff {disk : Disk} {size nmemb : Nat} (hsize : 1 ≤ size)
    {f : Nat → UInt8} {q : Nat} :
    readBytes (h.blockByte disk chain size pos) 0 (size * nmemb) = readBytes f q (size * nmemb) ↔
      ∀ i < nmemb, ∀ y < size,
        streamByte disk (h.readPosition chain (pos + size * i) y) = f (q + (size * i + y)) := by
  rw [readBytes_inj]
  constructor
  · intro hall i hi y hy
    have hlt : size * i + y < size * nmemb := calc
      size * i + y < size * i + size := by omega
      _ = size * (i + 1) := by rw [Nat.mul_succ]
      _ ≤ size * nmemb := Nat.mul_le_mul_left _ hi
    have := hall _ hlt
    unfold FatHeader.blockByte at this
    rwa [Nat.zero_add, Nat.mul_add_div hsize, Nat.div_eq_of_lt hy, Nat.add_zero,
      Nat.mul_add_mod, Nat.mod_eq_of_lt hy] at this
  · intro hblocks x hx
    have := hblocks (x / size) (Nat.div_lt_of_lt_mul hx) (x % size) (Nat.mod_lt _ hsize)
    unfold FatHeader.blockByte
    rw [Nat.div_add_mod] at this
    rw [Nat.zero_add]
    exact this

/-- The file of `k` is still open at `pos`, with the volume and the directory entry it had. -/
structure StillOpen (h : FatHeader) (chain : List Nat) (fd : Int) (priv f_item pos address : Nat)
    (k : Kernel) (s : ReadRun) : Prop where
  file : OpenFile s.kernel h chain fd priv f_item pos address
  volume : SameVolume k.disk s.kernel.disk
  entry : readFatDirectoryItem s.kernel.mem address = readFatDirectoryItem k.mem address

/-- A read of a run stores what it finds from `pos` on. -/
private theorem StillOpen.fread_spec {s s' : ReadRun} {c : ReadCall}
    (hs : StillOpen h chain fd priv f_item pos address k s)
    (hst : ReadStep fd pos (readFatDirectoryItem k.mem address).filesize address s c s') :
    Returns (fread c.ptr c.size c.nmemb fd) s.kernel fun res k' => res = c.nmemb ∧
      k'.mem = writeBytes s.kernel.mem c.ptr
        (readBytes (h.blockByte k.disk chain c.size pos) 0 (c.size * c.nmemb)) ∧
      StillOpen h chain fd priv f_item pos address k ⟨k', s.delivered + c.size * c.nmemb⟩ := by
  obtain ⟨hsize, hend, hout, hok⟩ := hst
  have hnmemb : 1 ≤ c.nmemb := by
    refine Nat.one_le_iff_ne_zero.mpr fun hzero => ?_
    unfold fread at hok
    rw [if_pos (Or.inr (Or.inl hzero)), hzero] at hok
    cases hok
  have hbytes : ∀ x, h.blockByte s.kernel.disk chain c.size pos x =
      h.blockByte k.disk chain c.size pos x := fun x => hs.volume.streamByte _
  refine (hs.file.fread_spec hsize hnmemb (by rw [hs.entry]; omega) hout).mono ?_
  rintro res k' ⟨hres, hmem, hopen, hv, hentry⟩
  refine ⟨hres, ?_, hopen, hs.volume.trans hv, hentry.trans hs.entry⟩
  rw [hmem, readBytes_congr fun i _ => hbytes _]

/-- Reads in a row deliver the file in order exactly when each of them finds the next
bytes where the first one started: no read moves the position. -/
theorem fread_run_consecutive_iff (hf : OpenFile k h chain fd priv f_item pos address)
    {tr : List (ReadCall × ReadRun)}
    (hrun : Run (ReadStep fd pos (readFatDirectoryItem k.mem address).filesize address) ⟨k, 0⟩ tr) :
    AllSteps (DeliversNext h k.disk.image chain fd pos) ⟨k, 0⟩ tr ↔
      AllSteps (RepeatsFile h k.disk chain pos) ⟨k, 0⟩ tr := by
  refine hrun.allSteps_iff (fun hs hst => ?_) (fun hs hst => ?_)
    (show StillOpen h chain fd priv f_item pos address k ⟨k, 0⟩ from ⟨hf, .refl _, rfl⟩)
  · obtain ⟨_, _, hok, _, _, hkeep⟩ := hs.fread_spec hst
    obtain ⟨_, _, _, hok'⟩ := hst
    cases hok.symm.trans hok'
    exact hkeep
  · obtain ⟨res, k', hok, hres, hmem, _⟩ := hs.fread_spec hst
    obtain ⟨hsize, _, _, _⟩ := hst
    unfold RepeatsFile
    rw [← readBytes_blockByte_iff hsize]
    constructor
    · rintro ⟨_, _, hok', _, hmem'⟩
      cases hok.symm.trans hok'
      exact (writeBytes_inj (by simp)).mp (hmem.symm.trans hmem')
    · intro hbytes
      rw [hbytes] at hmem
      exact ⟨res, k', hok, hres, hmem⟩

end OpenFile

/-! ### A file of two bytes -/

/-- A volume with a 0 and a 1 at the start of cluster 2. -/
def Disk.twoBytes : Disk where
  sector_size := 512
  fs_private := some ⟨.oneSector, ⟨0x1000000, 1, 2, 3⟩, 0, 0, 0⟩
  image := fun p => if p = 1537 then 1 else 0

/-- Memory with the directory entry of a file of two bytes in cluster 2. -/
def twoBytesEntry (p : Nat) : UInt8 :=
  if p = 0x1003000 + 26 then 2 else if p = 0x1003000 + 28 then 2 else 0

/-- A kernel with the file opened as descriptor 1. -/
def Kernel.twoBytes : Kernel :=
  { Kernel.boot Disk.twoBytes with
    mem := twoBytesEntry
    file_descriptors := fun i => if i = 0 then 0x1000000 else 0
    objs := fun p =>
      if p = 0x1000000 then some (.fileDescriptor ⟨1, 1, 0x1001000, 1⟩)
      else if p = 0x1001000 then some (.fatFileDescriptor ⟨0x1002000, 0⟩)
      else if p = 0x1002000 then some (.fatItem ⟨0x1003000, FAT_ITEM_TYPE_FILE⟩)
      else none }

theorem twoBytes_openFile :
    OpenFile Kernel.twoBytes .oneSector [2] 1 0x1001000 0x1002000 0 0x1003000 where
  opened :=
    { fd_pos := by decide
      fd_lt := by decide
      ne_zero := by decide
      desc := ⟨_, rfl, by decide, rfl⟩ }
  file :=
    { volume :=
        { sector_size := rfl
          bound := ⟨_, rfl, rfl, rfl⟩
          root_whole := rfl
          sectors_per_cluster_pos := by decide
          sectors_per_cluster_lt := by decide
          reserved_sectors_lt := by decide }
      clusters :=
        { range := by decide
          nodup := by decide
          links := fun j hj => by simp at hj
          below := by decide }
      descriptor_ne := by decide
      desc := rfl
      f_item_ne := by decide
      item := rfl
      address_ne := by decide
      entry := rfl
      first := show fat16GetFirstCluster (readFatDirectoryItem twoBytesEntry 0x1003000) = 2 by decide
      long := show (readFatDirectoryItem twoBytesEntry 0x1003000).filesize ≤ 512 by decide }

theorem twoBytes_filesize : (readFatDirectoryItem Kernel.twoBytes.mem 0x1003000).filesize = 2 :=
  show (readFatDirectoryItem twoBytesEntry 0x1003000).filesize = 2 by decide

/-- A read of one byte finds the 0. -/
private theorem twoBytes_fread {s : ReadRun}
    (hs : StillOpen .oneSector [2] 1 0x1001000 0x1002000 0 0x1003000 Kernel.twoBytes s)
    (hdelivered : s.delivered < 2) {p : Nat} (hptr : 0x1003020 ≤ p) :
    ∃ k', ReadStep 1 0 (readFatDirectoryItem Kernel.twoBytes.mem 0x1003000).filesize 0x1003000 s
        ⟨p, 1, 1⟩ ⟨k', s.delivered + 1⟩ ∧
      StillOpen .oneSector [2] 1 0x1001000 0x1002000 0 0x1003000 Kernel.twoBytes
        ⟨k', s.delivered + 1⟩ ∧
      k'.mem = writeBytes s.kernel.mem p [0] := by
  have hsize := twoBytes_filesize
  obtain ⟨_, k', hok, rfl, -⟩ := hs.file.fread_spec (o := p) (le_refl 1) (le_refl 1)
    (by rw [hs.entry, hsize]; decide) (Or.inr hptr)
  have hst : ReadStep 1 0 (readFatDirectoryItem Kernel.twoBytes.mem 0x1003000).filesize 0x1003000 s
      ⟨p, 1, 1⟩ ⟨k', s.delivered + 1⟩ := by
    refine .fread (le_refl 1) ?_ (Or.inr hptr) hok
    rw [hsize]
    dsimp only
    omega
  obtain ⟨_, _, hok', -, hmem, hkeep⟩ := hs.fread_spec hst
  cases hok.symm.trans hok'
  have hposition : FatHeader.oneSector.readPosition [2] 0 0 = 1536 := by decide
  have hbyte : FatHeader.oneSector.blockByte Disk.twoBytes [2] 1 0 0 = 0 := by
    unfold FatHeader.blockByte
    rw [Nat.zero_div, Nat.zero_mod, Nat.mul_zero, Nat.add_zero, hposition,
      streamByte_of_lt _ (by decide)]
    rfl
  have hbytes : readBytes (FatHeader.oneSector.blockByte Kernel.twoBytes.disk [2] 1 0) 0 (1 * 1) =
      [0] := by
    rw [← hbyte]
    rfl
  exact ⟨k', hst, hkeep, hmem.trans (by rw [hbytes])⟩

/-- Two reads of one byte each deliver the first byte of the file twice. -/
theorem fread_run_twice :
    OpenFile Kernel.twoBytes .oneSector [2] 1 0x1001000 0x1002000 0 0x1003000 ∧
    ∃ k₁ k₂, Run
        (ReadStep 1 0 (readFatDirectoryItem Kernel.twoBytes.mem 0x1003000).filesize 0x1003000)
        ⟨Kernel.twoBytes, 0⟩ [(⟨0x1005000, 1, 1⟩, ⟨k₁, 1⟩), (⟨0x1006000, 1, 1⟩, ⟨k₂, 2⟩)] ∧
      ¬ AllSteps (DeliversNext .oneSector Disk.twoBytes.image [2] 1 0) ⟨Kernel.twoBytes, 0⟩
        [(⟨0x1005000, 1, 1⟩, ⟨k₁, 1⟩), (⟨0x1006000, 1, 1⟩, ⟨k₂, 2⟩)] := by
  refine ⟨twoBytes_openFile, ?_⟩
  obtain ⟨k₁, hst₁, hs₁, -⟩ := twoBytes_fread (s := ⟨Kernel.twoBytes, 0⟩)
    ⟨twoBytes_openFile, .refl _, rfl⟩ (by decide) (p := 0x1005000) (by decide)
  obtain ⟨k₂, hst₂, -, hmem₂⟩ := twoBytes_fread hs₁ (Nat.lt_succ_self 1) (p := 0x1006000) (by decide)
  refine ⟨k₁, k₂, .cons hst₁ (.cons hst₂ (.nil _)), ?_⟩
  rintro ⟨-, ⟨_, _, hok, -, hmem⟩, -⟩
  obtain ⟨_, _, _, hok₂⟩ := hst₂
  cases hok₂.symm.trans hok
  -- the second read stored a 0, the file goes on with a 1
  have hnext : readBytes (FatHeader.oneSector.contents Disk.twoBytes.image [2]) (0 + 1) (1 * 1) =
      [1] := by decide
  dsimp only at hmem
  rw [hnext] at hmem
  exact absurd ((writeBytes_inj (by rfl)).mp (hmem₂.symm.trans hmem)) (by decide)

/-- One read from the start delivers what it should. -/
theorem fread_run_once :
    ∃ k₁, Run
        (ReadStep 1 0 (readFatDirectoryItem Kernel.twoBytes.mem 0x1003000).filesize 0x1003000)
        ⟨Kernel.twoBytes, 0⟩ [(⟨0x1005000, 1, 1⟩, ⟨k₁, 1⟩)] ∧
      AllSteps (DeliversNext .oneSector Disk.twoBytes.image [2] 1 0) ⟨Kernel.twoBytes, 0⟩
        [(⟨0x1005000, 1, 1⟩, ⟨k₁, 1⟩)] := by
  obtain ⟨k₁, hst₁, -⟩ := twoBytes_fread (s := ⟨Kernel.twoBytes, 0⟩)
    ⟨twoBytes_openFile, .refl _, rfl⟩ (by decide) (p := 0x1005000) (by decide)
  have hrun := Run.cons hst₁ (.nil _)
  refine ⟨k₁, hrun, (fread_run_consecutive_iff twoBytes_openFile hrun).mpr ⟨?_, trivial⟩⟩
  intro i hi y hy
  obtain rfl : i = 0 := Nat.lt_one_iff.mp hi
  obtain rfl : y = 0 := Nat.lt_one_iff.mp hy
  exact streamByte_of_lt _ (by decide)

end PlumOS
