import PlumOS.Fs.FileFence
import PlumOS.Fs.OpenFile
import PlumOS.Memory.Ownership

/-!
# A file that was just opened

The kernel reads its programs in one way: `fopen`, `fstat`, `kzalloc` of the file's size
and one `fread` of all of it. Here the descriptor that `fopen` returns is shown to be at
the start of its file, so that this read delivers the file.

## Main results

- `fopen_position` — where `fopen` leaves the position
- `fopen_fread_whole` — what the read behind `fopen` delivers
-/

namespace PlumOS

open StateExcept

/-- A structure that is written is there. -/
theorem modifyFatFileDescriptor_spec (p : Nat) (f : FatFileDescriptor → FatFileDescriptor)
    (k : Kernel) : Ensures (modifyFatFileDescriptor p f) k fun _ k' =>
      ∃ d, Stored k p (.fatFileDescriptor (f d)) k' := by
  refine .bind (deref_spec _ _ _) ?_
  rintro d _ ⟨rfl, -, -⟩
  exact (storeObj_spec k p _).ensures.mono fun _ _ hst => ⟨d, hst⟩

theorem modifyFileDescriptor_spec (p : Nat) (f : FileDescriptor → FileDescriptor) (k : Kernel) :
    Ensures (modifyFileDescriptor p f) k fun _ k' =>
      ∃ d, k.objs p = some (.fileDescriptor d) ∧ Stored k p (.fileDescriptor (f d)) k' := by
  refine .bind (deref_spec _ _ _) ?_
  rintro d _ ⟨rfl, -, ho⟩
  rw [Obj.fileDescriptor?_eq_some] at ho
  exact (storeObj_spec k p _).ensures.mono fun _ _ hst => ⟨d, ho, hst⟩

/-- Setting the position is the last thing that `fat16_open` does. -/
theorem fat16Open_position (path mode : Nat) (k : Kernel) :
    Ensures (fat16Open path mode) k fun r k' => ISERR r = false →
      ∃ item, k'.objs r = some (.fatFileDescriptor ⟨item, 0⟩) := by
  unfold fat16Open
  split
  · exact .pure fun herr => absurd herr (by decide)
  refine .bind (R := fun _ _ => True) (fun _ _ _ => trivial) ?_
  intro descriptor k₁ _
  split
  · exact .pure fun herr => absurd herr (by decide)
  refine .bind (R := fun _ _ => True) (fun _ _ _ => trivial) ?_
  intro item k₂ _
  refine .bind (R := fun _ _ => True) (fun _ _ _ => trivial) ?_
  intro _ k₃ _
  split
  · exact .bind (R := fun _ _ => True) (fun _ _ _ => trivial) fun _ _ _ =>
      .pure fun herr => absurd herr (by decide)
  · refine .bind (modifyFatFileDescriptor_spec _ _ _) ?_
    rintro _ k₄ ⟨d, hst⟩
    exact .pure fun _ => ⟨d.item, hst.self⟩

/-- Every FAT16 descriptor of `k'` was there in `k`. -/
def NoNewFatDescriptor (k k' : Kernel) : Prop :=
  ∀ p d, k'.objs p = some (.fatFileDescriptor d) → k.objs p = some (.fatFileDescriptor d)

theorem Stored.noNewFatDescriptor {k k' : Kernel} {p : Nat} {d : FileDescriptor}
    (h : Stored k p (.fileDescriptor d) k') : NoNewFatDescriptor k k' := by
  intro q d' hq
  by_cases hqp : q = p
  · rw [hqp, h.self] at hq
    cases hq
  · rwa [h.other q hqp] at hq

/-- A new descriptor is in the table under its number. -/
theorem fileNewDescriptor_spec (k : Kernel) :
    Ensures fileNewDescriptor k fun r k' => r.1 < 0 ∨ NoNewFatDescriptor k k' ∧
      ∃ i : Nat, k'.file_descriptors i = r.2 ∧
        ∃ d, k'.objs r.2 = some (.fileDescriptor d) ∧ d.index = i + 1 := by
  refine .bind (.reads (Q := fun _ k' => k = k') rfl) ?_
  rintro file_descriptors _ rfl
  cases freeDescriptorSlot file_descriptors with
  | none => exact .pure (Or.inl (by decide))
  | some i =>
    refine .bind (kzallocObj_spec k _ _) ?_
    intro desc k₁ halloc
    refine .bind (modifyFileDescriptor_spec _ _ _) ?_
    rintro _ k₂ ⟨d, ho, hst⟩
    refine .bind (.modifies (Q := fun _ k₃ => k₃ =
      { k₂ with file_descriptors := Function.update k₂.file_descriptors i desc }) rfl) ?_
    rintro _ _ rfl
    refine .pure (Or.inr ⟨fun q d' hq => ?_, i, Function.update_self .., _, hst.self, rfl⟩)
    have hq₁ := hst.noNewFatDescriptor q d' hq
    rcases halloc with ⟨-, rfl⟩ | ⟨k', ha, rfl⟩
    · exact hq₁
    · dsimp only at hq₁
      rw [ha.eq] at hq₁
      by_cases hqd : q = desc
      · rw [hqd, Function.update_self] at hq₁
        cases hq₁
      · rw [Function.update_of_ne hqd] at hq₁
        dsimp only at hq₁
        split at hq₁
        · cases hq₁
        · exact hq₁

/-- `fd` is in the table, and what is at its private data, if it is a FAT16 descriptor,
is at the start of its file. -/
def AtStart (k : Kernel) (fd : Int) : Prop :=
  ∃ (i : Nat) (d : FileDescriptor), fd = i + 1 ∧
    k.objs (k.file_descriptors i) = some (.fileDescriptor d) ∧
    ∀ d', k.objs d.private_ = some (.fatFileDescriptor d') → d'.pos = 0

theorem AtStart.pos_eq {k : Kernel} {h : FatHeader} {chain : List Nat} {fd : Int}
    {priv f_item pos address : Nat} (hs : AtStart k fd)
    (hf : OpenFile k h chain fd priv f_item pos address) : pos = 0 := by
  obtain ⟨i, d, rfl, hd, hpos⟩ := hs
  obtain ⟨d', hd', -, hpriv⟩ := hf.opened.desc
  rw [show ((i : Int) + 1 - 1).toNat = i by omega, hd] at hd'
  cases hd'
  exact hpos ⟨f_item, pos⟩ (hpriv ▸ hf.file.desc)

theorem fopen_position (filename mode_str : List UInt8) (k : Kernel) :
    Ensures (fopen filename mode_str) k fun fd k' => fd = 0 ∨ AtStart k' fd := by
  refine .bind (R := fun (res : Int) k' => res < 0 ∨ AtStart k' res) ?_ ?_
  · unfold fopenRes
    refine .bind (R := fun _ _ => True) (fun _ _ _ => trivial) ?_
    intro root_path k₁ _
    split
    · exact .pure (Or.inl (by decide))
    refine .bind (deref_spec _ _ _) ?_
    rintro root _ ⟨rfl, -, -⟩
    split
    · exact .pure (Or.inl (by decide))
    split
    · exact .pure (Or.inl (by decide))
    refine .bind (.reads (Q := fun _ k' => k₁ = k') rfl) ?_
    rintro filesystem _ rfl
    split
    · exact .pure (Or.inl (by decide))
    dsimp only
    split
    · exact .pure (Or.inl (by decide))
    refine .bind (fat16Open_position _ _ _) ?_
    intro priv k₂ hpriv
    split
    · next herr => exact .pure (Or.inl (of_decide_eq_true herr))
    next herr =>
    obtain ⟨item, hitem⟩ := hpriv (by simpa using herr)
    refine .bind (fileNewDescriptor_spec k₂) ?_
    intro r k₃ hr
    split
    · next hneg => exact .pure (Or.inl hneg)
    next hnonneg =>
    obtain ⟨hnone, i, hslot, d, hd, hindex⟩ := hr.resolve_left hnonneg
    refine .bind (modifyFileDescriptor_spec _ _ _) ?_
    rintro _ k₄ ⟨d', hd', hst⟩
    rw [hd] at hd'
    cases hd'
    refine .bind (deref_spec _ _ _) ?_
    rintro d₄ _ ⟨rfl, -, hd₄⟩
    rw [Obj.fileDescriptor?_eq_some, hst.self] at hd₄
    cases hd₄
    refine .pure (Or.inr ⟨i, ⟨d.index, filesystem, priv, diskAddress⟩, hindex, ?_, fun d' hd' => ?_⟩)
    · rw [hst.globals.file_descriptors, hslot]
      exact hst.self
    · -- what is left at the private data is what `fat16_open` left there
      have hold := hnone _ _ (hst.noNewFatDescriptor _ _ hd')
      rw [hitem] at hold
      cases hold
      rfl
  · rintro res k₁ hres
    refine .pure ?_
    split
    · exact Or.inl rfl
    · next hnonneg => exact Or.inr (hres.resolve_left hnonneg)

/-! ### The kernel's read of a whole file -/

section Whole

variable {k k₁ k₂ k₃ : Kernel} {h : FatHeader} {chain : List Nat} {fd : Int}
  {priv f_item pos address buf size : Nat}

/-- A file that is open behind an allocation was open before it. -/
theorem OpenFile.before_kzalloc (hf : OpenFile k₁ h chain fd priv f_item pos address)
    (halloc : kzalloc size k = .ok (buf, k₁))
    (hbuf : buf + size ≤ address ∨ address + sizeofFatDirectoryItem ≤ buf) :
    OpenFile k h chain fd priv f_item pos address ∧
      readFatDirectoryItem k₁.mem address = readFatDirectoryItem k.mem address := by
  rcases kzalloc_spec k size _ _ halloc with ⟨-, rfl⟩ | ha
  · exact ⟨hf, rfl⟩
  have hobjs : ∀ p o, k₁.objs p = some o → k.objs p = some o := by
    intro p o ho
    rw [ha.eq] at ho
    dsimp only at ho
    split at ho
    · cases ho
    · exact ho
  have hslots : k₁.file_descriptors = k.file_descriptors := by rw [ha.eq]
  have hdisk : k₁.disk = k.disk := by rw [ha.eq]
  have hentry : readFatDirectoryItem k₁.mem address = readFatDirectoryItem k.mem address := by
    apply readFatDirectoryItem_congr
    intro a h₁ h₂
    rw [ha.eq]
    refine if_neg ?_
    simp only [sizeofFatDirectoryItem] at hbuf
    omega
  have hnone : k.objs address = k₁.objs address := by
    rw [ha.eq]
    refine (if_neg ?_).symm
    simp only [sizeofFatDirectoryItem] at hbuf
    omega
  obtain ⟨d, hd, hfs, hpriv⟩ := hf.opened.desc
  rw [hslots] at hd
  refine ⟨⟨⟨hf.opened.fd_pos, hf.opened.fd_lt, hslots ▸ hf.opened.ne_zero,
    d, hobjs _ _ hd, hfs, hpriv⟩,
    { volume := hdisk ▸ hf.file.volume
      clusters := hdisk ▸ hf.file.clusters
      descriptor_ne := hf.file.descriptor_ne
      desc := hobjs _ _ hf.file.desc
      f_item_ne := hf.file.f_item_ne
      item := hobjs _ _ hf.file.item
      address_ne := hf.file.address_ne
      entry := hnone.trans hf.file.entry
      first := hentry ▸ hf.file.first
      long := hentry ▸ hf.file.long }⟩, hentry⟩

theorem fat16Stat_data (descriptor : Nat) (k : Kernel) :
    Ensures (fat16Stat descriptor) k fun _ k' => k = k' := by
  refine .bind (deref_spec _ _ _) ?_
  rintro d _ ⟨rfl, -, -⟩
  refine .bind (deref_spec _ _ _) ?_
  rintro i _ ⟨rfl, -, -⟩
  split
  · exact .pure rfl
  refine .bind (derefItem_spec _ _) ?_
  rintro ritem _ rfl
  exact .pure rfl

/-- `fstat` changes nothing. -/
theorem fstat_data (fd : Int) (k : Kernel) : Ensures (fstat fd) k fun _ k' => k = k' :=
  withDescriptor_ensures fd rfl fun priv => fat16Stat_data priv k

/-- What `fstat` says about an open file. -/
theorem OpenFile.fstat_spec (hf : OpenFile k h chain fd priv f_item pos address) :
    Returns (fat16Stat priv) k fun r _ =>
      ∃ flags, r = (0, some ⟨flags, (readFatDirectoryItem k.mem address).filesize⟩) := by
  refine .bind (deref_returns hf.file.descriptor_ne hf.file.desc rfl) ?_
  rintro _ _ ⟨rfl, rfl⟩
  refine .bind (deref_returns hf.file.f_item_ne hf.file.item rfl) ?_
  rintro _ _ ⟨rfl, rfl⟩
  rw [if_neg (not_not_intro rfl)]
  refine .bind (derefItem_returns hf.file.address_ne hf.file.entry) ?_
  rintro _ _ ⟨rfl, rfl⟩
  exact .pure ⟨_, rfl⟩

/-- The read of a whole file behind its `fopen`, `fstat` and the allocation of its buffer
delivers the file, wherever its clusters lie. -/
theorem fopen_fread_whole {filename mode_str : List UInt8} {res : Int} {stat : FileStat}
    (hopen : fopen filename mode_str k = .ok (fd, k₁))
    (hstat : fstat fd k₁ = .ok ((res, some stat), k₂))
    (halloc : kzalloc stat.filesize k₂ = .ok (buf, k₃))
    (hf : OpenFile k₃ h chain fd priv f_item pos address) (hsize : 1 ≤ stat.filesize)
    (hbuf : buf + stat.filesize ≤ address ∨ address + sizeofFatDirectoryItem ≤ buf) :
    Returns (fread buf stat.filesize 1 fd) k₃ fun res k' => res = 1 ∧
      k'.mem = writeBytes k₃.mem buf
        (readBytes (h.contents k₃.disk.image chain) 0 stat.filesize) := by
  obtain ⟨hf₁, hentry⟩ := hf.before_kzalloc halloc hbuf
  obtain rfl := fstat_data _ _ _ _ hstat
  -- nothing moved the position since the file was opened
  have hne : fd ≠ 0 := hf.opened.fd_pos.ne'
  obtain rfl := ((fopen_position _ _ _ _ _ hopen).resolve_left hne).pos_eq hf₁
  obtain ⟨r, k', hok, flags, rfl⟩ := hf₁.fstat_spec
  rw [← hf₁.opened.fstat_eq] at hok
  cases hok.symm.trans hstat
  rw [← hentry] at hsize hbuf ⊢
  exact hf.fread_whole hsize hbuf

end Whole

/-! ### A file of the root directory -/

/-- A root directory with the entry of the file `A` of two bytes in cluster 2. -/
def rootWithA (p : Nat) : UInt8 :=
  if p = 0x1000000 then 0x41 else if 0x1000000 < p ∧ p < 0x100000B then 0x20
  else if p = 0x100001A then 2 else if p = 0x100001C then 2 else 0

/-- A kernel with that directory in its first block. -/
def Kernel.withA : Kernel :=
  { Kernel.boot Disk.twoBytes with
    heap_entries := fun i => if i = 0 then 0x41 else 0
    mem := rootWithA }

/-- `0:/A` is opened and a buffer for it is allocated. -/
def openA : KM (Int × (Int × Option FileStat) × Nat) := do
  let fd ← fopen [0x30, 0x3A, 0x2F, 0x41] [0x72]
  let r ← fstat fd
  let buf ← kzalloc 2
  pure (fd, r, buf)

theorem openA_returns : Returns openA Kernel.withA fun r k =>
    r.1 = 1 ∧ r.2.1.1 = 0 ∧ r.2.1.2.map FileStat.filesize = some 2 ∧ r.2.2 = 0x1008000 ∧
    k.file_descriptors 0 = 0x1007000 ∧
    (k.objs 0x1007000).bind Obj.fileDescriptor? = some ⟨1, 1, 0x1004000, 1⟩ ∧
    (k.objs 0x1004000).bind Obj.fatFileDescriptor? = some ⟨0x1005000, 0⟩ ∧
    (k.objs 0x1005000).bind Obj.fatItem? = some ⟨0x1006000, FAT_ITEM_TYPE_FILE⟩ ∧
    (k.objs 0x1006000).isNone = true ∧
    fat16GetFirstCluster (readFatDirectoryItem k.mem 0x1006000) = 2 ∧
    (readFatDirectoryItem k.mem 0x1006000).filesize = 2 :=
  (Returns.of_checks (q := fun r k => decide _) (by decide +kernel)).mono
    fun _ _ => of_decide_eq_true

theorem withA_heapSound : Kernel.withA.HeapSound where
  next_taken := by
    intro i _ _ hnext
    change HasNext (if i = 0 then 0x41 else 0) at hnext
    split at hnext
    · exact absurd hnext (by decide)
    · exact absurd hnext not_hasNext_free
  barrier := not_hasNext_free

theorem withA_tidy : Kernel.withA.Tidy where
  toSoundTable := withA_heapSound
  free_end := by
    intro i _ _ _
    change ¬ HasNext (if i = 0 then 0x41 else 0)
    split
    · decide
    · exact not_hasNext_free

/-- The file `A` is opened and read. -/
theorem fopen_fread_whole_A : ∃ fd r k₁ k₂ buf k₃,
    fopen [0x30, 0x3A, 0x2F, 0x41] [0x72] Kernel.withA = .ok (fd, k₁) ∧
    fstat fd k₁ = .ok (r, k₂) ∧ kzalloc 2 k₂ = .ok (buf, k₃) ∧
    Returns (fread buf 2 1 fd) k₃ fun res k' => res = 1 ∧
      k'.mem = writeBytes k₃.mem buf
        (readBytes (FatHeader.oneSector.contents k₃.disk.image [2]) 0 2) := by
  obtain ⟨⟨fd, ⟨res, stat⟩, buf⟩, k₃, hok, rfl, rfl, hstat, rfl, hslot, hdesc, hpriv, hitem, hnone,
    hfirst, hsize⟩ := openA_returns
  obtain ⟨_, k₁, hopen, hok⟩ := bind_eq_ok.mp hok
  obtain ⟨_, k₂, hst, hok⟩ := bind_eq_ok.mp hok
  obtain ⟨_, _, halloc, hok⟩ := bind_eq_ok.mp hok
  cases hok
  obtain ⟨stat, rfl, hfilesize⟩ := Option.map_eq_some_iff.mp hstat
  rw [← hfilesize] at halloc
  have hv : SameVolume Disk.twoBytes k₃.disk := by
    have hk₁ := (fopen_fenced (emptyFence_stands withA_heapSound)
      (fun i hi => absurd hi (Set.notMem_empty i)) _ _ _ _ hopen).1
    obtain rfl := fstat_data _ _ _ _ hst
    exact hk₁.volume.trans (framed_kzalloc hk₁.stands _ _ _ halloc).1.volume
  have hf := twoBytes_openFile.file
  have hopened : OpenFile k₃ .oneSector [2] 1 0x1004000 0x1005000 0 0x1006000 := by
    refine ⟨⟨by decide, by decide, ?_, ?_⟩, ?_⟩
    · change k₃.file_descriptors 0 ≠ 0
      rw [hslot]
      decide
    · change ∃ d, k₃.objs (k₃.file_descriptors 0) = _ ∧ _
      rw [hslot]
      exact ⟨_, Obj.fileDescriptor?_eq_some.mp hdesc, by decide, rfl⟩
    · exact
        { volume := hf.volume.congr hv
          clusters := hv.image ▸ hf.clusters
          descriptor_ne := by decide
          desc := Obj.fatFileDescriptor?_eq_some.mp hpriv
          f_item_ne := by decide
          item := Obj.fatItem?_eq_some.mp hitem
          address_ne := by decide
          entry := Option.isNone_iff_eq_none.mp hnone
          first := hfirst
          long := hsize.trans_le (by decide) }
  have hread := fopen_fread_whole hopen hst halloc hopened (hfilesize.trans_ge (by decide))
    (Or.inr (by decide))
  rw [hfilesize] at hread halloc
  exact ⟨1, _, k₁, k₂, _, k₃, hopen, hst, halloc, hread⟩

end PlumOS
