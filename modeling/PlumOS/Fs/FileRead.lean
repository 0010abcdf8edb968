import PlumOS.Fs.Fat16

/-!
# Reading a file

`fat16_read` on a file whose clusters lie anywhere on the volume. A read goes in pieces
of at most one cluster, counted from the position it starts at, and a piece that
begins inside a cluster is read on behind the end of that cluster.

## Main definitions

- `FatHeader.contents` — the bytes of a file in the order of its chain
- `OpenFatFile` — a descriptor of a file
- `PiecesAgree` — the reads that deliver the file's bytes
-/

namespace PlumOS

open StateExcept

/-- Byte `x` of the file with the clusters `chain`. -/
def FatHeader.contents (h : FatHeader) (image : Nat → UInt8) (chain : List Nat) (x : Nat) : UInt8 :=
  image (h.filePosition chain x)

/-- `descriptor` is open on a file: its item refers to the directory entry at
`address`, whose first cluster starts `chain`, and `chain` is long enough. -/
structure OpenFatFile (k : Kernel) (h : FatHeader) (chain : List Nat)
    (descriptor f_item pos address : Nat) : Prop where
  volume : FatVolume h k.disk
  clusters : ClusterChain h k.disk.image chain
  descriptor_ne : descriptor ≠ 0
  desc : k.objs descriptor = some (.fatFileDescriptor ⟨f_item, pos⟩)
  f_item_ne : f_item ≠ 0
  item : k.objs f_item = some (.fatItem ⟨address, FAT_ITEM_TYPE_FILE⟩)
  address_ne : address ≠ 0
  entry : k.objs address = none
  first : fat16GetFirstCluster (readFatDirectoryItem k.mem address) = chain.getD 0 0
  long : (readFatDirectoryItem k.mem address).filesize ≤ chain.length * h.clusterSize

/-- Where a piece of the read leaves the cluster it started in, the disk has the
file's bytes behind that cluster, as it has when the chain's next cluster is there. -/
def PiecesAgree (h : FatHeader) (disk : Disk) (chain : List Nat) (pos size nmemb : Nat) : Prop :=
  ∀ i < nmemb, ∀ y < size,
    h.clusterSize ≤ (pos + size * i) % h.clusterSize + y % h.clusterSize →
      streamByte disk (h.readPosition chain (pos + size * i) y) =
        h.contents disk.image chain (pos + size * i + y)

/-- Byte `x` of what `fat16_read` stores: byte `x % size` of block `x / size`. -/
def FatHeader.blockByte (h : FatHeader) (disk : Disk) (chain : List Nat) (size pos x : Nat) : UInt8 :=
  streamByte disk (h.readPosition chain (pos + size * (x / size)) (x % size))

/-- An entry is read from 32 bytes. -/
theorem readFatDirectoryItem_shift {mem mem' : Nat → UInt8} {p q : Nat}
    (h : ∀ i < 32, mem' (q + i) = mem (p + i)) :
    readFatDirectoryItem mem' q = readFatDirectoryItem mem p := by
  have hbytes : ∀ o n, o + n ≤ 32 → readBytes mem' (q + o) n = readBytes mem (p + o) n := by
    intro o n hon
    refine readBytes_congr fun i hi => ?_
    rw [Nat.add_assoc, Nat.add_assoc]
    exact h (o + i) (by omega)
  have hhalf : ∀ o, o + 2 ≤ 32 → readHalf mem' (q + o) = readHalf mem (p + o) := by
    intro o ho
    unfold readHalf
    rw [h o (by omega), Nat.add_assoc, Nat.add_assoc, h (o + 1) (by omega)]
  have hword : readWord mem' (q + 28) = readWord mem (p + 28) := by
    unfold readWord
    rw [hhalf 28 (by omega), Nat.add_assoc, Nat.add_assoc, hhalf 30 (by omega)]
  unfold readFatDirectoryItem
  rw [hbytes 8 3 (by omega), h 11 (by omega), hhalf 20 (by omega), hhalf 26 (by omega), hword]
  congr 1
  exact hbytes 0 8 (by omega)

theorem readFatDirectoryItem_congr {mem mem' : Nat → UInt8} {p : Nat}
    (h : ∀ a, p ≤ a → a < p + 32 → mem' a = mem a) :
    readFatDirectoryItem mem' p = readFatDirectoryItem mem p :=
  readFatDirectoryItem_shift fun i hi => h (p + i) (Nat.le_add_right ..) (by omega)

theorem derefItem_returns {k : Kernel} {p : Nat} (hp : p ≠ 0) (ho : k.objs p = none) :
    Returns (derefItem p) k fun item k' => k = k' ∧ readFatDirectoryItem k.mem p = item := by
  refine ⟨_, k, if_neg ?_, rfl, rfl⟩
  rw [ho]
  simpa using hp

variable {k : Kernel} {h : FatHeader} {chain : List Nat} {descriptor f_item pos address : Nat}

/-- The rounds of `fat16_read`: each stores the next block behind the one before. -/
private theorem fat16ReadLoop_spec (hf : OpenFatFile k h chain descriptor f_item pos address)
    {size : Nat} (hsize : 0 < size) :
    ∀ (nmemb offset out : Nat) (k₁ : Kernel), SameVolume k.disk k₁.disk → k₁.objs = k.objs →
      readFatDirectoryItem k₁.mem address = readFatDirectoryItem k.mem address →
      offset + size * nmemb ≤ chain.length * h.clusterSize →
      (out + size * nmemb ≤ address ∨ address + 32 ≤ out) →
      Returns (fat16ReadLoop address size nmemb offset out 0) k₁ fun res k' => res = 0 ∧
        k'.mem = writeBytes k₁.mem out
          (readBytes (h.blockByte k.disk chain size offset) 0 (size * nmemb)) := by
  have hlen : chain.length * h.clusterSize ≤ 0xFEE * 130560 :=
    Nat.mul_le_mul hf.clusters.length_le hf.volume.fatTable.clusterSize_le
  intro nmemb
  induction nmemb with
  | zero =>
    intro offset out k₁ _ _ _ _ _
    refine Returns.pure ⟨rfl, ?_⟩
    funext a
    exact (writeBytes_of_not_mem (by simp; omega)).symm
  | succ n ih =>
    intro offset out k₁ hsame hobjs hitem hend hout
    rw [Nat.mul_add, Nat.mul_one] at hend hout
    refine Returns.bind (derefItem_returns hf.address_ne (by rw [hobjs]; exact hf.entry)) ?_
    rintro _ _ ⟨rfl, rfl⟩
    have hchain : 0 < chain.length := by
      by_contra hnil
      rw [show chain.length = 0 by omega, Nat.zero_mul] at hend
      omega
    have hfirst := hf.clusters.range _ (getD_mem hchain)
    rw [hitem, hf.first, i32_natCast (by omega), i32_natCast (by omega)]
    refine Returns.bind (onDisk_returns (fat16ReadInternal_spec hf.volume hf.clusters hsame hsize
      (by omega))) ?_
    rintro _ k₂ ⟨⟨rfl, hsame₂⟩, hk₂⟩
    refine Returns.bind (Returns.modifies (Q := fun _ k₃ => k₃.mem = writeBytes k₁.mem out
      (readBytes (fun y => streamByte k.disk (h.readPosition chain offset y)) 0 size) ∧
        k₃.objs = k.objs ∧ SameVolume k.disk k₃.disk)
      ⟨by rw [hk₂], by rw [hk₂]; exact hobjs, hsame₂⟩) ?_
    rintro _ k₃ ⟨hmem₃, hobjs₃, hsame₃⟩
    rw [if_neg (lt_irrefl (0 : Int)), ← Int.natCast_add, i32_natCast (by omega)]
    -- the entry is not in the block just stored
    have hitem₃ : readFatDirectoryItem k₃.mem address = readFatDirectoryItem k.mem address := by
      rw [← hitem, hmem₃]
      apply readFatDirectoryItem_congr
      intro a h₁ h₂
      exact writeBytes_of_not_mem (by rw [readBytes_length]; omega)
    refine (ih (offset + size) (out + size) k₃ hsame₃ hobjs₃ hitem₃ (by omega)
      (by omega)).mono ?_
    rintro res k' ⟨hres, hmem⟩
    refine ⟨hres, hmem.trans ?_⟩
    have hhead : readBytes (fun y => streamByte k.disk (h.readPosition chain offset y)) 0 size =
        readBytes (h.blockByte k.disk chain size offset) 0 size := by
      apply readBytes_congr
      intro y hy
      unfold FatHeader.blockByte
      rw [Nat.zero_add, Nat.div_eq_of_lt hy, Nat.mod_eq_of_lt hy, Nat.mul_zero, Nat.add_zero]
    have htail : readBytes (h.blockByte k.disk chain size (offset + size)) 0 (size * n) =
        readBytes (h.blockByte k.disk chain size offset) (0 + size) (size * n) := by
      apply readBytes_congr
      intro x _
      unfold FatHeader.blockByte
      rw [Nat.zero_add, Nat.zero_add, Nat.add_div_left _ hsize, Nat.add_mod_left, Nat.mul_succ,
        Nat.add_assoc, Nat.add_comm size]
    have hlen : out + size = out + (readBytes (fun y => streamByte k.disk
        (h.readPosition chain offset y)) 0 size).length := by rw [readBytes_length]
    rw [hmem₃, hlen, writeBytes_append, hhead, htail, ← readBytes_append, Nat.mul_succ,
      Nat.add_comm]

/-- What `fat16_read` stores, whatever lies behind the clusters. -/
theorem fat16Read_spec (hf : OpenFatFile k h chain descriptor f_item pos address)
    {size nmemb out : Nat} (hsize : 1 ≤ size)
    (hend : pos + size * nmemb ≤ (readFatDirectoryItem k.mem address).filesize)
    (hout : out + size * nmemb ≤ address ∨ address + 32 ≤ out) :
    Returns (fat16Read descriptor size nmemb out) k fun res k' => res = nmemb ∧
      k'.mem = writeBytes k.mem out
        (readBytes (h.blockByte k.disk chain size pos) 0 (size * nmemb)) := by
  have hlen : chain.length * h.clusterSize ≤ 0xFEE * 130560 :=
    Nat.mul_le_mul hf.clusters.length_le hf.volume.fatTable.clusterSize_le
  have hlong := hf.long
  have hnmemb : nmemb ≤ size * nmemb := Nat.le_mul_of_pos_left _ hsize
  refine Returns.bind (deref_returns hf.descriptor_ne hf.desc rfl) ?_
  rintro _ _ ⟨rfl, rfl⟩
  refine Returns.bind (deref_returns hf.f_item_ne hf.item rfl) ?_
  rintro _ _ ⟨rfl, rfl⟩
  dsimp only
  rw [i32_natCast (by omega), i32_natCast (by omega)]
  refine Returns.bind (fat16ReadLoop_spec hf hsize nmemb pos out k (.refl _) rfl rfl (by omega)
    hout) ?_
  rintro _ k' ⟨rfl, hmem⟩
  exact Returns.pure ⟨rfl, hmem⟩

/-- The bytes stored are the file's exactly when the pieces agree. -/
theorem blockByte_eq_contents_iff (hv : FatVolume h k.disk) (hc : ClusterChain h k.disk.image chain)
    {size nmemb : Nat} (hsize : 1 ≤ size)
    (hend : pos + size * nmemb ≤ chain.length * h.clusterSize) :
    readBytes (h.blockByte k.disk chain size pos) 0 (size * nmemb) =
        readBytes (h.contents k.disk.image chain) pos (size * nmemb) ↔
      PiecesAgree h k.disk chain pos size nmemb := by
  have hpos := hv.fatTable.clusterSize_pos
  rw [readBytes_inj]
  constructor
  · intro hall i hi y hy _
    have hlt : size * i + y < size * nmemb := calc
      size * i + y < size * i + size := by omega
      _ = size * (i + 1) := by rw [Nat.mul_succ]
      _ ≤ size * nmemb := Nat.mul_le_mul_left _ hi
    have := hall _ hlt
    unfold FatHeader.blockByte at this
    rwa [Nat.zero_add, Nat.mul_add_div hsize, Nat.div_eq_of_lt hy, Nat.add_zero,
      Nat.mul_add_mod, Nat.mod_eq_of_lt hy, ← Nat.add_assoc] at this
  · intro hagree x hx
    have hi : x / size < nmemb := Nat.div_lt_of_lt_mul hx
    have hy : x % size < size := Nat.mod_lt _ hsize
    have hx' : pos + size * (x / size) + x % size = pos + x := by
      rw [Nat.add_assoc, Nat.div_add_mod]
    unfold FatHeader.blockByte
    rw [Nat.zero_add]
    by_cases hin : (pos + size * (x / size)) % h.clusterSize + x % size % h.clusterSize <
        h.clusterSize
    · -- the byte is in the cluster its piece started in
      have hidx : (pos + x) / h.clusterSize < chain.length := Nat.div_lt_of_lt_mul (by
        rw [Nat.mul_comm]
        omega)
      have hbelow := hc.below _ (getD_mem hidx)
      have hmod : (pos + x) % h.clusterSize < h.clusterSize := Nat.mod_lt _ hpos
      rw [FatHeader.readPosition_eq hin, hx', streamByte_of_lt]
      · rfl
      · unfold FatHeader.filePosition
        omega
    · rw [hagree _ hi _ hy (by omega), hx']

/-- `fat16_read` returns `nmemb` and stores the bytes of the file from `pos` on exactly
when no piece of the read leaves its cluster, or the disk has the file's bytes where
one does. -/
theorem fat16Read_contents_iff (hf : OpenFatFile k h chain descriptor f_item pos address)
    {size nmemb out : Nat} (hsize : 1 ≤ size)
    (hend : pos + size * nmemb ≤ (readFatDirectoryItem k.mem address).filesize)
    (hout : out + size * nmemb ≤ address ∨ address + 32 ≤ out) :
    Returns (fat16Read descriptor size nmemb out) k (fun res k' => res = nmemb ∧
      k'.mem = writeBytes k.mem out
        (readBytes (h.contents k.disk.image chain) pos (size * nmemb))) ↔
      PiecesAgree h k.disk chain pos size nmemb := by
  have hlong := hf.long
  have hspec := fat16Read_spec hf hsize hend hout
  rw [← blockByte_eq_contents_iff hf.volume hf.clusters hsize (by omega)]
  constructor
  · intro hread
    obtain ⟨res, k', -, ⟨-, hmem⟩, -, hmem'⟩ := hspec.and_ensures hread.ensures
    exact (writeBytes_inj (by simp)).mp (hmem.symm.trans hmem')
  · intro hbytes
    rw [← hbytes]
    exact hspec

/-! ### A file in two pieces -/

/-- A volume with clusters of one sector and its data from sector 3 on. -/
def FatHeader.oneSector : FatHeader := ⟨1, 1, 1, 16, 1, 0x29⟩

/-- A volume on which cluster 2 is linked to cluster 4, and cluster 3, between them,
starts with a 1. All other data are zero. -/
def Disk.fragmented : Disk where
  sector_size := 512
  fs_private := some ⟨.oneSector, ⟨0x1000000, 1, 2, 3⟩, 0, 0, 0⟩
  image := fun p => if p = 516 then 4 else if p = 2048 then 1 else 0

/-- Memory with the directory entry of a file of 1024 bytes that starts in cluster 2. -/
def fragmentedEntry (p : Nat) : UInt8 :=
  if p = 0x1003000 + 26 then 2 else if p = 0x1003000 + 29 then 4 else 0

/-- A kernel with a descriptor at `pos` of the file of that entry. -/
def Kernel.fragmented (pos : Nat) : Kernel :=
  { Kernel.boot Disk.fragmented with
    mem := fragmentedEntry
    objs := fun p =>
      if p = 0x1001000 then some (.fatFileDescriptor ⟨0x1002000, pos⟩)
      else if p = 0x1002000 then some (.fatItem ⟨0x1003000, FAT_ITEM_TYPE_FILE⟩)
      else none }

theorem fragmented_openFatFile (pos : Nat) :
    OpenFatFile (Kernel.fragmented pos) .oneSector [2, 4] 0x1001000 0x1002000 pos 0x1003000 where
  volume :=
    { sector_size := rfl
      bound := ⟨_, rfl, rfl, rfl⟩
      root_whole := rfl
      sectors_per_cluster_pos := by decide
      sectors_per_cluster_lt := by decide
      reserved_sectors_lt := by decide }
  clusters :=
    { range := by decide
      nodup := by decide
      links := fun j hj => by
        obtain rfl : j = 0 := by
          have : j + 1 < 2 := hj
          omega
        exact (show FatHeader.oneSector.fatEntry Disk.fragmented.image 2 = 4 by decide)
      below := by decide }
  descriptor_ne := by decide
  desc := rfl
  f_item_ne := by decide
  item := rfl
  address_ne := by decide
  entry := rfl
  first := show fat16GetFirstCluster (readFatDirectoryItem fragmentedEntry 0x1003000) = 2 by decide
  long := show (readFatDirectoryItem fragmentedEntry 0x1003000).filesize ≤ 1024 by decide

/-- Two bytes read from position 511 on: the second is the first byte of cluster 3,
which is not in the file. -/
theorem fat16Read_contents_fragmented :
    OpenFatFile (Kernel.fragmented 511) .oneSector [2, 4] 0x1001000 0x1002000 511 0x1003000 ∧
    511 + 2 * 1 ≤ (readFatDirectoryItem (Kernel.fragmented 511).mem 0x1003000).filesize ∧
    ¬ Returns (fat16Read 0x1001000 2 1 0x1004000) (Kernel.fragmented 511) (fun res k' =>
      res = 1 ∧ k'.mem = writeBytes (Kernel.fragmented 511).mem 0x1004000
        (readBytes (FatHeader.oneSector.contents Disk.fragmented.image [2, 4]) 511 (2 * 1))) := by
  have hf := fragmented_openFatFile 511
  have hend : 511 + 2 * 1 ≤ (readFatDirectoryItem (Kernel.fragmented 511).mem 0x1003000).filesize := by
    decide
  refine ⟨hf, hend, fun hread => ?_⟩
  obtain ⟨res, k', -, ⟨-, hmem⟩, -, hmem'⟩ :=
    (fat16Read_spec hf (by decide) hend (Or.inr (by decide))).and_ensures hread.ensures
  have hbytes := (writeBytes_inj (by simp)).mp (hmem.symm.trans hmem')
  have hagree := (blockByte_eq_contents_iff hf.volume hf.clusters (by decide) (by decide)).mp hbytes
  have hbyte := hagree 0 (by decide) 1 (by decide) (by decide)
  rw [show FatHeader.oneSector.readPosition [2, 4] (511 + 2 * 0) 1 = 2048 from by decide,
    streamByte_of_lt _ (by decide)] at hbyte
  revert hbyte
  decide

/-- Two bytes read from position 510 on stay in cluster 2. -/
theorem fat16Read_contents_inside :
    Returns (fat16Read 0x1001000 2 1 0x1004000) (Kernel.fragmented 510) (fun res k' =>
      res = 1 ∧ k'.mem = writeBytes (Kernel.fragmented 510).mem 0x1004000
        (readBytes (FatHeader.oneSector.contents Disk.fragmented.image [2, 4]) 510 (2 * 1))) := by
  refine (fat16Read_contents_iff (fragmented_openFatFile 510) (by decide) (by decide)
    (Or.inr (by decide))).mpr ?_
  intro i hi y hy hcross
  obtain rfl : i = 0 := by omega
  have hsize : FatHeader.oneSector.clusterSize = 512 := rfl
  rw [hsize] at hcross
  omega

end PlumOS
