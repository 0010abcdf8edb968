import PlumOS.Fs.DirectoryScan
import PlumOS.Fs.FileRead
import PlumOS.Memory.HeapGrowth

/-!
# Looking up a name

A lookup counts the entries of a directory that are in use, and then compares the name
with that many slots from the first one on. The slots of deleted entries are left out by
the count and not by the search.

## Main definitions

- `FatDirectoryItem.Named` — names equal but for the case of ASCII letters
- `fat16Lookup` — the count and the search
- `FindsLive`, `LastIsLive`

## Main results

- `fat16Lookup_iff` — which lookups find what is there
-/

namespace PlumOS

open StateExcept

/-! ### Building an item -/

/-- The directory entry at `item` is `e`. -/
structure HoldsEntry (k : Kernel) (item : Nat) (e : FatDirectoryItem) : Prop where
  ne_zero : item ≠ 0
  none : k.objs item = none
  entry : readFatDirectoryItem k.mem item = e

theorem HoldsEntry.deref {k : Kernel} {item : Nat} {e : FatDirectoryItem}
    (h : HoldsEntry k item e) : Returns (derefItem item) k fun e' k' => k = k' ∧ e = e' := by
  refine (derefItem_returns h.ne_zero h.none).mono ?_
  rintro _ _ ⟨rfl, rfl⟩
  exact ⟨rfl, h.entry.symm⟩

theorem modifyFatItem_returns {k : Kernel} {p : Nat} {i : FatItem} (hp : p ≠ 0)
    (ho : k.objs p = some (.fatItem i)) (f : FatItem → FatItem) :
    Returns (modifyFatItem p f) k fun _ k' => Stored k p (.fatItem (f i)) k' := by
  refine .bind (deref_returns hp ho rfl) ?_
  rintro _ _ ⟨rfl, rfl⟩
  exact storeObj_spec _ _ _

theorem modifyFatDirectory_returns {k : Kernel} {p : Nat} {d : FatDirectory} (hp : p ≠ 0)
    (ho : k.objs p = some (.fatDirectory d)) (f : FatDirectory → FatDirectory) :
    Returns (modifyFatDirectory p f) k fun _ k' => Stored k p (.fatDirectory (f d)) k' := by
  refine .bind (deref_returns hp ho rfl) ?_
  rintro _ _ ⟨rfl, rfl⟩
  exact storeObj_spec _ _ _

/-- The subdirectory of the entry has the clusters `chain`, `count` entries in use within
them, and a 0x00 behind them. -/
structure Subdirectory (h : FatHeader) (image : Nat → UInt8) (e : FatDirectoryItem)
    (chain : List Nat) (count : Nat) : Prop where
  clusters : ClusterChain h image chain
  nonempty : 0 < chain.length
  first : fat16GetFirstCluster e = chain.getD 0 0
  listing : ∃ n, Listing image (h.clusterStart (chain.getD 0 0)) n ∧
    count = liveSlots image (slots (h.clusterStart (chain.getD 0 0)) n)
  count_pos : 1 ≤ count
  fits : 32 * count ≤ chain.length * h.clusterSize

/-- The item of the entry takes at most `blocks` blocks of the heap: a file's has a copy
of the entry, a directory's its list of entries. -/
structure ItemFits (h : FatHeader) (image : Nat → UInt8) (e : FatDirectoryItem) (blocks : Nat) :
    Prop where
  file : 2 ≤ blocks
  directory : e.attribute_ &&& FAT_FILE_SUBDIRECTORY ≠ 0 →
    ∃ chain count, Subdirectory h image e chain count ∧ 2 + blocksOf (32 * count) ≤ blocks

/-- The first `count` entries of a directory with the clusters `chain`. -/
def FatHeader.chainEntries (h : FatHeader) (image : Nat → UInt8) (chain : List Nat) (count : Nat) :
    List FatDirectoryItem :=
  (List.range count).map fun j => readFatDirectoryItem (h.contents image chain) (32 * j)

/-- The entries `es` are at `p`, one behind another. -/
def HoldsEntries (k : Kernel) (p : Nat) (es : List FatDirectoryItem) : Prop :=
  ∀ j e, es[j]? = some e → HoldsEntry k (p + 32 * j) e

/-- A directory with the entries `es`, in memory that was allocated since `k₀`. -/
structure LoadedDirectory (k₀ k : Kernel) (directory : Nat) (es : List FatDirectoryItem) : Prop where
  own : Grown.Own k₀ k directory 1
  list : ∃ d n, k.objs directory = some (.fatDirectory d) ∧ d.total = es.length ∧
    Grown.Own k₀ k d.item n ∧ k.objs d.item = none ∧ 32 * es.length ≤ 4096 * n ∧
    HoldsEntries k d.item es

/-- The item of a file, with a copy of its entry `e`. -/
structure FileItem (k₀ k : Kernel) (item : Nat) (e : FatDirectoryItem) : Prop where
  own : Grown.Own k₀ k item 1
  copy : ∃ copy, k.objs item = some (.fatItem ⟨copy, FAT_ITEM_TYPE_FILE⟩) ∧
    Grown.Own k₀ k copy 1 ∧ HoldsEntry k copy e

/-- The item of a directory with the entries `es`. -/
structure DirectoryItem (k₀ k : Kernel) (item : Nat) (es : List FatDirectoryItem) : Prop where
  own : Grown.Own k₀ k item 1
  directory : ∃ directory, k.objs item = some (.fatItem ⟨directory, FAT_ITEM_TYPE_DIRECTORY⟩) ∧
    LoadedDirectory k₀ k directory es

section Build

variable {k₀ k k' : Kernel} {h : FatHeader} {m item : Nat} {e : FatDirectoryItem}
  {es : List FatDirectoryItem}

theorem Grown.holdsEntry {p n : Nat} (hg : Grown k m k') (hal : k.Alive p n) (h₁ : p ≤ item)
    (h₂ : item + 32 ≤ p + 4096 * n) (he : HoldsEntry k item e) : HoldsEntry k' item e where
  ne_zero := he.ne_zero
  none := (hg.objs p n item hal h₁ (by omega)).trans he.none
  entry := (readFatDirectoryItem_congr fun a h₃ h₄ =>
    hg.mem p n a hal (by omega) (by omega)).trans he.entry

theorem Grown.holdsEntries {p n : Nat} (hg : Grown k m k') (hal : k.Alive p n)
    (hn : 32 * es.length ≤ 4096 * n) (he : HoldsEntries k p es) : HoldsEntries k' p es := by
  intro j e hj
  have hlt := (List.getElem?_eq_some_iff.mp hj).1
  exact hg.holdsEntry hal (by omega) (by omega) (he j e hj)

/-- A structure in a live block stays there. -/
theorem Grown.obj {p n : Nat} (hg : Grown k m k') (hal : k.Alive p n) : k'.objs p = k.objs p := by
  obtain ⟨_, _, hn, _⟩ := id hal
  exact hg.objs p n p hal le_rfl (by omega)

theorem LoadedDirectory.mono {directory : Nat} (hd : LoadedDirectory k₀ k directory es)
    (hg : Grown k m k') : LoadedDirectory k₀ k' directory es := by
  obtain ⟨d, n, hobj, htotal, hown, hnone, hn, he⟩ := hd.list
  exact ⟨hd.own.mono hg, d, n, (hg.obj hd.own.alive).trans hobj, htotal, hown.mono hg,
    (hg.obj hown.alive).trans hnone, hn, hg.holdsEntries hown.alive hn he⟩

/-- Changing a structure that was there before. -/
theorem LoadedDirectory.stored {directory p n : Nat} {o : Obj}
    (hd : LoadedDirectory k₀ k directory es) (hg : Grown k₀ m k) (hp : k₀.Alive p n)
    (hst : Stored k p o k') : LoadedDirectory k₀ k' directory es := by
  obtain ⟨_, _, hn, _⟩ := id hp
  have hout : ∀ q n', Grown.Own k₀ k q n' → ∀ a, q ≤ a → a < q + 4096 * n' → a ≠ p := by
    rintro q n' hown _ h₁ h₂ rfl
    exact hown.apart hg hp le_rfl (by omega) ⟨h₁, h₂⟩
  obtain ⟨d, n', hobj, htotal, hown, hnone, hlen, he⟩ := hd.list
  obtain ⟨_, _, hn', _⟩ := id hown.alive
  refine ⟨⟨hst.alive hd.own.alive, hd.own.fresh⟩, d, n', (hst.other _ ?_).trans hobj, htotal,
    ⟨hst.alive hown.alive, hown.fresh⟩, (hst.other _ ?_).trans hnone, hlen, fun j e hj => ?_⟩
  · exact hout _ 1 hd.own _ le_rfl (by omega)
  · exact hout _ _ hown _ le_rfl (by omega)
  · have hlt := (List.getElem?_eq_some_iff.mp hj).1
    obtain ⟨hne, hnone, hentry⟩ := he j e hj
    exact ⟨hne, (hst.other _ (hout _ _ hown _ (by omega) (by omega))).trans hnone, by
      rw [hst.mem]
      exact hentry⟩

theorem FileItem.mono (hi : FileItem k₀ k item e) (hg : Grown k m k') : FileItem k₀ k' item e := by
  obtain ⟨copy, hobj, hown, he⟩ := hi.copy
  exact ⟨hi.own.mono hg, copy, (hg.obj hi.own.alive).trans hobj, hown.mono hg,
    hg.holdsEntry hown.alive le_rfl (by omega) he⟩

theorem LoadedDirectory.before {directory : Nat} (hg : Grown k₀ m k)
    (hd : LoadedDirectory k k' directory es) : LoadedDirectory k₀ k' directory es := by
  obtain ⟨d, n, hobj, htotal, hown, hnone, hn, he⟩ := hd.list
  exact ⟨.before hg hd.own, d, n, hobj, htotal, .before hg hown, hnone, hn, he⟩

theorem FileItem.before (hg : Grown k₀ m k) (hi : FileItem k k' item e) :
    FileItem k₀ k' item e := by
  obtain ⟨copy, hobj, hown, he⟩ := hi.copy
  exact ⟨.before hg hi.own, copy, hobj, .before hg hown, he⟩

theorem DirectoryItem.before (hg : Grown k₀ m k) (hi : DirectoryItem k k' item es) :
    DirectoryItem k₀ k' item es := by
  obtain ⟨directory, hobj, hd⟩ := hi.directory
  exact ⟨.before hg hi.own, directory, hobj, hd.before hg⟩

/-- A read from the start of a chain takes every byte from where the file has it. -/
theorem readBytes_fromStart {d : Disk} (hvol : FatVolume h d) {chain : List Nat}
    (hc : ClusterChain h d.image chain) {n : Nat} (hn : n ≤ chain.length * h.clusterSize) :
    readBytes (fun y => streamByte d (h.readPosition chain 0 y)) 0 n =
      readBytes (h.contents d.image chain) 0 n := by
  have hpos := hvol.fatTable.clusterSize_pos
  refine readBytes_congr fun y hy => ?_
  rw [Nat.zero_add]
  have hidx : y / h.clusterSize < chain.length := Nat.div_lt_of_lt_mul (by
    rw [Nat.mul_comm]
    omega)
  have hbelow := hc.below _ (getD_mem hidx)
  have hmod : y % h.clusterSize < h.clusterSize := Nat.mod_lt _ hpos
  rw [FatHeader.readPosition_eq (by rw [Nat.zero_mod, Nat.zero_add]; exact hmod), Nat.zero_add,
    streamByte_of_lt]
  · rfl
  · unfold FatHeader.filePosition
    omega

/-- The entries of a chain are where its bytes were written. -/
theorem holdsEntries_written {p : Nat} (mem : Nat → UInt8) {image : Nat → UInt8}
    {chain : List Nat} {count : Nat} (hp : p ≠ 0) (hnone : ∀ a, p ≤ a → a < p + 32 * count → k.objs a = none)
    (hmem : k.mem = writeBytes mem p (readBytes (h.contents image chain) 0 (32 * count))) :
    HoldsEntries k p (h.chainEntries image chain count) := by
  intro j e hj
  have hlt := (List.getElem?_eq_some_iff.mp hj).1
  rw [show (h.chainEntries image chain count).length = count by simp [FatHeader.chainEntries]] at hlt
  obtain rfl : readFatDirectoryItem (h.contents image chain) (32 * j) = e := by
    simpa [FatHeader.chainEntries, List.getElem?_range hlt] using hj
  refine ⟨show p + 32 * j ≠ 0 by omega, hnone _ (by omega) (by omega), ?_⟩
  refine readFatDirectoryItem_shift fun i hi => ?_
  rw [hmem]
  unfold writeBytes
  rw [readBytes_length, if_pos (by omega), List.getD_eq_getElem _ _ (by rw [readBytes_length]; omega),
    getElem_readBytes]
  congr 1
  omega

theorem fat16LoadFatDirectory_returns (hg : Grown k₀ m k) (hvol : FatVolume h k₀.disk)
    (hitem : ∀ m k, Grown k₀ m k → HoldsEntry k item e)
    (hattr : e.attribute_ &&& FAT_FILE_SUBDIRECTORY ≠ 0) {chain : List Nat} {count : Nat}
    (hsub : Subdirectory h k₀.disk.image e chain count)
    (hm : m + 1 + blocksOf (32 * count) ≤ 25600) :
    Returns (fat16LoadFatDirectory item) k fun directory k' =>
      Grown k (m + 1 + blocksOf (32 * count)) k' ∧
        LoadedDirectory k k' directory (h.chainEntries k₀.disk.image chain count) := by
  refine .bind (hitem m k hg).deref ?_
  rintro _ _ ⟨rfl, rfl⟩
  rw [if_neg hattr]
  refine .bind ((Grown.refl hg.free).kzallocObj (by decide) (by decide) (by omega)) ?_
  rintro directory k₁ ⟨hne, hk₁, -, hown, hobj⟩
  have hg₁ := hg.trans hk₁
  rw [if_neg hne]
  refine .bind (hitem _ k₁ hg₁).deref ?_
  rintro _ _ ⟨rfl, rfl⟩
  have hrange := hsub.clusters.range _ (getD_mem hsub.nonempty)
  have hvol₁ := hvol.congr hg₁.volume
  obtain ⟨p, hp, hh, hroot⟩ := hvol₁.fs_private
  dsimp only
  rw [hsub.first, i32_natCast (by omega)]
  refine .bind (onDisk_returns (fsPrivate_returns hp)) ?_
  rintro _ k₂ ⟨⟨hd₂, rfl⟩, hk₂⟩
  -- the count
  obtain ⟨n, hlist, hcount⟩ := hsub.listing
  have himage : k₂.disk.image = k₀.disk.image := hd₂ ▸ hg₁.volume.image
  have hlist₂ : Listing k₂.disk.image (p.header.clusterStart (chain.getD 0 0)) n := by
    rw [himage, hh]
    exact hlist
  have hcount_lt : count ≤ n := by
    have : liveSlots k₀.disk.image (slots (h.clusterStart (chain.getD 0 0)) n) ≤ _ :=
      List.countP_le_length
    rwa [slots_length, ← hcount] at this
  have hbelow := hlist.below
  refine .bind (onDisk_returns (fat16GetTotalItemsForDirectory_returns
    (hd₂ ▸ hvol₁.sector_size) (hd₂ ▸ hp) (fat16ClusterToSector_start (hh ▸ hroot) hrange.1)
    hlist₂)) ?_
  rintro _ k₃ ⟨⟨rfl, hv₃⟩, hk₃⟩
  rw [himage, hh, ← hcount]
  have hv₁₃ : SameVolume k₁.disk k₃.disk := hd₂ ▸ hv₃
  have hg₃ : Grown k (m + 1) k₃ := hk₁.onDisk (by rw [hk₃, hk₂]) hv₁₃
  have hown₃ : Grown.Own k k₃ directory 1 :=
    hown.mono ((Grown.refl hk₁.free).onDisk (by rw [hk₃, hk₂]) hv₁₃)
  have hobj₃ : k₃.objs directory = some (.fatDirectory ⟨0, 0, 0, 0⟩) := by
    rw [hk₃, hk₂]
    exact hobj
  refine .bind (modifyFatDirectory_returns hne hobj₃ _) ?_
  intro _ k₄ hst₄
  have hg₄ := hg₃.stored hown₃ hst₄
  -- the entries
  have hsize : u32 (i32 ((count : Int) * sizeofFatDirectoryItem)) = 32 * count := by
    simp only [sizeofFatDirectoryItem]
    rw [i32_of_range (by omega) (by omega), u32_of_range (by omega) (by omega)]
    omega
  have hsize' : i32 ((count : Int) * sizeofFatDirectoryItem) = ((32 * count : Nat) : Int) := by
    simp only [sizeofFatDirectoryItem]
    rw [i32_of_range (by omega) (by omega)]
    omega
  rw [hsize]
  have hpos := hsub.count_pos
  refine .bind (hg₄.kzalloc (by omega) hm) ?_
  rintro entries k₅ ⟨hentries, hg₅, hk₅, hown₅, hfresh₅, hnone₅⟩
  have hown_dir : Grown.Own k k₅ directory 1 :=
    Grown.Own.mono ⟨hst₄.alive hown₃.alive, hown₃.fresh⟩ hk₅
  have hobj₅ : k₅.objs directory = some (.fatDirectory ⟨0, count, 0, 0⟩) :=
    (hk₅.objs directory 1 directory (hst₄.alive hown₃.alive) le_rfl (by omega)).trans hst₄.self
  refine .bind (modifyFatDirectory_returns hne hobj₅ _) ?_
  intro _ k₆ hst₆
  have hg₆ := hg₅.stored hown_dir hst₆
  rw [if_neg hentries, hsize']
  have hv₆ := (hg.trans hg₆).volume
  refine .bind (onDisk_returns (@fat16ReadInternal_spec _ _ _ _ hvol hsub.clusters hv₆ 0 _
    (by omega) (by rw [Nat.zero_add]; exact hsub.fits))) ?_
  rintro _ k₇ ⟨⟨rfl, hv₇⟩, hk₇⟩
  have hv₆₇ : SameVolume k₆.disk k₇.disk := hv₆.symm.trans hv₇
  have hg₇ : Grown k (m + 1 + blocksOf (32 * count)) k₇ := hg₆.onDisk hk₇ hv₆₇
  have hown₇ : Grown.Own k k₇ entries (blocksOf (32 * count)) :=
    ⟨((hst₆.alive hown₅.alive).congr (by rw [hk₇])), hown₅.fresh⟩
  refine .bind (hg₇.storeBytes hown₇ ?_) ?_
  · dsimp only
    rw [readBytes_length]
    unfold blocksOf
    omega
  rintro _ k₈ ⟨hg₈, hk₈⟩
  refine .bind (R := fun _ k₉ => k₈ = k₉)
    (.onlyIf (fun hbad => absurd rfl hbad) fun _ => rfl) ?_
  rintro _ _ rfl
  have hobjs₈ : k₈.objs = k₆.objs := by rw [hk₈, hk₇]
  have hentries₈ : k₈.heap_entries = k₆.heap_entries := by rw [hk₈, hk₇]
  have hlen : (h.chainEntries k₀.disk.image chain count).length = count := by
    simp [FatHeader.chainEntries]
  have hblocks : 32 * count ≤ 4096 * blocksOf (32 * count) := by
    unfold blocksOf
    omega
  have hnone₈ : ∀ a, entries ≤ a → a < entries + 32 * count → k₈.objs a = none := by
    intro a h₁ h₂
    -- the directory itself is elsewhere
    have hne : a ≠ directory := by
      rintro rfl
      exact hown_dir.alive.apart hown₅.alive (fun heq => hfresh₅ _ (heq ▸ hst₄.alive hown₃.alive))
        le_rfl (by omega) ⟨h₁, by omega⟩
    rw [hobjs₈, hst₆.other a hne, hnone₅ a h₁ h₂]
  refine .pure ⟨hg₈, ⟨(hst₆.alive hown_dir.alive).congr hentries₈, hown_dir.fresh⟩, _,
    blocksOf (32 * count), (congrFun hobjs₈ _).trans hst₆.self, by rw [hlen],
    ⟨(hst₆.alive hown₅.alive).congr hentries₈, hown₅.fresh⟩, ?_, by rwa [hlen], ?_⟩
  · exact hnone₈ entries le_rfl (by omega)
  · refine holdsEntries_written k₇.mem hentries hnone₈ ?_
    rw [hk₈, readBytes_fromStart hvol hsub.clusters hsub.fits]

theorem fat16CloneDirectoryItem_returns (hfree : k.FreeFrom m) (hm : m + 1 ≤ 25600)
    (hitem : ∀ m k', Grown k m k' → HoldsEntry k' item e) :
    Returns (fat16CloneDirectoryItem item) k fun copy k' =>
      Grown k (m + 1) k' ∧ Grown.Own k k' copy 1 ∧ HoldsEntry k' copy e := by
  refine .bind ((Grown.refl hfree).kzalloc (by decide) hm) ?_
  rintro item_copy k₁ ⟨hne, hg, -, hown, -, hnone⟩
  rw [if_neg hne]
  refine .bind (R := fun mem k₂ => k₁ = k₂ ∧ k₁.mem = mem) (.reads ⟨rfl, rfl⟩) ?_
  rintro _ _ ⟨rfl, rfl⟩
  refine .bind (hg.storeBytes hown ?_) ?_
  · rw [readBytes_length]
    decide
  rintro _ k₂ ⟨hg₂, rfl⟩
  refine .pure ⟨hg₂, ⟨hown.alive.congr rfl, hown.fresh⟩, hne, hnone _ le_rfl (by
    unfold sizeofFatDirectoryItem
    omega), ?_⟩
  rw [← (hitem _ k₁ hg).entry]
  refine readFatDirectoryItem_shift fun i hi => ?_
  dsimp only
  unfold writeBytes sizeofFatDirectoryItem
  rw [readBytes_length, if_pos (by omega), List.getD_eq_getElem _ _ (by rw [readBytes_length]; omega),
    getElem_readBytes]
  congr 1
  omega

/-- With two blocks the item of a file is built. -/
theorem fat16NewFatItemForDirectoryItem_file (hg : Grown k₀ m k)
    (hitem : ∀ m k, Grown k₀ m k → HoldsEntry k item e)
    (hattr : e.attribute_ &&& FAT_FILE_SUBDIRECTORY = 0) (hm : m + 2 ≤ 25600) :
    Returns (fat16NewFatItemForDirectoryItem item) k fun f_item k' =>
      f_item ≠ 0 ∧ Grown k₀ (m + 2) k' ∧ FileItem k₀ k' f_item e := by
  refine .bind ((Grown.refl hg.free).kzallocObj (by decide) (by decide) (by omega)) ?_
  rintro f_item k₁ ⟨hne, hk₁, -, hown, hobj⟩
  have hg₁ := hg.trans hk₁
  rw [if_neg hne]
  refine .bind (hitem _ k₁ hg₁).deref ?_
  rintro _ _ ⟨rfl, rfl⟩
  rw [if_neg (not_not_intro hattr)]
  refine .bind (modifyFatItem_returns hne hobj _) ?_
  intro _ k₂ hst₂
  have hg₂ := hk₁.stored hown hst₂
  have hown₂ : Grown.Own k k₂ f_item 1 := ⟨hst₂.alive hown.alive, hown.fresh⟩
  refine .bind (fat16CloneDirectoryItem_returns hg₂.free (by omega)
    (show ∀ m k', Grown k₂ m k' → HoldsEntry k' item e from
      fun m k' hk' => hitem m k' (hg.trans (hg₂.trans hk')))) ?_
  rintro item_copy k₃ ⟨hk₃, hcopy, he⟩
  have hobj₃ : k₃.objs f_item = some (.fatItem ⟨0, FAT_ITEM_TYPE_FILE⟩) :=
    (hk₃.obj hown₂.alive).trans hst₂.self
  refine .bind (modifyFatItem_returns hne hobj₃ _) ?_
  intro _ k₄ hst₄
  have hg₄ := (hg₂.trans hk₃).stored (hown₂.mono hk₃) hst₄
  have hcopy_ne : item_copy ≠ f_item := by
    rintro rfl
    exact hcopy.fresh 1 hown₂.alive
  refine .pure ⟨hne, hg.trans hg₄, .before hg ⟨hst₄.alive (hown₂.mono hk₃).alive, hown₂.fresh⟩,
    item_copy, hst₄.self, .before hg (.before hg₂ ⟨hst₄.alive hcopy.alive, hcopy.fresh⟩),
    he.ne_zero, (hst₄.other _ hcopy_ne).trans he.none, ?_⟩
  rw [hst₄.mem]
  exact he.entry

/-- With enough memory for the list of its entries the item of a directory is built. -/
theorem fat16NewFatItemForDirectoryItem_directory (hg : Grown k₀ m k) (hvol : FatVolume h k₀.disk)
    (hitem : ∀ m k, Grown k₀ m k → HoldsEntry k item e)
    (hattr : e.attribute_ &&& FAT_FILE_SUBDIRECTORY ≠ 0) {chain : List Nat} {count : Nat}
    (hsub : Subdirectory h k₀.disk.image e chain count)
    (hm : m + 2 + blocksOf (32 * count) ≤ 25600) :
    Returns (fat16NewFatItemForDirectoryItem item) k fun f_item k' => f_item ≠ 0 ∧
      Grown k₀ (m + 2 + blocksOf (32 * count)) k' ∧
      DirectoryItem k₀ k' f_item (h.chainEntries k₀.disk.image chain count) := by
  refine .bind ((Grown.refl hg.free).kzallocObj (by decide) (by decide) (by omega)) ?_
  rintro f_item k₁ ⟨hne, hk₁, -, hown, hobj⟩
  have hg₁ := hg.trans hk₁
  rw [if_neg hne]
  refine .bind (hitem _ k₁ hg₁).deref ?_
  rintro _ _ ⟨rfl, rfl⟩
  rw [if_pos hattr]
  refine .bind (fat16LoadFatDirectory_returns hg₁ hvol hitem hattr hsub (by omega)) ?_
  rintro directory k₂ ⟨hk₂, hdir⟩
  have hobj₂ : k₂.objs f_item = some (.fatItem ⟨0, 0⟩) := (hk₂.obj hown.alive).trans hobj
  refine .bind (modifyFatItem_returns hne hobj₂ _) ?_
  intro _ k₃ hst₃
  have hg₃ := (hk₁.trans hk₂).stored (hown.mono hk₂) hst₃
  exact .pure ⟨hne, (hg.trans hg₃).mono (by omega),
    .before hg ⟨hst₃.alive (hown.mono hk₂).alive, hown.fresh⟩, directory, hst₃.self,
    (hdir.stored hk₂ hown.alive hst₃).before hg₁⟩

/-- With enough memory the item of an entry is built. -/
theorem fat16NewFatItemForDirectoryItem_returns (hg : Grown k₀ m k) (hvol : FatVolume h k₀.disk)
    (hitem : ∀ m k, Grown k₀ m k → HoldsEntry k item e) {blocks : Nat}
    (hfit : ItemFits h k₀.disk.image e blocks) (hm : m + blocks ≤ 25600) :
    Returns (fat16NewFatItemForDirectoryItem item) k fun f_item k' =>
      f_item ≠ 0 ∧ Grown k₀ (m + blocks) k' := by
  have hblocks := hfit.file
  by_cases hattr : e.attribute_ &&& FAT_FILE_SUBDIRECTORY = 0
  · refine (fat16NewFatItemForDirectoryItem_file hg hitem hattr (by omega)).mono ?_
    rintro f_item k' ⟨hne, hk', -⟩
    exact ⟨hne, hk'.mono (by omega)⟩
  · obtain ⟨chain, count, hsub, hcount⟩ := hfit.directory hattr
    refine (fat16NewFatItemForDirectoryItem_directory hg hvol hitem hattr hsub (by omega)).mono ?_
    rintro f_item k' ⟨hne, hk', -⟩
    exact ⟨hne, hk'.mono (by omega)⟩

end Build

/-! ### Names -/

/-- The entry is in use. -/
def FatDirectoryItem.Live (e : FatDirectoryItem) : Prop := e.filename.getD 0 0 ≠ 0xE5

/-- The entry's 8.3 name is `name` but for the case of ASCII letters. -/
def FatDirectoryItem.Named (e : FatDirectoryItem) (name : List UInt8) : Prop :=
  (fat16GetFullRelativeFilename e).map tolower = name.map tolower

instance (e : FatDirectoryItem) : Decidable e.Live := inferInstanceAs (Decidable (_ ≠ _))

instance (e : FatDirectoryItem) (name : List UInt8) : Decidable (e.Named name) :=
  inferInstanceAs (Decidable (_ = _))

theorem tolower_eq_zero {c : UInt8} : tolower c = 0 ↔ c = 0 := by
  unfold tolower
  split
  · next h =>
    have h₁ : 65 ≤ c.toNat := UInt8.le_iff_toNat_le.mp h.1
    have h₂ : c.toNat ≤ 90 := UInt8.le_iff_toNat_le.mp h.2
    rw [← UInt8.toNat_inj, ← UInt8.toNat_inj, UInt8.toNat_add]
    change (c.toNat + 32) % 256 = 0 ↔ c.toNat = 0
    omega
  · exact Iff.rfl

theorem istrncmpLoop_of_ne {str1 str2 : Nat → UInt8} {n i : Nat}
    (h : tolower (str1 i) ≠ tolower (str2 i)) : istrncmpLoop str1 str2 (n + 1) i ≠ 0 := by
  have hne : str1 i ≠ str2 i := fun heq => h (congrArg tolower heq)
  rw [istrncmpLoop, if_pos ⟨hne, h⟩]
  have : (str1 i).toNat ≠ (str2 i).toNat := fun heq => hne (UInt8.toNat_inj.mp heq)
  omega

theorem istrncmpLoop_of_eq {str1 str2 : Nat → UInt8} {n i : Nat}
    (h : tolower (str1 i) = tolower (str2 i)) (h₀ : str1 i ≠ 0) :
    istrncmpLoop str1 str2 (n + 1) i = istrncmpLoop str1 str2 n (i + 1) := by
  rw [istrncmpLoop, if_neg fun hne => hne.2 h, if_neg h₀]

/-- The comparison of two strings that end with a NUL. -/
theorem istrncmpLoop_eq_zero_iff {str1 str2 : Nat → UInt8} : ∀ (l s : List UInt8) (n i : Nat),
    l.length < n → (∀ c ∈ l, c ≠ 0) → (∀ c ∈ s, c ≠ 0) →
    (∀ j ≤ l.length, str1 (i + j) = l.getD j 0) → (∀ j ≤ s.length, str2 (i + j) = s.getD j 0) →
    (istrncmpLoop str1 str2 n i = 0 ↔ l.map tolower = s.map tolower) := by
  intro l
  induction l with
  | nil =>
    intro s n i hn _ hs hl hs'
    obtain ⟨n, rfl⟩ : ∃ m, n = m + 1 := ⟨n - 1, by simp at hn; omega⟩
    have h₁ : str1 i = 0 := hl 0 le_rfl
    cases s with
    | nil =>
      have h₂ : str2 i = 0 := hs' 0 le_rfl
      rw [istrncmpLoop, h₁, h₂]
      exact ⟨fun _ => rfl, fun _ => rfl⟩
    | cons c s =>
      have h₂ : str2 i = c := hs' 0 (Nat.zero_le _)
      have hne : tolower (str1 i) ≠ tolower (str2 i) := by
        rw [h₁, h₂]
        exact fun heq => hs c (List.mem_cons_self ..) (tolower_eq_zero.mp heq.symm)
      exact ⟨fun hz => absurd hz (istrncmpLoop_of_ne hne), fun hmap => by cases hmap⟩
  | cons b l ih =>
    intro s n i hn hlz hs hl hs'
    obtain ⟨n, rfl⟩ : ∃ m, n = m + 1 := ⟨n - 1, by simp at hn; omega⟩
    have h₁ : str1 i = b := hl 0 (Nat.zero_le _)
    have hb := hlz b (List.mem_cons_self ..)
    cases s with
    | nil =>
      have h₂ : str2 i = 0 := hs' 0 le_rfl
      have hne : tolower (str1 i) ≠ tolower (str2 i) := by
        rw [h₁, h₂]
        exact fun heq => hb (tolower_eq_zero.mp heq)
      exact ⟨fun hz => absurd hz (istrncmpLoop_of_ne hne), fun hmap => by cases hmap⟩
    | cons c s =>
      have h₂ : str2 i = c := hs' 0 (Nat.zero_le _)
      rw [List.map_cons, List.map_cons, List.cons_eq_cons]
      by_cases heq : tolower b = tolower c
      · rw [istrncmpLoop_of_eq (by rw [h₁, h₂, heq]) (by rwa [h₁]), ih s n (i + 1)
          (by simpa using hn) (fun d hd => hlz d (List.mem_cons_of_mem _ hd))
          (fun d hd => hs d (List.mem_cons_of_mem _ hd)) ?_ ?_]
        · exact (and_iff_right heq).symm
        · intro j hj
          rw [Nat.add_assoc, Nat.add_comm 1, hl (j + 1) (by simpa using hj), List.getD_cons_succ]
        · intro j hj
          rw [Nat.add_assoc, Nat.add_comm 1, hs' (j + 1) (by simpa using hj), List.getD_cons_succ]
      · have hne : tolower (str1 i) ≠ tolower (str2 i) := by rwa [h₁, h₂]
        exact ⟨fun hz => absurd hz (istrncmpLoop_of_ne hne), fun hmap => absurd hmap.1 heq⟩

theorem fat16ToProperString_spec (in_ : List UInt8) :
    (fat16ToProperString in_).length ≤ in_.length ∧ ∀ c ∈ fat16ToProperString in_, c ≠ 0 := by
  induction in_ with
  | nil => exact ⟨le_rfl, fun c hc => by cases hc⟩
  | cons c in_ ih =>
    unfold fat16ToProperString
    split
    · next h =>
      refine ⟨Nat.succ_le_succ ih.1, fun d hd => ?_⟩
      rcases List.mem_cons.mp hd with rfl | hd
      · exact h.1
      · exact ih.2 d hd
    · exact ⟨Nat.zero_le _, fun d hd => by cases hd⟩

/-- The 8.3 name of an entry fits in 12 characters and ends with its first NUL. -/
theorem fat16GetFullRelativeFilename_spec (mem : Nat → UInt8) (p : Nat) :
    (fat16GetFullRelativeFilename (readFatDirectoryItem mem p)).length ≤ 12 ∧
      ∀ c ∈ fat16GetFullRelativeFilename (readFatDirectoryItem mem p), c ≠ 0 := by
  obtain ⟨hlen, hne⟩ := fat16ToProperString_spec (readFatDirectoryItem mem p).filename
  obtain ⟨hlen', hne'⟩ := fat16ToProperString_spec (readFatDirectoryItem mem p).ext
  have h₈ : (readFatDirectoryItem mem p).filename.length = 8 := readBytes_length ..
  have h₃ : (readFatDirectoryItem mem p).ext.length = 3 := readBytes_length ..
  unfold fat16GetFullRelativeFilename
  rw [List.length_append]
  split
  · refine ⟨by rw [List.length_cons]; omega, fun c hc => ?_⟩
    rcases List.mem_append.mp hc with hc | hc
    · exact hne c hc
    rcases List.mem_cons.mp hc with rfl | hc
    · decide
    · exact hne' c hc
  · refine ⟨by rw [List.length_nil]; omega, fun c hc => ?_⟩
    rcases List.mem_append.mp hc with hc | hc
    · exact hne c hc
    · cases hc

/-- A string of memory: its characters, none of them NUL, and a NUL behind them. -/
structure HoldsString (k : Kernel) (p : Nat) (s : List UInt8) : Prop where
  chars : ∀ c ∈ s, c ≠ 0
  bytes : ∀ j ≤ s.length, k.mem (p + j) = s.getD j 0

/-- The comparison of the search is equality of names. -/
theorem istrncmp_eq_zero_iff {k : Kernel} {name : Nat} {s : List UInt8} (hs : HoldsString k name s)
    (mem : Nat → UInt8) (p : Nat) :
    istrncmp (fun j => (fat16GetFullRelativeFilename (readFatDirectoryItem mem p)).getD j 0)
      (fun j => k.mem (name + j)) PLUMOS_MAX_PATH = 0 ↔ (readFatDirectoryItem mem p).Named s := by
  obtain ⟨hlen, hne⟩ := fat16GetFullRelativeFilename_spec mem p
  refine istrncmpLoop_eq_zero_iff _ s _ 0 (by simp only [PLUMOS_MAX_PATH]; omega) hne hs.chars ?_ ?_
  · intro j _
    rw [Nat.zero_add]
  · intro j hj
    rw [Nat.zero_add]
    exact hs.bytes j hj

/-! ### The search -/

/-- The loop of `fat16_find_item_in_directory`, with the slot that the item it returns was
built from. -/
def fat16FindItemTrace (directory : FatDirectory) (name : Nat) :
    (fuel i : Nat) → (found : Nat × Option Nat) → KM (Nat × Option Nat)
  | 0, _, found => pure found
  | fuel + 1, i, found => do
    let item := directory.item + sizeofFatDirectoryItem * i
    let entry ← derefItem item
    let mem ← reads Kernel.mem
    let tmp_filename := fat16GetFullRelativeFilename entry
    if istrncmp (fun j => tmp_filename.getD j 0) (fun j => mem (name + j)) PLUMOS_MAX_PATH = 0 then do
      let f_item ← fat16NewFatItemForDirectoryItem item
      fat16FindItemTrace directory name fuel (i + 1) (f_item, some i)
    else fat16FindItemTrace directory name fuel (i + 1) found

/-- The search with its slot is the search. -/
theorem fat16FindItemTrace_fst (directory : FatDirectory) (name : Nat) :
    ∀ (fuel i : Nat) (found : Nat × Option Nat) (k : Kernel),
      (fat16FindItemTrace directory name fuel i found k).map (fun r => (r.1.1, r.2)) =
        fat16FindItemLoop directory name fuel i found.1 k := by
  intro fuel
  induction fuel with
  | zero => exact fun _ _ _ => rfl
  | succ fuel ih =>
    intro i found k
    unfold fat16FindItemTrace fat16FindItemLoop
    dsimp only
    cases hd : derefItem (directory.item + sizeofFatDirectoryItem * i) k with
    | error e =>
      rw [bind_of_error hd, bind_of_error hd]
      rfl
    | ok r =>
      rw [bind_of_ok hd, bind_of_ok hd, bind_of_ok (a := r.2.mem) rfl, bind_of_ok (a := r.2.mem) rfl]
      split
      · cases hn : fat16NewFatItemForDirectoryItem (directory.item + sizeofFatDirectoryItem * i) r.2 with
        | error e =>
          rw [bind_of_error hn, bind_of_error hn]
          rfl
        | ok r' =>
          rw [bind_of_ok hn, bind_of_ok hn]
          exact ih _ _ _
      · exact ih _ _ _

/-- A lookup: `fat16_get_total_items_for_directory` and `fat16_find_item_in_directory`, with
the slot of the item. -/
def fat16Lookup (directory_start_sector : Nat) (directory : FatDirectory) (name : Nat) :
    KM (Nat × Option Nat) := do
  let total ← onDisk (fat16GetTotalItemsForDirectory directory_start_sector)
  fat16FindItemTrace { directory with total := total } name total.toNat 0 (0, none)

/-- The last of the slots from `i` on with the name. -/
def lastNamed (name : List UInt8) : (i : Nat) → List FatDirectoryItem → Option Nat
  | _, [] => none
  | i, e :: es => (lastNamed name (i + 1) es).or (if e.Named name then some i else none)

theorem lastNamed_eq_none_iff {name : List UInt8} {es : List FatDirectoryItem} : ∀ {i : Nat},
    lastNamed name i es = none ↔ ∀ e ∈ es, ¬ e.Named name := by
  induction es with
  | nil => simp [lastNamed]
  | cons e es ih =>
    intro i
    rw [lastNamed, Option.or_eq_none_iff, ih, List.forall_mem_cons, and_comm]
    simp

theorem lastNamed_eq_some {name : List UInt8} {es : List FatDirectoryItem} : ∀ {i j : Nat},
    lastNamed name i es = some j → ∃ e, i ≤ j ∧ es[j - i]? = some e ∧ e.Named name ∧
      ∀ e' ∈ es.drop (j - i + 1), ¬ e'.Named name := by
  induction es with
  | nil => exact fun h => by cases h
  | cons e es ih =>
    intro i j h
    rw [lastNamed, Option.or_eq_some_iff] at h
    rcases h with h | ⟨hnone, h⟩
    · obtain ⟨e', hij, he', hnamed, hrest⟩ := ih h
      have hsub : j - i = j - (i + 1) + 1 := by omega
      refine ⟨e', by omega, ?_, hnamed, ?_⟩
      · rw [hsub]
        exact he'
      · rw [hsub]
        exact hrest
    · split at h
      · next hnamed =>
        cases h
        refine ⟨e, le_rfl, by rw [Nat.sub_self]; rfl, hnamed, ?_⟩
        rw [Nat.sub_self]
        exact lastNamed_eq_none_iff.mp hnone
      · cases h

/-- The number of slots that a search visits: as many as there are entries in use. -/
def visited (es : List FatDirectoryItem) : Nat := es.countP fun e => e.Live

/-- A directory whose scan starts in `sector` has the entries `es`, and those of the visited
slots are in the buffer of `directory`; `name` is a string, and there is memory for an item of
at most `blocks` blocks for each of them. -/
structure LookupReady (h : FatHeader) (k : Kernel) (sector : Nat) (directory : FatDirectory)
    (name : Nat) (es : List FatDirectoryItem) (s : List UInt8) (m blocks : Nat) : Prop where
  volume : FatVolume h k.disk
  listing : ∃ start : Nat, i32 (u32 ((sector : Nat) * 512)) = i32 start ∧
    Listing k.disk.image start es.length ∧
    es = (slots start es.length).map (readFatDirectoryItem k.disk.image)
  buffer : ∃ n, k.Alive directory.item n ∧ 32 * visited es ≤ 4096 * n
  held : ∀ j e, j < visited es → es[j]? = some e → HoldsEntry k (directory.item + 32 * j) e
  name_alive : ∃ n, k.Alive name n ∧ s.length < 4096 * n
  name_held : HoldsString k name s
  free : k.FreeFrom m
  room : m + blocks * visited es ≤ 25600
  items : ∀ e ∈ es.take (visited es), e.Named s → ItemFits h k.disk.image e blocks

section Lookup

variable {h : FatHeader} {k : Kernel} {sector name m blocks : Nat} {directory : FatDirectory}
  {es : List FatDirectoryItem} {s : List UInt8}

theorem Grown.holdsString {k' : Kernel} {n m' : Nat} (hg : Grown k m' k') (hal : k.Alive name n)
    (hlen : s.length < 4096 * n) (hs : HoldsString k name s) : HoldsString k' name s where
  chars := hs.chars
  bytes := fun j hj => (hg.mem name n _ hal (by omega) (by omega)).trans (hs.bytes j hj)

/-- The rounds of the search from slot `i` on. -/
theorem fat16FindItemTrace_returns (hr : LookupReady h k sector directory name es s m blocks) :
    ∀ (fuel i : Nat) (found : Nat × Option Nat) (m' : Nat) (k' : Kernel), Grown k m' k' →
      i + fuel = visited es → m' + blocks * fuel ≤ 25600 →
      Returns (fat16FindItemTrace { directory with total := (visited es : Nat) } name fuel i found) k'
        fun r _ =>
          r.2 = (lastNamed s i ((es.take (visited es)).drop i)).or found.2 ∧
          (lastNamed s i ((es.take (visited es)).drop i) = none → r.1 = found.1) ∧
          (lastNamed s i ((es.take (visited es)).drop i) ≠ none → r.1 ≠ 0) := by
  have hle : visited es ≤ es.length := List.countP_le_length
  intro fuel
  induction fuel with
  | zero =>
    intro i found m' k' _ hi _
    rw [List.drop_of_length_le (by rw [List.length_take]; omega)]
    exact .pure ⟨rfl, fun _ => rfl, fun hne => absurd rfl hne⟩
  | succ fuel ih =>
    intro i found m' k' hg hi hm
    rw [Nat.mul_succ] at hm
    obtain ⟨n, hal, hbuf⟩ := hr.buffer
    obtain ⟨n', hal', hlen⟩ := hr.name_alive
    obtain ⟨e, he⟩ : ∃ e, es[i]? = some e := ⟨_, List.getElem?_eq_getElem (by omega)⟩
    have htake : (es.take (visited es)).drop i = e :: (es.take (visited es)).drop (i + 1) := by
      have hget : (es.take (visited es))[i]? = some e := by
        rw [List.getElem?_take_of_lt (by omega), he]
      obtain ⟨hlt, rfl⟩ := List.getElem?_eq_some_iff.mp hget
      exact List.drop_eq_getElem_cons hlt
    have hitem : ∀ m k', Grown k m k' → HoldsEntry k' (directory.item + 32 * i) e := fun m k' hg =>
      hg.holdsEntry hal (by omega) (by omega) (hr.held i e (by omega) he)
    have hmem : e ∈ es.take (visited es) := by
      have : e ∈ (es.take (visited es)).drop i := by
        rw [htake]
        exact List.mem_cons_self ..
      exact List.mem_of_mem_drop this
    refine .bind (hitem m' k' hg).deref ?_
    rintro _ _ ⟨rfl, rfl⟩
    refine .bind (R := fun mem k₂ => k' = k₂ ∧ k'.mem = mem) (.reads ⟨rfl, rfl⟩) ?_
    rintro _ _ ⟨rfl, rfl⟩
    have hcompare : istrncmp (fun j => (fat16GetFullRelativeFilename e).getD j 0)
        (fun j => k'.mem (name + j)) PLUMOS_MAX_PATH = 0 ↔ e.Named s := by
      rw [← (hitem m' k' hg).entry]
      exact istrncmp_eq_zero_iff (hg.holdsString hal' hlen hr.name_held) _ _
    dsimp only
    rw [htake, lastNamed]
    by_cases hnamed : e.Named s
    · rw [if_pos (hcompare.mpr hnamed), if_pos hnamed]
      refine .bind (fat16NewFatItemForDirectoryItem_returns hg hr.volume hitem
        (hr.items e hmem hnamed) (by omega)) ?_
      rintro f_item k₂ ⟨hne, hg₂⟩
      refine (ih (i + 1) (f_item, some i) _ k₂ hg₂ (by omega) (by omega)).mono ?_
      rintro r _ ⟨hslot, hnone, hsome⟩
      cases hlast : lastNamed s (i + 1) ((es.take (visited es)).drop (i + 1)) with
      | none =>
        rw [hlast] at hslot hnone
        refine ⟨hslot, fun hn => absurd hn (by simp), fun _ => ?_⟩
        rw [hnone rfl]
        exact hne
      | some j =>
        rw [hlast] at hslot hsome
        exact ⟨hslot, fun hn => absurd hn (by simp), fun _ => hsome (by simp)⟩
    · rw [if_neg fun hz => hnamed (hcompare.mp hz), if_neg hnamed]
      refine (ih (i + 1) found m' k' hg (by omega) (by omega)).mono ?_
      rintro r _ hfound
      rw [Option.or_none]
      exact hfound

/-- The lookup returns an item if and only if an entry in use has the name, and it is the
item of such an entry. -/
def FindsLive (k : Kernel) (sector : Nat) (directory : FatDirectory) (name : Nat)
    (es : List FatDirectoryItem) (s : List UInt8) : Prop :=
  Returns (fat16Lookup sector directory name) k fun r _ =>
    (r.1 ≠ 0 ↔ ∃ e ∈ es, e.Live ∧ e.Named s) ∧
    (r.1 ≠ 0 → ∃ j e, r.2 = some j ∧ es[j]? = some e ∧ e.Live ∧ e.Named s)

/-- Among the visited slots the last one with the name is not deleted, and there is one
if an entry in use has the name. -/
structure LastIsLive (es : List FatDirectoryItem) (s : List UInt8) : Prop where
  live : ∀ j e, (es.take (visited es))[j]? = some e → e.Named s →
    (∀ e' ∈ (es.take (visited es)).drop (j + 1), ¬ e'.Named s) → e.Live
  found : (∃ e ∈ es, e.Live ∧ e.Named s) → ∃ e ∈ es.take (visited es), e.Named s

/-- A lookup finds what is in use exactly when no deleted slot stands in its way: neither
as the last visited one with the name, nor by taking the place of the entry in the visited
slots. -/
theorem fat16Lookup_iff (hr : LookupReady h k sector directory name es s m blocks) :
    FindsLive k sector directory name es s ↔ LastIsLive es s := by
  obtain ⟨start, hstart, hlist, hes⟩ := hr.listing
  obtain ⟨p, hp, -⟩ := hr.volume.bound
  have hcount : liveSlots k.disk.image (slots start es.length) = visited es := by
    unfold visited liveSlots
    conv_rhs => rw [hes, List.countP_map]
    refine List.countP_congr fun q _ => ?_
    simp only [Function.comp_apply, decide_eq_true_eq]
    exact Iff.rfl
  have hlookup : Returns (fat16Lookup sector directory name) k fun r _ =>
      r.2 = lastNamed s 0 (es.take (visited es)) ∧
      (lastNamed s 0 (es.take (visited es)) = none → r.1 = 0) ∧
      (lastNamed s 0 (es.take (visited es)) ≠ none → r.1 ≠ 0) := by
    refine .bind (onDisk_returns (fat16GetTotalItemsForDirectory_returns hr.volume.sector_size hp
      hstart hlist)) ?_
    rintro _ k₁ ⟨⟨rfl, hv⟩, hk₁⟩
    rw [hcount, Int.toNat_natCast]
    refine (fat16FindItemTrace_returns hr (visited es) 0 (0, none) m k₁
      ((Grown.refl hr.free).onDisk hk₁ hv) (Nat.zero_add _) hr.room).mono ?_
    rintro r _ ⟨hslot, hnone, hsome⟩
    rw [List.drop_zero, Option.or_none] at hslot
    exact ⟨hslot, hnone, hsome⟩
  have hget : ∀ (j : Nat) (e : FatDirectoryItem), (es.take (visited es))[j]? = some e →
      es[j]? = some e := by
    intro j e he
    rw [List.getElem?_take] at he
    split at he
    · exact he
    · cases he
  cases hlast : lastNamed s 0 (es.take (visited es)) with
  | none =>
    -- nothing is found
    rw [hlast] at hlookup
    have hnamed := lastNamed_eq_none_iff.mp hlast
    constructor
    · intro hfinds
      obtain ⟨r, _, -, ⟨-, hnone, -⟩, hiff, -⟩ := hlookup.and_ensures hfinds.ensures
      exact
        { live := fun j e he hn => absurd hn (hnamed e (List.mem_of_getElem? he))
          found := fun hex => absurd (hnone rfl) (hiff.mpr hex) }
    · intro hl
      refine hlookup.mono fun r _ ⟨_, hnone, _⟩ => ⟨⟨fun hne => absurd (hnone rfl) hne, fun hex => ?_⟩,
        fun hne => absurd (hnone rfl) hne⟩
      obtain ⟨e, he, hn⟩ := hl.found hex
      exact absurd hn (hnamed e he)
  | some j =>
    -- the item of slot `j` is returned
    rw [hlast] at hlookup
    obtain ⟨e, -, he, hn, hrest⟩ := lastNamed_eq_some hlast
    rw [Nat.sub_zero] at he hrest
    constructor
    · intro hfinds
      obtain ⟨r, _, -, ⟨hslot, -, hsome⟩, -, hbuilt⟩ := hlookup.and_ensures hfinds.ensures
      obtain ⟨j', e', hj', he', hlive, -⟩ := hbuilt (hsome (by simp))
      cases hslot.symm.trans hj'
      cases (hget j e he).symm.trans he'
      refine ⟨fun j' e' he' hn' hrest' => ?_, fun _ => ⟨e, List.mem_of_getElem? he, hn⟩⟩
      -- there is one last slot with the name
      rcases lt_trichotomy j j' with hlt | rfl | hgt
      · refine absurd hn' (hrest e' (List.mem_iff_getElem?.mpr ⟨j' - (j + 1), ?_⟩))
        rwa [List.getElem?_drop, show j + 1 + (j' - (j + 1)) = j' by omega]
      · cases he.symm.trans he'
        exact hlive
      · refine absurd hn (hrest' e (List.mem_iff_getElem?.mpr ⟨j - (j' + 1), ?_⟩))
        rwa [List.getElem?_drop, show j' + 1 + (j - (j' + 1)) = j by omega]
    · intro hl
      have hlive := hl.live j e he hn hrest
      refine hlookup.mono fun r _ ⟨hslot, _, hsome⟩ => ?_
      exact ⟨⟨fun _ => ⟨e, List.mem_of_getElem? (hget j e he), hlive, hn⟩, fun _ => hsome (by simp)⟩,
        fun _ => ⟨j, e, hslot, hget j e he, hlive, hn⟩⟩

end Lookup

/-! ### A small root directory -/

/-- A kernel that has loaded the root directory of a volume into its first block, with the
name `A` in its second one. -/
def Kernel.listed (image : Nat → UInt8) : Kernel :=
  { Kernel.boot ⟨512, some .smallRoot, image⟩ with
    heap_entries := fun i => if 0 ≤ i ∧ i < 2 then 0x41 else 0
    mem := fun p => if p < 0x1001000 then image (p - 0x1000000 + 1024)
      else if p = 0x1001000 then 0x41 else 0 }

/-- The entries of that directory. -/
def rootEntries (image : Nat → UInt8) (n : Nat) : List FatDirectoryItem :=
  (slots 1024 n).map (readFatDirectoryItem image)

theorem listed_alive (image : Nat → UInt8) {b : Nat} (hb : b < 2) :
    (Kernel.listed image).Alive (blockAddress b) 1 := by
  refine ⟨b, rfl, by decide, by omega, fun j hj => ?_⟩
  obtain rfl := Nat.lt_one_iff.mp hj
  change (if (0 : Int) ≤ ((b + 0 : Nat) : Int) ∧ ((b + 0 : Nat) : Int) < 2 then 0x41 else 0) = _
  rw [if_pos (by omega)]
  rfl

theorem listed_ready (image : Nat → UInt8) {n : Nat} (hn : n ≤ 16)
    (hlist : Listing image 1024 n)
    (hfiles : ∀ e ∈ rootEntries image n, e.attribute_ &&& FAT_FILE_SUBDIRECTORY = 0) :
    LookupReady FatPrivate.smallRoot.header (Kernel.listed image) 2 ⟨0x1000000, 0, 2, 3⟩ 0x1001000
      (rootEntries image n) [0x41] 2 2 := by
  have hlen : (rootEntries image n).length = n := by simp [rootEntries]
  have hvisited : visited (rootEntries image n) ≤ n :=
    (List.countP_le_length (l := rootEntries image n)).trans_eq hlen
  exact
    { volume :=
        { sector_size := rfl
          bound := ⟨_, rfl, rfl, rfl⟩
          root_whole := rfl
          sectors_per_cluster_pos := by decide
          sectors_per_cluster_lt := by decide
          reserved_sectors_lt := by decide }
      listing := ⟨1024, by decide, hlen.symm ▸ hlist, by rw [hlen]; rfl⟩
      buffer := ⟨1, listed_alive image (b := 0) (by decide), by omega⟩
      held := fun j e hj he => by
        obtain ⟨hlt, rfl⟩ := List.getElem?_eq_some_iff.mp he
        refine ⟨show 0x1000000 + 32 * j ≠ 0 by omega, rfl, ?_⟩
        simp only [rootEntries, slots, List.getElem_map, List.getElem_range]
        refine readFatDirectoryItem_shift fun i hi => ?_
        exact (if_pos (show 0x1000000 + 32 * j + i < 0x1001000 by omega)).trans
          (congrArg image (show 0x1000000 + 32 * j + i - 0x1000000 + 1024 = 1024 + 32 * j + i by
            omega))
      name_alive := ⟨1, listed_alive image (b := 1) (by decide), by decide⟩
      name_held :=
        { chars := List.forall_mem_singleton.mpr (by decide)
          bytes := fun j hj => by
            have hj' : j ≤ 1 := hj
            change (if 0x1001000 + j < 0x1001000 then _ else if 0x1001000 + j = 0x1001000 then 0x41
              else 0) = _
            rw [if_neg (by omega)]
            rcases Nat.le_one_iff_eq_zero_or_eq_one.mp hj' with rfl | rfl
            · rfl
            · rfl }
      free := fun i h₁ h₂ => by
        change heapGetEntryType (if (0 : Int) ≤ (i : Int) ∧ (i : Int) < 2 then 0x41 else 0) = _
        rw [if_neg (by omega)]
        rfl
      room := by omega
      items := fun e he _ => ⟨le_rfl, fun hattr => absurd (hfiles e (List.mem_of_mem_take he)) hattr⟩ }

/-- A deleted entry in front of the entry of a file `A`. -/
def deletedFirst (p : Nat) : UInt8 :=
  if p = 1024 then 0xE5 else if p = 1056 then 0x41 else if 1056 < p ∧ p < 1067 then 0x20 else 0

/-- The file behind the deleted entry is not found. -/
theorem fat16Lookup_deleted :
    LookupReady FatPrivate.smallRoot.header (Kernel.listed deletedFirst) 2 ⟨0x1000000, 0, 2, 3⟩
      0x1001000 (rootEntries deletedFirst 2) [0x41] 2 2 ∧
    ¬ FindsLive (Kernel.listed deletedFirst) 2 ⟨0x1000000, 0, 2, 3⟩ 0x1001000
      (rootEntries deletedFirst 2) [0x41] := by
  refine ⟨listed_ready _ (by decide) ⟨by decide, by decide, by decide⟩ (by decide), ?_⟩
  rintro ⟨r, _, hok, hiff, -⟩
  obtain ⟨r', _, hok', hnull⟩ := Returns.of_checks (m := fat16Lookup 2 ⟨0x1000000, 0, 2, 3⟩ 0x1001000)
    (s := Kernel.listed deletedFirst) (q := fun r _ => r.1 == 0) (by decide +kernel)
  cases hok.symm.trans hok'
  exact hiff.mpr (by decide) (eq_of_beq hnull)

/-- The entry of a file `A` alone. -/
def onlyA (p : Nat) : UInt8 :=
  if p = 1024 then 0x41 else if 1024 < p ∧ p < 1035 then 0x20 else 0

theorem fat16Lookup_only :
    FindsLive (Kernel.listed onlyA) 2 ⟨0x1000000, 0, 2, 3⟩ 0x1001000 (rootEntries onlyA 1) [0x41] := by
  refine (fat16Lookup_iff (listed_ready _ (by decide) ⟨by decide, by decide, by decide⟩
    (by decide))).mpr ⟨fun j e he _ _ => ?_, fun _ => by decide⟩
  have hlive : ∀ e ∈ rootEntries onlyA 1, e.Live := by decide
  exact hlive e (List.mem_of_mem_take (List.mem_of_getElem? he))

end PlumOS
