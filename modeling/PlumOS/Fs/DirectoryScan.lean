import PlumOS.Fs.Fat16

/-!
# Scanning a directory

`fat16_get_total_items_for_directory` reads the disk from the first sector of a directory
on, slot by slot, until it finds a 0x00. It knows neither the size of the root directory
nor the cluster chain of a subdirectory.

## Main definitions

- `slots` — positions one behind another
- `fat16ScanDirectory` — the scan, with the positions it looks at
- `DirectoryStorage` — the positions that belong to a directory
- `StaysInside`, `EndsInFirstRun`

## Main results

- `directory_scan_iff` — which scans stay inside their directory
-/

namespace PlumOS

open StateExcept

/-! ### Slots -/

/-- The positions of `n` slots from `p` on. -/
def slots (p n : Nat) : List Nat := (List.range n).map fun j => p + 32 * j

theorem slots_succ (p n : Nat) : slots p (n + 1) = p :: slots (p + 32) n := by
  unfold slots
  rw [List.range_succ_eq_map, List.map_cons, List.map_map]
  congr 1
  apply List.map_congr_left
  intro j _
  simp only [Function.comp_apply]
  omega

@[simp] theorem slots_length (p n : Nat) : (slots p n).length = n := by simp [slots]

theorem slots_add (p m n : Nat) : slots p (m + n) = slots p m ++ slots (p + 32 * m) n := by
  unfold slots
  rw [List.range_add, List.map_append, List.map_map]
  congr 1
  apply List.map_congr_left
  intro j _
  simp only [Function.comp_apply]
  omega

theorem slots_getD {p n j : Nat} (h : j < n) : (slots p n).getD j 0 = p + 32 * j := by
  rw [List.getD_eq_getElem _ _ (by rwa [slots_length])]
  simp [slots]

theorem mem_slots {p n q : Nat} : q ∈ slots p n ↔ ∃ j < n, q = p + 32 * j := by
  simp only [slots, List.mem_map, List.mem_range]
  exact exists_congr fun j => and_congr_right fun _ => eq_comm

/-- A list up to its first element that stops, with that element. -/
def upTo {α : Type} (stop : α → Bool) : List α → List α
  | [] => []
  | a :: l => if stop a then [a] else a :: upTo stop l

theorem upTo_prefix {α : Type} (stop : α → Bool) (l : List α) : upTo stop l <+: l := by
  induction l with
  | nil => exact List.prefix_rfl
  | cons a l ih =>
    unfold upTo
    split
    · exact ⟨l, rfl⟩
    · exact List.cons_prefix_cons.mpr ⟨rfl, ih⟩

theorem upTo_append {α : Type} {stop : α → Bool} {l : List α} (hl : ∀ a ∈ l, stop a = false)
    {a : α} (ha : stop a = true) (rest : List α) : upTo stop (l ++ a :: rest) = l ++ [a] := by
  induction l with
  | nil => simp [upTo, ha]
  | cons b l ih =>
    rw [List.cons_append, upTo, hl b (List.mem_cons_self ..), if_neg (by decide),
      ih fun c hc => hl c (List.mem_cons_of_mem _ hc)]
    rfl

/-! ### The scan -/

/-- The loop of `fat16_get_total_items_for_directory` with the positions of the stream from
which it reads. -/
def fat16ScanLoop : (fuel : Nat) → (i : Int) → (looked : List Int) → DM (Int × List Int)
  | 0, _, _ => fails .divergence
  | fuel + 1, i, looked => do
    let fat_private ← fsPrivate
    let looked := looked ++ [fat_private.pos .directory_stream]
    let item ← diskstreamerRead .directory_stream sizeofFatDirectoryItem
    if item.getD 0 0 = 0x00 then pure (i, looked)
    else if item.getD 0 0 = 0xE5 then fat16ScanLoop fuel i looked
    else fat16ScanLoop fuel (i + 1) looked

/-- `fat16_get_total_items_for_directory` with these positions. -/
def fat16ScanDirectory (directory_start_sector : Nat) : DM (Int × List Int) := do
  let sector_size ← reads Disk.sector_size
  let directory_start_pos := i32 (u32 (directory_start_sector * sector_size))
  diskstreamerSeek .directory_stream directory_start_pos
  fat16ScanLoop 0x10000000 0 []

theorem fat16ScanLoop_fst : ∀ (fuel : Nat) (i : Int) (looked : List Int) (d : Disk),
    (fat16ScanLoop fuel i looked d).map (fun r => (r.1.1, r.2)) = fat16GetTotalItemsLoop fuel i d := by
  intro fuel
  induction fuel with
  | zero => exact fun _ _ _ => rfl
  | succ fuel ih =>
    intro i looked d
    cases hp : d.fs_private with
    | none =>
      have hfault : fsPrivate d = .error .badPointer := by
        unfold fsPrivate
        rw [hp]
      unfold fat16ScanLoop fat16GetTotalItemsLoop diskstreamerRead
      rw [bind_of_error hfault, bind_of_error (bind_of_error hfault)]
      rfl
    | some p =>
      have hok : fsPrivate d = .ok (p, d) := by
        unfold fsPrivate
        rw [hp]
      unfold fat16ScanLoop fat16GetTotalItemsLoop
      rw [bind_of_ok hok]
      cases hr : diskstreamerRead .directory_stream sizeofFatDirectoryItem d with
      | error e =>
        rw [bind_of_error hr, bind_of_error hr]
        rfl
      | ok r =>
        rw [bind_of_ok hr, bind_of_ok hr]
        split
        · rfl
        split
        · exact ih _ _ _
        · exact ih _ _ _

/-- The scan with its positions is the scan. -/
theorem fat16ScanDirectory_fst (directory_start_sector : Nat) (d : Disk) :
    (fat16ScanDirectory directory_start_sector d).map (fun r => (r.1.1, r.2)) =
      fat16GetTotalItemsForDirectory directory_start_sector d := by
  unfold fat16ScanDirectory fat16GetTotalItemsForDirectory
  rw [bind_of_ok (a := d.sector_size) rfl, bind_of_ok (a := d.sector_size) rfl]
  generalize i32 (u32 (directory_start_sector * d.sector_size)) = pos
  cases hseek : diskstreamerSeek .directory_stream pos d with
  | error e =>
    rw [bind_of_error hseek, bind_of_error hseek]
    rfl
  | ok r =>
    rw [bind_of_ok hseek, bind_of_ok hseek]
    exact fat16ScanLoop_fst _ _ _ _

/-- The slots that a scan counts. -/
def liveSlots (image : Nat → UInt8) (l : List Nat) : Nat := l.countP fun q => image q ≠ 0xE5

/-- A round of the scan. -/
def scanRound (fuel : Nat) (i : Int) (looked : List Int) (mark : UInt8) : DM (Int × List Int) :=
  if mark = 0x00 then pure (i, looked)
  else if mark = 0xE5 then fat16ScanLoop fuel i looked
  else fat16ScanLoop fuel (i + 1) looked

/-- A round from a position below 2 GiB. -/
private theorem fat16ScanLoop_succ {d d₁ : Disk} (hv : SameVolume d d₁) {p : Nat}
    (hat : StreamAt d₁ .directory_stream (i32 p)) (hp : p < 0x80000000) :
    ∃ d', SameVolume d d' ∧ StreamAt d' .directory_stream (i32 ((p + 32 : Nat) : Int)) ∧
      ∀ fuel i looked, fat16ScanLoop (fuel + 1) i looked d₁ =
        scanRound fuel i (looked ++ [(p : Int)]) (d.image p) d' := by
  obtain ⟨q, hq, hpos⟩ := id hat
  have hok : fsPrivate d₁ = .ok (q, d₁) := by
    unfold fsPrivate
    rw [hq]
  obtain ⟨_, d', hread, rfl, hv', hat'⟩ :=
    @diskstreamerRead_next _ _ p sizeofFatDirectoryItem hat (Or.inl hp)
      (show p + 32 < 0xC0000000 by omega) (by decide)
  have hmark : (readBytes (streamByte d₁) p sizeofFatDirectoryItem).getD 0 0 = d.image p := by
    rw [List.getD_eq_getElem _ _ (by simp [sizeofFatDirectoryItem]), getElem_readBytes, Nat.add_zero, streamByte_of_lt _ hp,
      hv.image]
  refine ⟨d', hv.trans hv', hat', fun fuel i looked => ?_⟩
  rw [fat16ScanLoop, bind_of_ok hok, bind_of_ok hread, hmark, hpos, i32_natCast hp]
  rfl

/-- The scan looks at every slot up to the first 0x00. -/
theorem fat16ScanLoop_returns {d : Disk} : ∀ (n fuel p : Nat) (i : Int) (looked : List Int)
    (d₁ : Disk), SameVolume d d₁ → StreamAt d₁ .directory_stream (i32 p) →
    p + 32 * n < 0x80000000 → n < fuel → (∀ q ∈ slots p n, d.image q ≠ 0) →
    d.image (p + 32 * n) = 0 →
    Returns (fat16ScanLoop fuel i looked) d₁ fun r d' =>
      r = (i + liveSlots d.image (slots p n), looked ++ (slots p (n + 1)).map (Nat.cast : Nat → Int)) ∧
        SameVolume d d' := by
  intro n
  induction n with
  | zero =>
    intro fuel p i looked d₁ hv hat hp hfuel _ hend
    obtain ⟨fuel, rfl⟩ : ∃ m, fuel = m + 1 := ⟨fuel - 1, by omega⟩
    obtain ⟨d', hv', -, hround⟩ := fat16ScanLoop_succ hv hat (by omega)
    rw [Nat.mul_zero, Nat.add_zero] at hend
    refine .of_eq (hround fuel i looked) ?_
    rw [scanRound, if_pos hend]
    exact .pure ⟨by simp [slots, liveSlots], hv'⟩
  | succ n ih =>
    intro fuel p i looked d₁ hv hat hp hfuel hne hend
    obtain ⟨fuel, rfl⟩ : ∃ m, fuel = m + 1 := ⟨fuel - 1, by omega⟩
    rw [slots_succ] at hne
    have hrest : ∀ q ∈ slots (p + 32) n, d.image q ≠ 0 := fun q hq =>
      hne q (List.mem_cons_of_mem _ hq)
    have hend' : d.image (p + 32 + 32 * n) = 0 := by
      rw [← hend]
      congr 1
      omega
    obtain ⟨d', hv', hat', hround⟩ := fat16ScanLoop_succ hv hat (by omega)
    refine .of_eq (hround fuel i looked) ?_
    unfold liveSlots at ih ⊢
    rw [scanRound, if_neg (hne p (List.mem_cons_self ..)), slots_succ p n, slots_succ p (n + 1),
      List.countP_cons, List.map_cons]
    split
    · next hdeleted =>
      refine (ih fuel (p + 32) i _ d' hv' hat' (by omega) (by omega) hrest hend').mono ?_
      rintro _ d'' ⟨rfl, hv''⟩
      simp [hdeleted, hv'']
    · next hlive =>
      refine (ih fuel (p + 32) (i + 1) _ d' hv' hat' (by omega) (by omega) hrest hend').mono ?_
      rintro _ d'' ⟨rfl, hv''⟩
      refine ⟨?_, hv''⟩
      simp [hlive]
      omega

/-- The scan adds to the positions it has looked at. -/
theorem fat16ScanLoop_extends : ∀ (fuel : Nat) (i : Int) (looked : List Int) (d : Disk),
    Ensures (fat16ScanLoop fuel i looked) d fun r _ => ∃ rest, r.2 = looked ++ rest := by
  intro fuel
  induction fuel with
  | zero => exact fun _ _ _ => .fails
  | succ fuel ih =>
    intro i looked d
    refine .bind (R := fun _ _ => True) (fun _ _ _ => trivial) ?_
    intro q d₁ _
    have hnext : ∀ (i : Int) (d' : Disk),
        Ensures (fat16ScanLoop fuel i (looked ++ [q.pos .directory_stream])) d' fun r _ =>
          ∃ rest, r.2 = looked ++ rest := by
      intro i d'
      refine (ih i _ d').mono ?_
      rintro r _ ⟨rest, hrest⟩
      exact ⟨q.pos .directory_stream :: rest, by rw [hrest, List.append_assoc]; rfl⟩
    refine .bind (R := fun _ _ => True) (fun _ _ _ => trivial) ?_
    intro item d₂ _
    split
    · exact .pure ⟨_, rfl⟩
    split
    · exact hnext _ _
    · exact hnext _ _

/-- The first position that a scan adds is that of the stream. -/
theorem fat16ScanLoop_first (fuel : Nat) (i : Int) (looked : List Int) {d : Disk} {pos : Int}
    (hat : StreamAt d .directory_stream pos) :
    Ensures (fat16ScanLoop fuel i looked) d fun r _ => ∃ rest, r.2 = looked ++ pos :: rest := by
  obtain ⟨q, hq, rfl⟩ := hat
  cases fuel with
  | zero => exact .fails
  | succ fuel =>
    have hnext : ∀ (i : Int) (d' : Disk),
        Ensures (fat16ScanLoop fuel i (looked ++ [q.pos .directory_stream])) d' fun r _ =>
          ∃ rest, r.2 = looked ++ q.pos .directory_stream :: rest := by
      intro i d'
      refine (fat16ScanLoop_extends fuel i _ d').mono ?_
      rintro r _ ⟨rest, hrest⟩
      exact ⟨rest, by rw [hrest, List.append_assoc]; rfl⟩
    refine .bind (fsPrivate_spec d) ?_
    rintro q' _ ⟨rfl, hq'⟩
    cases hq.symm.trans hq'
    refine .bind (R := fun _ _ => True) (fun _ _ _ => trivial) ?_
    intro item d₂ _
    split
    · exact .pure ⟨[], rfl⟩
    split
    · exact hnext _ _
    · exact hnext _ _

/-- A scan passes over every slot below 2 GiB that is not 0x00, and looks at the next one. -/
theorem fat16ScanLoop_passes {d : Disk} : ∀ (n fuel p : Nat) (i : Int) (looked : List Int)
    (d₁ : Disk), SameVolume d d₁ → StreamAt d₁ .directory_stream (i32 p) →
    (∀ q ∈ slots p n, q < 0x80000000 ∧ d.image q ≠ 0) →
    Ensures (fat16ScanLoop fuel i looked) d₁ fun r _ => ∃ rest,
      r.2 = looked ++ (slots p n).map (Nat.cast : Nat → Int) ++
        i32 ((p + 32 * n : Nat) : Int) :: rest := by
  intro n
  induction n with
  | zero =>
    intro fuel p i looked d₁ _ hat _
    refine (fat16ScanLoop_first fuel i looked hat).mono ?_
    rintro r _ ⟨rest, hrest⟩
    exact ⟨rest, by simpa [slots] using hrest⟩
  | succ n ih =>
    intro fuel p i looked d₁ hv hat hne
    cases fuel with
    | zero => exact .fails
    | succ fuel =>
      rw [slots_succ] at hne
      obtain ⟨hp, hmark⟩ := hne p (List.mem_cons_self ..)
      obtain ⟨d', hv', hat', hround⟩ := fat16ScanLoop_succ hv hat hp
      have hnext : ∀ i, Ensures (fat16ScanLoop fuel i (looked ++ [(p : Int)])) d' fun r _ =>
          ∃ rest, r.2 = looked ++ (slots p (n + 1)).map (Nat.cast : Nat → Int) ++
            i32 ((p + 32 * (n + 1) : Nat) : Int) :: rest := by
        intro i
        refine (ih fuel (p + 32) i _ d' hv' hat' fun q hq =>
          hne q (List.mem_cons_of_mem _ hq)).mono ?_
        rintro r _ ⟨rest, hrest⟩
        refine ⟨rest, ?_⟩
        rw [hrest, slots_succ, List.map_cons, show p + 32 + 32 * n = p + 32 * (n + 1) by omega]
        simp
      refine .of_eq (hround fuel i looked) ?_
      rw [scanRound, if_neg hmark]
      split
      · exact hnext _
      · exact hnext _

/-- From position `p` on there are `n` slots without a 0x00, and one with it behind them. -/
structure Listing (image : Nat → UInt8) (p n : Nat) : Prop where
  below : p + 32 * n < 0x80000000
  before : ∀ q ∈ slots p n, image q ≠ 0
  ends : image (p + 32 * n) = 0

/-! ### The storage of a directory -/

/-- `root_dir_sector_pos` of `fat16_get_root_directory`. -/
def fat16RootDirSectorPos (primary_header : FatHeader) : Int :=
  i32 ((primary_header.reserved_sectors +
    primary_header.fat_copies * primary_header.sectors_per_fat : Nat) : Int)

/-- The slots of the root directory. -/
def FatHeader.rootSlots (h : FatHeader) : List Nat :=
  slots (512 * (h.reserved_sectors + h.fat_copies * h.sectors_per_fat)) h.root_directory_entries

/-- The slots of a directory with the clusters `chain`. -/
def FatHeader.chainSlots (h : FatHeader) (chain : List Nat) : List Nat :=
  (List.range (chain.length * h.clusterSize / 32)).map fun j => h.filePosition chain (32 * j)

/-- The scan that starts in `sector` is for a directory with these slots: the root
directory, as `fat16_get_root_directory` calls it, or a subdirectory of the clusters that
the File Allocation Table links, as `fat16_load_fat_directory` does. -/
inductive DirectoryStorage (p : FatPrivate) (image : Nat → UInt8) :
    (sector : Nat) → (storage : List Nat) → Prop
  | root : DirectoryStorage p image (u32 (fat16RootDirSectorPos p.header)) p.header.rootSlots
  | subdirectory {chain : List Nat}
      (hroot : p.root_directory.end_sector_pos = p.header.firstDataSector)
      (hfirst : 2 ≤ chain.getD 0 0)
      (hlinks : ∀ j, j + 1 < chain.length →
        p.header.fatEntry image (chain.getD j 0) = chain.getD (j + 1) 0) :
      DirectoryStorage p image (u32 (fat16ClusterToSector p (chain.getD 0 0 : Nat)))
        (p.header.chainSlots chain)

/-- The scan ends, looks at the slots of the directory in their order up to the first
0x00 or the last one, and counts all that are in use. -/
def StaysInside (d : Disk) (sector : Nat) (storage : List Nat) : Prop :=
  Returns (fat16ScanDirectory sector) d fun r _ =>
    r.2 = (upTo (fun q => d.image q == 0) storage).map (Nat.cast : Nat → Int) ∧
    r.1 = liveSlots d.image (storage.takeWhile fun q => d.image q != 0) ∧
    r.1 ≤ storage.length

/-- The slots up to one with a 0x00 lie one behind another on the disk, below 2 GiB. -/
def EndsInFirstRun (image : Nat → UInt8) (storage : List Nat) : Prop :=
  ∃ n < storage.length, (∀ j ≤ n, storage.getD j 0 = storage.getD 0 0 + 32 * j) ∧
    storage.getD n 0 < 0x80000000 ∧ image (storage.getD n 0) = 0

/-- Where the scan starts. -/
private theorem directory_start_pos_eq (x : Int) : i32 (u32 ((u32 x : Nat) * 512)) = i32 (512 * x) := by
  unfold i32 u32
  omega

theorem fat16ClusterToSector_start {p : FatPrivate}
    (hroot : p.root_directory.end_sector_pos = p.header.firstDataSector) {cluster : Nat}
    (h₂ : 2 ≤ cluster) :
    i32 (u32 ((u32 (fat16ClusterToSector p cluster) : Nat) * 512)) =
      i32 (p.header.clusterStart cluster) := by
  rw [directory_start_pos_eq]
  unfold fat16ClusterToSector FatHeader.clusterStart
  rw [hroot, show (cluster : Int) - 2 = ((cluster - 2 : Nat) : Int) by omega, ← Int.natCast_mul]
  unfold i32
  omega

theorem DirectoryStorage.start {p : FatPrivate} {image : Nat → UInt8} {sector : Nat}
    {storage : List Nat} (hs : DirectoryStorage p image sector storage) (hne : storage ≠ []) :
    i32 (u32 ((sector : Nat) * 512)) = i32 (storage.getD 0 0 : Nat) ∧ storage.getD 0 0 % 32 = 0 := by
  cases hs with
  | root =>
    have hhead : p.header.rootSlots.getD 0 0 =
        512 * (p.header.reserved_sectors + p.header.fat_copies * p.header.sectors_per_fat) := by
      unfold FatHeader.rootSlots at hne ⊢
      cases hn : p.header.root_directory_entries with
      | zero => exact absurd (by rw [hn]; rfl) hne
      | succ n => rw [slots_succ, List.getD_cons_zero]
    rw [directory_start_pos_eq, hhead]
    unfold fat16RootDirSectorPos i32
    omega
  | @subdirectory chain hroot hfirst hlinks =>
    have hhead : (p.header.chainSlots chain).getD 0 0 = p.header.clusterStart (chain.getD 0 0) := by
      unfold FatHeader.chainSlots at hne ⊢
      cases hn : chain.length * p.header.clusterSize / 32 with
      | zero => exact absurd (by rw [hn]; rfl) hne
      | succ n =>
        rw [List.range_succ_eq_map, List.map_cons, List.getD_cons_zero, Nat.mul_zero]
        unfold FatHeader.filePosition
        rw [Nat.zero_div, Nat.zero_mod, Nat.add_zero]
    rw [hhead, fat16ClusterToSector_start hroot hfirst]
    unfold FatHeader.clusterStart
    omega

/-- The scan is its loop from the start position on. -/
theorem fat16ScanDirectory_start {d : Disk} {p : FatPrivate} (hsize : d.sector_size = 512)
    (hp : d.fs_private = some p) {sector : Nat} {pos : Int} (hpos : i32 (u32 ((sector : Nat) * 512)) = pos) :
    ∃ d', SameVolume d d' ∧ StreamAt d' .directory_stream pos ∧
      fat16ScanDirectory sector d = fat16ScanLoop 0x10000000 0 [] d' := by
  obtain ⟨_, d', hseek, hv, hat⟩ := diskstreamerSeek_spec hp .directory_stream pos
  refine ⟨d', hv, hat, ?_⟩
  unfold fat16ScanDirectory
  rw [bind_of_ok (a := d.sector_size) rfl, hsize, hpos, bind_of_ok hseek]

/-- The scan of a listing counts the slots in use. -/
theorem fat16GetTotalItemsForDirectory_returns {d : Disk} {p : FatPrivate} {sector start n : Nat}
    (hsize : d.sector_size = 512) (hp : d.fs_private = some p)
    (hstart : i32 (u32 ((sector : Nat) * 512)) = i32 start) (hl : Listing d.image start n) :
    Returns (fat16GetTotalItemsForDirectory sector) d fun total d' =>
      total = liveSlots d.image (slots start n) ∧ SameVolume d d' := by
  obtain ⟨d₁, hv, hat, hscan⟩ := fat16ScanDirectory_start hsize hp hstart
  have hbelow := hl.below
  obtain ⟨r, d₂, hok, hr, hv₂⟩ := fat16ScanLoop_returns n 0x10000000 start 0 [] d₁ hv hat hbelow
    (by omega) hl.before hl.ends
  rw [← hscan] at hok
  refine ⟨r.1, d₂, ?_, ?_, hv₂⟩
  · rw [← fat16ScanDirectory_fst, hok]
    rfl
  · rw [hr, Int.zero_add]

/-- A scan that looks at its own storage has a 0x00 in the first run of it. -/
private theorem StaysInside.endsInFirstRun {d : Disk} {p : FatPrivate} (hsize : d.sector_size = 512)
    (hp : d.fs_private = some p) {sector : Nat} {storage : List Nat}
    (hs : DirectoryStorage p d.image sector storage) (hin : StaysInside d sector storage) :
    EndsInFirstRun d.image storage := by
  obtain ⟨r, d₂, hok, hlooked, -, -⟩ := hin
  by_cases hne : storage = []
  · -- the scan looks at a first slot in any case
    obtain ⟨d₁, -, hat, hscan⟩ := fat16ScanDirectory_start hsize hp
      (show i32 (u32 ((sector : Nat) * 512)) = _ from rfl)
    rw [hscan] at hok
    obtain ⟨rest, hrest⟩ := fat16ScanLoop_first _ _ _ hat _ _ hok
    rw [hlooked, hne] at hrest
    cases hrest
  obtain ⟨hstart, h32⟩ := hs.start hne
  obtain ⟨d₁, hv, hat, hscan⟩ := fat16ScanDirectory_start hsize hp hstart
  rw [hscan] at hok
  generalize hP : storage.getD 0 0 = P at hstart h32 hat
  -- the slot where the scan ends, or the first one behind 2 GiB
  have hex : ∃ n, ¬ (P + 32 * n < 0x80000000 ∧ d.image (P + 32 * n) ≠ 0) :=
    ⟨0x80000000, fun h => by omega⟩
  obtain ⟨n, hstop, hbefore⟩ : ∃ n, ¬ (P + 32 * n < 0x80000000 ∧ d.image (P + 32 * n) ≠ 0) ∧
      ∀ j < n, P + 32 * j < 0x80000000 ∧ d.image (P + 32 * j) ≠ 0 :=
    ⟨Nat.find hex, Nat.find_spec hex, fun j hj => not_not.mp (Nat.find_min hex hj)⟩
  have hpass : ∀ q ∈ slots P n, q < 0x80000000 ∧ d.image q ≠ 0 := by
    intro q hq
    obtain ⟨j, hj, rfl⟩ := mem_slots.mp hq
    exact hbefore j hj
  obtain ⟨rest, hrest⟩ := fat16ScanLoop_passes n _ P _ _ d₁ hv hat hpass _ _ hok
  rw [hlooked, List.nil_append] at hrest
  obtain ⟨l₁, l₂, hl, hl₁, hl₂⟩ := List.map_eq_append_iff.mp hrest
  obtain rfl := List.map_injective_iff.mpr (fun _ _ h => Int.natCast_inj.mp h) hl₁
  obtain ⟨x, l₃, rfl, hx, -⟩ := List.map_eq_cons_iff.mp hl₂
  obtain ⟨t, ht⟩ := upTo_prefix (fun q => d.image q == 0) storage
  rw [hl, List.append_assoc, List.cons_append] at ht
  have hbelow : P + 32 * n < 0x80000000 := by
    by_contra hge
    cases n with
    | zero =>
      rw [← ht] at hP
      obtain rfl : x = P := hP
      unfold i32 at hx
      omega
    | succ n =>
      have := (hbefore n (Nat.lt_succ_self n)).1
      unfold i32 at hx
      omega
  rw [i32_natCast hbelow] at hx
  obtain rfl : x = P + 32 * n := Int.natCast_inj.mp hx
  have hrun : slots P (n + 1) ++ (l₃ ++ t) = storage := by
    rw [slots_add, List.append_assoc]
    exact ht
  have hget : ∀ j ≤ n, storage.getD j 0 = P + 32 * j := by
    intro j hj
    rw [← hrun, List.getD_append _ _ _ _ (by rw [slots_length]; omega), slots_getD (by omega)]
  refine ⟨n, ?_, fun j hj => ?_, ?_, ?_⟩
  · rw [← hrun, List.length_append, slots_length]
    omega
  · rw [hget j hj, hP]
  · rwa [hget n le_rfl]
  · rw [hget n le_rfl]
    exact not_not.mp fun h => hstop ⟨hbelow, h⟩

private theorem EndsInFirstRun.staysInside {d : Disk} {p : FatPrivate} (hsize : d.sector_size = 512)
    (hp : d.fs_private = some p) {sector : Nat} {storage : List Nat}
    (hs : DirectoryStorage p d.image sector storage) (hend : EndsInFirstRun d.image storage) :
    StaysInside d sector storage := by
  obtain ⟨m, hm, hrun, hbelow, hzero⟩ := hend
  have hne : storage ≠ [] := by
    rintro rfl
    exact absurd hm (Nat.not_lt_zero m)
  obtain ⟨hstart, -⟩ := hs.start hne
  obtain ⟨d₁, hv, hat, hscan⟩ := fat16ScanDirectory_start hsize hp hstart
  generalize storage.getD 0 0 = P at hstart hat hrun
  rw [hrun m le_rfl] at hbelow hzero
  have hex : ∃ n, d.image (P + 32 * n) = 0 := ⟨m, hzero⟩
  obtain ⟨n, hnm, hend, hbefore⟩ : ∃ n ≤ m, d.image (P + 32 * n) = 0 ∧
      ∀ j < n, d.image (P + 32 * j) ≠ 0 :=
    ⟨Nat.find hex, Nat.find_min' hex hzero, Nat.find_spec hex, fun j hj => Nat.find_min hex hj⟩
  have hpass : ∀ q ∈ slots P n, d.image q ≠ 0 := by
    intro q hq
    obtain ⟨j, hj, rfl⟩ := mem_slots.mp hq
    exact hbefore j hj
  have hstorage : slots P n ++ (P + 32 * n) :: storage.drop (n + 1) = storage := by
    have htake : storage.take (n + 1) = slots P (n + 1) := by
      apply List.ext_getElem
      · rw [List.length_take, slots_length]
        omega
      · intro j h₁ h₂
        rw [slots_length] at h₂
        have := hrun j (by omega)
        rw [List.getD_eq_getElem _ _ (by omega)] at this
        rw [List.getElem_take, this, ← slots_getD h₂, List.getD_eq_getElem]
    conv_rhs => rw [← List.take_append_drop (n + 1) storage, htake, slots_add, List.append_assoc]
    rfl
  refine .of_eq hscan ((fat16ScanLoop_returns n _ P _ _ d₁ hv hat (by omega) (by omega) hpass
    hend).mono ?_)
  rintro _ d₂ ⟨rfl, -⟩
  have hlive : storage.takeWhile (fun q => d.image q != 0) = slots P n := by
    rw [← hstorage, List.takeWhile_append_of_pos (fun q hq => by simpa using hpass q hq),
      List.takeWhile_cons_of_neg (by simpa using hend), List.append_nil]
  refine ⟨?_, ?_, ?_⟩
  · rw [← hstorage, upTo_append (fun q hq => by simpa using hpass q hq) (by simpa using hend)]
    rw [List.nil_append, slots_add]
    rfl
  · rw [hlive, Int.zero_add]
  · have hcount : liveSlots d.image (slots P n) ≤ (slots P n).length := List.countP_le_length
    rw [slots_length] at hcount
    dsimp only
    omega

/-- A scan ends inside its directory, and counts all of it, exactly when the slots up to
a 0x00 lie one behind another: it ends at no other slot, and it follows no chain. -/
theorem directory_scan_iff {d : Disk} {p : FatPrivate} (hsize : d.sector_size = 512)
    (hp : d.fs_private = some p) {sector : Nat} {storage : List Nat}
    (hs : DirectoryStorage p d.image sector storage) :
    StaysInside d sector storage ↔ EndsInFirstRun d.image storage :=
  ⟨StaysInside.endsInFirstRun hsize hp hs, EndsInFirstRun.staysInside hsize hp hs⟩

/-! ### The root directory -/

/-- Store what `directory` points to in `fat16_get_root_directory`. -/
def setRootDirectory (directory : FatDirectory) : DM PUnit := do
  let fat_private ← fsPrivate
  modifies fun d => { d with fs_private := some { fat_private with root_directory := directory } }

/-- `fat16_get_root_directory`, called with the disk's own `fat_private` and its
`root_directory`. -/
def fat16GetRootDirectory : KM Int := do
  let fat_private ← onDisk fsPrivate
  let root_dir_sector_pos := fat16RootDirSectorPos fat_private.header
  let root_dir_size := i32 (fat_private.header.root_directory_entries * sizeofFatDirectoryItem : Nat)
  let total_items ← onDisk (fat16GetTotalItemsForDirectory (u32 root_dir_sector_pos))
  let dir ← kzalloc (u32 root_dir_size)
  if dir = 0 then pure (-ENOMEM)
  else do
    let sector_size ← reads fun k => k.disk.sector_size
    onDisk (diskstreamerSeek .directory_stream (i32 (root_dir_sector_pos * sector_size)))
    let bytes ← onDisk (diskstreamerRead .directory_stream root_dir_size)
    storeBytes dir bytes
    onDisk (setRootDirectory ⟨dir, total_items, root_dir_sector_pos,
      i32 (root_dir_sector_pos + root_dir_size.tdiv sector_size)⟩)
    pure 0

/-- The total that is stored for the root directory is what the scan counted: when the
scan stays inside, it is at most the number of entries that the item buffer was allocated
for. -/
theorem fat16GetRootDirectory_total {k : Kernel} {p : FatPrivate} (hp : k.disk.fs_private = some p)
    (hin : StaysInside k.disk (u32 (fat16RootDirSectorPos p.header)) p.header.rootSlots) :
    Ensures fat16GetRootDirectory k fun res k' => res = 0 →
      ∃ p', k'.disk.fs_private = some p' ∧
        p'.root_directory.total ≤ p.header.root_directory_entries := by
  obtain ⟨r, d₁, hscan, -, -, htotal⟩ := hin
  have hcount : fat16GetTotalItemsForDirectory (u32 (fat16RootDirSectorPos p.header)) k.disk =
      .ok (r.1, d₁) := by
    rw [← fat16ScanDirectory_fst, hscan]
    rfl
  rw [FatHeader.rootSlots, slots_length] at htotal
  refine .bind ((onDisk_spec _ _).and (onDisk_ensures (fsPrivate_spec _))) ?_
  rintro q k₁ ⟨hk₁, hd₁, hq⟩
  cases hp.symm.trans hq
  rw [hd₁] at hcount
  refine .bind (onDisk_ensures (Q := fun total _ => total = r.1) fun a d' ha => ?_) ?_
  · cases hcount.symm.trans ha
    rfl
  rintro _ k₂ rfl
  refine .bind (R := fun _ _ => True) (fun _ _ _ => trivial) ?_
  intro dir k₃ _
  split
  · exact .pure fun h => absurd h (by decide)
  refine .bind (R := fun _ _ => True) (fun _ _ _ => trivial) ?_
  intro sector_size k₄ _
  refine .bind (R := fun _ _ => True) (fun _ _ _ => trivial) ?_
  intro _ k₅ _
  refine .bind (R := fun _ _ => True) (fun _ _ _ => trivial) ?_
  intro bytes k₆ _
  refine .bind (R := fun _ _ => True) (fun _ _ _ => trivial) ?_
  intro _ k₇ _
  refine .bind (onDisk_ensures (Q := fun _ d => ∃ p', d.fs_private = some p' ∧
    p'.root_directory.total = r.1) ?_) ?_
  · refine .bind (fsPrivate_spec _) ?_
    rintro q' _ ⟨rfl, -⟩
    exact .modifies ⟨_, rfl, rfl⟩
  rintro _ k₈ ⟨p', hp', hset⟩
  exact .pure fun _ => ⟨p', hp', hset ▸ htotal⟩

/-- The driver's data for a volume with a root directory of 16 entries in sector 2. -/
def FatPrivate.smallRoot : FatPrivate := ⟨⟨1, 1, 1, 16, 1, 0x29⟩, ⟨0, 0, 0, 3⟩, 0, 0, 0⟩

theorem smallRoot_storage (image : Nat → UInt8) :
    DirectoryStorage .smallRoot image 2 (slots 1024 16) := by
  have hsector : u32 (fat16RootDirSectorPos FatPrivate.smallRoot.header) = 2 := by decide
  have hslots : FatPrivate.smallRoot.header.rootSlots = slots 1024 16 := by
    unfold FatHeader.rootSlots
    decide
  rw [← hsector, ← hslots]
  exact .root

/-- A volume whose root directory is full, with data right behind it. -/
def Disk.fullRoot : Disk where
  sector_size := 512
  fs_private := some .smallRoot
  image := fun p => if 1024 ≤ p ∧ p < 1544 then 0x41 else 0

/-- The scan of a full root directory counts 17 entries in 16. -/
theorem directory_scan_full_root :
    DirectoryStorage .smallRoot Disk.fullRoot.image 2 (slots 1024 16) ∧
    ¬ StaysInside Disk.fullRoot 2 (slots 1024 16) := by
  refine ⟨smallRoot_storage _, ?_⟩
  rintro ⟨r, d', hok, -, -, htotal⟩
  obtain ⟨r', d'', hok', hcount⟩ := Returns.of_checks (m := fat16ScanDirectory 2)
    (s := Disk.fullRoot) (q := fun r _ => r.1 == 17) (by decide +kernel)
  cases hok.symm.trans hok'
  rw [slots_length, eq_of_beq hcount] at htotal
  exact absurd htotal (by decide)

/-- An empty root directory. -/
theorem directory_scan_empty_root :
    StaysInside { Disk.fullRoot with image := fun _ => 0 } 2 (slots 1024 16) := by
  refine (directory_scan_iff rfl rfl (smallRoot_storage _)).mpr ⟨0, by decide, ?_, by decide, rfl⟩
  intro j hj
  rw [Nat.le_zero.mp hj, Nat.mul_zero, Nat.add_zero]

end PlumOS
