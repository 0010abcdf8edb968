import PlumOS.Fs.FileFence
import PlumOS.Fs.OpenFile
import PlumOS.Memory.Ownership

/-!
# What an open file owns

A file is opened into allocations of its own: the descriptors, the item and the entry or
the entries it stands for. They are apart from all that was allocated before, and closing
the file releases no others.

## Main definitions

- `OwnsDirectory`, `OwnsItem`, `SolidItem` — what belongs to a directory and to an item
- `OpenOn`, `FileOn` — a descriptor with its item
- `NewFile` — what a successful `fopen` leaves

## Main results

- `fat16GetDirectoryEntry_intact`, `fopen_intact` — what is found and opened has its own memory
- `fopen_newFile` — the entry of the table that a new file gets
- `fclose_intact` — closing a file leaves all other memory alone
-/

namespace PlumOS

open StateExcept

/-- A directory at `d` belongs to `S` with its entries. Behind those of an empty one there
may be no memory. -/
def OwnsDirectory (P S : Set Nat) (k : Kernel) (d : Nat) : Prop :=
  ∀ dir, k.objs d = some (.fatDirectory dir) → d ∈ S ∧
    (dir.item = 0 ∨ dir.item ∈ S ∨ dir.total = 0 ∧ k.Disposable P dir.item)

/-- The item is tagged as a directory or as a file. -/
def FatItem.Tagged (i : FatItem) : Prop :=
  i.type = FAT_ITEM_TYPE_DIRECTORY ∨ i.type = FAT_ITEM_TYPE_FILE

/-- The item belongs to `S` with what it stands for. -/
def OwnsItem (P S : Set Nat) (k : Kernel) (item : Nat) : Prop :=
  ∃ i, k.objs item = some (.fatItem i) ∧ item ∈ S ∧ i.Tagged ∧
    (i.type = FAT_ITEM_TYPE_DIRECTORY → i.directory ≠ 0 → OwnsDirectory P S k i.directory) ∧
    (i.type = FAT_ITEM_TYPE_FILE → i.item = 0 ∨ i.item ∈ S)

/-- The item belongs to `S` with what it stands for, all of which is there. -/
def SolidItem (S : Set Nat) (k : Kernel) (item : Nat) : Prop :=
  ∃ i, k.objs item = some (.fatItem i) ∧ item ∈ S ∧ i.Tagged ∧
    (i.type = FAT_ITEM_TYPE_DIRECTORY → ∃ dir, k.objs i.directory = some (.fatDirectory dir) ∧
      i.directory ∈ S ∧ (dir.item = 0 ∨ dir.item ∈ S)) ∧
    (i.type = FAT_ITEM_TYPE_FILE → i.item = 0 ∨ i.item ∈ S)

/-- The item, if it is one, has its own memory. -/
def Owned (P : Set Nat) (k : Kernel) (item : Nat) : Prop :=
  item = 0 ∨ ∃ S, Beside P S k ∧ OwnsItem P S k item

/-- The structures in `S` are as they were, and there are no directories and no pointers
to release but those there were. -/
structure Tame (S : Set Nat) (k k' : Kernel) : Prop where
  objs : ∀ p ∈ S, k'.objs p = k.objs p
  directory : ∀ p d, k'.objs p = some (.fatDirectory d) → k.objs p = some (.fatDirectory d)
  releasable : ∀ p, k.Releasable p → k'.Releasable p

variable {P P' S S' : Set Nat} {k k' : Kernel} {p d item : Nat}

theorem Tame.trans {k₁ : Kernel} (h : Tame S k k₁) (h' : Tame S k₁ k') : Tame S k k' where
  objs := fun p hp => (h'.objs p hp).trans (h.objs p hp)
  directory := fun p d hd => h.directory p d (h'.directory p d hd)
  releasable := fun p hp => h'.releasable p (h.releasable p hp)

theorem Tame.of_same (S : Set Nat) (he : k'.heap_entries = k.heap_entries)
    (ho : k'.objs = k.objs) : Tame S k k' where
  objs := fun _ _ => by rw [ho]
  directory := fun p d hd => by rwa [ho] at hd
  releasable := fun _ hp => hp.congr he

theorem Released.tame (h : Released S k k') : Tame S k k' :=
  ⟨h.objs, fun _ _ hd => h.eq_some hd, h.releasable⟩

theorem Tame.stored {o : Obj} (hst : Stored k p o k') (hp : p ∉ S)
    (ho : ∀ d, o ≠ .fatDirectory d) : Tame S k k' where
  objs := by
    intro q hq
    refine hst.other q ?_
    rintro rfl
    exact hp hq
  directory := by
    intro q dir hq
    by_cases hqp : q = p
    · subst hqp
      rw [hst.self] at hq
      cases hq
      exact absurd rfl (ho dir)
    · rwa [hst.other q hqp] at hq
  releasable := fun q hq => hq.congr hst.heap_entries

theorem OwnsDirectory.tame (h : OwnsDirectory P S k d) (ht : Tame S k k') :
    OwnsDirectory P S k' d := by
  intro dir hdir
  obtain ⟨hmem, hitem⟩ := h dir (ht.directory d dir hdir)
  refine ⟨hmem, hitem.imp_right fun hitem => hitem.imp_right ?_⟩
  rintro ⟨htotal, hrel, hP⟩
  exact ⟨htotal, ht.releasable _ hrel, hP⟩

theorem OwnsDirectory.mono (h : OwnsDirectory P' S k d) (hP : P ⊆ P') (hS : S ⊆ S') :
    OwnsDirectory P S' k d := by
  intro dir hdir
  obtain ⟨hmem, h0 | hitem | ⟨htotal, hrel, hout⟩⟩ := h dir hdir
  · exact ⟨hS hmem, Or.inl h0⟩
  · exact ⟨hS hmem, Or.inr (Or.inl (hS hitem))⟩
  · exact ⟨hS hmem, Or.inr (Or.inr ⟨htotal, hrel, fun hp => hout (hP hp)⟩)⟩

theorem OwnsItem.tame (h : OwnsItem P S k item) (ht : Tame S k k') : OwnsItem P S k' item := by
  obtain ⟨i, hi, hmem, htag, hdir, hfile⟩ := h
  exact ⟨i, (ht.objs item hmem).trans hi, hmem, htag, fun htype h0 => (hdir htype h0).tame ht, hfile⟩

theorem OwnsItem.mono (h : OwnsItem P' S k item) (hP : P ⊆ P') (hS : S ⊆ S') :
    OwnsItem P S' k item := by
  obtain ⟨i, hi, hmem, htag, hdir, hfile⟩ := h
  exact ⟨i, hi, hS hmem, htag, fun htype h0 => (hdir htype h0).mono hP hS,
    fun htype => (hfile htype).imp_right fun hin => hS hin⟩

theorem SolidItem.intact (h : SolidItem S k item) (hk : Intact S k k') : SolidItem S k' item := by
  obtain ⟨i, hi, hmem, htag, hdir, hfile⟩ := h
  refine ⟨i, (hk.objs item hmem).trans hi, hmem, htag, fun htype => ?_, hfile⟩
  obtain ⟨dir, ho, hd, hitem⟩ := hdir htype
  exact ⟨dir, (hk.objs _ hd).trans ho, hd, hitem⟩

theorem SolidItem.owns (h : SolidItem S k item) (P : Set Nat) : OwnsItem P S k item := by
  obtain ⟨i, hi, hmem, htag, hdir, hfile⟩ := h
  refine ⟨i, hi, hmem, htag, fun htype _ dir ho => ?_, hfile⟩
  obtain ⟨dir', ho', hd, hitem⟩ := hdir htype
  obtain rfl : dir' = dir := by
    rw [ho'] at ho
    cases ho
    rfl
  exact ⟨hd, hitem.imp_right Or.inl⟩

/-! ### Releasing -/

theorem fat16FreeDirectory_released (h : Guards P k) (hS : ∀ p ∈ S, k.Disposable P p)
    (hd : d ≠ 0 → OwnsDirectory P S k d) :
    Framed (Released P) (fat16FreeDirectory d) k fun _ k' => d ≠ 0 → k'.objs d = none := by
  unfold fat16FreeDirectory
  split
  · next h0 => exact .pure (.refl h) fun hne => absurd h0 hne
  refine Ensures.bind (deref_spec _ _ _) ?_
  rintro dir _ ⟨rfl, h0, ho⟩
  rw [Obj.fatDirectory?_eq_some] at ho
  obtain ⟨hmem, hitem⟩ := hd h0 dir ho
  refine Framed.bind (P := fun _ _ => True) (.onlyIf (.refl h) (fun hne => ?_)
    fun _ => trivial) ?_
  · have hdisp : k.Disposable P dir.item := by
      rcases hitem with hzero | hin | ⟨-, hdisp⟩
      · exact absurd hzero hne
      · exact hS _ hin
      · exact hdisp
    exact (released_kfree h hdisp.1 hdisp.2).mono fun _ _ _ _ => trivial
  · rintro _ k₁ hk₁ -
    refine (released_kfree hk₁.guards (hk₁.releasable d (hS d hmem).1) (hS d hmem).2).mono ?_
    intro _ _ _ hnone _
    exact hnone

theorem fat16FatItemFree_released (h : Guards P k) (hS : ∀ p ∈ S, k.Disposable P p)
    (hi : OwnsItem P S k item) :
    Framed (Released P) (fat16FatItemFree item) k fun _ _ => True := by
  obtain ⟨i, hobj, hmem, htag, hdir, hfile⟩ := hi
  refine Ensures.bind (deref_spec _ _ _) ?_
  rintro i' _ ⟨rfl, -, ho⟩
  rw [Obj.fatItem?_eq_some, hobj] at ho
  cases ho
  refine Framed.bind (P := fun _ _ => True) (.onlyIf (.refl h) (fun htype => ?_)
    fun _ => trivial) ?_
  · exact (fat16FreeDirectory_released h hS (hdir htype)).mono fun _ _ _ _ => trivial
  rintro _ k₁ hk₁ -
  refine Framed.bind (P := fun _ _ => True) (.onlyIf (.refl hk₁.guards) (fun htype => ?_)
    fun _ => trivial) ?_
  · have hdisp : k.Disposable P i.item := by
      rcases hfile htype.2 with hzero | hin
      · rw [hzero]
        exact ⟨releasable_zero k, fun hP => (h.held 0 hP).ne_zero rfl⟩
      · exact hS _ hin
    exact (released_kfree hk₁.guards (hk₁.releasable _ hdisp.1) hdisp.2).mono
      fun _ _ _ _ => trivial
  rintro _ k₂ hk₂ -
  have hrel := hk₂.releasable item (hk₁.releasable item (hS item hmem).1)
  exact (released_kfree hk₂.guards hrel (hS item hmem).2).mono fun _ _ _ _ => trivial

/-! ### Looking up -/

theorem derefItem_intact (h : Guards P k) (p : Nat) :
    Framed (Intact P) (derefItem p) k fun _ k' => k = k' := by
  refine (derefItem_spec p k).mono ?_
  rintro _ _ rfl
  exact ⟨.refl h, rfl⟩

/-- The entries of a directory fill some memory unless there are none. -/
theorem directory_size_pos {total : Int} (h₀ : 0 < total) (h₁ : total ≤ 0x4000000) :
    1 ≤ u32 (i32 (total * sizeofFatDirectoryItem)) := by
  unfold sizeofFatDirectoryItem u32 i32
  omega

/-- Once it is released, no directory is there. -/
private theorem ownsDirectory_none (h : k.Tidy) (hd : k.objs d = none) :
    ∃ S, Beside P S k ∧ (d ≠ 0 → OwnsDirectory P S k d) := by
  refine ⟨∅, .empty P h, fun _ dir ho => ?_⟩
  rw [hd] at ho
  cases ho

/-- A directory that is loaded has its own memory, if it was not released again. -/
theorem fat16LoadFatDirectory_intact (h : Guards P k) (item : Nat) :
    Framed (Intact P) (fat16LoadFatDirectory item) k fun directory k' =>
      ∃ S, Beside P S k' ∧ (directory ≠ 0 → OwnsDirectory P S k' directory) := by
  refine Framed.bind (derefItem_intact h item) ?_
  rintro i _ - rfl
  split
  · exact .pure (.refl h) ⟨∅, .empty P h.tidy, fun hne => absurd rfl hne⟩
  refine Framed.bind (kzallocObj_made h (by decide) _) ?_
  rintro directory k₁ hk₁ (⟨rfl, rfl⟩ | ⟨hnew, -⟩)
  · exact .pure (.refl h) ⟨∅, .empty P h.tidy, fun hne => absurd rfl hne⟩
  rw [if_neg hnew.ne_zero]
  refine Framed.bind (derefItem_intact hk₁.guards item) ?_
  rintro i _ - rfl
  have h₁ : Guards (insert directory P) k₁ := hk₁.guards.insert hnew.held
  refine Framed.bind ((intact_onDisk h₁ (fsPrivate_spec _)).weaken fun _ => Intact.tail) ?_
  rintro fat_private k₂ - ⟨hk₂, -, -⟩
  refine Framed.bind ((intact_onDisk hk₂.guards (fat16GetTotalItemsForDirectory_range _ _)).weaken
    fun _ => Intact.tail) ?_
  rintro total_items k₃ - ⟨hk₃, -, h₀, hmax⟩
  refine Framed.bind (intact_modify Obj.fatDirectory?_eq_some hk₃.tail.guards hnew.not_mem _) ?_
  rintro _ k₄ hk₄ ⟨d₃, -, hst₄⟩
  have hheld₄ : k₄.Held directory := hk₃.head.1.congr hst₄.heap_entries
  refine Framed.bind ((kzalloc_obtained (hk₄.guards.insert hheld₄) _).weaken fun _ =>
    Intact.tail) ?_
  rintro entries k₅ - ⟨hk₅, hentries⟩
  refine Framed.bind (intact_modify Obj.fatDirectory?_eq_some hk₅.tail.guards hnew.not_mem _) ?_
  rintro _ k₆ hk₆ ⟨d₅, hd₅, hst₆⟩
  obtain rfl : d₅ = { d₃ with total := total_items } := by
    rw [hk₅.head.2, hst₄.self] at hd₅
    cases hd₅
    rfl
  have hdir₆ : Beside P {directory} k₆ :=
    .singleton hk₆.guards.tidy (hk₅.head.1.congr hst₆.heap_entries) hnew.not_mem
  rcases hentries with ⟨rfl, -⟩ | ⟨hne, hout, hobt⟩
  · rw [if_pos rfl]
    refine Framed.bind ((fat16FreeDirectory_released hk₆.guards hdir₆.disposable
      fun _ dir ho => ?_).weaken fun _ => Released.toIntact) ?_
    · rw [hst₆.self] at ho
      cases ho
      exact ⟨rfl, Or.inl rfl⟩
    rintro _ k₇ hk₇ ⟨-, hnone⟩
    exact .pure (.refl hk₇.guards) (ownsDirectory_none hk₇.guards.tidy (hnone hnew.ne_zero))
  rw [if_neg hne]
  -- nothing is taken for no entries
  have hown₆ : ∃ S, Beside P S k₆ ∧ directory ∈ S ∧
      (entries ∈ S ∨ total_items = 0 ∧ k₆.Disposable P entries) := by
    have hP : entries ∉ P := fun hmem => hout (Set.mem_insert_of_mem _ hmem)
    rcases eq_or_lt_of_le h₀ with hzero | hpos
    · exact ⟨{directory}, hdir₆, rfl, Or.inr ⟨hzero.symm, hobt.releasable.congr hst₆.heap_entries, hP⟩⟩
    · have hheld := (hobt.held (directory_size_pos hpos hmax)).congr hst₆.heap_entries
      exact ⟨insert entries {directory}, hdir₆.insert hheld hP, Or.inr rfl,
        Or.inl (Set.mem_insert _ _)⟩
  obtain ⟨S, hS₆, hmem, hitem⟩ := hown₆
  have hdir₆ : OwnsDirectory P S k₆ directory := by
    intro dir ho
    rw [hst₆.self] at ho
    cases ho
    exact ⟨hmem, Or.inr hitem⟩
  refine Framed.bind ((intact_onDisk (Q := fun _ _ => True) (hk₆.guards.union hS₆.toGuards)
    fun _ _ _ => trivial).weaken fun _ => Intact.left) ?_
  rintro r k₇ - ⟨hk₇, heq₇, -⟩
  refine Framed.bind ((intact_storeBytes hk₇.guards entries r.2).weaken fun _ => Intact.left) ?_
  rintro _ k₈ - ⟨hk₈, heq₈⟩
  have hS₈ := hS₆.intact (hk₇.trans hk₈)
  have hdir₈ : OwnsDirectory P S k₈ directory :=
    hdir₆.tame (.of_same S (by rw [heq₈, heq₇]) (by rw [heq₈, heq₇]))
  refine Framed.bind (P := fun _ k' => ∃ S, Beside P S k' ∧ (directory ≠ 0 →
    OwnsDirectory P S k' directory)) (.onlyIf (.refl hk₈.left.guards) (fun _ => ?_)
      fun _ => ⟨S, hS₈, fun _ => hdir₈⟩) ?_
  · refine ((fat16FreeDirectory_released hk₈.left.guards hS₈.disposable fun _ => hdir₈).weaken
      fun _ => Released.toIntact).mono ?_
    rintro _ k₉ - ⟨hk₉, hnone⟩
    exact ownsDirectory_none hk₉.guards.tidy (hnone hnew.ne_zero)
  · intro _ k₉ hk₉ hown
    exact .pure (.refl hk₉.guards) hown

theorem fat16CloneDirectoryItem_intact (h : Guards P k) (item : Nat) :
    Framed (Intact P) (fat16CloneDirectoryItem item) k fun item_copy k' =>
      item_copy = 0 ∨ item_copy ∉ P ∧ k'.Held item_copy := by
  refine Framed.bind (kzalloc_obtained h _) ?_
  rintro item_copy k₁ hk₁ (⟨rfl, rfl⟩ | ⟨hne, hout, hobt⟩)
  · exact .pure (.refl h) (Or.inl rfl)
  rw [if_neg hne]
  refine Framed.bind (intact_reads hk₁.guards _) ?_
  rintro mem _ - ⟨rfl, -⟩
  refine Framed.bind (intact_storeBytes hk₁.guards _ _) ?_
  rintro _ k₂ hk₂ heq
  refine .pure (.refl hk₂.guards) (Or.inr ⟨hout, (hobt.held (by decide)).congr ?_⟩)
  rw [heq]

/-- An item that is built has its own memory. -/
theorem fat16NewFatItemForDirectoryItem_intact (h : Guards P k) (item : Nat) :
    Framed (Intact P) (fat16NewFatItemForDirectoryItem item) k fun f_item k' =>
      Owned P k' f_item := by
  refine Framed.bind (kzallocObj_made h (by decide) _) ?_
  rintro f_item k₁ hk₁ (⟨rfl, rfl⟩ | ⟨hnew, -⟩)
  · exact .pure (.refl h) (Or.inl rfl)
  rw [if_neg hnew.ne_zero]
  have h₁ : Guards (insert f_item P) k₁ := hk₁.guards.insert hnew.held
  refine Framed.bind (derefItem_intact hk₁.guards item) ?_
  rintro i _ - rfl
  split
  · refine Framed.bind ((fat16LoadFatDirectory_intact h₁ item).weaken fun _ => Intact.tail) ?_
    rintro directory k₂ - ⟨hk₂, S, hS, hdir⟩
    refine Framed.bind (intact_modify Obj.fatItem?_eq_some hk₂.tail.guards hnew.not_mem _) ?_
    rintro _ k₃ hk₃ ⟨_, -, hst₃⟩
    have htame : Tame S k₂ k₃ :=
      .stored hst₃ (fun hmem => hS.apart _ hmem (Set.mem_insert _ _)) nofun
    have hS₃ : Beside P S k₃ := (hS.mono (Set.subset_insert _ _)).congr hst₃.heap_entries
    refine .pure (.refl hk₃.guards) (Or.inr ⟨insert f_item S, hS₃.insert
      (hk₂.head.1.congr hst₃.heap_entries) hnew.not_mem, _, hst₃.self, Set.mem_insert _ _,
      Or.inl rfl, fun _ h0 => ?_, fun htype =>
        absurd (show FAT_ITEM_TYPE_DIRECTORY = _ from htype) (by decide)⟩)
    exact ((hdir h0).tame htame).mono (Set.subset_insert _ _) (Set.subset_insert _ _)
  · refine Framed.bind (intact_modify Obj.fatItem?_eq_some hk₁.guards hnew.not_mem _) ?_
    rintro _ k₂ hk₂ ⟨_, -, hst₂⟩
    refine Framed.bind ((fat16CloneDirectoryItem_intact
      (hk₂.guards.insert (hnew.held.congr hst₂.heap_entries)) item).weaken fun _ => Intact.tail) ?_
    rintro item_copy k₃ - ⟨hk₃, hcopy⟩
    refine Framed.bind (intact_modify Obj.fatItem?_eq_some hk₃.tail.guards hnew.not_mem _) ?_
    rintro _ k₄ hk₄ ⟨i₃, hi₃, hst₄⟩
    have htype : i₃.type = FAT_ITEM_TYPE_FILE := by
      rw [hk₃.head.2, hst₂.self] at hi₃
      cases hi₃
      rfl
    have hself : Beside P {f_item} k₄ :=
      .singleton hk₄.guards.tidy (hk₃.head.1.congr hst₄.heap_entries) hnew.not_mem
    rcases hcopy with rfl | ⟨hout, hheld⟩
    · exact .pure (.refl hk₄.guards) (Or.inr ⟨_, hself, _, hst₄.self, rfl,
        Or.inr htype, fun hdir => absurd (htype.symm.trans hdir) (by decide), fun _ => Or.inl rfl⟩)
    · have hP : item_copy ∉ P := fun hmem => hout (Set.mem_insert_of_mem _ hmem)
      exact .pure (.refl hk₄.guards) (Or.inr ⟨insert item_copy {f_item},
        hself.insert (hheld.congr hst₄.heap_entries) hP, _, hst₄.self, Or.inr rfl,
        Or.inr htype, fun hdir => absurd (htype.symm.trans hdir) (by decide), fun _ => Or.inr (Set.mem_insert _ _)⟩)

/-! ### Paths -/

theorem fat16FindItemLoop_intact (directory : FatDirectory) (name : Nat) :
    ∀ (fuel i f_item : Nat) (k : Kernel), Guards P k → Owned P k f_item →
      Framed (Intact P) (fat16FindItemLoop directory name fuel i f_item) k fun f_item k' =>
        Owned P k' f_item := by
  intro fuel
  induction fuel with
  | zero =>
    intro i f_item k h hf
    exact .pure (.refl h) hf
  | succ fuel ih =>
    intro i f_item k h hf
    refine Framed.bind (derefItem_intact h _) ?_
    rintro entry _ - rfl
    refine Framed.bind (intact_reads h _) ?_
    rintro _ _ - ⟨rfl, -⟩
    dsimp only
    split
    · refine Framed.bind (fat16NewFatItemForDirectoryItem_intact h _) ?_
      intro f_item' k₁ hk₁ hf'
      exact ih _ _ k₁ hk₁.guards hf'
    · exact ih _ _ k h hf

/-- An item that is found has its own memory; in an empty directory there is none. -/
theorem fat16FindItemInDirectory_intact (h : Guards P k) (directory : FatDirectory) (name : Nat) :
    Framed (Intact P) (fat16FindItemInDirectory directory name) k fun f_item k' =>
      Owned P k' f_item :=
  fat16FindItemLoop_intact directory name _ _ _ k h (Or.inl rfl)

theorem fat16FindItemInDirectory_empty {directory : FatDirectory} (h : directory.total = 0)
    (name : Nat) : fat16FindItemInDirectory directory name = pure 0 := by
  unfold fat16FindItemInDirectory
  rw [h]
  rfl

/-- What belongs to an item is released, and what was found beside it stays. -/
private theorem fat16FatItemFree_owned (h : Guards P k) {tmp_item : Nat} (hS : Beside P S k)
    (hi : SolidItem S k item) (htmp : Owned (P ∪ S) k tmp_item) :
    Framed (Intact P) (fat16FatItemFree item) k fun _ k' => Owned P k' tmp_item := by
  rcases htmp with rfl | ⟨T, hT, hown⟩
  · exact ((fat16FatItemFree_released h hS.disposable (hi.owns P)).weaken fun _ =>
      Released.toIntact).mono fun _ _ _ _ => Or.inl rfl
  have hPT : Guards (P ∪ T) k := h.union hT.toGuards
  have hdisp : ∀ p ∈ S, k.Disposable (P ∪ T) p := by
    intro p hp
    refine ⟨(hS.held p hp).releasable, ?_⟩
    rintro (hP | hmem)
    · exact hS.apart p hp hP
    · exact hT.apart p hmem (Or.inr hp)
  refine ((fat16FatItemFree_released hPT hdisp (hi.owns _)).weaken fun _ hk =>
    hk.toIntact.left).mono ?_
  rintro _ k' - ⟨hk', -⟩
  have htame : Tame T k k' := ⟨hk'.right.objs, hk'.tame.directory, hk'.releasable⟩
  exact Or.inr ⟨T, (hT.mono Set.subset_union_left).intact hk'.toIntact,
    (hown.mono Set.subset_union_left le_rfl).tame htame⟩

theorem fat16GetDirectoryEntryLoop_intact :
    ∀ (fuel current_item next_part : Nat) (k : Kernel), Guards P k → Owned P k current_item →
      Framed (Intact P) (fat16GetDirectoryEntryLoop fuel current_item next_part) k
        fun item k' => Owned P k' item := by
  intro fuel
  induction fuel with
  | zero =>
    intro current_item next_part k _ _
    exact .fails
  | succ fuel ih =>
    intro current_item next_part k h hc
    unfold fat16GetDirectoryEntryLoop
    split
    · exact .pure (.refl h) hc
    refine Framed.bind (intact_deref h _ _) ?_
    rintro i _ - ⟨rfl, hne, ho⟩
    rw [Obj.fatItem?_eq_some] at ho
    split
    · exact .pure (.refl h) (Or.inl rfl)
    next htype =>
    rw [not_not] at htype
    refine Framed.bind (intact_deref h _ _) ?_
    rintro part _ - ⟨rfl, -, -⟩
    refine Framed.bind (intact_deref h _ _) ?_
    rintro directory _ - ⟨rfl, hdne, hd⟩
    rw [Obj.fatDirectory?_eq_some] at hd
    obtain ⟨S, hS, hown⟩ := hc.resolve_left hne
    -- what is left to do when the item that was found is known
    have hrest : ∀ (tmp_item : Nat) (k₁ : Kernel), Intact P k k₁ →
        Framed (Intact P) (fat16FatItemFree current_item) k₁ (fun _ k' => Owned P k' tmp_item) →
        Framed (Intact P) (do
          fat16FatItemFree current_item
          let part ← deref Obj.pathPart? next_part
          fat16GetDirectoryEntryLoop fuel tmp_item part.next) k₁ fun item k' => Owned P k' item := by
      intro tmp_item k₁ hk₁ hfree
      refine Framed.bind hfree ?_
      intro _ k₂ hk₂ htmp
      refine Framed.bind (intact_deref hk₂.guards _ _) ?_
      rintro part _ - ⟨rfl, -, -⟩
      exact ih _ _ k₂ hk₂.guards htmp
    obtain ⟨i', hi', hmem, htag, hdir, hfile⟩ := id hown
    obtain rfl : i' = i := by
      rw [ho] at hi'
      cases hi'
      rfl
    obtain ⟨hdmem, hitem⟩ := hdir htype hdne directory hd
    by_cases hzero : directory.total = 0
    · rw [fat16FindItemInDirectory_empty hzero, pure_bind]
      refine hrest 0 k (.refl h) ?_
      exact ((fat16FatItemFree_released h hS.disposable hown).weaken fun _ =>
        Released.toIntact).mono fun _ _ _ _ => Or.inl rfl
    · have hsolid : SolidItem S k current_item := by
        refine ⟨i', ho, hmem, htag, fun _ => ⟨directory, hd, hdmem, hitem.imp_right ?_⟩, hfile⟩
        rintro (hin | ⟨htotal, -⟩)
        · exact hin
        · exact absurd htotal hzero
      refine Framed.bind ((fat16FindItemInDirectory_intact (h.union hS.toGuards) _ _).weaken
        fun _ => Intact.left) ?_
      rintro tmp_item k₁ - ⟨hk₁, htmp⟩
      exact hrest tmp_item k₁ hk₁.left
        (fat16FatItemFree_owned hk₁.left.guards (hS.intact hk₁) (hsolid.intact hk₁.right) htmp)

/-- The item at the end of a path has its own memory. -/
theorem fat16GetDirectoryEntry_intact (h : Guards P k) (path : Nat) :
    Framed (Intact P) (fat16GetDirectoryEntry path) k fun item k' => Owned P k' item := by
  refine Framed.bind (intact_onDisk h (fsPrivate_spec _)) ?_
  rintro fat_private k₁ hk₁ -
  refine Framed.bind (intact_deref hk₁.guards _ _) ?_
  rintro part _ - ⟨rfl, -, -⟩
  refine Framed.bind (fat16FindItemInDirectory_intact hk₁.guards _ _) ?_
  intro root_item k₂ hk₂ hroot
  split
  · exact .pure (.refl hk₂.guards) (Or.inl rfl)
  refine Framed.bind (intact_deref hk₂.guards _ _) ?_
  rintro part _ - ⟨rfl, -, -⟩
  exact fat16GetDirectoryEntryLoop_intact _ _ _ k₂ hk₂.guards hroot

/-! ### Descriptors -/

/-- The driver's descriptor belongs to `S`, and its item satisfies `I`. -/
def DescribesOn (S : Set Nat) (k : Kernel) (priv : Nat) (I : Nat → Prop) : Prop :=
  priv ∈ S ∧ ∃ d, k.objs priv = some (.fatFileDescriptor d) ∧ I d.item

/-- `fd` is the number of a descriptor in `S`, and the driver's item for it satisfies `I`. -/
def OpenOn (S : Set Nat) (k : Kernel) (fd : Int) (I : Nat → Prop) : Prop :=
  1 ≤ fd ∧ k.file_descriptors (fd - 1).toNat ∈ S ∧ ∃ d,
    k.objs (k.file_descriptors (fd - 1).toNat) = some (.fileDescriptor d) ∧ d.index = fd ∧
      DescribesOn S k d.private_ I

/-- `desc` is the descriptor with the number `fd`, and `S` has the driver's descriptor for it,
whose item satisfies `I`. -/
structure FileOn (S : Set Nat) (k : Kernel) (fd : Int) (desc : Nat) (I : Nat → Prop) : Prop where
  held : k.Held desc
  not_mem : desc ∉ S
  record : ∃ d, k.objs desc = some (.fileDescriptor d) ∧ d.index = fd ∧ d.filesystem ≠ 0 ∧
    DescribesOn S k d.private_ I

/-- A property of an item in `S` that lasts while `S` stays, and in more than `S`. -/
structure Lasting (I : Set Nat → Kernel → Nat → Prop) : Prop where
  tame : ∀ {S k k' item}, I S k item → Tame S k k' → I S k' item
  mono : ∀ {S S' k item}, I S k item → S ⊆ S' → I S' k item

/-- The lookup that `fat16_open` makes finds nothing or an item with `I` in its own memory. -/
def LookupGives (P : Set Nat) (I : Set Nat → Kernel → Nat → Prop) (path : Nat) (k : Kernel) :
    Prop :=
  ∀ descriptor k₁, kzallocObj sizeofFatFileDescriptor (.fatFileDescriptor ⟨0, 0⟩) k =
    .ok (descriptor, k₁) → Guards (insert descriptor P) k₁ →
      Framed (Intact (insert descriptor P)) (fat16GetDirectoryEntry path) k₁ fun item k' =>
        item = 0 ∨ ∃ S, Beside (insert descriptor P) S k' ∧ I S k' item

theorem ownsItem_lasting (P : Set Nat) : Lasting (OwnsItem P) where
  tame := OwnsItem.tame
  mono := fun h hS => h.mono le_rfl hS

theorem lookupGives_owns (P : Set Nat) (path : Nat) (k : Kernel) :
    LookupGives P (OwnsItem P) path k := by
  intro descriptor k₁ _ hk₁
  refine (fat16GetDirectoryEntry_intact hk₁ path).mono fun item k₂ _ hitem => hitem.imp_right ?_
  rintro ⟨S, hS, hown⟩
  exact ⟨S, hS, hown.mono (Set.subset_insert _ _) le_rfl⟩

theorem DescribesOn.tame {I : Set Nat → Kernel → Nat → Prop} {priv : Nat} (hI : Lasting I)
    (h : DescribesOn S k priv (I S k)) (ht : Tame S k k') : DescribesOn S k' priv (I S k') := by
  obtain ⟨hmem, d, hd, hitem⟩ := h
  exact ⟨hmem, d, (ht.objs priv hmem).trans hd, hI.tame hitem ht⟩

/-- What `fat16_open` returns is an error or a descriptor with its own memory, for an item
that has what the lookup gives. -/
theorem fat16Open_describes {I : Set Nat → Kernel → Nat → Prop} (hI : Lasting I) (h : Guards P k)
    {path mode : Nat} (hfind : mode = FILE_MODE_READ → LookupGives P I path k) :
    Framed (Intact P) (fat16Open path mode) k fun r k' => ISERR r = false →
      ∃ S, Beside P S k' ∧ DescribesOn S k' r (I S k') := by
  unfold fat16Open
  split
  · exact .pure (.refl h) fun herr => absurd herr (by decide)
  next hmode =>
  rw [not_not] at hmode
  refine Framed.bind (kzallocObj_made h (by decide) _).noting ?_
  rintro descriptor k₁ hk₁ ⟨hrun, ⟨rfl, rfl⟩ | ⟨hnew, -⟩⟩
  · exact .pure (.refl h) fun herr => absurd herr (by decide)
  rw [if_neg hnew.ne_zero]
  refine Framed.bind ((hfind hmode _ _ hrun (hk₁.guards.insert hnew.held)).weaken
    fun _ => Intact.tail) ?_
  rintro item k₂ - ⟨hk₂, hitem⟩
  refine Framed.bind (intact_modify Obj.fatFileDescriptor?_eq_some hk₂.tail.guards hnew.not_mem _) ?_
  rintro _ k₃ hk₃ ⟨d₂, -, hst₃⟩
  split
  · have hheld : k₃.Held descriptor := hk₂.head.1.congr hst₃.heap_entries
    refine Framed.bind ((released_kfree hk₃.guards hheld.releasable hnew.not_mem).weaken
      fun _ => Released.toIntact) ?_
    rintro _ k₄ hk₄ -
    exact .pure (.refl hk₄.guards) fun herr => absurd herr (by decide)
  next hne =>
  obtain ⟨S, hS, hown⟩ := hitem.resolve_left hne
  have hnot : descriptor ∉ S := fun hmem => hS.apart _ hmem (Set.mem_insert _ _)
  refine Framed.bind (intact_modify Obj.fatFileDescriptor?_eq_some hk₃.guards hnew.not_mem _) ?_
  rintro _ k₄ hk₄ ⟨d₃, hd₃, hst₄⟩
  rw [hst₃.self] at hd₃
  cases hd₃
  have htame : Tame S k₂ k₄ := (Tame.stored hst₃ hnot nofun).trans (.stored hst₄ hnot nofun)
  have he : k₄.heap_entries = k₂.heap_entries := hst₄.heap_entries.trans hst₃.heap_entries
  have hS₄ : Beside P S k₄ := (hS.mono (Set.subset_insert _ _)).congr he
  refine .pure (.refl hk₄.guards) fun _ => ⟨insert descriptor S,
    hS₄.insert (hk₂.head.1.congr he) hnew.not_mem, Set.mem_insert _ _, _, hst₄.self, ?_⟩
  exact hI.mono (hI.tame hown htame) (Set.subset_insert _ _)

theorem fat16Open_intact (h : Guards P k) (path mode : Nat) :
    Framed (Intact P) (fat16Open path mode) k fun r k' => ISERR r = false →
      ∃ S, Beside P S k' ∧ DescribesOn S k' r (OwnsItem P S k') :=
  fat16Open_describes (ownsItem_lasting P) h fun _ => lookupGives_owns P path k

/-! ### The path parser -/

theorem pathparserGetPathPart_intact (h : Guards P k) (path : List UInt8) :
    Framed (Intact P) (pathparserGetPathPart path) k fun _ _ => True := by
  refine Framed.bind (kzalloc_obtained h _) ?_
  intro ptr k₁ hk₁ hptr
  dsimp only
  split
  · refine Framed.bind (P := fun _ _ => True) ?_ ?_
    · rcases hptr with ⟨rfl, rfl⟩ | ⟨-, hout, hobt⟩
      · exact ((released_kfree h (releasable_zero _) fun hP => (h.held 0 hP).ne_zero rfl).weaken
          fun _ => Released.toIntact).mono fun _ _ _ _ => trivial
      · exact ((released_kfree hk₁.guards hobt.releasable hout).weaken fun _ =>
          Released.toIntact).mono fun _ _ _ _ => trivial
    · intro _ k₂ hk₂ _
      exact .pure (.refl hk₂.guards) trivial
  split
  · exact .fails
  split
  · exact .fails
  refine Framed.bind (intact_storeBytes hk₁.guards _ _) ?_
  intro _ k₂ hk₂ _
  exact .pure (.refl hk₂.guards) trivial

/-- A new part of a path, linked to the one before it, which is not in `P`. -/
theorem pathparserParsePathPart_intact (h : Guards P k) {last_part : Nat} (hlast : last_part ∉ P)
    (path : List UInt8) :
    Framed (Intact P) (pathparserParsePathPart last_part path) k fun r _ => r.1 ∉ P := by
  have h0 : (0 : Nat) ∉ P := fun hP => (h.held 0 hP).ne_zero rfl
  refine Framed.bind (pathparserGetPathPart_intact h path) ?_
  intro r k₁ hk₁ _
  split
  · exact .pure (.refl hk₁.guards) h0
  refine Framed.bind (P := fun part _ => part ∉ P) ?_ ?_
  · refine (kzallocObj_made hk₁.guards (by decide) _).mono ?_
    rintro part k₂ _ (⟨rfl, -⟩ | ⟨hnew, -⟩)
    · exact h0
    · exact hnew.not_mem
  intro part k₂ hk₂ hpart
  refine Framed.bind (intact_modify Obj.pathPart?_eq_some hk₂.guards hpart _) ?_
  rintro _ k₃ hk₃ -
  refine Framed.bind (P := fun _ _ => True) (.onlyIf (.refl hk₃.guards) (fun _ => ?_)
    fun _ => trivial) ?_
  · exact (intact_modify Obj.pathPart?_eq_some hk₃.guards hlast _).mono fun _ _ _ _ => trivial
  · intro _ k₄ hk₄ _
    exact .pure (.refl hk₄.guards) hpart

theorem pathparserParseLoop_intact :
    ∀ (fuel part : Nat) (path : List UInt8) (k : Kernel), Guards P k → part ∉ P →
      Framed (Intact P) (pathparserParseLoop fuel part path) k fun _ _ => True := by
  intro fuel
  induction fuel with
  | zero =>
    intro part path k _ _
    exact .fails
  | succ fuel ih =>
    intro part path k h hpart
    unfold pathparserParseLoop
    split
    · exact .pure (.refl h) trivial
    refine Framed.bind (pathparserParsePathPart_intact h hpart path) ?_
    intro r k₁ hk₁ hr
    exact ih _ _ k₁ hk₁.guards hr

theorem pathparserParse_intact (h : Guards P k) (path : List UInt8) :
    Framed (Intact P) (pathparserParse path) k fun _ _ => True := by
  have h0 : (0 : Nat) ∉ P := fun hP => (h.held 0 hP).ne_zero rfl
  unfold pathparserParse
  split
  · exact .pure (.refl h) trivial
  dsimp only
  split
  · exact .pure (.refl h) trivial
  refine Framed.bind (P := fun path_root _ => path_root ∉ P) ?_ ?_
  · refine Framed.bind (P := fun path_r _ => path_r ∉ P) ?_ ?_
    · refine (kzallocObj_made h (by decide) _).mono ?_
      rintro part k₂ _ (⟨rfl, -⟩ | ⟨hnew, -⟩)
      · exact h0
      · exact hnew.not_mem
    · intro path_r k₁ hk₁ hroot
      refine Framed.bind (intact_modify Obj.pathRoot?_eq_some hk₁.guards hroot _) ?_
      rintro _ k₂ hk₂ -
      exact .pure (.refl hk₂.guards) hroot
  intro path_root k₁ hk₁ hroot
  split
  · exact .pure (.refl hk₁.guards) trivial
  refine Framed.bind (pathparserParsePathPart_intact hk₁.guards h0 _) ?_
  intro first k₂ hk₂ hfirst
  split
  · exact .pure (.refl hk₂.guards) trivial
  refine Framed.bind (intact_modify Obj.pathRoot?_eq_some hk₂.guards hroot _) ?_
  rintro _ k₃ hk₃ -
  refine Framed.bind (pathparserParsePathPart_intact hk₃.guards hfirst _) ?_
  intro part k₄ hk₄ hpart
  refine Framed.bind (pathparserParseLoop_intact _ _ _ k₄ hk₄.guards hpart) ?_
  intro _ k₅ hk₅ _
  exact .pure (.refl hk₅.guards) trivial

/-! ### Files -/

/-- A new descriptor is in new memory and in the first free entry, and makes no directory. -/
theorem fileNewDescriptor_intact (h : Guards P k) :
    Framed (Intact P) fileNewDescriptor k fun r k' =>
      r.1 < 0 ∧ k' = k ∨ r.1 = 0 ∧ ∃ i, freeDescriptorSlot k.file_descriptors = some i ∧
        r.2 ∉ P ∧ k'.Held r.2 ∧ k'.file_descriptors = Function.update k.file_descriptors i r.2 ∧
          k'.objs r.2 = some (.fileDescriptor ⟨i + 1, 0, 0, 0⟩) ∧ Tame P k k' := by
  refine Framed.bind (intact_reads h _) ?_
  rintro _ _ - ⟨rfl, rfl⟩
  cases hslot : freeDescriptorSlot k.file_descriptors with
  | none => exact .pure (.refl h) (Or.inl ⟨by decide, rfl⟩)
  | some i =>
    refine Framed.bind (kzallocObj_made h (by decide) _) ?_
    rintro desc k₁ hk₁ hdesc
    refine Framed.bind (P := fun _ k₂ => desc ∉ P ∧ k₂.Held desc ∧
      k₂.file_descriptors = k.file_descriptors ∧
      k₂.objs desc = some (.fileDescriptor ⟨i + 1, 0, 0, 0⟩) ∧ Tame P k k₂) ?_ ?_
    · rcases hdesc with ⟨rfl, rfl⟩ | ⟨hnew, hrel⟩
      · refine Ensures.bind (deref_spec _ _ _) ?_
        rintro _ _ ⟨-, h0, -⟩
        exact absurd rfl h0
      · refine (intact_modify Obj.fileDescriptor?_eq_some hk₁.guards hnew.not_mem _).mono ?_
        rintro _ k₂ hk₂ ⟨d, hd, hst⟩
        rw [hnew.self] at hd
        cases hd
        refine ⟨hnew.not_mem, hnew.held.congr hst.heap_entries,
          hst.globals.file_descriptors.trans hnew.globals.file_descriptors, hst.self, ?_⟩
        refine Tame.trans ⟨hk₁.objs, fun p dir hp => ?_, hrel (by decide)⟩
          (.stored hst hnew.not_mem nofun)
        by_cases hpd : p = desc
        · subst hpd
          rw [hnew.self] at hp
          cases hp
        · rcases hnew.only p hpd with heq | hnone
          · rwa [← heq]
          · rw [hnone] at hp
            cases hp
    · rintro _ k₂ hk₂ ⟨hout, hheld, hfds, hobj, htame⟩
      refine Framed.bind (P := fun _ k₃ => desc ∉ P ∧ k₃.Held desc ∧
        k₃.file_descriptors = Function.update k.file_descriptors i desc ∧
          k₃.objs desc = some (.fileDescriptor ⟨i + 1, 0, 0, 0⟩) ∧ Tame P k k₃) ?_ ?_
      · refine .modifies (.of_same hk₂.guards rfl rfl ⟨rfl, rfl, rfl, rfl, rfl⟩)
          ⟨hout, hheld, ?_, hobj, htame.trans (.of_same P rfl rfl)⟩
        rw [← hfds]
      · intro _ k₃ hk₃ hnew
        exact .pure (.refl hk₃.guards) (Or.inr ⟨rfl, i, rfl, hnew⟩)

/-- The table of file descriptors, fenced off. -/
def tableFence : Fence := { emptyFence with slots := Set.univ }

theorem tableFence_stands (h : k.Tidy) : tableFence.Stands k where
  inside := fun _ h => absurd h (Set.notMem_empty _)
  kept := fun _ _ => rfl
  taken := fun _ h => absurd h (Set.notMem_empty _)
  sealed := fun _ _ _ _ h => absurd h (Set.notMem_empty _)
  barrier := h.barrier

/-- What keeps to the fence leaves the table as it is. -/
theorem keepsTable {α : Type} {m : KM α} {Q : α → Kernel → Prop}
    (h : Framed (Fenced tableFence) m k Q) :
    Ensures m k fun _ k' => k'.file_descriptors = k.file_descriptors := by
  refine h.ensures fun _ k' hk' _ => ?_
  funext i
  exact hk'.slots i (Set.mem_univ i)

/-- What a successful `fopen` from `k` leaves in `k'`. -/
structure NewFile (P : Set Nat) (I : Set Nat → Kernel → Nat → Prop) (k k' : Kernel) (fd : Int)
    (desc : Nat) (S : Set Nat) : Prop where
  slot : ∃ i : Nat, freeDescriptorSlot k.file_descriptors = some i ∧ fd = i + 1 ∧
    k'.file_descriptors = Function.update k.file_descriptors i desc
  not_mem : desc ∉ P
  beside : Beside P S k'
  file : FileOn S k' fd desc (I S k')

/-- `fopen` from where it has the parsed path. -/
private theorem fopenRes_rest_newFile {I : Set Nat → Kernel → Nat → Prop} (hI : Lasting I)
    (h : Guards P k) {root_path : Nat} (mode_str : List UInt8)
    (hfind : ∀ root, k.objs root_path = some (.pathRoot root) → root.first ≠ 0 →
      root.drive_no = 0 → k.disk.filesystem ≠ 0 → fileGetModeByString mode_str = FILE_MODE_READ →
        LookupGives P I root.first k) :
    Framed (Intact P) (do
      let root ← deref Obj.pathRoot? root_path
      if root.first = 0 then pure (-EINVARG)
      else if root.drive_no ≠ 0 then pure (- EIO)
      else do
        let filesystem ← reads fun k => k.disk.filesystem
        if filesystem = 0 then pure (- EIO)
        else
          let mode := fileGetModeByString mode_str
          if mode = FILE_MODE_INVALID then pure (-EINVARG)
          else do
            let descriptor_private_data ← fat16Open root.first mode
            if ISERR descriptor_private_data then pure (ERROR_I descriptor_private_data)
            else do
              let r ← fileNewDescriptor
              if r.1 < 0 then pure r.1
              else do
                modifyFileDescriptor r.2 fun d => { d with
                  filesystem := filesystem, private_ := descriptor_private_data
                  disk := diskAddress }
                let d ← deref Obj.fileDescriptor? r.2
                pure d.index : KM Int) k fun res k' =>
      res < 0 ∧ k'.file_descriptors = k.file_descriptors ∨
        ∃ desc S, NewFile P I k k' res desc S := by
  refine Framed.bind (intact_deref h _ _) ?_
  rintro root _ - ⟨rfl, -, hroot⟩
  rw [Obj.pathRoot?_eq_some] at hroot
  split
  · exact .pure (.refl h) (Or.inl ⟨by decide, rfl⟩)
  next hfirst =>
  split
  · exact .pure (.refl h) (Or.inl ⟨by decide, rfl⟩)
  next hdrive =>
  refine Framed.bind (intact_reads h _) ?_
  rintro filesystem _ - ⟨rfl, rfl⟩
  split
  · exact .pure (.refl h) (Or.inl ⟨by decide, rfl⟩)
  next hfs =>
  dsimp only
  split
  · exact .pure (.refl h) (Or.inl ⟨by decide, rfl⟩)
  refine Framed.bind (R := Intact P) (P := fun r k' => (ISERR r = false → ∃ S, Beside P S k' ∧
    DescribesOn S k' r (I S k')) ∧ k'.file_descriptors = k.file_descriptors) ?_ ?_
  · refine Ensures.mono ((fat16Open_describes hI h
      (hfind root hroot hfirst (not_not.mp hdrive) hfs)).and
      (keepsTable (fat16Open_fenced (tableFence_stands h.tidy) _ _))) ?_
    exact fun _ _ hr => ⟨hr.1.1, hr.1.2, hr.2⟩
  rintro priv k₁ hk₁ ⟨hpriv, hfds₁⟩
  split
  · next herr => exact .pure (.refl hk₁.guards) (Or.inl ⟨of_decide_eq_true herr, hfds₁⟩)
  next herr =>
  obtain ⟨S, hS, hdescribes⟩ := hpriv (Bool.not_eq_true _ ▸ herr)
  refine Framed.bind ((fileNewDescriptor_intact (hk₁.guards.union hS.toGuards)).weaken
    fun _ => Intact.left) ?_
  rintro r k₂ - ⟨hk₂, hr⟩
  split
  · next hneg =>
    rcases hr with ⟨-, rfl⟩ | ⟨hzero, -⟩
    · exact .pure (.refl hk₁.guards) (Or.inl ⟨hneg, hfds₁⟩)
    · exact absurd hneg (by omega)
  next hneg =>
  obtain ⟨-, i, hslot, hout, hheld, hfds₂, hobj, htame₂⟩ := hr.resolve_left fun hr => hneg hr.1
  have hP : r.2 ∉ P := fun hmem => hout (Or.inl hmem)
  have hnot : r.2 ∉ S := fun hmem => hout (Or.inr hmem)
  refine Framed.bind (intact_modify Obj.fileDescriptor?_eq_some hk₂.left.guards hP _) ?_
  rintro _ k₃ hk₃ ⟨d₂, hd₂, hst₃⟩
  rw [hobj] at hd₂
  cases hd₂
  refine Framed.bind (intact_deref hk₃.guards _ _) ?_
  rintro d _ - ⟨rfl, -, hd⟩
  rw [Obj.fileDescriptor?_eq_some, hst₃.self] at hd
  cases hd
  have htame : Tame S k₁ k₃ := (Tame.mk hk₂.right.objs htame₂.directory htame₂.releasable).trans
    (.stored hst₃ hnot nofun)
  rw [hfds₁] at hslot hfds₂
  refine .pure (.refl hk₃.guards) (Or.inr ⟨r.2, S, ?_⟩)
  exact
    { slot := ⟨i, hslot, rfl, hst₃.globals.file_descriptors.trans hfds₂⟩
      not_mem := hP
      beside := (hS.intact hk₂).congr hst₃.heap_entries
      file :=
        { held := hheld.congr hst₃.heap_entries
          not_mem := hnot
          record := ⟨_, hst₃.self, rfl, hfs, hdescribes.tame hI htame⟩ } }

/-- A successful `fopen` puts a new descriptor in the first free entry. -/
theorem fopen_newFile {I : Set Nat → Kernel → Nat → Prop} (hI : Lasting I) (h : Guards P k)
    {filename mode_str : List UInt8}
    (hfind : ∀ root_path k₁ root, pathparserParse filename k = .ok (root_path, k₁) →
      root_path ≠ 0 → k₁.objs root_path = some (.pathRoot root) → root.first ≠ 0 →
        root.drive_no = 0 → k₁.disk.filesystem ≠ 0 →
          fileGetModeByString mode_str = FILE_MODE_READ → LookupGives P I root.first k₁) :
    Framed (Intact P) (fopen filename mode_str) k fun fd k' =>
      fd = 0 ∧ k'.file_descriptors = k.file_descriptors ∨
        ∃ desc S, NewFile P I k k' fd desc S := by
  refine Framed.bind (R := Intact P) (P := fun res k' =>
    res < 0 ∧ k'.file_descriptors = k.file_descriptors ∨
      ∃ desc S, NewFile P I k k' res desc S) ?_ ?_
  · refine Framed.bind (R := Intact P) (P := fun root_path k₁ =>
      pathparserParse filename k = .ok (root_path, k₁) ∧
        k₁.file_descriptors = k.file_descriptors) ?_ ?_
    · refine Ensures.mono ((pathparserParse_intact h filename).noting.and
        (keepsTable (pathparserParse_fenced (tableFence_stands h.tidy) filename))) ?_
      exact fun _ _ hr => ⟨hr.1.1, hr.1.2.1, hr.2⟩
    rintro root_path k₁ hk₁ ⟨hparse, hfds⟩
    split
    · exact .pure (.refl hk₁.guards) (Or.inl ⟨by decide, hfds⟩)
    next hne =>
    refine (fopenRes_rest_newFile hI hk₁.guards mode_str
      fun root => hfind root_path k₁ root hparse hne).mono ?_
    rintro res k₂ - (⟨hneg, hfds₂⟩ | ⟨desc, S, hnew⟩)
    · exact Or.inl ⟨hneg, hfds₂.trans hfds⟩
    · exact Or.inr ⟨desc, S, { hnew with slot := hfds ▸ hnew.slot }⟩
  · rintro res k₁ hk₁ hres
    refine .pure (.refl hk₁.guards) ?_
    rcases hres with ⟨hneg, hfds⟩ | ⟨desc, S, hnew⟩
    · rw [if_pos hneg]
      exact Or.inl ⟨rfl, hfds⟩
    · obtain ⟨i, -, rfl, -⟩ := id hnew.slot
      rw [if_neg (by omega)]
      exact Or.inr ⟨desc, S, hnew⟩

theorem fopen_owns (h : Guards P k) (filename mode_str : List UInt8) :
    Framed (Intact P) (fopen filename mode_str) k fun fd k' =>
      fd = 0 ∧ k'.file_descriptors = k.file_descriptors ∨
        ∃ desc S, NewFile P (OwnsItem P) k k' fd desc S :=
  fopen_newFile (ownsItem_lasting P) h fun _ k₁ root _ _ _ _ _ _ _ =>
    lookupGives_owns P root.first k₁

theorem NewFile.openOn {k₀ : Kernel} {I : Set Nat → Kernel → Nat → Prop} {fd : Int} {desc : Nat}
    (h : NewFile P I k₀ k fd desc S) (hI : Lasting I) :
    Beside P (insert desc S) k ∧ OpenOn (insert desc S) k fd (I (insert desc S) k) := by
  obtain ⟨i, -, rfl, hfds⟩ := h.slot
  obtain ⟨d, hd, hindex, -, hpriv, d', hd', hitem⟩ := h.file.record
  have hslot : k.file_descriptors ((i : Int) + 1 - 1).toNat = desc := by
    rw [show ((i : Int) + 1 - 1).toNat = i by omega, hfds]
    exact Function.update_self ..
  refine ⟨h.beside.insert h.file.held h.not_mem, show (1 : Int) ≤ i + 1 by omega, ?_⟩
  rw [hslot]
  exact ⟨Set.mem_insert _ _, d, hd, hindex, Set.mem_insert_of_mem _ hpriv, d', hd',
    hI.mono hitem (Set.subset_insert _ _)⟩

/-- A file that is opened has its own memory. -/
theorem fopen_intact (h : Guards P k) (filename mode_str : List UInt8) :
    Framed (Intact P) (fopen filename mode_str) k fun fd k' => fd = 0 ∨
      ∃ S, Beside P S k' ∧ OpenOn S k' fd (OwnsItem P S k') := by
  refine (fopen_owns h filename mode_str).mono ?_
  rintro fd k' - (⟨hzero, -⟩ | ⟨desc, S, hnew⟩)
  · exact Or.inl hzero
  · exact Or.inr ⟨insert desc S, hnew.openOn (ownsItem_lasting P)⟩

/-! ### An open file -/

theorem fileGetDescriptor_intact (h : Guards P k) (fd : Int) :
    Framed (Intact P) (fileGetDescriptor fd) k fun desc k' => k = k' ∧
      (desc = 0 ∨ 1 ≤ fd ∧ desc = k.file_descriptors (fd - 1).toNat) := by
  unfold fileGetDescriptor
  split
  · exact .pure (.refl h) ⟨rfl, Or.inl rfl⟩
  · next hfd => exact .reads (.refl h) ⟨rfl, Or.inr ⟨by omega, rfl⟩⟩

theorem descFilesystem_intact (h : Guards P k) (d : FileDescriptor) :
    Framed (Intact P) (descFilesystem d) k fun _ k' => k = k' := by
  unfold descFilesystem
  split
  · exact .fails
  · exact .pure (.refl h) rfl

theorem OpenOn.intact {I I' : Nat → Prop} {fd : Int} (h : OpenOn S k fd I) (hk : Intact S k k')
    (hf : k'.file_descriptors = k.file_descriptors) (hI : ∀ item, I item → I' item) :
    OpenOn S k' fd I' := by
  obtain ⟨h₁, hmem, d, hd, hindex, hpriv, d', hd', hitem⟩ := h
  unfold OpenOn
  rw [hf]
  exact ⟨h₁, hmem, d, (hk.objs _ hmem).trans hd, hindex, hpriv, d', (hk.objs _ hpriv).trans hd',
    hI _ hitem⟩

/-- Where `fstat` reports a file, all that the descriptor refers to is there. -/
theorem fstat_intact (h : Guards P k) {fd : Int} (hf : OpenOn S k fd (OwnsItem P S k)) :
    Framed (Intact P) (fstat fd) k fun r k' => k = k' ∧ r.1 ≤ 0 ∧
      (r.2.isSome → OpenOn S k fd (SolidItem S k)) := by
  obtain ⟨h₁, hmem, d, hd, hindex, hpriv, d', hd', i, hi, himem, htag, hdir, hfile⟩ := hf
  refine Framed.bind (fileGetDescriptor_intact h fd) ?_
  rintro desc _ - ⟨rfl, hdesc⟩
  split
  · exact .pure (.refl h) ⟨rfl, by decide, nofun⟩
  next hne =>
  obtain ⟨-, rfl⟩ := hdesc.resolve_left hne
  refine Framed.bind (intact_deref h _ _) ?_
  rintro e _ - ⟨rfl, -, he⟩
  rw [Obj.fileDescriptor?_eq_some, hd] at he
  cases he
  refine Framed.bind (descFilesystem_intact h d) ?_
  rintro _ _ - rfl
  refine Framed.bind (intact_deref h _ _) ?_
  rintro e _ - ⟨rfl, -, he⟩
  rw [Obj.fatFileDescriptor?_eq_some, hd'] at he
  cases he
  refine Framed.bind (intact_deref h _ _) ?_
  rintro e _ - ⟨rfl, -, he⟩
  rw [Obj.fatItem?_eq_some, hi] at he
  cases he
  split
  · exact .pure (.refl h) ⟨rfl, by decide, nofun⟩
  next htype =>
  rw [not_not] at htype
  refine Framed.bind (derefItem_intact h _) ?_
  rintro ritem _ - rfl
  refine .pure (.refl h) ⟨rfl, le_rfl, fun _ => ⟨h₁, hmem, d, hd, hindex, hpriv, d', hd', i, hi, himem,
    htag, fun hdtype => ?_, hfile⟩⟩
  rw [htype] at hdtype
  exact absurd hdtype (by decide)

theorem fread_intact (h : Guards P k) (ptr size nmemb : Nat) (fd : Int) :
    Framed (Intact P) (fread ptr size nmemb fd) k fun res k' =>
      k'.heap_entries = k.heap_entries ∧ k'.objs = k.objs ∧
        k'.file_descriptors = k.file_descriptors ∧ (0 ≤ res → size ≠ 0) := by
  have hsize : Ensures (fread ptr size nmemb fd) k fun res _ => 0 ≤ res → size ≠ 0 := by
    unfold fread
    split
    · exact .pure fun hneg => absurd hneg (by decide)
    · next hsize => exact fun _ _ _ _ h0 => hsize (Or.inl h0)
  refine ((fread_data ptr size nmemb fd k).and hsize).mono ?_
  rintro res k' ⟨⟨hk', -⟩, hsize⟩
  have he : k'.heap_entries = k.heap_entries := by rw [hk']
  have ho : k'.objs = k.objs := by rw [hk']
  refine ⟨.of_same h he ho ?_, he, ho, ?_, hsize⟩
  · rw [hk']
    exact ⟨rfl, rfl, rfl, rfl, rfl⟩
  · rw [hk']

/-- Closing a file releases its own memory and no other. -/
theorem fclose_intact (h : Guards P k) {fd : Int} (hS : Beside P S k)
    (hf : OpenOn S k fd (OwnsItem P S k)) :
    Framed (Intact P) (fclose fd) k fun _ _ => True := by
  obtain ⟨h₁, hmem, d, hd, hindex, hpriv, d', hd', hitem⟩ := hf
  refine Framed.bind (fileGetDescriptor_intact h fd) ?_
  rintro desc _ - ⟨rfl, hdesc⟩
  split
  · exact .pure (.refl h) trivial
  next hne =>
  obtain ⟨-, rfl⟩ := hdesc.resolve_left hne
  refine Framed.bind (intact_deref h _ _) ?_
  rintro e _ - ⟨rfl, -, he⟩
  rw [Obj.fileDescriptor?_eq_some, hd] at he
  cases he
  refine Framed.bind (descFilesystem_intact h d) ?_
  rintro _ _ - rfl
  have hdisp := hS.disposable
  refine Framed.bind (P := fun _ k' => Released P k k') ?_ ?_
  · refine Framed.bind (P := fun _ k' => Released P k k') ?_ fun _ k₁ hk₁ hrel =>
      .pure (.refl hk₁.guards) hrel
    refine Framed.bind (intact_deref h _ _) ?_
    rintro e _ - ⟨rfl, -, he⟩
    rw [Obj.fatFileDescriptor?_eq_some, hd'] at he
    cases he
    refine Framed.bind ((fat16FatItemFree_released h hdisp hitem).weaken fun _ =>
      Released.toIntact) ?_
    rintro _ k₁ - ⟨hk₁, -⟩
    refine ((released_kfree hk₁.guards (hk₁.releasable _ (hdisp _ hpriv).1) (hdisp _ hpriv).2).weaken
      fun _ => Released.toIntact).mono ?_
    rintro _ k₂ - ⟨hk₂, -⟩
    exact hk₁.trans hk₂
  rintro res k₁ - hk₁
  split
  · refine Framed.bind (P := fun _ _ => True) ?_ fun _ k₂ hk₂ _ => .pure (.refl hk₂.guards) trivial
    refine Framed.bind (intact_deref hk₁.guards _ _) ?_
    rintro e _ - ⟨rfl, -, -⟩
    split
    · exact .fails
    refine Framed.bind (.modifies (.of_same hk₁.guards rfl rfl ⟨rfl, rfl, rfl, rfl, rfl⟩)
      (Q := fun _ k₂ => k₂.heap_entries = k₁.heap_entries) rfl) ?_
    intro _ k₂ hk₂ he
    have hrel := (hk₁.releasable _ (hdisp _ hmem).1).congr he
    exact ((released_kfree hk₂.guards hrel (hdisp _ hmem).2).weaken fun _ =>
      Released.toIntact).mono fun _ _ _ _ => trivial
  · exact .pure (.refl hk₁.guards) trivial

end PlumOS
