import PlumOS.Fs.FileOpen
import PlumOS.Fs.FileOwnership
import PlumOS.Fs.TrackedLookup

/-!
# Allocations of a lookup

`fat16_get_directory_entry` builds an item for each part of a path and releases the one
before it. The five functions under it tell of a failure in different ways: by NULL, by an
item whose directory is NULL, by the address of a directory that was released. With all
that is allocated kept account of, a lookup is safe exactly when it meets with none of
these where it does not look for it.

## Main definitions

- `DirectoryAt`, `ItemAt` — what was found, and the allocations that belong to it
- `LookupAt` — all that a lookup has allocated
- `LookupSafe`, `LookupSound`

## Main results

- `fat16FindItemInDirectoryTracked_lookupAt`, `fat16FatItemFreeTracked_holding` — what a search
  takes and what a release gives back
- `fat16GetDirectoryEntryLoopTracked_iff` — the walk along the path
- `fat16GetDirectoryEntry_safe_iff`
-/

namespace PlumOS

open StateExcept

/-- The directory at a pointer, and the allocations that belong to it. -/
inductive DirectoryAt (k : Kernel) : Nat → Found → Set Nat → Prop
  | noDirectory : DirectoryAt k 0 .noDirectory ∅
  | failed {d : Nat} (hne : d ≠ 0) (hfree : ¬ k.Held d) : DirectoryAt k d .failed ∅
  | empty {d : Nat} {dir : FatDirectory} (hd : k.objs d = some (.fatDirectory dir))
      (htotal : dir.total = 0) (hne : dir.item ≠ 0) (hfree : ¬ k.Held dir.item) :
      DirectoryAt k d .empty {d}
  | loaded {d : Nat} {dir : FatDirectory} (hd : k.objs d = some (.fatDirectory dir))
      (hne : dir.item ≠ d) : DirectoryAt k d .loaded {dir.item, d}

/-- The item at a pointer, and the allocations that belong to it. -/
inductive ItemAt (k : Kernel) : Nat → Found → Set Nat → Prop
  | nothing : ItemAt k 0 .nothing ∅
  | file {item item_copy : Nat} {B : Set Nat}
      (hi : k.objs item = some (.fatItem ⟨item_copy, FAT_ITEM_TYPE_FILE⟩))
      (hcopy : item_copy = 0 ∧ B = {item} ∨ item_copy ≠ item ∧ B = {item_copy, item}) :
      ItemAt k item .file B
  | directory {item d : Nat} {found : Found} {B : Set Nat}
      (hi : k.objs item = some (.fatItem ⟨d, FAT_ITEM_TYPE_DIRECTORY⟩))
      (hd : DirectoryAt k d found B) (hnot : item ∉ B) : ItemAt k item found (insert item B)

/-- Nothing of it was released before, or is released though it was not taken. -/
def Found.Whole (found : Found) : Prop := found ≠ .failed ∧ found ≠ .empty

section Lookup

variable {A B L : Set Nat} {k k' : Kernel} {p d item holder : Nat} {found : Found}
  {E : LookupFault → Kernel → Prop}

/-! ### Uses and releases -/

theorem follows_bind {α : Type} {f : PUnit → LM α} {Q : α → Kernel → Prop} (h : k.Held p) :
    Ends (follows p >>= f) k E Q ↔ Ends (f ⟨⟩) k E Q :=
  Ends.expects_bind_of_pos (c := fun k : Kernel => k.Held p) h

theorem follows_bind_of_not {α : Type} {f : PUnit → LM α} {Q : α → Kernel → Prop}
    (h : ¬ k.Held p) : Ends (follows p >>= f) k E Q ↔ E (.used p) k :=
  Ends.expects_bind_of_neg (c := fun k : Kernel => k.Held p) h

theorem followsEntry_bind {α : Type} {f : PUnit → LM α} {Q : α → Kernel → Prop}
    (h : holder = 0 ∨ k.Held holder) :
    Ends (followsEntry holder >>= f) k E Q ↔ Ends (f ⟨⟩) k E Q :=
  Ends.expects_bind_of_pos (c := fun k : Kernel => holder = 0 ∨ k.Held holder) h

theorem deref_bind {α β : Type} (sel : Obj → Option α) {o : Obj} {a : α} {f : α → LM β}
    {Q : β → Kernel → Prop} (hp : p ≠ 0) (ho : k.objs p = some o) (ha : sel o = some a) :
    Ends (stays (deref sel p) >>= f) k E Q ↔ Ends (f a) k E Q :=
  Ends.stays_bind_of_ok (deref_ok hp ho ha)

theorem kfreeTracked_ends {Q : PUnit → Kernel → Prop} (h : p = 0 ∨ k.Held p) :
    Ends (kfreeTracked p) k E Q ↔ Ends (stays (kfree p)) k E Q :=
  Ends.expects_bind_of_pos (c := fun k : Kernel => p = 0 ∨ k.Held p) h

theorem kfreeTracked_holding (h : Holding A k) (hp : p = 0 ∨ p ∈ A) :
    EndsFramed (Intact (A \ {p})) (kfreeTracked p) k E fun _ k' => Holding (A \ {p}) k' := by
  refine (kfreeTracked_ends (hp.imp_right (h.held p))).mpr ?_
  exact .stays (kfree_holding h hp)

/-- The release of a directory with its entries. -/
theorem fat16FreeDirectoryTracked_holding {dir : FatDirectory} (h : Holding A k) (hd : d ∈ A)
    (hobj : k.objs d = some (.fatDirectory dir))
    (hitem : dir.item = 0 ∨ dir.item ∈ A ∧ dir.item ≠ d) :
    EndsFramed (Intact (A \ {dir.item, d})) (fat16FreeDirectoryTracked d) k E fun _ k' =>
      Holding (A \ {dir.item, d}) k' := by
  have hheld := h.held d hd
  have hsub : A \ {dir.item, d} ⊆ A \ {dir.item} := by
    rintro p ⟨hp, hout⟩
    exact ⟨hp, fun hmem => hout (Or.inl hmem)⟩
  have hsub' : A \ {dir.item, d} ⊆ A := fun p hp => hp.1
  have hne : d ≠ dir.item := by
    rintro rfl
    rcases hitem with h0 | ⟨-, hne⟩
    · exact hheld.ne_zero h0
    · exact hne rfl
  unfold fat16FreeDirectoryTracked
  rw [if_neg hheld.ne_zero]
  refine (follows_bind hheld).mpr ?_
  refine (deref_bind Obj.fatDirectory? hheld.ne_zero hobj rfl).mpr ?_
  refine EndsFramed.bind (P := fun _ k' => Holding (A \ {dir.item}) k') ?_ ?_
  · refine .leavingIf (.refl (h.toGuards.mono hsub')) (fun hne => ?_) fun h0 => ?_
    · have hmem := (hitem.resolve_left hne).1
      refine ((kfreeTracked_holding h (.inr hmem)).weaken fun _ hk => hk.mono hsub).mono ?_
      exact fun _ _ _ hk => hk.2
    · rw [not_not.mp h0]
      exact h.of_eq (Set.sdiff_singleton_eq_self h.zero_notMem).symm
  · intro _ k₁ hk₁ h₁
    have heq : (A \ {dir.item}) \ {d} = A \ {dir.item, d} := by
      rw [Set.sdiff_sdiff, Set.singleton_union]
    rw [← heq]
    exact kfreeTracked_holding h₁ (.inr ⟨hd, hne⟩)

/-- The release of an item behind that of its directory, which takes away `B`. -/
private theorem fat16FatItemFreeTracked_directory (h : Holding A k)
    (hi : k.objs item = some (.fatItem ⟨d, FAT_ITEM_TYPE_DIRECTORY⟩)) (hmem : item ∈ A)
    (hnot : item ∉ B) (hd : EndsFramed (Intact (A \ B)) (fat16FreeDirectoryTracked d) k E
      fun _ k' => Holding (A \ B) k') :
    EndsFramed (Intact (A \ insert item B)) (fat16FatItemFreeTracked item) k E fun _ k' =>
      Holding (A \ insert item B) k' := by
  have hheld := h.held item hmem
  have hsub : A \ insert item B ⊆ A \ B := by
    rintro p ⟨hp, hout⟩
    exact ⟨hp, fun hB => hout (Or.inr hB)⟩
  unfold fat16FatItemFreeTracked
  refine (follows_bind hheld).mpr ?_
  refine (deref_bind Obj.fatItem? hheld.ne_zero hi rfl).mpr ?_
  rw [leavingIf, if_pos rfl]
  refine EndsFramed.bind (P := fun _ k' => Holding (A \ B) k') ?_ ?_
  · exact (hd.weaken fun _ hk => hk.mono hsub).mono fun _ _ _ hk => hk.2
  intro _ k₁ hk₁ h₁
  refine EndsFramed.bind (P := fun _ k' => Holding (A \ B) k') ?_ ?_
  · exact .leavingIf (.refl hk₁.guards) (fun hfile => absurd rfl hfile.1) fun _ => h₁
  intro _ k₂ _ h₂
  have heq : (A \ B) \ {item} = A \ insert item B := by
    rw [Set.sdiff_sdiff, Set.union_singleton]
  rw [← heq]
  exact kfreeTracked_holding h₂ (.inr ⟨hmem, hnot⟩)

private theorem fat16FatItemFreeTracked_file {item_copy : Nat} (h : Holding A k)
    (hi : k.objs item = some (.fatItem ⟨item_copy, FAT_ITEM_TYPE_FILE⟩)) (hmem : item ∈ A)
    (hcopy : item_copy = 0 ∨ item_copy ∈ A) (hne : item_copy ≠ item) :
    EndsFramed (Intact (A \ {item_copy, item})) (fat16FatItemFreeTracked item) k E fun _ k' =>
      Holding (A \ {item_copy, item}) k' := by
  have hheld := h.held item hmem
  have heq : (A \ {item_copy}) \ {item} = A \ {item_copy, item} := by
    rw [Set.sdiff_sdiff, Set.singleton_union]
  unfold fat16FatItemFreeTracked
  refine (follows_bind hheld).mpr ?_
  refine (deref_bind Obj.fatItem? hheld.ne_zero hi rfl).mpr ?_
  refine EndsFramed.bind (P := fun _ k' => k' = k) ?_ ?_
  · exact .leavingIf (.refl (h.toGuards.mono Set.sdiff_subset))
      (fun hdir => nomatch hdir) fun _ => rfl
  rintro _ _ - rfl
  refine EndsFramed.bind (P := fun _ k' => Holding (A \ {item_copy}) k') ?_ ?_
  · refine .leavingIf (.refl (h.toGuards.mono Set.sdiff_subset)) (fun _ => ?_)
      fun hno => absurd ⟨nofun, rfl⟩ hno
    refine ((kfreeTracked_holding h hcopy).weaken fun _ hk => ?_).mono fun _ _ _ hk => hk.2
    rw [← heq]
    exact hk.mono Set.sdiff_subset
  · intro _ k₁ _ h₁
    rw [← heq]
    exact kfreeTracked_holding h₁ (.inr ⟨hmem, hne.symm⟩)

theorem ItemAt.mem (hi : ItemAt k item found B) (hne : found ≠ .nothing) : item ∈ B := by
  cases hi with
  | nothing => exact absurd rfl hne
  | file _ hcopy =>
    rcases hcopy with ⟨-, rfl⟩ | ⟨-, rfl⟩
    · exact Set.mem_singleton _
    · exact Set.mem_insert_of_mem _ (Set.mem_singleton _)
  | directory _ _ _ => exact Set.mem_insert _ _

/-- An item that is whole is released with all that belongs to it. -/
theorem fat16FatItemFreeTracked_holding (h : Holding A k) (hi : ItemAt k item found B)
    (hne : found ≠ .nothing) (hwhole : found.Whole) (hB : B ⊆ A) :
    EndsFramed (Intact (A \ B)) (fat16FatItemFreeTracked item) k E fun _ k' =>
      Holding (A \ B) k' := by
  have hmem : item ∈ A := hB (hi.mem hne)
  cases hi with
  | nothing => exact absurd rfl hne
  | file hi hcopy =>
    rcases hcopy with ⟨rfl, rfl⟩ | ⟨hcopy, rfl⟩
    · have heq : A \ {item} = A \ {0, item} := by
        rw [← Set.singleton_union, ← Set.sdiff_sdiff, Set.sdiff_singleton_eq_self h.zero_notMem]
      rw [heq]
      exact fat16FatItemFreeTracked_file h hi hmem (.inl rfl) (h.held item hmem).ne_zero.symm
    · exact fat16FatItemFreeTracked_file h hi hmem (.inr (hB (Set.mem_insert _ _))) hcopy
  | directory hi hd hnot =>
    refine fat16FatItemFreeTracked_directory h hi hmem hnot ?_
    have hsub := (Set.subset_insert _ _).trans hB
    cases hd with
    | noDirectory =>
      rw [Set.sdiff_empty]
      exact .pure (.refl h.toGuards) h
    | failed _ _ => exact absurd rfl hwhole.1
    | empty _ _ _ _ => exact absurd rfl hwhole.2
    | loaded hd hentries =>
      exact fat16FreeDirectoryTracked_holding h (hsub (Set.mem_insert_of_mem _ rfl)) hd
        (.inr ⟨hsub (Set.mem_insert _ _), hentries⟩)

/-- An item with a directory that was released, or whose entries take no memory, cannot be
released. -/
theorem ItemAt.not_released {Q : PUnit → Kernel → Prop} (hi : ItemAt k item found B)
    (hheld : ∀ p ∈ B, k.Held p) (hbroken : ¬ found.Whole)
    (hE : ∀ p, ¬ E (.used p) k ∧ ¬ E (.released p) k) :
    ¬ Ends (fat16FatItemFreeTracked item) k E Q := by
  intro hends
  unfold fat16FatItemFreeTracked at hends
  cases hi with
  | nothing => exact hbroken ⟨nofun, nofun⟩
  | file _ _ => exact hbroken ⟨nofun, nofun⟩
  | directory hi hd hnot =>
    have hitem := hheld item (Set.mem_insert _ _)
    have hends := (follows_bind hitem).mp hends
    have hends := (deref_bind Obj.fatItem? hitem.ne_zero hi rfl).mp hends
    have hends := hends.left
    rw [leavingIf, if_pos rfl] at hends
    unfold FatItem.directory fat16FreeDirectoryTracked at hends
    cases hd with
    | noDirectory => exact hbroken ⟨nofun, nofun⟩
    | failed hne hfree =>
      rw [if_neg hne] at hends
      exact (hE _).1 ((follows_bind_of_not hfree).mp hends)
    | empty hd htotal hne hfree =>
      have hdir := hheld _ (Set.mem_insert_of_mem _ (Set.mem_singleton _))
      rw [if_neg hdir.ne_zero] at hends
      have hends := (follows_bind hdir).mp hends
      have hends := (deref_bind Obj.fatDirectory? hdir.ne_zero hd rfl).mp hends
      have hends := hends.left
      rw [leavingIf, if_pos hne] at hends
      refine (hE _).2 ((Ends.expects_bind_of_neg (c := fun k : Kernel => _ ∨ k.Held _) ?_).mp hends)
      rintro (h0 | hheld)
      · exact hne h0
      · exact hfree hheld
    | loaded _ _ => exact hbroken ⟨nofun, nofun⟩

/-! ### Looking up -/

/-- What the disk does leaves the heap alone. -/
theorem holding_onDisk {α : Type} (h : Holding A k) {m : DM α} {Q : α → Disk → Prop}
    (hm : Ensures m k.disk Q) :
    Framed (Intact A) (onDisk m) k fun a k' => Holding A k' ∧ Q a k'.disk := by
  refine (intact_onDisk h.toGuards hm).mono ?_
  rintro a k' _ ⟨hk', hQ⟩
  exact ⟨h.congr (by rw [hk']), hQ⟩

private theorem insert_diff_null (hA : 0 ∉ A) (hd : d ∉ A) : insert d A \ {0, d} = A := by
  ext p
  constructor
  · rintro ⟨rfl | hp, hout⟩
    · exact absurd (.inr rfl) hout
    · exact hp
  · intro hp
    refine ⟨.inr hp, ?_⟩
    rintro (rfl | rfl)
    · exact hA hp
    · exact hd hp

private theorem insert_insert_diff {e : Nat} (hd : d ∉ A) (he : e ∉ insert d A) :
    insert e (insert d A) \ {e, d} = A := by
  ext p
  constructor
  · rintro ⟨rfl | rfl | hp, hout⟩
    · exact absurd (.inl rfl) hout
    · exact absurd (.inr rfl) hout
    · exact hp
  · intro hp
    refine ⟨.inr (.inr hp), ?_⟩
    rintro (rfl | rfl)
    · exact he (.inr hp)
    · exact hd hp

/-- `fat16_load_fat_directory` from where it has the memory for the entries. -/
private def loadEntriesTracked (directory entries : Nat) (cluster directory_size total_items : Int) :
    LM (Nat × Found) := do
  let r ← stays (onDisk (fat16ReadInternal cluster 0x00 directory_size))
  expects (fun k => total_items = 0 ∨ k.Held entries) (.used entries)
  stays (storeBytes entries r.2)
  expects (fun k => r.1 = PLUMOS_ALL_OK ∨ k.Held entries) (.defect .empty)
  leavingIf (r.1 ≠ PLUMOS_ALL_OK) (fat16FreeDirectoryTracked directory)
  pure (directory,
    if r.1 ≠ PLUMOS_ALL_OK then .failed else if total_items = 0 then .empty else .loaded)

private theorem loadEntriesTracked_loaded {entries : Nat} {dir : FatDirectory} {total_items : Int}
    (h : Holding (insert entries (insert d A)) k) (hd : d ∉ A) (he : entries ∉ insert d A)
    (hobj : k.objs d = some (.fatDirectory dir)) (hitem : dir.item = entries)
    (htotal : total_items ≠ 0) (cluster directory_size : Int) :
    EndsFramed (Intact A) (loadEntriesTracked d entries cluster directory_size total_items) k E
      fun r k' => ∃ B, DirectoryAt k' r.1 r.2 B ∧ Holding (A ∪ B) k' ∧ ∀ p ∈ B, p ∉ A := by
  subst hitem
  have hsub : A ⊆ insert dir.item (insert d A) := fun p hp => .inr (.inr hp)
  refine EndsFramed.bind ((EndsFramed.stays (holding_onDisk (Q := fun _ _ => True) h
    fun _ _ _ => trivial)).weaken fun _ hk => hk.mono hsub) ?_
  rintro r k₁ - ⟨hk₁, h₁, -⟩
  have hentries := h₁.held dir.item (.inl rfl)
  refine (Ends.expects_bind_of_pos (c := fun k : Kernel => _ ∨ k.Held dir.item)
    (.inr hentries)).mpr ?_
  refine EndsFramed.bind ((EndsFramed.stays (intact_storeBytes h₁.toGuards dir.item r.2)).weaken
    fun _ hk => hk.mono hsub) ?_
  rintro _ k₂ - ⟨hk₂, hk₂'⟩
  have h₂ : Holding (insert dir.item (insert d A)) k₂ := h₁.congr (by rw [hk₂'])
  have hobj₂ : k₂.objs d = some (.fatDirectory dir) := by
    rw [hk₂.objs d (.inr (.inl rfl)), hk₁.objs d (.inr (.inl rfl)), hobj]
  refine (Ends.expects_bind_of_pos (c := fun k : Kernel => _ ∨ k.Held dir.item)
    (.inr (h₂.held _ (.inl rfl)))).mpr ?_
  have hne : dir.item ≠ d := fun heq => he (.inl heq)
  by_cases hres : r.1 = PLUMOS_ALL_OK
  · rw [leavingIf, if_neg (not_not_intro hres), pure_bind, if_neg (not_not_intro hres),
      if_neg htotal]
    refine EndsFramed.pure (.refl (h₂.toGuards.mono hsub)) ⟨_, .loaded hobj₂ hne, h₂.of_eq ?_, ?_⟩
    · rw [Set.union_comm, Set.insert_union, Set.singleton_union]
    · rintro p (rfl | rfl)
      · exact fun hp => he (.inr hp)
      · exact hd
  · rw [leavingIf, if_pos hres, if_pos hres]
    have hfree := fat16FreeDirectoryTracked_holding (E := E) h₂ (.inr (.inl rfl)) hobj₂
      (.inr ⟨.inl rfl, hne⟩)
    rw [insert_insert_diff hd he] at hfree
    refine EndsFramed.bind hfree ?_
    intro _ k₃ hk₃ h₃
    refine EndsFramed.pure (.refl hk₃.guards) ⟨∅, .failed (h₂.held d (.inr (.inl rfl))).ne_zero ?_, ?_, nofun⟩
    · exact fun hheld => hd (h₃.only d hheld)
    · rwa [Set.union_empty]

private theorem loadEntriesTracked_empty {entries : Nat} {dir : FatDirectory}
    (h : Holding (insert d A) k) (hd : d ∉ A) (he : entries ∉ insert d A) (hne : entries ≠ 0)
    (hobj : k.objs d = some (.fatDirectory dir)) (hitem : dir.item = entries)
    (htotal : dir.total = 0) (cluster directory_size : Int) :
    EndsFramed (Intact A) (loadEntriesTracked d entries cluster directory_size 0) k
      (fun w _ => w.IsDefect) fun r k' =>
        ∃ B, DirectoryAt k' r.1 r.2 B ∧ Holding (A ∪ B) k' ∧ ∀ p ∈ B, p ∉ A := by
  subst hitem
  refine EndsFramed.bind ((EndsFramed.stays (holding_onDisk (Q := fun _ _ => True) h
    fun _ _ _ => trivial)).weaken fun _ => Intact.tail) ?_
  rintro r k₁ - ⟨hk₁, h₁, -⟩
  refine (Ends.expects_bind_of_pos (c := fun k : Kernel => (0 : Int) = 0 ∨ k.Held dir.item)
    (.inl rfl)).mpr ?_
  refine EndsFramed.bind ((EndsFramed.stays (intact_storeBytes h₁.toGuards dir.item r.2)).weaken
    fun _ => Intact.tail) ?_
  rintro _ k₂ - ⟨hk₂, hk₂'⟩
  have h₂ : Holding (insert d A) k₂ := h₁.congr (by rw [hk₂'])
  have hfree : ¬ k₂.Held dir.item := fun hheld => he (h₂.only _ hheld)
  by_cases hres : r.1 = PLUMOS_ALL_OK
  · refine (Ends.expects_bind_of_pos (c := fun k : Kernel => _ ∨ k.Held dir.item)
      (.inl hres)).mpr ?_
    rw [leavingIf, if_neg (not_not_intro hres), pure_bind, if_neg (not_not_intro hres), if_pos rfl]
    have hobj₂ : k₂.objs d = some (.fatDirectory dir) := by
      rw [hk₂.head.2, hk₁.head.2, hobj]
    refine EndsFramed.pure (.refl (h₂.toGuards.mono (Set.subset_insert _ _))) ⟨_, .empty hobj₂ htotal hne hfree, h₂.of_eq ?_, ?_⟩
    · rw [Set.union_singleton]
    · rintro p rfl
      exact hd
  · -- the directory is released with memory that was not taken for it
    refine (Ends.expects_bind_of_neg (c := fun k : Kernel => _ ∨ k.Held dir.item) ?_).mpr trivial
    rintro (hok | hheld)
    · exact hres hok
    · exact hfree hheld

/-- A directory is loaded into memory that was free; where that fails, all of it is free
again. -/
theorem fat16LoadFatDirectoryTracked_holding (h : Holding A k)
    (hholder : holder = 0 ∨ holder ∈ A) (item : Nat) :
    EndsFramed (Intact A) (fat16LoadFatDirectoryTracked holder item) k (fun w _ => w.IsDefect)
      fun r k' => ∃ B, DirectoryAt k' r.1 r.2 B ∧ Holding (A ∪ B) k' ∧ ∀ p ∈ B, p ∉ A := by
  have hnone : ∃ B, DirectoryAt k 0 .noDirectory B ∧ Holding (A ∪ B) k ∧ ∀ p ∈ B, p ∉ A :=
    ⟨∅, .noDirectory, by rwa [Set.union_empty], nofun⟩
  unfold fat16LoadFatDirectoryTracked
  refine (followsEntry_bind (hholder.imp_right (h.held holder))).mpr ?_
  refine EndsFramed.bind (.stays (derefItem_intact h.toGuards item)) ?_
  rintro i _ - rfl
  split
  · exact .pure (.refl h.toGuards) hnone
  refine EndsFramed.bind (.stays (kzallocObj_holding h (by decide) _)) ?_
  rintro directory k₁ hk₁ (⟨rfl, rfl⟩ | ⟨hne, hout, hobj₁, h₁⟩)
  · exact .pure (.refl h.toGuards) hnone
  rw [if_neg hne]
  refine (followsEntry_bind (hholder.imp_right fun hin => h₁.held _ (.inr hin))).mpr ?_
  refine EndsFramed.bind (.stays (derefItem_intact hk₁.guards item)) ?_
  rintro i _ - rfl
  refine EndsFramed.bind ((EndsFramed.stays (holding_onDisk h₁ (fsPrivate_spec _))).weaken
    fun _ => Intact.tail) ?_
  rintro fat_private k₂ - ⟨hk₂, h₂, -⟩
  refine EndsFramed.bind ((EndsFramed.stays (holding_onDisk h₂
    (fat16GetTotalItemsForDirectory_range _ _))).weaken fun _ => Intact.tail) ?_
  rintro total_items k₃ - ⟨hk₃, h₃, h₀, hmax⟩
  refine (follows_bind (h₃.held _ (.inl rfl))).mpr ?_
  refine EndsFramed.bind (.stays (intact_modify Obj.fatDirectory?_eq_some hk₃.tail.guards hout _)) ?_
  rintro _ k₄ hk₄ ⟨d₃, -, hst₄⟩
  have h₄ := h₃.congr hst₄.heap_entries
  refine EndsFramed.bind ((EndsFramed.stays (kzalloc_holding h₄ _)).weaken fun _ =>
    Intact.tail) ?_
  rintro entries k₅ - ⟨hk₅, hentries⟩
  refine (follows_bind hk₅.head.1).mpr ?_
  refine EndsFramed.bind (.stays (intact_modify Obj.fatDirectory?_eq_some hk₅.tail.guards hout _)) ?_
  rintro _ k₆ hk₆ ⟨d₅, hd₅, hst₆⟩
  obtain rfl : d₅ = { d₃ with total := total_items } := by
    rw [hk₅.head.2, hst₄.self] at hd₅
    cases hd₅
    rfl
  rcases hentries with ⟨rfl, rfl⟩ | ⟨hne', hout', htaken, hnothing⟩
  · rw [if_pos rfl]
    have hfree := fat16FreeDirectoryTracked_holding (E := fun w _ => w.IsDefect)
      (h₄.congr hst₆.heap_entries) (.inl rfl) hst₆.self (.inl rfl)
    rw [insert_diff_null h.zero_notMem hout] at hfree
    refine EndsFramed.bind hfree ?_
    intro _ k₇ hk₇ h₇
    refine EndsFramed.pure (.refl hk₇.guards) ⟨∅, .failed hne fun hheld => hout (h₇.only _ hheld), ?_, nofun⟩
    rwa [Set.union_empty]
  rw [if_neg hne']
  rcases eq_or_lt_of_le h₀ with rfl | hpos
  · have h₆ := (hnothing (by decide)).congr hst₆.heap_entries
    exact loadEntriesTracked_empty h₆ hout hout' hne' hst₆.self rfl rfl _ _
  · have hsize := directory_size_pos hpos hmax
    have h₆ := (htaken (by omega)).congr hst₆.heap_entries
    exact loadEntriesTracked_loaded h₆ hout hout' hst₆.self rfl (by omega) _ _

theorem fat16CloneDirectoryItemTracked_holding (h : Holding A k)
    (hholder : holder = 0 ∨ holder ∈ A) (item : Nat) :
    EndsFramed (Intact A) (fat16CloneDirectoryItemTracked holder item) k E fun item_copy k' =>
      (item_copy = 0 ∧ Holding A k') ∨ item_copy ∉ A ∧ Holding (insert item_copy A) k' := by
  refine EndsFramed.bind (.stays (kzalloc_holding h _)) ?_
  rintro item_copy k₁ hk₁ (⟨rfl, rfl⟩ | ⟨hne, hout, htaken, -⟩)
  · exact .pure (.refl h.toGuards) (.inl ⟨rfl, h⟩)
  have h₁ := htaken (by decide)
  rw [if_neg hne]
  refine (followsEntry_bind (hholder.imp_right fun hin => h₁.held _ (.inr hin))).mpr ?_
  refine EndsFramed.bind (.stays (intact_reads hk₁.guards _)) ?_
  rintro mem _ - ⟨rfl, -⟩
  refine (follows_bind (h₁.held _ (.inl rfl))).mpr ?_
  refine EndsFramed.bind (.stays (intact_storeBytes hk₁.guards _ _)) ?_
  rintro _ k₂ hk₂ hk₂'
  exact EndsFramed.pure (.refl hk₂.guards) (.inr ⟨hout, h₁.congr (by rw [hk₂'])⟩)

/-- A directory stays where it is when another structure is written. -/
theorem DirectoryAt.stored {q : Nat} {o : Obj} (h : DirectoryAt k d found B)
    (hst : Stored k q o k') (hq : q ∉ B) : DirectoryAt k' d found B := by
  have hheld : ∀ p, k'.Held p → k.Held p := fun p hp => hp.congr hst.heap_entries.symm
  cases h with
  | noDirectory => exact .noDirectory
  | failed hne hfree => exact .failed hne fun hp => hfree (hheld _ hp)
  | empty hd htotal hne hfree =>
    have hdq : d ≠ q := fun heq => hq heq.symm
    exact .empty ((hst.other d hdq).trans hd) htotal hne fun hp => hfree (hheld _ hp)
  | loaded hd hne =>
    have hdq : d ≠ q := fun heq => hq (.inr heq.symm)
    exact .loaded ((hst.other d hdq).trans hd) hne

/-- An item is built in memory that was free. -/
theorem fat16NewFatItemForDirectoryItemTracked_holding (h : Holding A k)
    (hholder : holder = 0 ∨ holder ∈ A) (item : Nat) :
    EndsFramed (Intact A) (fat16NewFatItemForDirectoryItemTracked holder item) k
      (fun w _ => w.IsDefect) fun r k' =>
        ∃ B, ItemAt k' r.1 r.2 B ∧ Holding (A ∪ B) k' ∧ ∀ p ∈ B, p ∉ A := by
  refine EndsFramed.bind (.stays (kzallocObj_holding h (by decide) _)) ?_
  rintro f_item k₁ hk₁ (⟨rfl, rfl⟩ | ⟨hne, hout, hobj₁, h₁⟩)
  · exact .pure (.refl h.toGuards) ⟨∅, .nothing, by rwa [Set.union_empty], nofun⟩
  have hholder₁ : holder = 0 ∨ holder ∈ insert f_item A := hholder.imp_right .inr
  rw [if_neg hne]
  refine (followsEntry_bind (hholder₁.imp_right (h₁.held _))).mpr ?_
  refine EndsFramed.bind (.stays (derefItem_intact hk₁.guards item)) ?_
  rintro i _ - rfl
  split
  · refine EndsFramed.bind ((fat16LoadFatDirectoryTracked_holding h₁ hholder₁ item).weaken fun _ =>
      Intact.tail) ?_
    rintro directory k₂ - ⟨hk₂, B, hdir, h₂, hB⟩
    refine (follows_bind hk₂.head.1).mpr ?_
    refine EndsFramed.bind (.stays (intact_modify Obj.fatItem?_eq_some hk₂.tail.guards hout _)) ?_
    rintro _ k₃ hk₃ ⟨_, -, hst₃⟩
    have hnot : f_item ∉ B := fun hmem => hB _ hmem (.inl rfl)
    refine EndsFramed.pure (.refl hk₃.guards) ⟨insert f_item B,
      .directory hst₃.self (hdir.stored hst₃ hnot) hnot, ?_, ?_⟩
    · refine (h₂.congr hst₃.heap_entries).of_eq ?_
      rw [Set.insert_union, Set.union_insert]
    · rintro p (rfl | hp)
      · exact hout
      · exact fun hA => hB p hp (.inr hA)
  · refine (follows_bind (h₁.held _ (.inl rfl))).mpr ?_
    refine EndsFramed.bind (.stays (intact_modify Obj.fatItem?_eq_some hk₁.guards hout _)) ?_
    rintro _ k₂ hk₂ ⟨_, -, hst₂⟩
    have h₂ := h₁.congr hst₂.heap_entries
    refine EndsFramed.bind ((fat16CloneDirectoryItemTracked_holding h₂ hholder₁ item).weaken
      fun _ => Intact.tail) ?_
    rintro item_copy k₃ - ⟨hk₃, hcopy⟩
    refine (follows_bind hk₃.head.1).mpr ?_
    refine EndsFramed.bind (.stays (intact_modify Obj.fatItem?_eq_some hk₃.tail.guards hout _)) ?_
    rintro _ k₄ hk₄ ⟨i₃, hi₃, hst₄⟩
    have hself : k₄.objs f_item = some (.fatItem ⟨item_copy, FAT_ITEM_TYPE_FILE⟩) := by
      rw [hk₃.head.2, hst₂.self] at hi₃
      cases hi₃
      exact hst₄.self
    rcases hcopy with ⟨rfl, h₃⟩ | ⟨hnew, h₃⟩
    · refine EndsFramed.pure (.refl hk₄.guards) ⟨{f_item}, .file hself (.inl ⟨rfl, rfl⟩), ?_, ?_⟩
      · refine (h₃.congr hst₄.heap_entries).of_eq ?_
        rw [Set.union_singleton]
      · rintro p rfl
        exact hout
    · refine EndsFramed.pure (.refl hk₄.guards) ⟨{item_copy, f_item},
        .file hself (.inr ⟨fun heq => hnew (.inl heq), rfl⟩), ?_, ?_⟩
      · refine (h₃.congr hst₄.heap_entries).of_eq ?_
        rw [Set.union_comm, Set.insert_union, Set.singleton_union]
      · rintro p (rfl | rfl)
        · exact fun hA => hnew (.inr hA)
        · exact hout

/-! ### A search in a directory -/

/-- The heap holds `A`, what was lost, and what belongs to the item that was found. -/
structure LookupAt (A : Set Nat) (k : Kernel) (f : Lookup) (L B : Set Nat) : Prop where
  item : ItemAt k f.item f.found B
  holding : Holding (A ∪ L ∪ B) k
  apart : ∀ p ∈ B, p ∉ A ∪ L
  lost_apart : ∀ p ∈ L, p ∉ A
  lost : f.lost = true ↔ L.Nonempty

/-- Before the search. -/
theorem Holding.lookupAt (h : Holding A k) : LookupAt A k ⟨0, .nothing, false⟩ ∅ ∅ where
  item := .nothing
  holding := by rwa [Set.union_empty, Set.union_empty]
  apart := nofun
  lost_apart := nofun
  lost := by simp

theorem ItemAt.of_nothing (h : ItemAt k item .nothing B) : item = 0 ∧ B = ∅ := by
  cases h with
  | nothing => exact ⟨rfl, rfl⟩
  | directory _ hd _ => cases hd

theorem LookupAt.held {f : Lookup} (h : LookupAt A k f L B) : ∀ p ∈ B, k.Held p :=
  fun p hp => h.holding.held p (.inr hp)

/-- There is an item exactly when memory belongs to it. -/
theorem LookupAt.item_ne_zero_iff {f : Lookup} (h : LookupAt A k f L B) :
    f.item ≠ 0 ↔ B.Nonempty := by
  by_cases hnothing : f.found = .nothing
  · have hitem := h.item
    rw [hnothing] at hitem
    obtain ⟨h0, rfl⟩ := hitem.of_nothing
    exact iff_of_false (not_not_intro h0) Set.not_nonempty_empty
  · have hmem := h.item.mem hnothing
    exact iff_of_true (h.held _ hmem).ne_zero ⟨_, hmem⟩

/-- The item that was found is lost to the next one of the name. -/
theorem LookupAt.replaced {f : Lookup} {k' : Kernel} {r : Nat × Found} {C : Set Nat}
    (h : LookupAt A k f L B) (hr : ItemAt k' r.1 r.2 C) (hC : Holding (A ∪ L ∪ B ∪ C) k')
    (hout : ∀ p ∈ C, p ∉ A ∪ L ∪ B) :
    LookupAt A k' ⟨r.1, r.2, f.lost || decide (f.item ≠ 0)⟩ (L ∪ B) C where
  item := hr
  holding := hC.of_eq (by rw [Set.union_assoc A L B])
  apart := by
    intro p hp
    rw [← Set.union_assoc]
    exact hout p hp
  lost_apart := by
    rintro p (hL | hB)
    · exact h.lost_apart p hL
    · exact fun hA => h.apart p hB (.inl hA)
  lost := by
    rw [Bool.or_eq_true, decide_eq_true_eq, h.item_ne_zero_iff, h.lost, Set.union_nonempty]

theorem fat16FindItemLoopTracked_lookupAt (directory : FatDirectory)
    (hholder : holder = 0 ∨ holder ∈ A) (name : Nat) :
    ∀ (fuel i : Nat) (f : Lookup) (k : Kernel) (L B : Set Nat), LookupAt A k f L B →
      EndsFramed (Intact A) (fat16FindItemLoopTracked directory holder name fuel i f) k
        (fun w _ => w.IsDefect) fun f' k' => ∃ L' B', LookupAt A k' f' L' B' := by
  intro fuel
  induction fuel with
  | zero =>
    intro i f k L B h
    exact .pure (.refl (h.holding.toGuards.left.left)) ⟨L, B, h⟩
  | succ fuel ih =>
    intro i f k L B h
    have hg : Guards A k := h.holding.toGuards.left.left
    have hholder' : holder = 0 ∨ holder ∈ A ∪ L ∪ B := hholder.imp_right fun hin => .inl (.inl hin)
    refine (followsEntry_bind (hholder'.imp_right (h.holding.held _))).mpr ?_
    refine EndsFramed.bind (.stays (derefItem_intact hg _)) ?_
    rintro entry _ - rfl
    refine EndsFramed.bind (.stays (intact_reads hg _)) ?_
    rintro _ _ - ⟨rfl, -⟩
    dsimp only
    split
    · refine EndsFramed.bind ((fat16NewFatItemForDirectoryItemTracked_holding h.holding hholder'
        _).weaken fun _ hk => hk.left.left) ?_
      rintro r k₁ - ⟨hk₁, C, hr, hC, hout⟩
      exact ih _ _ k₁ _ _ (h.replaced hr hC hout)
    · exact ih _ _ k _ _ h

theorem fat16FindItemInDirectoryTracked_lookupAt (h : Holding A k) (directory : FatDirectory)
    (hholder : holder = 0 ∨ holder ∈ A) (name : Nat) :
    EndsFramed (Intact A) (fat16FindItemInDirectoryTracked directory holder name) k
      (fun w _ => w.IsDefect) fun f k' => ∃ L B, LookupAt A k' f L B :=
  fat16FindItemLoopTracked_lookupAt directory hholder name _ _ _ k ∅ ∅ h.lookupAt

/-! ### The end of a lookup -/

/-- In `k₂` all that `k'` holds beyond `A` is still allocated, with the same structures. -/
structure StillHeld (A : Set Nat) (k' k₂ : Kernel) : Prop where
  tidy : k₂.Tidy
  held : ∀ p, k'.Held p → p ∉ A → k₂.Held p ∧ k₂.objs p = k'.objs p

/-- A lookup that found `A` allocated may end in `k'` with `item`: NULL, and no more is
allocated, or an item that can be closed later on. -/
structure Settled (A : Set Nat) (item : Nat) (k' : Kernel) : Prop where
  null : item = 0 → ∀ p, k'.Held p → p ∈ A
  close : item ≠ 0 → ∀ k₂, StillHeld A k' k₂ → NeverLeaves (fat16FatItemFreeTracked item) k₂

/-- What was found stays, if its structures do and, where something of it is free, no memory
is taken. -/
theorem ItemAt.transfer (h : ItemAt k item found B) (hobjs : ∀ p ∈ B, k'.objs p = k.objs p)
    (hheld : ¬ found.Whole → ∀ p, k'.Held p → k.Held p) : ItemAt k' item found B := by
  cases h with
  | nothing => exact .nothing
  | file hi hcopy =>
    have hmem := (ItemAt.file hi hcopy).mem nofun
    exact .file ((hobjs item hmem).trans hi) hcopy
  | directory hi hd hnot =>
    refine .directory ((hobjs item (.inl rfl)).trans hi) ?_ hnot
    cases hd with
    | noDirectory => exact .noDirectory
    | failed hne hfree =>
      exact .failed hne fun hp => hfree (hheld (fun hwhole => hwhole.1 rfl) _ hp)
    | empty hd htotal hne hfree =>
      exact .empty ((hobjs _ (.inr rfl)).trans hd) htotal hne fun hp =>
        hfree (hheld (fun hwhole => hwhole.2 rfl) _ hp)
    | loaded hd hne => exact .loaded ((hobjs _ (.inr (.inr rfl))).trans hd) hne

/-- A lookup may end with what was found unless that is wrong. -/
theorem LookupAt.settled_iff {f : Lookup} (h : LookupAt A k f L B) :
    Settled A f.item k ↔ ¬ f.EndsWrong := by
  by_cases hnothing : f.found = .nothing
  · have hitem := h.item
    rw [hnothing] at hitem
    obtain ⟨h0, rfl⟩ := hitem.of_nothing
    constructor
    · rintro ⟨hnull, -⟩ (hf | hf | ⟨-, hlost⟩)
      · exact absurd (hnothing.symm.trans hf) nofun
      · exact absurd (hnothing.symm.trans hf) nofun
      · obtain ⟨p, hp⟩ := h.lost.mp hlost
        exact h.lost_apart p hp (hnull h0 p (h.holding.held p (.inl (.inr hp))))
    · intro hright
      refine ⟨fun _ p hp => ?_, fun hne => absurd h0 hne⟩
      rcases h.holding.only p hp with (hA | hL) | hB
      · exact hA
      · exact absurd (.inr (.inr ⟨hnothing, h.lost.mpr ⟨p, hL⟩⟩)) hright
      · exact absurd hB (Set.notMem_empty p)
  · have hne : f.item ≠ 0 := (h.held _ (h.item.mem hnothing)).ne_zero
    constructor
    · intro hs hwrong
      have hbroken : ¬ f.found.Whole := by
        rintro ⟨hfailed, hempty⟩
        rcases hwrong with hf | hf | ⟨hf, -⟩
        · exact hfailed hf
        · exact hempty hf
        · exact hnothing hf
      exact h.item.not_released h.held hbroken (fun _ => ⟨id, id⟩)
        (hs.close hne k ⟨h.holding.tidy, fun p hp _ => ⟨hp, rfl⟩⟩)
    · intro hright
      have hwhole : f.found.Whole := ⟨fun hf => hright (.inl hf), fun hf => hright (.inr (.inl hf))⟩
      refine ⟨fun h0 => absurd h0 hne, fun _ k₂ hk₂ => ?_⟩
      have hstays : ∀ p ∈ B, k₂.Held p ∧ k₂.objs p = k.objs p := fun p hp =>
        hk₂.held p (h.held p hp) fun hA => h.apart p hp (.inl hA)
      have hitem := h.item.transfer (fun p hp => (hstays p hp).2) fun hbroken => absurd hwhole hbroken
      exact Ends.mono (fat16FatItemFreeTracked_holding (.of_tidy hk₂.tidy) hitem hnothing hwhole
        fun p hp => (hstays p hp).1) fun _ _ _ => trivial

/-! ### The walk along the path -/

/-- The directory that was searched is released, and what was found in it stays. -/
theorem LookupAt.released {current f : Lookup} {C D : Set Nat} (h : LookupAt A k current L B)
    (hf : LookupAt (A ∪ L ∪ B) k' f C D) {k₂ : Kernel}
    (hk : Intact ((A ∪ L ∪ B ∪ C ∪ D) \ B) k' k₂)
    (h₂ : Holding ((A ∪ L ∪ B ∪ C ∪ D) \ B) k₂) :
    LookupAt A k₂ { f with lost := current.lost || f.lost } (L ∪ C) D where
  item := by
    refine hf.item.transfer (fun p hp => hk.objs p ⟨.inr hp, fun hB => ?_⟩) fun _ p hp => ?_
    · exact hf.apart p hp (.inl (.inr hB))
    · exact hf.holding.held p (h₂.only p hp).1
  holding := by
    refine h₂.of_eq ?_
    ext p
    constructor
    · rintro ⟨(((hA | hL) | hB) | hC) | hD, hout⟩
      · exact .inl (.inl hA)
      · exact .inl (.inr (.inl hL))
      · exact absurd hB hout
      · exact .inl (.inr (.inr hC))
      · exact .inr hD
    · rintro ((hA | hL | hC) | hD)
      · exact ⟨.inl (.inl (.inl (.inl hA))), fun hB => h.apart p hB (.inl hA)⟩
      · exact ⟨.inl (.inl (.inl (.inr hL))), fun hB => h.apart p hB (.inr hL)⟩
      · exact ⟨.inl (.inr hC), fun hB => hf.lost_apart p hC (.inr hB)⟩
      · exact ⟨.inr hD, fun hB => hf.apart p hD (.inl (.inr hB))⟩
  apart := by
    rintro p hp (hA | hL | hC)
    · exact hf.apart p hp (.inl (.inl (.inl hA)))
    · exact hf.apart p hp (.inl (.inl (.inr hL)))
    · exact hf.apart p hp (.inr hC)
  lost_apart := by
    rintro p (hL | hC) hA
    · exact h.lost_apart p hL hA
    · exact hf.lost_apart p hC (.inl (.inl hA))
  lost := by rw [Bool.or_eq_true, h.lost, hf.lost, Set.union_nonempty]

section Strict

variable {α : Type} {c : Prop} [Decidable c] {w : LookupFault} {f : PUnit → LM α}
  {Q : α → Kernel → Prop}

theorem expects_lax :
    Ends (expects (fun _ => false = true → c) w >>= f) k E Q ↔ Ends (f ⟨⟩) k E Q :=
  Ends.expects_bind_of_pos (c := fun _ => false = true → c) nofun

theorem expects_strict (h : c) :
    Ends (expects (fun _ => true = true → c) w >>= f) k E Q ↔ Ends (f ⟨⟩) k E Q :=
  Ends.expects_bind_of_pos (c := fun _ => true = true → c) fun _ => h

theorem expects_strict_of_not (h : ¬ c) :
    Ends (expects (fun _ => true = true → c) w >>= f) k E Q ↔ E w k :=
  Ends.expects_bind_of_neg (c := fun _ => true = true → c) fun hc => h (hc rfl)

end Strict

/-- From what was found so far, the rest of the walk is right exactly when it takes no
branch that does not allow for what it finds. -/
theorem fat16GetDirectoryEntryLoopTracked_iff :
    ∀ (fuel : Nat) (current : Lookup) (next_part : Nat) (k : Kernel) (L B : Set Nat),
      LookupAt A k current L B →
      (Ends (fat16GetDirectoryEntryLoopTracked false fuel current next_part) k
          (fun _ _ => False) (Settled A) ↔
        Ends (fat16GetDirectoryEntryLoopTracked true fuel current next_part) k
          (fun w _ => ¬ w.IsDefect) fun _ _ => True) := by
  intro fuel
  induction fuel with
  | zero => exact fun _ _ _ _ _ _ => iff_of_true (.stays .fails) (.stays .fails)
  | succ fuel ih =>
    intro current next_part k L B h
    unfold fat16GetDirectoryEntryLoopTracked
    by_cases hnext : next_part = 0
    · rw [if_pos hnext, if_pos hnext, expects_lax, Ends.pure_iff, h.settled_iff]
      by_cases hwrong : current.EndsWrong
      · rw [expects_strict_of_not (not_not_intro hwrong)]
        exact iff_of_false (not_not_intro hwrong) fun hno => hno trivial
      · rw [expects_strict hwrong]
        exact iff_of_true hwrong (.pure trivial)
    rw [if_neg hnext, if_neg hnext, expects_lax]
    obtain ⟨item, found, lost⟩ := current
    cases h.item with
    | nothing =>
      rw [expects_strict_of_not fun hno => hno.1 rfl,
        follows_bind_of_not fun hheld => hheld.ne_zero rfl]
      exact iff_of_false id fun hno => hno trivial
    | file hi hcopy =>
      have hmem : item ∈ B := h.item.mem nofun
      have hheld := h.held item hmem
      have htype : FAT_ITEM_TYPE_FILE ≠ FAT_ITEM_TYPE_DIRECTORY := by decide
      rw [expects_strict_of_not fun hno => hno.2 rfl, follows_bind hheld,
        deref_bind Obj.fatItem? hheld.ne_zero hi rfl, if_pos htype, Ends.pure_iff]
      -- the item is not returned, and not released
      exact iff_of_false (fun hs => h.apart item hmem (.inl (hs.null rfl item hheld))) fun hno =>
        hno trivial
    | @directory _ d _ D hi hd hnot =>
      have hheld := h.held item (.inl rfl)
      have hkind : found ≠ .nothing ∧ found ≠ .file := by
        cases hd <;> exact ⟨nofun, nofun⟩
      rw [expects_strict hkind, follows_bind hheld, follows_bind hheld,
        deref_bind Obj.fatItem? hheld.ne_zero hi rfl, deref_bind Obj.fatItem? hheld.ne_zero hi rfl,
        if_neg (not_not_intro rfl), if_neg (not_not_intro rfl)]
      refine Ends.bind_congr (.stays (deref_spec _ _ _)) ?_
      rintro part _ ⟨rfl, -, -⟩
      rw [expects_lax]
      dsimp only [FatItem.directory] at h hnot ⊢
      cases hd with
      | noDirectory =>
        rw [expects_strict_of_not nofun, follows_bind_of_not fun hzero => hzero.ne_zero rfl]
        exact iff_of_false id fun hno => hno trivial
      | failed hne hfree =>
        rw [expects_strict_of_not nofun, follows_bind_of_not hfree]
        exact iff_of_false id fun hno => hno trivial
      | @empty _ dir hd htotal hne hfree =>
        have hdir := h.held d (.inr rfl)
        have hfind : ∀ name, fat16FindItemInDirectoryTracked dir dir.item name =
            pure ⟨0, .nothing, false⟩ := by
          intro name
          unfold fat16FindItemInDirectoryTracked
          rw [htotal]
          rfl
        rw [expects_strict_of_not nofun, follows_bind hdir,
          deref_bind Obj.fatDirectory? hdir.ne_zero hd rfl, hfind, pure_bind]
        refine iff_of_false (fun hends => ?_) fun hno => hno trivial
        exact h.item.not_released h.held (fun hwhole => hwhole.2 rfl) (fun _ => ⟨id, id⟩) hends.left
      | @loaded _ dir hd hne =>
        have hdir := h.held d (.inr (.inr rfl))
        rw [expects_strict rfl, follows_bind hdir, follows_bind hdir,
          deref_bind Obj.fatDirectory? hdir.ne_zero hd rfl,
          deref_bind Obj.fatDirectory? hdir.ne_zero hd rfl]
        have hfind := fat16FindItemInDirectoryTracked_lookupAt h.holding dir
          (.inr (.inr (.inr (.inl rfl)))) part.part
        refine Ends.bind_congr (hfind.conseq (fun w _ hw => ⟨id, not_not_intro hw⟩)
          fun _ _ hQ => hQ) ?_
        rintro f k₁ ⟨hk₁, C, D, hf⟩
        have hitem : ItemAt k₁ item .loaded _ := h.item.transfer
          (fun p hp => hk₁.objs p (.inr hp)) fun hbroken => absurd ⟨nofun, nofun⟩ hbroken
        refine Ends.bind_congr (fat16FatItemFreeTracked_holding hf.holding hitem nofun
          ⟨nofun, nofun⟩ fun p hp => .inl (.inl (.inr hp))) ?_
        rintro _ k₂ ⟨hk₂, h₂⟩
        refine Ends.bind_congr (.stays (deref_spec _ _ _)) ?_
        rintro part _ ⟨rfl, -, -⟩
        exact ih _ _ k₂ _ _ (h.released hf hk₂ h₂)

/-- The lookup is right exactly when it takes no branch that does not allow for what it
finds. -/
theorem fat16GetDirectoryEntryTracked_iff (h : Holding A k) (path : Nat) :
    Ends (fat16GetDirectoryEntryTracked false path) k (fun _ _ => False) (Settled A) ↔
      Ends (fat16GetDirectoryEntryTracked true path) k (fun w _ => ¬ w.IsDefect)
        fun _ _ => True := by
  refine Ends.bind_congr (.stays (holding_onDisk h (fsPrivate_spec _))) ?_
  rintro fat_private k₁ ⟨-, h₁, -⟩
  refine Ends.bind_congr (.stays (deref_spec _ _ _)) ?_
  rintro part _ ⟨rfl, -, -⟩
  have hfind := fat16FindItemInDirectoryTracked_lookupAt h₁ fat_private.root_directory
    (.inl rfl) part.part
  refine Ends.bind_congr (hfind.conseq (fun w _ hw => ⟨id, not_not_intro hw⟩) fun _ _ hQ => hQ) ?_
  rintro f k₂ ⟨-, L, B, hf⟩
  by_cases h0 : f.item = 0
  · have hsettled := hf.settled_iff
    rw [h0] at hsettled
    rw [if_pos h0, if_pos h0, expects_lax, Ends.pure_iff, hsettled]
    by_cases hwrong : f.EndsWrong
    · rw [expects_strict_of_not (not_not_intro hwrong)]
      exact iff_of_false (not_not_intro hwrong) fun hno => hno trivial
    · rw [expects_strict hwrong]
      exact iff_of_true hwrong (.pure trivial)
  · rw [if_neg h0, if_neg h0]
    refine Ends.bind_congr (.stays (deref_spec _ _ _)) ?_
    rintro part _ ⟨rfl, -, -⟩
    exact fat16GetDirectoryEntryLoopTracked_iff _ _ _ _ L B hf

end Lookup

/-- `fat16_get_directory_entry` and a later release of its result use and release what is
allocated and nothing else, and with the result NULL nothing stays that was allocated. -/
structure LookupSafe (path : Nat) (k : Kernel) : Prop where
  lookup : NeverLeaves (fat16GetDirectoryEntryTracked false path) k
  null : ∀ k', fat16GetDirectoryEntry path k = .ok (0, k') → ∀ p, k'.Held p → k.Held p
  close : ∀ item k', fat16GetDirectoryEntry path k = .ok (item, k') → item ≠ 0 →
    ∀ k₂, StillHeld { p | k.Held p } k' k₂ → NeverLeaves (fat16FatItemFreeTracked item) k₂

/-- The lookup takes no branch that does not allow for what was found: it goes on only
into a directory that was loaded with its entries, it ends with no directory that failed
to load or is empty, and when it finds nothing it has replaced no item on the way. -/
def LookupSound (path : Nat) (k : Kernel) : Prop :=
  Ends (fat16GetDirectoryEntryTracked true path) k (fun w _ => ¬ w.IsDefect) fun _ _ => True

/-- The kernel with the file `A`, and a path of the part `A`, which `next` follows. At
0x1003000 there is a part `x`. -/
def Kernel.withPathA (next : Nat) : Kernel :=
  { Kernel.withA with
    heap_entries := fun i => if 0 ≤ i ∧ i < 5 then 0x41 else 0
    mem := fun p => if p = 0x1002000 then 0x41 else if p = 0x1004000 then 0x78 else rootWithA p
    objs := fun p =>
      if p = 0x1001000 then some (.pathPart ⟨0x1002000, next⟩)
      else if p = 0x1003000 then some (.pathPart ⟨0x1004000, 0⟩) else none }

theorem withPathA_tidy (next : Nat) : (Kernel.withPathA next).Tidy := by
  have hnext : ∀ i, ¬ HasNext ((Kernel.withPathA next).heap_entries i) := by
    intro i hi
    change HasNext (if 0 ≤ i ∧ i < 5 then 0x41 else 0) at hi
    split at hi
    · exact absurd hi (by decide)
    · exact absurd hi not_hasNext_free
  exact ⟨⟨fun i _ _ hi => absurd hi (hnext i), hnext _⟩, fun i _ _ _ => hnext i⟩

end PlumOS
