import PlumOS.Fs.FileOwnership
import PlumOS.Fs.PathList

/-!
# Paths in a tree of directories

A path is looked up part by part: an entry of the root directory, then an entry of the
directory that it stands for, and so on to a file. Every directory on the way is read from
its clusters into new memory and released when the next entry has been found.

## Main definitions

- `OnlyNamed` — the one entry of a directory with a name
- `Leads` — a path from a directory to a file
- `HoldsRoot` — a volume whose root directory was read
- `OpenedAs` — what `fopen` makes of a free entry of the table of descriptors

## Main results

- `fat16GetDirectoryEntry_leads`, `fopen_leads` — the file at the end of a path is found
  and opened
-/

namespace PlumOS

open StateExcept

/-! ### The entry with a name -/

/-- Entry `i` of `es` is `e`, and it is the only one that is named `c`. -/
structure OnlyNamed (es : List FatDirectoryItem) (c : List UInt8) (i : Nat) (e : FatDirectoryItem) :
    Prop where
  get : es[i]? = some e
  named : e.Named c
  only : ∀ j e', es[j]? = some e' → e'.Named c → j = i

/-- The path `cs` leads from a directory with the entries `es` to the file with the entry `e`.
Its item and the items of the directories on the way take `blocks` blocks. -/
inductive Leads (h : FatHeader) (image : Nat → UInt8) : (es : List FatDirectoryItem) →
    (cs : List (List UInt8)) → (e : FatDirectoryItem) → (blocks : Nat) → Prop
  | file {es : List FatDirectoryItem} {c : List UInt8} {i : Nat} {e : FatDirectoryItem} :
      OnlyNamed es c i e → e.attribute_ &&& FAT_FILE_SUBDIRECTORY = 0 →
      Leads h image es [c] e 2
  | directory {es : List FatDirectoryItem} {c : List UInt8} {i : Nat} {d : FatDirectoryItem}
      {chain : List Nat} {count : Nat} {cs : List (List UInt8)} {e : FatDirectoryItem} {blocks : Nat} :
      OnlyNamed es c i d → d.attribute_ &&& FAT_FILE_SUBDIRECTORY ≠ 0 →
      Subdirectory h image d chain count →
      Leads h image (h.chainEntries image chain count) cs e blocks →
      Leads h image es (c :: cs) e (2 + blocksOf (32 * count) + blocks)

section Search

variable {k₀ k k' : Kernel} {h : FatHeader} {m p n name : Nat} {es : List FatDirectoryItem}
  {c : List UInt8} {directory : FatDirectory}

/-- The list of `directory` and a name to look up in it, in live memory. -/
structure Searches (k : Kernel) (directory : FatDirectory) (es : List FatDirectoryItem) (name : Nat)
    (c : List UInt8) : Prop where
  total : directory.total = es.length
  list : ∃ n, k.Alive directory.item n ∧ 32 * es.length ≤ 4096 * n
  held : HoldsEntries k directory.item es
  name_alive : k.Alive name 1
  name_held : HoldsString k name c
  name_short : c.length < 4096

theorem Searches.mono (hs : Searches k directory es name c) (hg : Grown k m k') :
    Searches k' directory es name c where
  total := hs.total
  list := by
    obtain ⟨n, hal, hn⟩ := hs.list
    exact ⟨n, hg.alive _ _ hal, hn⟩
  held := by
    obtain ⟨n, hal, hn⟩ := hs.list
    exact hg.holdsEntries hal hn hs.held
  name_alive := hg.alive _ _ hs.name_alive
  name_held := hg.holdsString hs.name_alive (by have := hs.name_short; omega) hs.name_held
  name_short := hs.name_short

/-- The search of some entries is the search of the first of them and that of the rest. -/
theorem fat16FindItemLoop_add (directory : FatDirectory) (name : Nat) : ∀ (a b i f_item : Nat),
    fat16FindItemLoop directory name (a + b) i f_item =
      (fat16FindItemLoop directory name a i f_item >>=
        fat16FindItemLoop directory name b (i + a)) := by
  intro a
  induction a with
  | zero =>
    intro b i f_item
    rw [Nat.zero_add, Nat.add_zero, fat16FindItemLoop, pure_bind]
  | succ a ih =>
    intro b i f_item
    rw [Nat.succ_add, fat16FindItemLoop, fat16FindItemLoop, bind_assoc]
    refine bind_congr fun entry => ?_
    rw [bind_assoc]
    refine bind_congr fun mem => ?_
    dsimp only
    split
    · rw [bind_assoc]
      refine bind_congr fun f_item => ?_
      rw [ih, Nat.add_assoc, Nat.add_comm 1]
    · rw [ih, Nat.add_assoc, Nat.add_comm 1]

/-- A round of the search: the entry is compared, and its item is built if it has the name. -/
theorem fat16FindItemLoop_round (hs : Searches k directory es name c) {i f_item : Nat}
    {e : FatDirectoryItem} (he : es[i]? = some e) {Q : Nat → Kernel → Prop}
    (hnamed : e.Named c →
      Returns (fat16NewFatItemForDirectoryItem (directory.item + 32 * i)) k Q)
    (hother : ¬ e.Named c → Q f_item k) :
    Returns (fat16FindItemLoop directory name 1 i f_item) k Q := by
  have hitem := hs.held i e he
  refine .bind hitem.deref ?_
  rintro _ _ ⟨rfl, rfl⟩
  refine .bind (R := fun mem k₂ => k = k₂ ∧ k.mem = mem) (.reads ⟨rfl, rfl⟩) ?_
  rintro _ _ ⟨rfl, rfl⟩
  have hcompare : istrncmp (fun j => (fat16GetFullRelativeFilename e).getD j 0)
      (fun j => k.mem (name + j)) PLUMOS_MAX_PATH = 0 ↔ e.Named c := by
    rw [← hitem.entry]
    exact istrncmp_eq_zero_iff hs.name_held _ _
  dsimp only
  by_cases hn : e.Named c
  · rw [if_pos (hcompare.mpr hn)]
    exact .bind (hnamed hn) fun f k₁ hq => .pure hq
  · rw [if_neg fun hz => hn (hcompare.mp hz)]
    exact .pure (hother hn)

/-- Entries with other names are passed over. -/
theorem fat16FindItemLoop_skips (hs : Searches k directory es name c) (f_item : Nat) :
    ∀ (fuel i : Nat), i + fuel ≤ es.length →
      (∀ j e, i ≤ j → j < i + fuel → es[j]? = some e → ¬ e.Named c) →
      Returns (fat16FindItemLoop directory name fuel i f_item) k fun r k' => r = f_item ∧ k = k' := by
  intro fuel
  induction fuel with
  | zero => exact fun _ _ _ => .pure ⟨rfl, rfl⟩
  | succ fuel ih =>
    intro i hi hnot
    obtain ⟨e, he⟩ : ∃ e, es[i]? = some e := ⟨_, List.getElem?_eq_getElem (by omega)⟩
    rw [Nat.add_comm fuel 1, fat16FindItemLoop_add]
    refine .bind (fat16FindItemLoop_round (Q := fun r k' => r = f_item ∧ k = k') hs he
      (fun hn => absurd hn (hnot i e le_rfl (by omega) he)) fun _ => ⟨rfl, rfl⟩) ?_
    rintro _ _ ⟨rfl, rfl⟩
    exact ih (i + 1) (by omega) fun j e h₁ h₂ => hnot j e (by omega) (by omega)

/-- The search builds the item of the one entry with the name. -/
theorem fat16FindItemInDirectory_builds (hs : Searches k directory es name c) {i : Nat}
    {e : FatDirectoryItem} (hone : OnlyNamed es c i e) {Q : Nat → Kernel → Prop}
    (hbuild : Returns (fat16NewFatItemForDirectoryItem (directory.item + 32 * i)) k fun f k' =>
      Grown k m k' ∧ Q f k') :
    Returns (fat16FindItemInDirectory directory name) k fun f k' => Grown k m k' ∧ Q f k' := by
  have hlt := (List.getElem?_eq_some_iff.mp hone.get).1
  have hsplit : directory.total.toNat = i + (1 + (es.length - (i + 1))) := by
    rw [hs.total, Int.toNat_natCast]
    omega
  unfold fat16FindItemInDirectory
  rw [hsplit, fat16FindItemLoop_add]
  refine .bind (fat16FindItemLoop_skips hs 0 i 0 (by omega) fun j e' _ hj he' hn => ?_) ?_
  · have := hone.only j e' he' hn
    omega
  rintro _ _ ⟨rfl, rfl⟩
  rw [Nat.zero_add, fat16FindItemLoop_add]
  refine .bind (fat16FindItemLoop_round hs hone.get (fun _ => hbuild)
    fun hn => absurd hone.named hn) ?_
  rintro f k₁ ⟨hg₁, hQ⟩
  refine (fat16FindItemLoop_skips (hs.mono hg₁) f _ _ (by omega)
    fun j e' h₁ _ he' hn => ?_).mono ?_
  · have := hone.only j e' he' hn
    omega
  · rintro _ _ ⟨rfl, rfl⟩
    exact ⟨hg₁, hQ⟩

end Search

/-! ### Releasing a directory -/

/-- Of what is new since `k₁` all is as it was, and no other structure is new. -/
structure KeepsNew (k₁ k k' : Kernel) : Prop where
  alive : ∀ q n, k.Alive q n → (∀ n', ¬ k₁.Alive q n') → k'.Alive q n
  objs : ∀ q, (∀ n', ¬ k₁.Alive q n') → k'.objs q = k.objs q
  only : ∀ q, k'.objs q = k.objs q ∨ k'.objs q = none
  mem : k'.mem = k.mem

section Release

variable {k₀ k₁ k k' k'' : Kernel} {h : FatHeader} {m item directory : Nat}
  {es : List FatDirectoryItem} {e : FatDirectoryItem}

theorem KeepsNew.trans (h : KeepsNew k₁ k k') (h' : KeepsNew k₁ k' k'') : KeepsNew k₁ k k'' where
  alive := fun q n hq hnew => h'.alive q n (h.alive q n hq hnew) hnew
  objs := fun q hnew => (h'.objs q hnew).trans (h.objs q hnew)
  only := by
    intro q
    rcases h'.only q with heq | hnone
    · rw [heq]
      exact h.only q
    · exact Or.inr hnone
  mem := h'.mem.trans h.mem

theorem KeepsNew.refl (k₁ k : Kernel) : KeepsNew k₁ k k :=
  ⟨fun _ _ h _ => h, fun _ _ => rfl, fun _ => Or.inl rfl, rfl⟩

/-- Releasing memory of one's own that was there in `k₁`. -/
theorem Grown.kfree_old {ptr n n' : Nat} (hg : Grown k₀ m k) (ho : Grown.Own k₀ k ptr n)
    (hold : k₁.Alive ptr n') :
    Returns (PlumOS.kfree ptr) k fun _ k' =>
      Grown k₀ m k' ∧ KeepsNew k₁ k k' ∧ Freed k ptr k' := by
  refine ((hg.kfree ho).and_ensures (kfree_objs ptr k)).mono ?_
  rintro _ k' ⟨⟨hg', hf⟩, hobjs⟩
  have hne : ∀ q, (∀ n', ¬ k₁.Alive q n') → q ≠ ptr := by
    rintro q hnew rfl
    exact hnew _ hold
  refine ⟨hg', ⟨fun q n hq hnew => (hf.keeps q n hq ?_).1, fun q hnew => ?_, fun q => ?_, hf.mem⟩, hf⟩
  · rw [List.mem_singleton]
    exact hne q hnew
  · rw [hobjs, Function.update_of_ne (hne q hnew)]
  · rw [hobjs, Function.update_apply]
    split
    · exact Or.inr rfl
    · exact Or.inl rfl

/-- The item of a directory is released with all that belongs to it. -/
theorem fat16FatItemFree_directory (hd : DirectoryItem k₀ k₁ item es) (hg₁ : Grown k₁ m k)
    (hg : Grown k₀ m k) : Returns (fat16FatItemFree item) k fun _ k' =>
      Grown k₀ m k' ∧ KeepsNew k₁ k k' := by
  obtain ⟨directory, hitem, hdir⟩ := hd.directory
  obtain ⟨d, n, hobj, -, hown, hnone, -⟩ := hdir.list
  have hitem₁ := (hg₁.obj hd.own.alive).trans hitem
  have hobj₁ := (hg₁.obj hdir.own.alive).trans hobj
  have hne₁ : directory ≠ d.item := by
    rintro heq
    rw [← heq, hobj] at hnone
    cases hnone
  have hne₂ : item ≠ d.item := by
    rintro rfl
    rw [hitem] at hnone
    cases hnone
  have hne₃ : item ≠ directory := by
    rintro rfl
    rw [hitem] at hobj
    cases hobj
  refine .bind (deref_returns hd.own.alive.ne_zero hitem₁ rfl) ?_
  rintro _ _ ⟨rfl, rfl⟩
  refine .bind (R := fun _ k' => Grown k₀ m k' ∧ KeepsNew k₁ k k' ∧ Grown.Own k₀ k' item 1)
    (.onlyIf (fun _ => ?_) fun hbad => absurd rfl hbad) ?_
  · -- the list and the directory
    unfold fat16FreeDirectory
    change Returns (if directory = 0 then _ else _) k _
    rw [if_neg hdir.own.alive.ne_zero]
    refine .bind (deref_returns hdir.own.alive.ne_zero hobj₁ rfl) ?_
    rintro _ _ ⟨rfl, rfl⟩
    refine .bind (R := fun _ k' => Grown k₀ m k' ∧ KeepsNew k₁ k k' ∧ Freed k d.item k')
      (.onlyIf (fun _ => hg.kfree_old (hown.mono hg₁) hown.alive)
        fun hbad => absurd hown.alive.ne_zero hbad) ?_
    rintro _ k₂ ⟨hg₂, hk₂, hf₂⟩
    have hdir₂ := hf₂.keeps directory 1 (hg₁.alive _ _ hdir.own.alive) (by simpa using hne₁)
    have hitem₂ := hf₂.keeps item 1 (hg₁.alive _ _ hd.own.alive) (by simpa using hne₂)
    refine (hg₂.kfree_old ⟨hdir₂.1, hdir.own.fresh⟩ hdir.own.alive).mono ?_
    rintro _ k₃ ⟨hg₃, hk₃, hf₃⟩
    exact ⟨hg₃, hk₂.trans hk₃, (hf₃.keeps item 1 hitem₂.1 (by simpa using hne₃)).1, hd.own.fresh⟩
  rintro _ k₂ ⟨hg₂, hk₂, hown₂⟩
  refine .bind (R := fun _ k' => k₂ = k') (.onlyIf (fun hbad => absurd rfl hbad.1) fun _ => rfl) ?_
  rintro _ _ rfl
  refine (hg₂.kfree_old hown₂ hd.own.alive).mono ?_
  rintro _ k₃ ⟨hg₃, hk₃, -⟩
  exact ⟨hg₃, hk₂.trans hk₃⟩

theorem FileItem.kept (hi : FileItem k₁ k item e) (hk : KeepsNew k₁ k k') :
    FileItem k₁ k' item e := by
  obtain ⟨copy, hobj, hown, he⟩ := hi.copy
  refine ⟨⟨hk.alive _ _ hi.own.alive hi.own.fresh, hi.own.fresh⟩, copy,
    (hk.objs _ hi.own.fresh).trans hobj, ⟨hk.alive _ _ hown.alive hown.fresh, hown.fresh⟩,
    he.ne_zero, (hk.objs _ hown.fresh).trans he.none, ?_⟩
  rw [hk.mem]
  exact he.entry

theorem LoadedDirectory.kept (hd : LoadedDirectory k₁ k directory es) (hk : KeepsNew k₁ k k') :
    LoadedDirectory k₁ k' directory es := by
  obtain ⟨d, n, hobj, htotal, hown, hnone, hn, he⟩ := hd.list
  refine ⟨⟨hk.alive _ _ hd.own.alive hd.own.fresh, hd.own.fresh⟩, d, n,
    (hk.objs _ hd.own.fresh).trans hobj, htotal, ⟨hk.alive _ _ hown.alive hown.fresh, hown.fresh⟩,
    (hk.objs _ hown.fresh).trans hnone, hn, fun j e hj => ?_⟩
  obtain ⟨hne, hnone, hentry⟩ := he j e hj
  refine ⟨hne, ?_, ?_⟩
  · rcases hk.only (d.item + 32 * j) with heq | hnone'
    · rw [heq, hnone]
    · exact hnone'
  · rw [hk.mem]
    exact hentry

theorem DirectoryItem.kept (hi : DirectoryItem k₁ k item es) (hk : KeepsNew k₁ k k') :
    DirectoryItem k₁ k' item es := by
  obtain ⟨directory, hobj, hd⟩ := hi.directory
  exact ⟨⟨hk.alive _ _ hi.own.alive hi.own.fresh, hi.own.fresh⟩, directory,
    (hk.objs _ hi.own.fresh).trans hobj, hd.kept hk⟩

end Release

/-! ### The lookup of a path -/

section Lookup

variable {k₀ k₁ k : Kernel} {h : FatHeader} {m current next blocks : Nat}
  {es : List FatDirectoryItem} {e : FatDirectoryItem} {c : List UInt8} {cs : List (List UInt8)}

/-- What a part is looked up in, and with what. -/
theorem DirectoryItem.searches (hd : DirectoryItem k₀ k current es) {directory str : Nat}
    (hobj : k.objs current = some (.fatItem ⟨directory, FAT_ITEM_TYPE_DIRECTORY⟩))
    (hstr : k.Alive str 1) (hc : HoldsString k str c) (hlen : c.length < 4096) :
    ∃ d, directory ≠ 0 ∧ k.objs directory = some (.fatDirectory d) ∧ Searches k d es str c := by
  obtain ⟨directory', hobj', hl⟩ := hd.directory
  rw [hobj] at hobj'
  cases hobj'
  obtain ⟨d, n, hdir, htotal, hown, -, hn, he⟩ := hl.list
  exact ⟨d, hl.own.alive.ne_zero, hdir, htotal, ⟨n, hown.alive, hn⟩, he, hstr, hc, hlen⟩

theorem Searches.holdsEntry {directory : FatDirectory} {name i : Nat}
    (hs : Searches k directory es name c) (hone : OnlyNamed es c i e) :
    ∀ m k', Grown k m k' → HoldsEntry k' (directory.item + 32 * i) e :=
  fun _ _ hg => (hs.mono hg).held i e hone.get

/-- A round of the lookup: the next part is looked up in the directory, which is released. -/
theorem fat16GetDirectoryEntryLoop_round (hg : Grown k₀ m k) (hd : DirectoryItem k₀ k current es)
    (hp : HoldsParts k₁ k₀ next (c :: cs)) {fuel l : Nat} {P : Nat → Kernel → Prop}
    {Q : Nat → Kernel → Prop} (hP : ∀ f k' k'', P f k' → KeepsNew k k' k'' → P f k'')
    (hfind : ∀ d str, Searches k d es str c →
      Returns (fat16FindItemInDirectory d str) k fun f k' => Grown k l k' ∧ P f k')
    (hrest : ∀ f next' k', Grown k₀ l k' → P f k' → HoldsParts k₁ k₀ next' cs →
      Returns (fat16GetDirectoryEntryLoop fuel f next') k' Q) :
    Returns (fat16GetDirectoryEntryLoop (fuel + 1) current next) k Q := by
  obtain ⟨str, next', hnode, hnode_own, hstr_own, hstr, hlen, hlist⟩ := hp
  obtain ⟨directory, hobj, -⟩ := id hd.directory
  have hnode_at : ∀ {m k'}, Grown k₀ m k' → k'.objs next = some (.pathPart ⟨str, next'⟩) :=
    fun hg => (hg.obj hnode_own.alive).trans hnode
  obtain ⟨d, hne, hdir, hs⟩ := hd.searches hobj (hg.alive _ _ hstr_own.alive)
    (hg.holdsString hstr_own.alive (by omega) hstr) hlen
  unfold fat16GetDirectoryEntryLoop
  rw [if_neg hnode_own.alive.ne_zero]
  refine .bind (deref_returns hd.own.alive.ne_zero hobj rfl) ?_
  rintro _ _ ⟨rfl, rfl⟩
  rw [if_neg (not_not_intro rfl)]
  refine .bind (deref_returns hnode_own.alive.ne_zero (hnode_at hg) rfl) ?_
  rintro _ _ ⟨rfl, rfl⟩
  refine .bind (deref_returns hne hdir rfl) ?_
  rintro _ _ ⟨rfl, rfl⟩
  refine .bind (hfind d str hs) ?_
  rintro f k₂ ⟨hg₂, hf⟩
  refine .bind (fat16FatItemFree_directory hd hg₂ (hg.trans hg₂)) ?_
  rintro _ k₃ ⟨hg₃, hk₃⟩
  refine .bind (deref_returns hnode_own.alive.ne_zero (hnode_at hg₃) rfl) ?_
  rintro _ _ ⟨rfl, rfl⟩
  exact hrest f next' k₃ hg₃ (hP f k₂ k₃ hf hk₃) hlist

/-- From a directory on, the lookup finds the file that the rest of the path leads to. -/
theorem fat16GetDirectoryEntryLoop_leads (hvol : FatVolume h k₀.disk)
    (hl : Leads h k₀.disk.image es cs e blocks) :
    ∀ {fuel m current next : Nat} {k : Kernel}, cs.length < fuel → Grown k₀ m k →
      DirectoryItem k₀ k current es → HoldsParts k₁ k₀ next cs → m + blocks ≤ 25600 →
      Returns (fat16GetDirectoryEntryLoop fuel current next) k fun item k' =>
        item ≠ 0 ∧ Grown k₀ (m + blocks) k' ∧ FileItem k₀ k' item e := by
  induction hl with
  | @file es c i e hone hattr =>
    intro fuel m current next k hfuel hg hd hp hm
    obtain ⟨fuel, rfl⟩ : ∃ n, fuel = n + 2 := Nat.exists_eq_add_of_le' hfuel
    refine fat16GetDirectoryEntryLoop_round (l := m + 2) (P := fun f k' => f ≠ 0 ∧ FileItem k k' f e)
      hg hd hp (fun f k' k'' hf hk => ⟨hf.1, hf.2.kept hk⟩) ?_ ?_
    · intro d str hs
      refine fat16FindItemInDirectory_builds hs hone ?_
      refine (fat16NewFatItemForDirectoryItem_file (Grown.refl hg.free) (hs.holdsEntry hone) hattr
        hm).mono ?_
      rintro f k' ⟨hf, hg', hi⟩
      exact ⟨hg', hf, hi⟩
    · rintro f next' k' hg' ⟨hf, hi⟩ hnext
      unfold fat16GetDirectoryEntryLoop
      rw [if_pos (show next' = 0 from hnext)]
      exact .pure ⟨hf, hg', hi.before hg⟩
  | @directory es c i d chain count cs e blocks hone hattr hsub _ ih =>
    intro fuel m current next k hfuel hg hd hp hm
    obtain ⟨fuel, rfl⟩ : ∃ n, fuel = n + 1 := Nat.exists_eq_add_of_le' (Nat.one_le_of_lt hfuel)
    refine fat16GetDirectoryEntryLoop_round (l := m + 2 + blocksOf (32 * count))
      (P := fun f k' => DirectoryItem k k' f (h.chainEntries k₀.disk.image chain count))
      hg hd hp (fun f k' k'' hf hk => hf.kept hk) ?_ ?_
    · intro d' str hs
      refine fat16FindItemInDirectory_builds hs hone ?_
      have hsub' : Subdirectory h k.disk.image d chain count := by
        rw [hg.volume.image]
        exact hsub
      refine (fat16NewFatItemForDirectoryItem_directory (Grown.refl hg.free) (hvol.congr hg.volume)
        (hs.holdsEntry hone) hattr hsub' (by omega)).mono ?_
      rintro f k' ⟨-, hg', hi⟩
      rw [hg.volume.image] at hi
      exact ⟨hg', hi⟩
    · rintro f next' k' hg' hi hnext
      rw [List.length_cons] at hfuel
      refine (ih (by omega) hg' (hi.before hg) hnext (by omega)).mono ?_
      rintro item k'' ⟨hne, hg'', hitem⟩
      exact ⟨hne, hg''.mono (by omega), hitem⟩

/-- The root directory of the volume was read, and has the entries `es`. -/
structure HoldsRoot (h : FatHeader) (es : List FatDirectoryItem) (k : Kernel) : Prop where
  volume : FatVolume h k.disk
  root : ∃ p n, k.disk.fs_private = some p ∧ p.root_directory.total = es.length ∧
    k.Alive p.root_directory.item n ∧ 32 * es.length ≤ 4096 * n ∧
    HoldsEntries k p.root_directory.item es

theorem HoldsRoot.mono (hr : HoldsRoot h es k₀) (hg : Grown k₀ m k) : HoldsRoot h es k := by
  obtain ⟨p, n, hp, htotal, hal, hn, he⟩ := hr.root
  obtain ⟨p', hp', -, hroot⟩ := hg.volume.fs_private hp
  refine ⟨hr.volume.congr hg.volume, p', n, hp', ?_⟩
  rw [hroot]
  exact ⟨htotal, hg.alive _ _ hal, hn, hg.holdsEntries hal hn he⟩

/-- The first part is looked up in the root directory, which is not released. -/
theorem fat16GetDirectoryEntry_round (hr : HoldsRoot h es k) {path : Nat}
    (hp : HoldsParts k₁ k path (c :: cs)) {l : Nat} {P Q : Nat → Kernel → Prop}
    (hfind : ∀ d str, Searches k d es str c → Returns (fat16FindItemInDirectory d str) k fun f k' =>
      Grown k l k' ∧ f ≠ 0 ∧ P f k')
    (hrest : ∀ f next k', Grown k l k' → f ≠ 0 → P f k' → HoldsParts k₁ k next cs →
      Returns (fat16GetDirectoryEntryLoop 0x100000 f next) k' Q) :
    Returns (fat16GetDirectoryEntry path) k Q := by
  obtain ⟨p, n, hpriv, htotal, hal, hn, he⟩ := hr.root
  obtain ⟨str, next, hnode, hnode_own, hstr_own, hstr, hlen, hlist⟩ := hp
  refine .bind (onDisk_returns (fsPrivate_returns hpriv)) ?_
  rintro _ k' ⟨⟨hdisk, rfl⟩, hk'⟩
  obtain rfl : k' = k := by rw [hk', ← hdisk]
  refine .bind (deref_returns hnode_own.alive.ne_zero hnode rfl) ?_
  rintro _ _ ⟨rfl, rfl⟩
  refine .bind (hfind p.root_directory str
    ⟨htotal, ⟨n, hal, hn⟩, he, hstr_own.alive, hstr, hlen⟩) ?_
  rintro f k₂ ⟨hg₂, hf, hP⟩
  rw [if_neg hf]
  refine .bind (deref_returns hnode_own.alive.ne_zero
    ((hg₂.obj hnode_own.alive).trans hnode) rfl) ?_
  rintro _ _ ⟨rfl, rfl⟩
  exact hrest f next k₂ hg₂ hf hP hlist

/-- The file at the end of a path is found. -/
theorem fat16GetDirectoryEntry_leads (hr : HoldsRoot h es k)
    (hl : Leads h k.disk.image es cs e blocks) (hfree : k.FreeFrom m) (hm : m + blocks ≤ 25600)
    (hlen : cs.length ≤ 0x100000) {path : Nat} (hp : HoldsParts k₁ k path cs) :
    Returns (fat16GetDirectoryEntry path) k fun item k' =>
      item ≠ 0 ∧ Grown k (m + blocks) k' ∧ FileItem k k' item e := by
  cases hl with
  | @file _ c i _ hone hattr =>
    refine fat16GetDirectoryEntry_round (l := m + 2) (P := fun f k' => FileItem k k' f e) hr hp ?_ ?_
    · intro d str hs
      refine fat16FindItemInDirectory_builds hs hone ?_
      refine (fat16NewFatItemForDirectoryItem_file (Grown.refl hfree) (hs.holdsEntry hone) hattr
        hm).mono ?_
      rintro f k' ⟨hf, hg', hi⟩
      exact ⟨hg', hf, hi⟩
    · intro f next k' hg' hf hi hnext
      unfold fat16GetDirectoryEntryLoop
      rw [if_pos (show next = 0 from hnext)]
      exact .pure ⟨hf, hg', hi⟩
  | @directory _ c i d chain count cs _ blocks hone hattr hsub hrest =>
    refine fat16GetDirectoryEntry_round (l := m + 2 + blocksOf (32 * count))
      (P := fun f k' => DirectoryItem k k' f (h.chainEntries k.disk.image chain count)) hr hp ?_ ?_
    · intro d' str hs
      refine fat16FindItemInDirectory_builds hs hone ?_
      refine (fat16NewFatItemForDirectoryItem_directory (Grown.refl hfree) hr.volume
        (hs.holdsEntry hone) hattr hsub (by omega)).mono ?_
      rintro f k' ⟨hf, hg', hi⟩
      exact ⟨hg', hf, hi⟩
    · intro f next k' hg' _ hi hnext
      rw [List.length_cons] at hlen
      refine (fat16GetDirectoryEntryLoop_leads hr.volume hrest (by omega) hg' hi hnext
        (by omega)).mono ?_
      rintro item k'' ⟨hne, hg'', hitem⟩
      exact ⟨hne, hg''.mono (by omega), hitem⟩

end Lookup

/-! ### Opening -/

theorem modifyFatFileDescriptor_returns {k : Kernel} {p : Nat} {d : FatFileDescriptor} (hp : p ≠ 0)
    (ho : k.objs p = some (.fatFileDescriptor d)) (f : FatFileDescriptor → FatFileDescriptor) :
    Returns (modifyFatFileDescriptor p f) k fun _ k' =>
      Stored k p (.fatFileDescriptor (f d)) k' := by
  refine .bind (deref_returns hp ho rfl) ?_
  rintro _ _ ⟨rfl, rfl⟩
  exact storeObj_spec _ _ _

theorem modifyFileDescriptor_returns {k : Kernel} {p : Nat} {d : FileDescriptor} (hp : p ≠ 0)
    (ho : k.objs p = some (.fileDescriptor d)) (f : FileDescriptor → FileDescriptor) :
    Returns (modifyFileDescriptor p f) k fun _ k' => Stored k p (.fileDescriptor (f d)) k' := by
  refine .bind (deref_returns hp ho rfl) ?_
  rintro _ _ ⟨rfl, rfl⟩
  exact storeObj_spec _ _ _

/-- The address of an allocation is no error. -/
theorem Kernel.Alive.not_iserr {k : Kernel} {p n : Nat} (hp : k.Alive p n) : ISERR p = false := by
  obtain ⟨b, rfl, hn, hin, -⟩ := hp
  unfold ISERR ERROR_I blockAddress
  rw [decide_eq_false_iff_not, i32_of_range (by omega) (by omega)]
  omega

/-- The driver's descriptor of the file with the entry `e`, at the start of the file. -/
structure FatOpened (k₀ k : Kernel) (priv : Nat) (e : FatDirectoryItem) : Prop where
  own : Grown.Own k₀ k priv 1
  file : ∃ item, k.objs priv = some (.fatFileDescriptor ⟨item, 0⟩) ∧ FileItem k₀ k item e

/-- Entry `i` of the table of descriptors is for the file with the entry `e`, at its start. -/
structure OpenedAs (k₀ k : Kernel) (i : Nat) (e : FatDirectoryItem) : Prop where
  own : Grown.Own k₀ k (k.file_descriptors i) 1
  file : ∃ priv, k.objs (k.file_descriptors i) =
    some (.fileDescriptor ⟨i + 1, fat16Fs, priv, diskAddress⟩) ∧ FatOpened k₀ k priv e

section Open

variable {k₀ k₁ k k' : Kernel} {h : FatHeader} {m blocks i : Nat} {es : List FatDirectoryItem}
  {e : FatDirectoryItem} {cs : List (List UInt8)} {path : List UInt8}

theorem FileItem.stored {item p n : Nat} {o : Obj} (hi : FileItem k₀ k item e)
    (hp : k₀.Alive p n) (hst : Stored k p o k') : FileItem k₀ k' item e := by
  obtain ⟨copy, hobj, hown, he⟩ := hi.copy
  have hne : ∀ q, Grown.Own k₀ k q 1 → q ≠ p := by
    rintro q hown rfl
    exact hown.fresh _ hp
  refine ⟨⟨hst.alive hi.own.alive, hi.own.fresh⟩, copy, (hst.other _ (hne _ hi.own)).trans hobj,
    ⟨hst.alive hown.alive, hown.fresh⟩, he.ne_zero, (hst.other _ (hne _ hown)).trans he.none, ?_⟩
  rw [hst.mem]
  exact he.entry

theorem FatOpened.mono {priv : Nat} (ho : FatOpened k₀ k priv e) (hg : Grown k m k') :
    FatOpened k₀ k' priv e := by
  obtain ⟨item, hobj, hi⟩ := ho.file
  exact ⟨ho.own.mono hg, item, (hg.obj ho.own.alive).trans hobj, hi.mono hg⟩

theorem FatOpened.before {priv : Nat} (hg : Grown k₀ m k) (ho : FatOpened k k' priv e) :
    FatOpened k₀ k' priv e := by
  obtain ⟨item, hobj, hi⟩ := ho.file
  exact ⟨.before hg ho.own, item, hobj, hi.before hg⟩

theorem OpenedAs.mono (ho : OpenedAs k₀ k i e) (hg : Grown k m k')
    (hfds : k'.file_descriptors = k.file_descriptors) : OpenedAs k₀ k' i e := by
  obtain ⟨priv, hobj, hpriv⟩ := ho.file
  have hslot := congrFun hfds i
  refine ⟨hslot ▸ ho.own.mono hg, priv, ?_, hpriv.mono hg⟩
  rw [hslot]
  exact (hg.obj ho.own.alive).trans hobj

/-- The driver opens the file at the end of a path. -/
theorem fat16Open_leads (hr : HoldsRoot h es k) (hl : Leads h k.disk.image es cs e blocks)
    (hfree : k.FreeFrom m) (hm : m + 1 + blocks ≤ 25600) (hlen : cs.length ≤ 0x100000) {path : Nat}
    (hp : HoldsParts k₁ k path cs) :
    Returns (fat16Open path FILE_MODE_READ) k fun priv k' =>
      ISERR priv = false ∧ Grown k (m + 1 + blocks) k' ∧ FatOpened k k' priv e := by
  unfold fat16Open
  rw [if_neg (not_not_intro rfl)]
  refine .bind ((Grown.refl hfree).kzallocObj (by decide) (by decide) (by omega)) ?_
  rintro descriptor k₂ ⟨hne, hk₂, -, hown, hobj⟩
  rw [if_neg hne]
  rw [← hk₂.volume.image] at hl
  refine .bind (fat16GetDirectoryEntry_leads (hr.mono hk₂) hl hk₂.free hm hlen (hp.mono hk₂)) ?_
  rintro item k₃ ⟨hitem, hk₃, hi⟩
  refine .bind (modifyFatFileDescriptor_returns hne ((hk₃.obj hown.alive).trans hobj) _) ?_
  intro _ k₄ hst₄
  rw [if_neg hitem]
  refine .bind (modifyFatFileDescriptor_returns hne hst₄.self _) ?_
  intro _ k₅ hst₅
  have hown₃ := hown.mono hk₃
  have hown₄ : Grown.Own k k₄ descriptor 1 := ⟨hst₄.alive hown₃.alive, hown₃.fresh⟩
  refine .pure ⟨hown.alive.not_iserr, ((hk₂.trans hk₃).stored hown₃ hst₄).stored hown₄ hst₅,
    ⟨hst₅.alive hown₄.alive, hown₄.fresh⟩, item, hst₅.self, ?_⟩
  exact ((hi.stored hown.alive hst₄).stored hown.alive hst₅).before hk₂

/-- A descriptor is put in the first free entry. -/
theorem fileNewDescriptor_returns (hfree : k.FreeFrom m) (hm : m + 1 ≤ 25600)
    (hslot : freeDescriptorSlot k.file_descriptors = some i) :
    Returns fileNewDescriptor k fun r k' => r.1 = 0 ∧ r.2 ≠ 0 ∧ Grown k (m + 1) k' ∧
      Grown.Own k k' r.2 1 ∧ k'.objs r.2 = some (.fileDescriptor ⟨i + 1, 0, 0, 0⟩) ∧
      k'.file_descriptors = Function.update k.file_descriptors i r.2 := by
  refine .bind (R := fun fds k' => k = k' ∧ k.file_descriptors = fds) (.reads ⟨rfl, rfl⟩) ?_
  rintro _ _ ⟨rfl, rfl⟩
  rw [hslot]
  refine .bind (((Grown.refl hfree).kzallocObj (by decide) (by decide) hm).and_ensures
    (kzallocObj_small (by decide) (by decide))) ?_
  rintro desc k₁ ⟨⟨hne, hk₁, -, hown, hobj⟩, hsmall⟩
  obtain ⟨-, -, -, -, hglob⟩ := hsmall.resolve_left fun hbad => hne hbad.1
  refine .bind (modifyFileDescriptor_returns hne hobj _) ?_
  intro _ k₂ hst
  have hk₂ := hk₁.stored hown hst
  refine .bind (R := fun _ k₃ => Grown k (m + 1) k₃ ∧ Grown.Own k k₃ desc 1 ∧
    k₃.objs desc = some (.fileDescriptor ⟨i + 1, 0, 0, 0⟩) ∧
    k₃.file_descriptors = Function.update k.file_descriptors i desc) ?_ ?_
  · refine .modifies ⟨⟨hk₂.free, hk₂.alive, hk₂.mem, hk₂.objs, hk₂.volume⟩,
      ⟨hst.alive hown.alive, hown.fresh⟩, hst.self, ?_⟩
    dsimp only
    rw [hst.globals.file_descriptors, hglob.file_descriptors]
  · rintro _ k₃ hk₃
    exact .pure ⟨rfl, hne, hk₃⟩

/-- The file at the end of a path is opened, at its start, when the table has a free entry. -/
theorem fopen_leads (hr : HoldsRoot h es k) (ht : tableFence.Stands k) (hfree : k.FreeFrom m)
    (hshort : strlen path ≤ PLUMOS_MAX_PATH) (hvalid : pathparserPathValidFormat path = true)
    (hdrive : toenumericdigit (charAt path 0) = 0) (hparts : PathParts (path.drop 3) cs)
    (hl : Leads h k.disk.image es cs e blocks) (hm : m + 2 * cs.length + blocks + 4 ≤ 25600)
    {mode_str : List UInt8} (hmode : fileGetModeByString mode_str = FILE_MODE_READ)
    (hslot : freeDescriptorSlot k.file_descriptors = some i) :
    Returns (fopen path mode_str) k fun fd k' => fd = i + 1 ∧
      Grown k (m + 2 * cs.length + blocks + 4) k' ∧ OpenedAs k k' i e ∧
      ∃ desc, k'.file_descriptors = Function.update k.file_descriptors i desc := by
  have hne : cs ≠ [] := by
    rintro rfl
    cases hl
  refine .bind (R := fun (res : Int) k' => res = i + 1 ∧
    Grown k (m + 2 * cs.length + blocks + 4) k' ∧ OpenedAs k k' i e ∧
      ∃ desc, k'.file_descriptors = Function.update k.file_descriptors i desc) ?_ ?_
  · refine .bind ((pathparserParse_grown hfree hshort hvalid hparts hne (by omega)).and_ensures
      ((pathparserParse_fenced ht _).and (keepsTable (pathparserParse_fenced ht _)))) ?_
    rintro root k₁ ⟨⟨hroot, hk₁, first, hobj, hlist⟩, ⟨ht₁, -⟩, hfds₁⟩
    have hfirst : first ≠ 0 := by
      obtain ⟨c, cs, rfl⟩ := List.exists_cons_of_ne_nil hne
      exact hlist.head_ne_zero
    rw [if_neg hroot]
    refine .bind (deref_returns hroot hobj rfl) ?_
    rintro _ _ ⟨rfl, rfl⟩
    have hfs : k₁.disk.filesystem = fat16Fs := by
      obtain ⟨p, hp, -⟩ := (hr.mono hk₁).volume.bound
      unfold Disk.filesystem
      rw [hp, if_pos (Option.isSome_some)]
    rw [if_neg hfirst, if_neg (not_not_intro hdrive)]
    refine .bind (R := fun fs k' => k₁ = k' ∧ fat16Fs = fs) (.reads ⟨rfl, hfs.symm⟩) ?_
    rintro _ _ ⟨rfl, rfl⟩
    rw [if_neg (by decide)]
    dsimp only
    rw [hmode, if_neg (by decide)]
    have hlen : cs.length ≤ 0x100000 := by omega
    rw [← hk₁.volume.image] at hl
    refine .bind ((fat16Open_leads (hr.mono hk₁) hl hk₁.free (by omega) hlen hlist).and_ensures
      (keepsTable (fat16Open_fenced ht₁.stands _ _))) ?_
    rintro priv k₂ ⟨⟨herr, hk₂, hpriv⟩, hfds₂⟩
    rw [herr, if_neg (by decide)]
    rw [← hfds₁, ← hfds₂] at hslot
    refine .bind (fileNewDescriptor_returns hk₂.free (by omega) hslot) ?_
    rintro ⟨res, desc⟩ k₃ ⟨hres, hdesc, hk₃, hown₃, hobj₃, hfds₃⟩
    dsimp only at hres hdesc hown₃ hobj₃ hfds₃ ⊢
    rw [hres, if_neg (by decide)]
    refine .bind (modifyFileDescriptor_returns hdesc hobj₃ _) ?_
    intro _ k₄ hst
    refine .bind (deref_returns hdesc hst.self rfl) ?_
    rintro _ _ ⟨rfl, rfl⟩
    have hg₄ := hk₃.stored hown₃ hst
    have hfds : k₄.file_descriptors = Function.update k.file_descriptors i desc := by
      rw [hst.globals.file_descriptors, hfds₃, hfds₂, hfds₁]
    have hslot_desc : k₄.file_descriptors i = desc := by
      rw [hfds, Function.update_self]
    have hown₄ : Grown.Own k k₄ desc 1 :=
      .before (hk₁.trans hk₂) ⟨hst.alive hown₃.alive, hown₃.fresh⟩
    refine .pure ⟨rfl, (hk₁.trans (hk₂.trans hg₄)).mono (by omega), ⟨hslot_desc ▸ hown₄, priv, ?_,
      (hpriv.mono hg₄).before hk₁⟩, desc, hfds⟩
    rw [hslot_desc]
    exact hst.self
  · rintro res k₁ ⟨rfl, hk₁⟩
    rw [if_neg (by omega)]
    exact .pure ⟨rfl, hk₁⟩

end Open

end PlumOS
