import PlumOS.Fs.File
import PlumOS.Fs.StreamFree
import PlumOS.Memory.Fence

/-!
# The file functions keep to safe pointers

For each function of the path parser, the FAT16 driver and the file layer: under any
fence it releases and follows safe pointers only, and what it returns is safe. This
covers every exit, also those that release a structure and go on using its address.

## Main results

- `fat16GetDirectoryEntry_fenced`, `fat16Open_fenced`, `fat16Close_fenced`
- `pathparserParse_fenced`
- `fopen_fenced`, `fclose_fenced`
-/

namespace PlumOS

open StateExcept

variable {F : Fence} {k : Kernel}

/-! ### Releasing -/

theorem fat16FreeDirectory_fenced (h : F.Stands k) {directory : Nat} (hd : F.Safe k directory) :
    Framed (Fenced F) (fat16FreeDirectory directory) k fun _ _ => True := by
  unfold fat16FreeDirectory
  split
  · exact .pure (.refl h) trivial
  · refine Framed.bind (framed_deref h _ _) ?_
    rintro d _ - ⟨rfl, h0, ho⟩
    rw [Obj.fatDirectory?_eq_some] at ho
    have hitem : F.Outside d.item := hd.held h0 ho (by simp [Obj.held])
    refine Framed.bind (P := fun _ _ => True) (.onlyIf (.refl h)
      (fun _ => (framed_kfree h hitem).mono fun _ _ _ _ => trivial) fun _ => trivial) ?_
    rintro _ k₁ hk₁ -
    exact (framed_kfree hk₁.stands hd.outside).mono fun _ _ _ _ => trivial

theorem fat16FatItemFree_fenced (h : F.Stands k) {item : Nat} (hi : F.Safe k item) :
    Framed (Fenced F) (fat16FatItemFree item) k fun _ _ => True := by
  refine Framed.bind (framed_deref h _ _) ?_
  rintro i _ - ⟨rfl, h0, ho⟩
  rw [Obj.fatItem?_eq_some] at ho
  refine Framed.bind (P := fun _ _ => True) (.onlyIf (.refl h) (fun htype => ?_)
    fun _ => trivial) ?_
  · refine fat16FreeDirectory_fenced h (hi.followed h0 ho ?_)
    simp only [Obj.followed, if_pos htype, List.mem_singleton]
    rfl
  rintro _ k₁ hk₁ -
  refine Framed.bind (P := fun _ _ => True) (.onlyIf (.refl hk₁.stands) (fun _ => ?_)
    fun _ => trivial) ?_
  · refine (framed_kfree hk₁.stands (hi.held h0 ho ?_)).mono fun _ _ _ _ => trivial
    simp [Obj.held]
  rintro _ k₂ hk₂ -
  exact (framed_kfree hk₂.stands hi.outside).mono fun _ _ _ _ => trivial

/-! ### Looking up -/

theorem fsPrivate_fenced (h : F.Stands k) :
    Framed (Fenced F) (onDisk fsPrivate) k fun p k' =>
      k' = { k with disk := k'.disk } ∧ k.disk.fs_private = some p := by
  refine framed_onDisk (Q := fun p _ => k.disk.fs_private = some p) h ((fsPrivate_spec _).mono ?_)
  rintro p _ ⟨rfl, hp⟩
  exact ⟨.refl _, hp⟩

theorem toNat_le_u32 {x : Int} (h₁ : -0x80000000 ≤ x) (h₂ : x < 0x80000000) : x.toNat ≤ u32 x := by
  unfold u32
  omega

theorem i32_toNat_le {n : Nat} (h : n < 0x100000000) : (i32 n).toNat ≤ n := by
  unfold i32
  omega

theorem derefItem_fenced (h : F.Stands k) (p : Nat) :
    Framed (Fenced F) (derefItem p) k fun _ k' => k = k' := by
  intro a k' hd
  unfold derefItem at hd
  split at hd
  · cases hd
  · cases hd
    exact ⟨.refl h, rfl⟩

theorem modifyFatDirectory_fenced (h : F.Stands k) {p : Nat} (hp : F.Safe k p)
    (f : FatDirectory → FatDirectory)
    (hitem : ∀ d, p ≠ 0 → k.objs p = some (.fatDirectory d) → F.Outside (f d).item) :
    Framed (Fenced F) (modifyFatDirectory p f) k fun _ k' => F.Safe k' p := by
  refine (framed_modify Obj.fatDirectory?_eq_some h hp f fun d h0 ho => ⟨?_, ?_, ?_⟩).mono
    fun _ _ _ h => h.1
  · simpa [Obj.held] using hitem d h0 ho
  · simp [Obj.followed]
  · simp [Obj.index]

theorem fat16LoadFatDirectory_fenced (h : F.Stands k) (item : Nat) :
    Framed (Fenced F) (fat16LoadFatDirectory item) k fun directory k' => F.Safe k' directory := by
  refine Framed.bind (derefItem_fenced h item) ?_
  rintro i _ - rfl
  split
  · exact .pure (.refl h) h.safe_zero
  refine Framed.bind (framed_kzallocObj h _ (by simp [Obj.held]) (by simp [Obj.followed])
    (by simp [Obj.index])) ?_
  intro directory k₁ hk₁ hdir₁
  split
  · exact .pure (.refl hk₁.stands) hk₁.stands.safe_zero
  refine Framed.bind (derefItem_fenced hk₁.stands item) ?_
  rintro i _ - rfl
  refine Framed.bind (fsPrivate_fenced hk₁.stands) ?_
  rintro fat_private k₂ hk₂ -
  refine Framed.bind (framed_onDisk (Q := fun _ _ => True) hk₂.stands (.and (Alike.keeps_volume
    (fat16GetTotalItemsForDirectory_alike _)) fun _ _ _ => trivial)) ?_
  rintro total_items k₃ hk₃ -
  have hdir₃ := hk₃.safe _ (hk₂.safe _ hdir₁)
  refine Framed.bind (modifyFatDirectory_fenced hk₃.stands hdir₃ _ fun d h0 ho =>
    hdir₃.held h0 ho (by simp [Obj.held])) ?_
  intro _ k₄ hk₄ hdir₄
  refine Framed.bind (framed_kzalloc hk₄.stands _) ?_
  rintro entries k₅ hk₅ ⟨hentries, -, hclear⟩
  refine Framed.bind (modifyFatDirectory_fenced hk₅.stands (hk₅.safe _ hdir₄) _
    fun _ _ _ => hentries) ?_
  intro _ k₆ hk₆ hdir₆
  split
  · refine Framed.bind (fat16FreeDirectory_fenced hk₆.stands hdir₆) ?_
    intro _ k₇ hk₇ _
    exact .pure (.refl hk₇.stands) (hk₇.safe _ hdir₆)
  · next hne =>
    have hrange := i32_mem (total_items * sizeofFatDirectoryItem)
    refine Framed.bind (framed_onDisk hk₆.stands (fat16ReadInternal_length _ _ hrange.1 hrange.2 _)) ?_
    rintro r k₇ hk₇ ⟨-, hlen⟩
    refine Framed.bind (framed_storeBytes hk₇.stands ((hclear hne).mono ?_)) ?_
    · exact hlen.trans (toNat_le_u32 hrange.1 hrange.2)
    intro _ k₈ hk₈ _
    have hdir₈ := hk₈.safe _ (hk₇.safe _ hdir₆)
    refine Framed.bind (P := fun _ _ => True) (.onlyIf (.refl hk₈.stands)
      (fun _ => fat16FreeDirectory_fenced hk₈.stands hdir₈) fun _ => trivial) ?_
    intro _ k₉ hk₉ _
    exact .pure (.refl hk₉.stands) (hk₉.safe _ hdir₈)

theorem fat16CloneDirectoryItem_fenced (h : F.Stands k) (item : Nat) :
    Framed (Fenced F) (fat16CloneDirectoryItem item) k fun item_copy k' =>
      F.Safe k' item_copy := by
  refine Framed.bind (framed_kzalloc h _) ?_
  rintro item_copy k₁ hk₁ ⟨-, hcopy, hclear⟩
  split
  · exact .pure (.refl hk₁.stands) hk₁.stands.safe_zero
  next hne =>
  refine Framed.bind (framed_reads hk₁.stands _) ?_
  rintro mem _ - ⟨rfl, -⟩
  refine Framed.bind (framed_storeBytes hk₁.stands ?_) ?_
  · rw [readBytes_length]
    exact hclear hne
  intro _ k₂ hk₂ _
  exact .pure (.refl hk₂.stands) (hk₂.safe _ (hcopy (by decide)))

theorem modifyFatItem_fenced (h : F.Stands k) {p : Nat} (hp : F.Safe k p) (f : FatItem → FatItem)
    (hitem : ∀ i, p ≠ 0 → k.objs p = some (.fatItem i) → F.Outside (f i).item)
    (hdir : ∀ i, p ≠ 0 → k.objs p = some (.fatItem i) → (f i).type = FAT_ITEM_TYPE_DIRECTORY →
      F.Safe k (f i).item) :
    Framed (Fenced F) (modifyFatItem p f) k fun _ k' => F.Safe k' p := by
  refine (framed_modify Obj.fatItem?_eq_some h hp f fun i h0 ho => ⟨?_, ?_, ?_⟩).mono
    fun _ _ _ h => h.1
  · simpa [Obj.held] using hitem i h0 ho
  · intro q hq
    simp only [Obj.followed] at hq
    split at hq
    · next htype =>
      rw [List.mem_singleton.mp hq]
      exact hdir i h0 ho htype
    · cases hq
  · simp [Obj.index]

theorem fat16NewFatItemForDirectoryItem_fenced (h : F.Stands k) (item : Nat) :
    Framed (Fenced F) (fat16NewFatItemForDirectoryItem item) k fun f_item k' =>
      F.Safe k' f_item := by
  refine Framed.bind (framed_kzallocObj h _ (by simp [Obj.held]) (by simp [Obj.followed])
    (by simp [Obj.index])) ?_
  intro f_item k₁ hk₁ hf₁
  split
  · exact .pure (.refl hk₁.stands) hk₁.stands.safe_zero
  refine Framed.bind (derefItem_fenced hk₁.stands item) ?_
  rintro i _ - rfl
  split
  · refine Framed.bind (fat16LoadFatDirectory_fenced hk₁.stands item) ?_
    intro directory k₂ hk₂ hdir
    refine Framed.bind (modifyFatItem_fenced hk₂.stands (hk₂.safe _ hf₁) _
      (fun _ _ _ => hdir.outside) fun _ _ _ _ => hdir) ?_
    intro _ k₃ hk₃ hf₃
    exact .pure (.refl hk₃.stands) hf₃
  · refine Framed.bind (modifyFatItem_fenced hk₁.stands hf₁ _
      (fun i h0 ho => hf₁.held h0 ho (by simp [Obj.held]))
      fun _ _ _ htype => absurd (show FAT_ITEM_TYPE_FILE = _ from htype) (by decide)) ?_
    intro _ k₂ hk₂ hf₂
    refine Framed.bind (fat16CloneDirectoryItem_fenced hk₂.stands item) ?_
    intro item_copy k₃ hk₃ hcopy
    refine Framed.bind (modifyFatItem_fenced hk₃.stands (hk₃.safe _ hf₂) _
      (fun _ _ _ => hcopy.outside) fun _ _ _ _ => hcopy) ?_
    intro _ k₄ hk₄ hf₄
    exact .pure (.refl hk₄.stands) hf₄

theorem fat16FindItemLoop_fenced (directory : FatDirectory) (name : Nat) :
    ∀ (fuel i f_item : Nat) (k : Kernel), F.Stands k → F.Safe k f_item →
      Framed (Fenced F) (fat16FindItemLoop directory name fuel i f_item) k fun f_item k' =>
        F.Safe k' f_item := by
  intro fuel
  induction fuel with
  | zero =>
    intro i f_item k h hf
    exact .pure (.refl h) hf
  | succ fuel ih =>
    intro i f_item k h hf
    refine Framed.bind (derefItem_fenced h _) ?_
    rintro entry _ - rfl
    refine Framed.bind (framed_reads h _) ?_
    rintro _ _ - ⟨rfl, -⟩
    dsimp only
    split
    · refine Framed.bind (fat16NewFatItemForDirectoryItem_fenced h _) ?_
      intro f_item' k₁ hk₁ hf'
      exact ih _ _ k₁ hk₁.stands hf'
    · exact ih _ _ k h hf

theorem fat16FindItemInDirectory_fenced (h : F.Stands k) (directory : FatDirectory) (name : Nat) :
    Framed (Fenced F) (fat16FindItemInDirectory directory name) k fun f_item k' =>
      F.Safe k' f_item :=
  fat16FindItemLoop_fenced directory name _ _ _ k h h.safe_zero

theorem fat16GetDirectoryEntryLoop_fenced :
    ∀ (fuel current_item next_part : Nat) (k : Kernel), F.Stands k → F.Safe k current_item →
      Framed (Fenced F) (fat16GetDirectoryEntryLoop fuel current_item next_part) k
        fun item k' => F.Safe k' item := by
  intro fuel
  induction fuel with
  | zero =>
    intro current_item next_part k _ _
    exact .fails
  | succ fuel ih =>
    intro current_item next_part k h hc
    unfold fat16GetDirectoryEntryLoop
    split
    · exact .pure (.refl h) hc
    refine Framed.bind (framed_deref h _ _) ?_
    rintro i _ - ⟨rfl, -, -⟩
    split
    · exact .pure (.refl h) h.safe_zero
    refine Framed.bind (framed_deref h _ _) ?_
    rintro part _ - ⟨rfl, -, -⟩
    refine Framed.bind (framed_deref h _ _) ?_
    rintro directory _ - ⟨rfl, -, -⟩
    refine Framed.bind (fat16FindItemInDirectory_fenced h _ _) ?_
    intro tmp_item k₁ hk₁ htmp
    refine Framed.bind (fat16FatItemFree_fenced hk₁.stands (hk₁.safe _ hc)) ?_
    rintro _ k₂ hk₂ -
    refine Framed.bind (framed_deref hk₂.stands _ _) ?_
    rintro part _ - ⟨rfl, -, -⟩
    exact ih _ _ k₂ hk₂.stands (hk₂.safe _ htmp)

theorem fat16GetDirectoryEntry_fenced (h : F.Stands k) (path : Nat) :
    Framed (Fenced F) (fat16GetDirectoryEntry path) k fun item k' => F.Safe k' item := by
  refine Framed.bind (fsPrivate_fenced h) ?_
  rintro fat_private k₁ hk₁ -
  refine Framed.bind (framed_deref hk₁.stands _ _) ?_
  rintro part _ - ⟨rfl, -, -⟩
  refine Framed.bind (fat16FindItemInDirectory_fenced hk₁.stands _ _) ?_
  intro root_item k₂ hk₂ hroot
  split
  · exact .pure (.refl hk₂.stands) hk₂.stands.safe_zero
  refine Framed.bind (framed_deref hk₂.stands _ _) ?_
  rintro part _ - ⟨rfl, -, -⟩
  exact fat16GetDirectoryEntryLoop_fenced _ _ _ k₂ hk₂.stands hroot

/-! ### The driver's interface -/

theorem modifyFatFileDescriptor_fenced (h : F.Stands k) {p : Nat} (hp : F.Safe k p)
    (f : FatFileDescriptor → FatFileDescriptor)
    (hitem : ∀ d, p ≠ 0 → k.objs p = some (.fatFileDescriptor d) → F.Safe k (f d).item) :
    Framed (Fenced F) (modifyFatFileDescriptor p f) k fun _ k' => F.Safe k' p := by
  refine (framed_modify Obj.fatFileDescriptor?_eq_some h hp f fun d h0 ho => ⟨?_, ?_, ?_⟩).mono
    fun _ _ _ h => h.1
  · simp [Obj.held]
  · simpa [Obj.followed] using hitem d h0 ho
  · simp [Obj.index]

/-- What `fat16_open` returns is an error or a safe descriptor. -/
theorem fat16Open_fenced (h : F.Stands k) (path mode : Nat) :
    Framed (Fenced F) (fat16Open path mode) k fun r k' => ISERR r = false → F.Safe k' r := by
  unfold fat16Open
  split
  · exact .pure (.refl h) fun herr => absurd herr (by decide)
  refine Framed.bind (framed_kzallocObj h _ (by simp [Obj.held]) (by simp [Obj.followed])
    (by simp [Obj.index])) ?_
  intro descriptor k₁ hk₁ hd₁
  split
  · exact .pure (.refl hk₁.stands) fun herr => absurd herr (by decide)
  refine Framed.bind (fat16GetDirectoryEntry_fenced hk₁.stands path) ?_
  intro item k₂ hk₂ hitem
  refine Framed.bind (modifyFatFileDescriptor_fenced hk₂.stands (hk₂.safe _ hd₁) _
    fun _ _ _ => hitem) ?_
  intro _ k₃ hk₃ hd₃
  split
  · refine Framed.bind (framed_kfree hk₃.stands hd₃.outside) ?_
    intro _ k₄ hk₄ _
    exact .pure (.refl hk₄.stands) fun herr => absurd herr (by decide)
  · refine Framed.bind (modifyFatFileDescriptor_fenced hk₃.stands hd₃ _ fun d h0 ho =>
      hd₃.followed h0 ho (by simp [Obj.followed])) ?_
    intro _ k₄ hk₄ hd₄
    exact .pure (.refl hk₄.stands) fun _ => hd₄

theorem fat16ReadLoop_fenced (item : Nat) {size : Nat} (hsize : size < 0x100000000) :
    ∀ (nmemb : Nat) (offset : Int) (out_ptr : Nat) (res : Int) (k : Kernel), F.Stands k →
      F.Clear out_ptr (size * nmemb) →
      Framed (Fenced F) (fat16ReadLoop item size nmemb offset out_ptr res) k fun _ k' =>
        k'.objs = k.objs := by
  intro nmemb
  induction nmemb with
  | zero =>
    intro offset out_ptr res k h _
    exact .pure (.refl h) rfl
  | succ nmemb ih =>
    intro offset out_ptr res k h hclear
    rw [Nat.mul_succ] at hclear
    refine Framed.bind (derefItem_fenced h _) ?_
    rintro i _ - rfl
    have hrange := i32_mem size
    refine Framed.bind (framed_onDisk h (fat16ReadInternal_length _ _ hrange.1 hrange.2 _)) ?_
    rintro r k₁ hk₁ ⟨heq₁, hlen⟩
    refine Framed.bind (framed_storeBytes hk₁.stands (hclear.mono ?_)) ?_
    · have := i32_toNat_le hsize
      omega
    intro _ k₂ hk₂ ho₂
    have ho : k₂.objs = k.objs := by rw [ho₂, heq₁]
    split
    · exact .pure (.refl hk₂.stands) ho
    · refine (ih _ _ _ k₂ hk₂.stands fun a ha => ?_).mono fun _ _ _ h => h.trans ho
      rcases hclear a ha with h | h
      · exact Or.inl (by omega)
      · exact Or.inr (by omega)

theorem fat16Read_fenced (h : F.Stands k) (descriptor : Nat) {size nmemb out_ptr : Nat}
    (hsize : size < 0x100000000) (hclear : F.Clear out_ptr (size * nmemb)) :
    Framed (Fenced F) (fat16Read descriptor size nmemb out_ptr) k fun _ k' => k'.objs = k.objs := by
  refine Framed.bind (framed_deref h _ _) ?_
  rintro d _ - ⟨rfl, -, -⟩
  refine Framed.bind (framed_deref h _ _) ?_
  rintro i _ - ⟨rfl, -, -⟩
  refine Framed.bind (fat16ReadLoop_fenced _ hsize _ _ _ _ k h hclear) ?_
  intro res k₁ hk₁ ho
  split
  · exact .pure (.refl hk₁.stands) ho
  · exact .pure (.refl hk₁.stands) ho

theorem fat16Stat_fenced (h : F.Stands k) (descriptor : Nat) :
    Framed (Fenced F) (fat16Stat descriptor) k fun _ k' => k = k' := by
  refine Framed.bind (framed_deref h _ _) ?_
  rintro d _ - ⟨rfl, -, -⟩
  refine Framed.bind (framed_deref h _ _) ?_
  rintro i _ - ⟨rfl, -, -⟩
  split
  · exact .pure (.refl h) rfl
  · refine Framed.bind (derefItem_fenced h _) ?_
    rintro ritem _ - rfl
    exact .pure (.refl h) rfl

/-- A seek moves the position of the descriptor and leaves its item. -/
theorem fat16Seek_fenced (h : F.Stands k) {descriptor : Nat} (hd : F.Safe k descriptor)
    (offset seek_mode : Nat) :
    Framed (Fenced F) (fat16Seek descriptor offset seek_mode) k fun _ _ => True := by
  have hmodify : ∀ f : FatFileDescriptor → FatFileDescriptor, (∀ d, (f d).item = d.item) →
      Framed (Fenced F) (do modifyFatFileDescriptor descriptor f; pure 0) k
        fun (_ : Int) _ => True := by
    intro f hf
    refine Framed.bind (modifyFatFileDescriptor_fenced h hd f fun d h0 ho => ?_)
      fun _ k₁ hk₁ _ => .pure (.refl hk₁.stands) trivial
    rw [hf]
    exact hd.followed h0 ho (by simp [Obj.followed])
  refine Framed.bind (framed_deref h _ _) ?_
  rintro d _ - ⟨rfl, -, -⟩
  refine Framed.bind (framed_deref h _ _) ?_
  rintro i _ - ⟨rfl, -, -⟩
  split
  · exact .pure (.refl h) trivial
  refine Framed.bind (derefItem_fenced h _) ?_
  rintro ritem _ - rfl
  split
  · exact .pure (.refl h) trivial
  split
  · exact hmodify _ fun _ => rfl
  split
  · exact .pure (.refl h) trivial
  split
  · exact hmodify _ fun _ => rfl
  · exact .pure (.refl h) trivial

theorem fat16Close_fenced (h : F.Stands k) {descriptor : Nat} (hd : F.Safe k descriptor) :
    Framed (Fenced F) (fat16Close descriptor) k fun _ _ => True := by
  refine Framed.bind (P := fun _ _ => True) ?_ fun _ k₁ hk₁ _ => .pure (.refl hk₁.stands) trivial
  refine Framed.bind (framed_deref h _ _) ?_
  rintro d _ - ⟨rfl, h0, ho⟩
  rw [Obj.fatFileDescriptor?_eq_some] at ho
  refine Framed.bind (fat16FatItemFree_fenced h (hd.followed h0 ho (by simp [Obj.followed]))) ?_
  rintro _ k₁ hk₁ -
  exact (framed_kfree hk₁.stands hd.outside).mono fun _ _ _ _ => trivial

/-! ### The path parser -/

theorem modifyPathRoot_fenced (h : F.Stands k) {p : Nat} (hp : p ∉ F.objects)
    (f : PathRoot → PathRoot)
    (hfirst : ∀ r, k.objs p = some (.pathRoot r) → F.Safe k (f r).first) :
    Framed (Fenced F) (modifyPathRoot p f) k fun _ k' =>
      ∃ r, k.objs p = some (.pathRoot r) ∧ Stored k p (.pathRoot (f r)) k' := by
  refine Framed.bind (framed_deref h _ _) ?_
  rintro r _ - ⟨rfl, -, ho⟩
  rw [Obj.pathRoot?_eq_some] at ho
  refine (framed_storeObj h hp ⟨?_, ?_, ?_⟩).mono fun _ _ _ hst => ⟨r, ho, hst.1⟩
  · simp [Obj.held]
  · simpa [Obj.followed] using hfirst r ho
  · simp [Obj.index]

theorem modifyPathPart_fenced (h : F.Stands k) {p : Nat} (hp : F.Safe k p)
    (f : PathPart → PathPart)
    (hpart : ∀ r, p ≠ 0 → k.objs p = some (.pathPart r) → F.Outside (f r).part)
    (hnext : ∀ r, p ≠ 0 → k.objs p = some (.pathPart r) → F.Safe k (f r).next) :
    Framed (Fenced F) (modifyPathPart p f) k fun _ k' => F.Safe k' p := by
  refine (framed_modify Obj.pathPart?_eq_some h hp f fun d h0 ho => ⟨?_, ?_, ?_⟩).mono
    fun _ _ _ h => h.1
  · simpa [Obj.held] using hpart d h0 ho
  · simpa [Obj.followed] using hnext d h0 ho
  · simp [Obj.index]

theorem pathparserGetPathPart_fenced (h : F.Stands k) (path : List UInt8) :
    Framed (Fenced F) (pathparserGetPathPart path) k fun r _ => F.Outside r.1 := by
  refine Framed.bind (framed_kzalloc h _) ?_
  rintro ptr k₁ hk₁ ⟨hptr, -, hclear⟩
  dsimp only
  split
  · refine Framed.bind (framed_kfree hk₁.stands hptr) ?_
    intro _ k₂ hk₂ _
    exact .pure (.refl hk₂.stands) hk₂.stands.outside_zero
  split
  · exact .fails
  next hne =>
  split
  · exact .fails
  next hlen =>
  refine Framed.bind (framed_storeBytes hk₁.stands ((hclear hne).mono (not_lt.mp hlen))) ?_
  intro _ k₂ hk₂ _
  exact .pure (.refl hk₂.stands) hptr

theorem pathparserParsePathPart_fenced (h : F.Stands k) {last_part : Nat}
    (hlast : F.Safe k last_part) (path : List UInt8) :
    Framed (Fenced F) (pathparserParsePathPart last_part path) k fun r k' => F.Safe k' r.1 := by
  refine Framed.bind (pathparserGetPathPart_fenced h path) ?_
  intro r k₁ hk₁ hr
  split
  · exact .pure (.refl hk₁.stands) hk₁.stands.safe_zero
  refine Framed.bind (framed_kzallocObj hk₁.stands _ (by simp [Obj.held])
    (by simp [Obj.followed]) (by simp [Obj.index])) ?_
  intro part k₂ hk₂ hpart₂
  refine Framed.bind (modifyPathPart_fenced hk₂.stands hpart₂ _ (fun _ _ _ => hr)
    fun _ _ _ => hk₂.stands.safe_zero) ?_
  intro _ k₃ hk₃ hpart₃
  have hlast₃ := hk₃.safe _ (hk₂.safe _ (hk₁.safe _ hlast))
  refine Framed.bind (P := fun _ _ => True) (.onlyIf (.refl hk₃.stands) (fun _ => ?_)
    fun _ => trivial) ?_
  · refine (modifyPathPart_fenced hk₃.stands hlast₃ _ (fun p h0 ho => ?_)
      fun _ _ _ => hpart₃).mono fun _ _ _ _ => trivial
    exact hlast₃.held h0 ho (by simp [Obj.held])
  intro _ k₄ hk₄ _
  exact .pure (.refl hk₄.stands) (hk₄.safe _ hpart₃)

theorem pathparserParseLoop_fenced :
    ∀ (fuel part : Nat) (path : List UInt8) (k : Kernel), F.Stands k → F.Safe k part →
      Framed (Fenced F) (pathparserParseLoop fuel part path) k fun _ _ => True := by
  intro fuel
  induction fuel with
  | zero =>
    intro part path k _ _
    exact .fails
  | succ fuel ih =>
    intro part path k h hpart
    unfold pathparserParseLoop
    split
    · exact .pure (.refl h) trivial
    refine Framed.bind (pathparserParsePathPart_fenced h hpart path) ?_
    intro r k₁ hk₁ hr
    exact ih _ _ k₁ hk₁.stands hr

/-- `pathparser_parse` from where it has the root. -/
theorem pathparserParse_rest_fenced (h : F.Stands k) {path_root : Nat} (hroot : path_root ∉ F.objects)
    (fuel : Nat) (path : List UInt8) :
    Framed (Fenced F) (do
      let first ← pathparserParsePathPart 0 path
      if first.1 = 0 then pure path_root
      else do
        modifyPathRoot path_root fun r => { r with first := first.1 }
        let part ← pathparserParsePathPart first.1 first.2
        pathparserParseLoop fuel part.1 part.2
        pure path_root) k fun r _ => r = path_root := by
  refine Framed.bind (pathparserParsePathPart_fenced h h.safe_zero path) ?_
  intro first k₁ hk₁ hfirst
  split
  · exact .pure (.refl hk₁.stands) rfl
  refine Framed.bind (modifyPathRoot_fenced hk₁.stands hroot _ fun _ _ => hfirst) ?_
  rintro _ k₂ hk₂ -
  refine Framed.bind (pathparserParsePathPart_fenced hk₂.stands (hk₂.safe _ hfirst) _) ?_
  intro part k₃ hk₃ hpart
  refine Framed.bind (pathparserParseLoop_fenced _ _ _ k₃ hk₃.stands hpart) ?_
  intro _ k₄ hk₄ _
  exact .pure (.refl hk₄.stands) rfl

theorem pathparserParse_fenced (h : F.Stands k) (path : List UInt8) :
    Framed (Fenced F) (pathparserParse path) k fun _ _ => True := by
  unfold pathparserParse
  split
  · exact .pure (.refl h) trivial
  dsimp only
  split
  · exact .pure (.refl h) trivial
  refine Framed.bind (P := fun path_root _ => path_root ∉ F.objects) ?_ ?_
  · refine Framed.bind (framed_kzallocObj h _ (by simp [Obj.held]) (by simp [Obj.followed])
      (by simp [Obj.index])) ?_
    intro path_r k₁ hk₁ hp
    refine Framed.bind (modifyPathRoot_fenced hk₁.stands hp.outside.not_mem _
      fun _ _ => hk₁.stands.safe_zero) ?_
    rintro _ k₂ hk₂ -
    exact .pure (.refl hk₂.stands) hp.outside.not_mem
  · intro path_root k₁ hk₁ hp
    split
    · exact .pure (.refl hk₁.stands) trivial
    · exact (pathparserParse_rest_fenced hk₁.stands hp _ _).mono fun _ _ _ _ => trivial

/-! ### Files -/

theorem freeDescriptorSlot_eq_some {file_descriptors : Nat → Nat} {i : Nat}
    (h : freeDescriptorSlot file_descriptors = some i) :
    i < 512 ∧ file_descriptors i = 0 ∧ ∀ j < i, file_descriptors j ≠ 0 := by
  unfold freeDescriptorSlot at h
  rw [List.find?_range_eq_some] at h
  simpa [PLUMOS_MAX_FILE_DESCRIPTORS, and_left_comm] using h

theorem modifyFileDescriptor_fenced (h : F.Stands k) {p : Nat} (hp : F.Safe k p)
    (f : FileDescriptor → FileDescriptor)
    (hprivate : ∀ d, p ≠ 0 → k.objs p = some (.fileDescriptor d) → F.Safe k (f d).private_)
    (hindex : ∀ d, p ≠ 0 → k.objs p = some (.fileDescriptor d) → ∀ i ∈ F.slots,
      (f d).index ≠ i + 1) :
    Framed (Fenced F) (modifyFileDescriptor p f) k fun _ k' => F.Safe k' p ∧
      ∃ d, k.objs p = some (.fileDescriptor d) ∧ Stored k p (.fileDescriptor (f d)) k' := by
  refine framed_modify Obj.fileDescriptor?_eq_some h hp f fun d h0 ho => ⟨?_, ?_, fun i hi => ?_⟩
  · simp [Obj.held]
  · simpa [Obj.followed] using hprivate d h0 ho
  · simpa [Obj.index] using hindex d h0 ho i hi

/-- A new descriptor goes into a free slot. -/
theorem fileNewDescriptor_fenced (h : F.Stands k)
    (hslots : ∀ i ∈ F.slots, k.file_descriptors i ≠ 0) :
    Framed (Fenced F) fileNewDescriptor k fun r k' => r.1 < 0 ∨ F.Safe k' r.2 ∧
      ∃ i < 512, k.file_descriptors i = 0 ∧ k'.file_descriptors i = r.2 ∧
        ∃ d, k'.objs r.2 = some (.fileDescriptor d) ∧ d.index = i + 1 := by
  refine Framed.bind (framed_reads h _) ?_
  rintro _ _ - ⟨rfl, rfl⟩
  cases hslot : freeDescriptorSlot k.file_descriptors with
  | none => exact .pure (.refl h) (Or.inl (by decide))
  | some i =>
    obtain ⟨hi, hfree, -⟩ := freeDescriptorSlot_eq_some hslot
    have hnot : i ∉ F.slots := fun hmem => hslots i hmem hfree
    refine Framed.bind (framed_kzallocObj h _ (by simp [Obj.held]) (by simp [Obj.followed]) ?_) ?_
    · intro j hj
      simp only [Obj.index, Option.some.injEq] at hj
      omega
    intro desc k₁ hk₁ hdesc₁
    refine Framed.bind (modifyFileDescriptor_fenced hk₁.stands hdesc₁ _ (fun d h0 ho =>
      hdesc₁.followed h0 ho (by simp [Obj.followed])) fun d _ _ j hj heq => ?_) ?_
    · dsimp only at heq
      obtain rfl : i = j := by omega
      exact hnot hj
    rintro _ k₂ hk₂ ⟨hdesc₂, d, -, hst⟩
    have hk₃ : Fenced F k₂ { k₂ with file_descriptors := Function.update k₂.file_descriptors i desc } :=
      .of_same hk₂.stands rfl rfl (fun _ _ => rfl) (fun j hj =>
        Function.update_of_ne (fun hji : j = i => hnot (hji ▸ hj)) _ _)
        (fun j => by
          by_cases hj : j = i
          · subst hj
            exact Or.inr (by simpa using hdesc₂)
          · exact Or.inl (Function.update_of_ne hj _ _)) (.refl _)
    refine Framed.bind (Framed.modifies (Q := fun _ k₃ => F.Safe k₃ desc ∧
      k₃.file_descriptors i = desc ∧ k₃.objs = k₂.objs) hk₃
      ⟨hk₃.safe _ hdesc₂, Function.update_self .., rfl⟩) ?_
    rintro _ k₃ hk₃' ⟨hdesc₃, hfds, hobjs⟩
    refine .pure (.refl hk₃'.stands) (Or.inr ⟨hdesc₃, i, hi, hfree, hfds, { d with index := i + 1 },
      ?_, rfl⟩)
    rw [hobjs, hst.self]

/-- `fopen` from where it has the parsed path. -/
theorem fopenRes_rest_fenced (h : F.Stands k) (hslots : ∀ i ∈ F.slots, k.file_descriptors i ≠ 0)
    (root_path : Nat) (mode_str : List UInt8) :
    Framed (Fenced F) (do
      let root ← deref Obj.pathRoot? root_path
      if root.first = 0 then pure (-EINVARG)
      else if root.drive_no ≠ 0 then pure (- EIO)
      else do
        let filesystem ← reads fun k => k.disk.filesystem
        if filesystem = 0 then pure (- EIO)
        else
          let mode := fileGetModeByString mode_str
          if mode = FILE_MODE_INVALID then pure (-EINVARG)
          else do
            let descriptor_private_data ← fat16Open root.first mode
            if ISERR descriptor_private_data then pure (ERROR_I descriptor_private_data)
            else do
              let r ← fileNewDescriptor
              if r.1 < 0 then pure r.1
              else do
                modifyFileDescriptor r.2 fun d => { d with
                  filesystem := filesystem, private_ := descriptor_private_data
                  disk := diskAddress }
                let d ← deref Obj.fileDescriptor? r.2
                pure d.index) k fun res k' => 0 < res → ∃ i : Nat, i < 512 ∧ res = i + 1 ∧
      F.Safe k' (k'.file_descriptors i) := by
  refine Framed.bind (framed_deref h _ _) ?_
  rintro root _ - ⟨rfl, -, -⟩
  split
  · exact .pure (.refl h) fun hpos => absurd hpos (by decide)
  split
  · exact .pure (.refl h) fun hpos => absurd hpos (by decide)
  refine Framed.bind (framed_reads h _) ?_
  rintro filesystem _ - ⟨rfl, -⟩
  split
  · exact .pure (.refl h) fun hpos => absurd hpos (by decide)
  dsimp only
  split
  · exact .pure (.refl h) fun hpos => absurd hpos (by decide)
  refine Framed.bind (fat16Open_fenced h _ _) ?_
  intro priv k₁ hk₁ hpriv
  split
  · next herr =>
    refine .pure (.refl hk₁.stands) fun hpos => ?_
    have hneg : ERROR_I priv < 0 := of_decide_eq_true herr
    omega
  next herr =>
  refine Framed.bind (fileNewDescriptor_fenced hk₁.stands fun i hi => ?_) ?_
  · rw [hk₁.slots i hi]
    exact hslots i hi
  rintro r k₂ hk₂ hr
  split
  · next hneg => exact .pure (.refl hk₂.stands) fun hpos => by omega
  next hneg =>
  obtain ⟨hdesc, i, hi, hfree, hfds, d, hd, hindex⟩ := hr.resolve_left hneg
  have hpriv₂ := hk₂.safe _ (hpriv (by simpa using herr))
  have hnot : i ∉ F.slots := fun hmem => hslots i hmem ((hk₁.slots i hmem).symm.trans hfree)
  refine Framed.bind (modifyFileDescriptor_fenced hk₂.stands hdesc _ (fun _ _ _ => hpriv₂)
    fun d' h0 ho j hj heq => ?_) ?_
  · rw [hd] at ho
    cases ho
    obtain rfl : i = j := by
      rw [hindex] at heq
      omega
    exact hnot hj
  rintro _ k₃ hk₃ ⟨hdesc₃, d', hd', hst⟩
  refine Framed.bind (framed_deref hk₃.stands _ _) ?_
  rintro d₃ _ - ⟨rfl, -, hd₃⟩
  rw [Obj.fileDescriptor?_eq_some, hst.self] at hd₃
  cases hd₃
  rw [hd] at hd'
  cases hd'
  refine .pure (.refl hk₃.stands) fun _ => ⟨i, hi, hindex, ?_⟩
  rw [hst.globals.file_descriptors, hfds]
  exact hdesc₃

/-- A positive result of `fopen` is the number of a slot with a safe descriptor. -/
theorem fopen_fenced (h : F.Stands k) (hslots : ∀ i ∈ F.slots, k.file_descriptors i ≠ 0)
    (filename mode_str : List UInt8) :
    Framed (Fenced F) (fopen filename mode_str) k fun fd k' => fd ≠ 0 →
      ∃ i : Nat, i < 512 ∧ fd = i + 1 ∧ F.Safe k' (k'.file_descriptors i) := by
  unfold fopen
  refine Framed.bind (R := Fenced F) (P := fun (res : Int) k' => 0 < res → ∃ i : Nat, i < 512 ∧ res = i + 1 ∧
    F.Safe k' (k'.file_descriptors i)) ?_ ?_
  · refine Framed.bind (pathparserParse_fenced h filename) ?_
    rintro root_path k₁ hk₁ -
    split
    · exact .pure (.refl hk₁.stands) fun hpos => absurd hpos (by decide)
    · refine fopenRes_rest_fenced hk₁.stands (fun i hi => ?_) _ _
      rw [hk₁.slots i hi]
      exact hslots i hi
  · intro res k₁ hk₁ hres
    refine .pure (.refl hk₁.stands) fun hne => ?_
    split at hne
    · exact absurd rfl hne
    · next hnonneg =>
      rw [if_neg hnonneg]
      exact hres (by omega)

theorem fileGetDescriptor_fenced (h : F.Stands k) (fd : Int) :
    Framed (Fenced F) (fileGetDescriptor fd) k fun desc k' => k = k' ∧
      (desc = 0 ∨ 0 < fd ∧ fd < 512 ∧ desc = k.file_descriptors (fd - 1).toNat) := by
  unfold fileGetDescriptor
  split
  · exact .pure (.refl h) ⟨rfl, Or.inl rfl⟩
  · next hfd =>
    simp only [PLUMOS_MAX_FILE_DESCRIPTORS] at hfd
    exact .reads (.refl h) ⟨rfl, Or.inr ⟨by omega, by omega, rfl⟩⟩

theorem descFilesystem_fenced (h : F.Stands k) (d : FileDescriptor) :
    Framed (Fenced F) (descFilesystem d) k fun _ k' => k = k' := by
  unfold descFilesystem
  split
  · exact .fails
  · exact .pure (.refl h) rfl

theorem fstat_fenced (h : F.Stands k) (fd : Int) :
    Framed (Fenced F) (fstat fd) k fun _ k' => k = k' := by
  refine Framed.bind (fileGetDescriptor_fenced h fd) ?_
  rintro desc _ - ⟨rfl, -⟩
  split
  · exact .pure (.refl h) rfl
  refine Framed.bind (framed_deref h _ _) ?_
  rintro d _ - ⟨rfl, -, -⟩
  refine Framed.bind (descFilesystem_fenced h d) ?_
  rintro _ _ - rfl
  exact fat16Stat_fenced h _

theorem fread_fenced (h : F.Stands k) {ptr size nmemb : Nat} (hsize : size < 0x100000000)
    (hclear : F.Clear ptr (size * nmemb)) (fd : Int) :
    Framed (Fenced F) (fread ptr size nmemb fd) k fun _ k' => k'.objs = k.objs := by
  unfold fread
  split
  · exact .pure (.refl h) rfl
  refine Framed.bind (fileGetDescriptor_fenced h fd) ?_
  rintro desc _ - ⟨rfl, -⟩
  split
  · exact .pure (.refl h) rfl
  refine Framed.bind (framed_deref h _ _) ?_
  rintro d _ - ⟨rfl, -, -⟩
  refine Framed.bind (descFilesystem_fenced h d) ?_
  rintro _ _ - rfl
  exact fat16Read_fenced h _ hsize hclear

/-- `fseek` on a safe descriptor. -/
theorem fseek_fenced (h : F.Stands k) (fd offset : Int) (whence : Nat)
    (hfd : 0 < fd → fd < 512 → F.Safe k (k.file_descriptors (fd - 1).toNat)) :
    Framed (Fenced F) (fseek fd offset whence) k fun _ _ => True := by
  refine Framed.bind (fileGetDescriptor_fenced h fd) ?_
  rintro desc _ - ⟨rfl, hdesc⟩
  split
  · exact .pure (.refl h) trivial
  next hne =>
  obtain ⟨h₁, h₂, rfl⟩ := hdesc.resolve_left hne
  refine Framed.bind (framed_deref h _ _) ?_
  rintro d _ - ⟨rfl, h0, hd⟩
  rw [Obj.fileDescriptor?_eq_some] at hd
  refine Framed.bind (descFilesystem_fenced h d) ?_
  rintro _ _ - rfl
  exact fat16Seek_fenced h ((hfd h₁ h₂).followed h0 hd (by simp [Obj.followed])) _ _

/-- `fclose` of a safe descriptor. -/
theorem fclose_fenced (h : F.Stands k) (fd : Int)
    (hfd : 0 < fd → fd < 512 → F.Safe k (k.file_descriptors (fd - 1).toNat)) :
    Framed (Fenced F) (fclose fd) k fun _ _ => True := by
  refine Framed.bind (fileGetDescriptor_fenced h fd) ?_
  rintro desc _ - ⟨rfl, hdesc⟩
  split
  · exact .pure (.refl h) trivial
  next hne =>
  obtain ⟨h₁, h₂, rfl⟩ := hdesc.resolve_left hne
  have hsafe := hfd h₁ h₂
  refine Framed.bind (framed_deref h _ _) ?_
  rintro d _ - ⟨rfl, h0, hd⟩
  rw [Obj.fileDescriptor?_eq_some] at hd
  refine Framed.bind (descFilesystem_fenced h d) ?_
  rintro _ _ - rfl
  refine Framed.bind (fat16Close_fenced h (hsafe.followed h0 hd (by simp [Obj.followed]))) ?_
  rintro res k₁ hk₁ -
  split
  · refine Framed.bind (P := fun _ _ => True) ?_ fun _ k₂ hk₂ _ => .pure (.refl hk₂.stands) trivial
    refine Framed.bind (framed_deref hk₁.stands _ _) ?_
    rintro d₁ _ - ⟨rfl, -, hd₁⟩
    rw [Obj.fileDescriptor?_eq_some] at hd₁
    split
    · exact .fails
    next hin =>
    refine Framed.bind (P := fun _ _ => True) (.modifies (.of_same hk₁.stands rfl rfl
      (fun _ _ => rfl) (fun i hi => ?_) (fun i => ?_) (.refl _)) trivial) ?_
    · have hindex := ((hk₁.safe _ hsafe).fits h0 hd₁).index i hi
      simp only [Obj.index, ne_eq, Option.some.injEq] at hindex
      exact Function.update_of_ne (by omega) _ _
    · by_cases hi : i = (d₁.index - 1).toNat
      · subst hi
        exact Or.inr (by simpa using hk₁.stands.safe_zero)
      · exact Or.inl (Function.update_of_ne hi _ _)
    rintro _ k₂ hk₂ -
    exact (framed_kfree hk₂.stands hsafe.outside).mono fun _ _ _ _ => trivial
  · exact .pure (.refl hk₁.stands) trivial

end PlumOS
