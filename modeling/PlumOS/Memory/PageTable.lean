import Mathlib.Data.List.Nodup
import Mathlib.Data.List.Pairwise
import PlumOS.Lib.LabelledRun
import PlumOS.Memory.AddressSpace

/-!
# Page tables as maps

An address space is a map from page numbers to entries. `paging_set` updates it at one
page, `paging_get` reads it, and no call reaches the blocks of another address space.

## Main definitions

- `OnlyIn` — a change of the structures at some addresses alone
- `SpaceRun`, `SpaceStep` — address spaces, and the calls that create and change them

## Main results

- `MapsSpace.get`, `MapsSpace.set`, `MapsSpace.map`, `MapsSpace.mapTo`
- `space_run_maps` — the map law over all runs
-/

namespace PlumOS

open StateExcept LabelledRun

/-- `k'` is `k` but for structures at addresses in `ptrs`. -/
structure OnlyIn (ptrs : List Nat) (k k' : Kernel) : Prop where
  objs : ∀ q, q ∉ ptrs → k'.objs q = k.objs q
  heap_entries : k'.heap_entries = k.heap_entries
  mem : k'.mem = k.mem
  disk : k'.disk = k.disk
  globals : SameGlobals k k'

theorem OnlyIn.refl (ptrs : List Nat) (k : Kernel) : OnlyIn ptrs k k :=
  ⟨fun _ _ => rfl, rfl, rfl, rfl, .refl k⟩

theorem OnlyIn.trans {ptrs : List Nat} {k₁ k₂ k₃ : Kernel} (h : OnlyIn ptrs k₁ k₂)
    (h' : OnlyIn ptrs k₂ k₃) : OnlyIn ptrs k₁ k₃ where
  objs := fun q hq => (h'.objs q hq).trans (h.objs q hq)
  heap_entries := h'.heap_entries.trans h.heap_entries
  mem := h'.mem.trans h.mem
  disk := h'.disk.trans h.disk
  globals := h.globals.trans h'.globals

theorem Stored.onlyIn {ptrs : List Nat} {k k' : Kernel} {p : Nat} {o : Obj} (h : Stored k p o k')
    (hp : p ∈ ptrs) : OnlyIn ptrs k k' :=
  ⟨fun q hq => h.other q fun hqp => hq (hqp ▸ hp), h.heap_entries, h.mem, h.disk, h.globals⟩

theorem OnlyIn.alive {ptrs : List Nat} {k k' : Kernel} (h : OnlyIn ptrs k k') {p n : Nat}
    (hp : k.Alive p n) : k'.Alive p n := hp.congr h.heap_entries

/-- An address space survives every step that keeps its blocks. -/
theorem MapsSpace.congr {k k' : Kernel} {chunk : Nat} {ptrs : List Nat} {m : Nat → Nat}
    (h : MapsSpace k chunk ptrs m) (hk : ∀ p ∈ ptrs, k'.Alive p 1 ∧ k'.objs p = k.objs p) :
    MapsSpace k' chunk ptrs m := by
  obtain ⟨d, w, hc, hd, rfl, hnodup, _, htables⟩ := h
  refine ⟨d, w, ?_, ?_, rfl, hnodup, fun p hp => (hk p hp).1, fun i hi => ?_⟩
  · rw [(hk chunk (by simp)).2, hc]
  · rw [(hk d (by simp)).2, hd]
  · obtain ⟨e, he, hm⟩ := htables i hi
    have hmem : pageMask (w i) ∈ tablePtrs w 0 1024 :=
      List.mem_map_of_mem (List.mem_range'_1.mpr ⟨by omega, by omega⟩)
    exact ⟨e, by rw [(hk _ (by simp [hmem])).2, he], hm⟩

/-! ### One entry -/

theorem pagingGetIndexes_of_aligned {virt : Nat} (h : virt % 4096 = 0) :
    pagingGetIndexes virt = (0, virt / 0x400000, virt % 0x400000 / 4096) := by
  have haligned : pagingIsAligned virt = true := by
    unfold pagingIsAligned
    exact beq_iff_eq.mpr h
  unfold pagingGetIndexes
  rw [haligned]
  rfl

theorem pagingSet_of_aligned {virt : Nat} (h : virt % 4096 = 0) (directory val : Nat) :
    pagingSet directory virt val = (do
      let dir ← deref Obj.words? directory
      let entries ← deref Obj.words? (pageMask (dir (virt / 0x400000)))
      storeObj (pageMask (dir (virt / 0x400000)))
        (.words (Function.update entries (virt % 0x400000 / 4096) val))
      pure 0) := by
  have haligned : pagingIsAligned virt = true := by
    unfold pagingIsAligned
    exact beq_iff_eq.mpr h
  unfold pagingSet
  rw [haligned, pagingGetIndexes_of_aligned h]
  rfl

variable {k : Kernel} {chunk : Nat} {ptrs : List Nat} {m : Nat → Nat}

/-- `paging_get` reads the entry of the page. -/
theorem MapsSpace.get (h : MapsSpace k chunk ptrs m) {d virt : Nat}
    (hd : k.objs chunk = some (.chunk d)) (hv : virt % 4096 = 0) (hlt : virt < 0x100000000) :
    pagingGet d virt k = .ok (m (virt / 4096), k) := by
  obtain ⟨d', w, hc, hdir, rfl, -, ha, htables⟩ := h
  rw [hd] at hc
  cases hc
  obtain ⟨e, he, hm⟩ := htables (virt / 0x400000) (by omega)
  have hmem : pageMask (w (virt / 0x400000)) ∈ tablePtrs w 0 1024 :=
    List.mem_map_of_mem (List.mem_range'_1.mpr ⟨by omega, by omega⟩)
  have hdir' : deref Obj.words? d k = .ok (w, k) := deref_ok (ha d (by simp)).ne_zero hdir rfl
  have htable : deref Obj.words? (pageMask (w (virt / 0x400000))) k = .ok (e, k) :=
    deref_ok (ha _ (by simp [hmem])).ne_zero he rfl
  unfold pagingGet
  rw [pagingGetIndexes_of_aligned hv]
  dsimp only
  rw [bind_of_ok hdir', bind_of_ok htable, hm _ (by omega),
    show 1024 * (virt / 0x400000) + virt % 0x400000 / 4096 = virt / 4096 by omega]
  rfl

/-- `paging_set` changes the entry of the page, and nothing outside the address space. -/
theorem MapsSpace.set (h : MapsSpace k chunk ptrs m) {d virt : Nat}
    (hd : k.objs chunk = some (.chunk d)) (hv : virt % 4096 = 0) (hlt : virt < 0x100000000)
    (val : Nat) :
    Returns (pagingSet d virt val) k fun res k' => res = 0 ∧ k'.objs chunk = some (.chunk d) ∧
      MapsSpace k' chunk ptrs (Function.update m (virt / 4096) val) ∧ OnlyIn ptrs k k' := by
  obtain ⟨d', w, hc, hdir, rfl, hnodup, ha, htables⟩ := h
  rw [hd] at hc
  cases hc
  obtain ⟨e, he, hm⟩ := htables (virt / 0x400000) (by omega)
  have htable : ∀ i < 1024, pageMask (w i) ∈ tablePtrs w 0 1024 := fun i hi =>
    List.mem_map_of_mem (List.mem_range'_1.mpr ⟨by omega, by omega⟩)
  have hmem := htable (virt / 0x400000) (by omega)
  simp only [List.nodup_cons, List.mem_cons, not_or] at hnodup
  obtain ⟨⟨hcd, hct⟩, hdt, hnd⟩ := hnodup
  rw [pagingSet_of_aligned hv]
  refine Returns.bind (deref_returns (ha d (by simp)).ne_zero hdir rfl) ?_
  rintro _ _ ⟨rfl, rfl⟩
  refine Returns.bind (deref_returns (ha _ (by simp [hmem])).ne_zero he rfl) ?_
  rintro _ _ ⟨rfl, rfl⟩
  refine Returns.bind (storeObj_spec _ _ _) ?_
  intro _ k' hst
  have hchunk : k'.objs chunk = some (.chunk d) := by
    rw [hst.other chunk fun heq => hct (heq ▸ hmem), hd]
  refine .pure ⟨rfl, hchunk, ⟨d, w, hchunk, ?_, rfl, ?_, fun p hp => hst.alive (ha p hp),
    fun i hi => ?_⟩, hst.onlyIn (by simp [hmem])⟩
  · rw [hst.other d fun heq => hdt (heq ▸ hmem), hdir]
  · exact List.nodup_cons.mpr ⟨by simp [hcd, hct], List.nodup_cons.mpr ⟨hdt, hnd⟩⟩
  · by_cases hi' : i = virt / 0x400000
    · subst hi'
      refine ⟨_, hst.self, fun b hb => ?_⟩
      by_cases hb' : b = virt % 0x400000 / 4096
      · subst hb'
        rw [Function.update_self, show 1024 * (virt / 0x400000) + virt % 0x400000 / 4096 =
          virt / 4096 by omega, Function.update_self]
      · rw [Function.update_of_ne hb', Function.update_of_ne (by omega)]
        exact hm b hb
    · -- another page table is at another address
      obtain ⟨e', he', hm'⟩ := htables i hi
      have hne : pageMask (w i) ≠ pageMask (w (virt / 0x400000)) := by
        intro heq
        have hinj := List.inj_on_of_nodup_map hnd (List.mem_range'_1.mpr ⟨by omega, by omega⟩)
          (List.mem_range'_1.mpr ⟨by omega, by omega⟩) heq
        exact hi' hinj
      refine ⟨e', by rw [hst.other _ hne, he'], fun b hb => ?_⟩
      rw [Function.update_of_ne (by omega)]
      exact hm' b hb

/-- `paging_map` of an aligned address. -/
theorem MapsSpace.map (h : MapsSpace k chunk ptrs m) {virt phys : Nat} (hv : virt % 4096 = 0)
    (hlt : virt < 0x100000000) (hp : phys % 4096 = 0) (flags : Nat) :
    Returns (pagingMap chunk virt phys flags) k fun res k' => res = 0 ∧
      MapsSpace k' chunk ptrs (Function.update m (virt / 4096) (phys ||| flags)) ∧
      OnlyIn ptrs k k' := by
  obtain ⟨d, -, hc, -⟩ := id h
  have hchunk : k.Alive chunk 1 := h.owns.alive chunk h.owns.chunk_mem
  unfold pagingMap
  rw [if_neg (by simp only [PAGING_PAGE_SIZE]; omega)]
  refine Returns.bind (deref_returns hchunk.ne_zero hc rfl) ?_
  rintro _ _ ⟨rfl, rfl⟩
  refine (h.set hc hv hlt _).mono ?_
  rintro res k' ⟨hres, -, hmaps, honly⟩
  exact ⟨hres, hmaps, honly⟩

theorem pagingMap_of_unaligned {virt phys : Nat} (hp : phys % PAGING_PAGE_SIZE ≠ 0) (flags : Nat) :
    pagingMap chunk virt phys flags k = .ok (-EINVARG, k) := by
  unfold pagingMap
  rw [if_pos (Or.inr hp)]
  rfl

/-- The translation of an address by the entry of its page. -/
theorem MapsSpace.translate (h : MapsSpace k chunk ptrs m) {d virt phys flags : Nat}
    (hd : k.objs chunk = some (.chunk d)) (hlt : virt < 0x100000000) (hp : phys % 4096 = 0)
    (hphys : phys < 0x100000000) (hf : flags < 4096) (hm : m (virt / 4096) = phys ||| flags) :
    pagingGetPhyiscalAddress d virt k = .ok (phys + virt % 4096, k) := by
  have haligned : pagingAlignToLowerPage virt % 4096 = 0 := by
    unfold pagingAlignToLowerPage
    simp only [PAGING_PAGE_SIZE]
    omega
  have hget := h.get hd haligned (lt_of_le_of_lt (Nat.sub_le _ _) hlt)
  unfold pagingGetPhyiscalAddress
  rw [bind_of_ok hget]
  unfold pagingAlignToLowerPage
  simp only [PAGING_PAGE_SIZE]
  rw [show (virt - virt % 4096) / 4096 = virt / 4096 by omega, hm, pageMask_or_flags hp hphys hf,
    show virt - (virt - virt % 4096) = virt % 4096 by omega]
  rfl

/-- The address of a page that is mapped to itself. -/
theorem MapsSpace.phyiscal (h : MapsSpace k chunk ptrs m) {d virt flags : Nat}
    (hd : k.objs chunk = some (.chunk d)) (hlt : virt < 0x100000000) (hf : flags < 4096)
    (hm : m (virt / 4096) = virt / 4096 * 4096 ||| flags) :
    pagingGetPhyiscalAddress d virt k = .ok (virt, k) := by
  rw [h.translate hd hlt (by omega) (by omega) hf hm,
    show virt / 4096 * 4096 + virt % 4096 = virt by omega]

/-! ### Ranges -/

/-- Only the entries of the 2²⁰ pages count. -/
theorem MapsSpace.ext {m' : Nat → Nat} (h : MapsSpace k chunk ptrs m)
    (hm : ∀ page < 0x100000, m page = m' page) : MapsSpace k chunk ptrs m' := by
  obtain ⟨d, w, hc, hd, hptrs, hnodup, ha, htables⟩ := h
  refine ⟨d, w, hc, hd, hptrs, hnodup, ha, fun i hi => ?_⟩
  obtain ⟨e, he, hem⟩ := htables i hi
  exact ⟨e, he, fun b hb => (hem b hb).trans (hm _ (by omega))⟩

/-- The number of pages from `page` on to `p`, around the end of the address space. -/
def pageDistance (page p : Nat) : Nat := (p + 0x100000 - page) % 0x100000

/-- The entries when `n` pages from `page` on are mapped to the memory from `phys` on. -/
def mapRange (m : Nat → Nat) (page phys n flags : Nat) : Nat → Nat := fun p =>
  if pageDistance page p < n then (phys + pageDistance page p * 4096) ||| flags else m p

theorem mapRange_zero (m : Nat → Nat) (page phys flags : Nat) : mapRange m page phys 0 flags = m := by
  funext p
  exact if_neg (Nat.not_lt_zero _)

/-- In a range that does not go around the end, the distance is a difference. -/
theorem mapRange_of_le (m : Nat → Nat) {page n p : Nat} (phys flags : Nat) (hn : page + n ≤ 0x100000)
    (hp : p < 0x100000) : mapRange m page phys n flags p =
      if page ≤ p ∧ p < page + n then (phys + (p - page) * 4096) ||| flags else m p := by
  unfold mapRange pageDistance
  by_cases hin : page ≤ p ∧ p < page + n
  · rw [if_pos hin, if_pos (by omega), show (p + 0x100000 - page) % 0x100000 = p - page by omega]
  · rw [if_neg hin, if_neg (by omega)]

/-- The first page of a range, then the others. -/
theorem mapRange_succ (m : Nat → Nat) {page n p : Nat} (phys flags : Nat) (hpage : page < 0x100000)
    (hn : n < 0xfffff) (hp : p < 0x100000) :
    mapRange (Function.update m page (phys ||| flags)) ((page + 1) % 0x100000) (phys + 4096) n flags p =
      mapRange m page phys (n + 1) flags p := by
  unfold mapRange
  by_cases hpp : p = page
  · subst hpp
    have h₁ : pageDistance p p = 0 := by
      unfold pageDistance
      omega
    have h₂ : ¬ pageDistance ((p + 1) % 0x100000) p < n := by
      unfold pageDistance
      omega
    rw [if_neg h₂, h₁, if_pos (by omega), Function.update_self, Nat.zero_mul, Nat.add_zero]
  · have hdist : pageDistance page p = pageDistance ((page + 1) % 0x100000) p + 1 := by
      unfold pageDistance
      omega
    rw [hdist, Function.update_of_ne hpp]
    by_cases hlt : pageDistance ((page + 1) % 0x100000) p < n
    · rw [if_pos hlt, if_pos (by omega), show phys + 4096 +
        pageDistance ((page + 1) % 0x100000) p * 4096 =
          phys + (pageDistance ((page + 1) % 0x100000) p + 1) * 4096 by omega]
    · rw [if_neg hlt, if_neg (by omega)]

/-- `paging_map_range` of aligned addresses. -/
theorem MapsSpace.mapRange (flags : Nat) : ∀ (n : Nat) {k : Kernel} {m : Nat → Nat} {virt phys : Nat},
    MapsSpace k chunk ptrs m → virt % 4096 = 0 → virt < 0x100000000 → phys % 4096 = 0 →
    phys + 4096 * n < 0x100000000 →
    Returns (pagingMapRange chunk flags n virt phys) k fun res k' => res = 0 ∧
      MapsSpace k' chunk ptrs (mapRange m (virt / 4096) phys n flags) ∧ OnlyIn ptrs k k' := by
  intro n
  induction n with
  | zero =>
    intro k m virt phys h _ _ _ _
    rw [mapRange_zero]
    exact .pure ⟨rfl, h, .refl ptrs k⟩
  | succ n ih =>
    intro k m virt phys h hv hlt hp hend
    refine Returns.bind (h.map hv hlt hp flags) ?_
    rintro res k₁ ⟨rfl, h₁, honly₁⟩
    rw [if_neg (lt_irrefl 0)]
    dsimp only
    have hphys : u32 ((phys + PAGING_PAGE_SIZE : Nat) : Int) = phys + 4096 := by
      unfold u32
      simp only [PAGING_PAGE_SIZE]
      omega
    have hvirt : u32 ((virt + PAGING_PAGE_SIZE : Nat) : Int) = (virt + 4096) % 0x100000000 := by
      unfold u32
      simp only [PAGING_PAGE_SIZE]
      omega
    rw [hphys, hvirt]
    refine (ih h₁ (by omega) (by omega) (by omega) (by omega)).mono ?_
    rintro res k₂ ⟨hres, h₂, honly₂⟩
    refine ⟨hres, h₂.ext fun p hp => ?_, honly₁.trans honly₂⟩
    rw [show (virt + 4096) % 0x100000000 / 4096 = (virt / 4096 + 1) % 0x100000 by omega]
    exact mapRange_succ m phys flags (by omega) (by omega) hp

/-- `paging_map_to` of aligned addresses. -/
theorem MapsSpace.mapTo (h : MapsSpace k chunk ptrs m) {virt phys phys_end : Nat}
    (hv : virt % 4096 = 0) (hlt : virt < 0x100000000) (hp : phys % 4096 = 0)
    (he : phys_end % 4096 = 0) (hle : phys ≤ phys_end) (hend : phys_end < 0x100000000)
    (flags : Nat) :
    Returns (pagingMapTo chunk virt phys phys_end flags) k fun res k' => res = 0 ∧
      MapsSpace k' chunk ptrs
        (PlumOS.mapRange m (virt / 4096) phys ((phys_end - phys) / 4096) flags) ∧
      OnlyIn ptrs k k' := by
  unfold pagingMapTo
  rw [if_neg (by simp only [PAGING_PAGE_SIZE]; omega),
    if_neg (by simp only [PAGING_PAGE_SIZE]; omega),
    if_neg (by simp only [PAGING_PAGE_SIZE]; omega), if_neg (by omega)]
  exact h.mapRange flags _ hv hlt hp (by simp only [PAGING_PAGE_SIZE]; omega)

/-! ### Translations of a range -/

/-- The directory of an address space is its second block. -/
theorem MapsSpace.directory_eq {k' : Kernel} {m' : Nat → Nat} {d : Nat}
    (h : MapsSpace k chunk ptrs m) (h' : MapsSpace k' chunk ptrs m')
    (hd : k.objs chunk = some (.chunk d)) : k'.objs chunk = some (.chunk d) := by
  obtain ⟨c, w, hc, -, hptrs, -⟩ := h
  obtain ⟨c', w', hc', -, hptrs', -⟩ := h'
  rw [hd] at hc
  cases hc
  rw [hptrs] at hptrs'
  injection hptrs' with _ htail
  injection htail with hdir _
  rw [hdir]
  exact hc'

/-- What `paging_get` reads of an entry made of an address and flags. -/
theorem flags_of_entry {a f : Nat} (ha : a % 4096 = 0) (hf : f < 4096) :
    (a ||| f) &&& 0xfff = f := by
  rw [or_flags ha hf, Nat.and_two_pow_sub_one_eq_mod _ 12]
  omega

/-- What the flags of an entry are. -/
theorem entry_and {a f b : Nat} (ha : a % 4096 = 0) (hf : f < 4096) (hb : 0xfff &&& b = b) :
    (a ||| f) &&& b = f &&& b := by
  calc (a ||| f) &&& b = ((a ||| f) &&& 0xfff) &&& b := by rw [Nat.and_assoc, hb]
    _ = f &&& b := by rw [flags_of_entry ha hf]

/-- `paging_map_to`, for every address space, range and flags: an unaligned address or a
range that ends before it starts is refused and nothing is changed. Otherwise, when the
range fits into the address space, every address of it is translated to its place in
the memory from `phys` on by an entry with these flags, and every other page keeps its
entry. -/
theorem pagingMapTo_correct {d virt phys phys_end flags : Nat} (h : MapsSpace k chunk ptrs m)
    (hd : k.objs chunk = some (.chunk d)) (hv : virt < 0x100000000)
    (he : phys_end < 0x100000000) (hf : flags < 4096) :
    ((virt % PAGING_PAGE_SIZE ≠ 0 ∨ phys % PAGING_PAGE_SIZE ≠ 0 ∨
        phys_end % PAGING_PAGE_SIZE ≠ 0 ∨ phys_end < phys) →
      pagingMapTo chunk virt phys phys_end flags k = .ok (-EINVARG, k)) ∧
    (virt % PAGING_PAGE_SIZE = 0 → phys % PAGING_PAGE_SIZE = 0 →
      phys_end % PAGING_PAGE_SIZE = 0 → phys ≤ phys_end →
      virt + (phys_end - phys) ≤ 0x100000000 →
      Returns (pagingMapTo chunk virt phys phys_end flags) k fun res k' =>
        res = 0 ∧ k'.objs chunk = some (.chunk d) ∧
        (∀ offset, offset < phys_end - phys →
          pagingGetPhyiscalAddress d (virt + offset) k' = .ok (phys + offset, k') ∧
          ∃ entry, pagingGet d (pagingAlignToLowerPage (virt + offset)) k' = .ok (entry, k') ∧
            entry &&& 0xfff = flags) ∧
        ∀ page, page < 0x100000 →
          (page * PAGING_PAGE_SIZE < virt ∨ virt + (phys_end - phys) ≤ page * PAGING_PAGE_SIZE) →
          ∃ entry, pagingGet d (page * PAGING_PAGE_SIZE) k = .ok (entry, k) ∧
            pagingGet d (page * PAGING_PAGE_SIZE) k' = .ok (entry, k')) := by
  constructor
  · intro hbad
    unfold pagingMapTo
    split_ifs with h₁ h₂ h₃ h₄
    · rfl
    · rfl
    · rfl
    · rfl
    · omega
  · intro hva hpa hea hle hfits
    simp only [PAGING_PAGE_SIZE] at hva hpa hea ⊢
    refine (h.mapTo hva hv hpa hea hle he flags).mono ?_
    rintro res k' ⟨hres, h', -⟩
    have hd' := h.directory_eq h' hd
    have hpages : virt / 4096 + (phys_end - phys) / 4096 ≤ 0x100000 := by omega
    refine ⟨hres, hd', fun offset hoff => ?_, fun page hpage hout => ?_⟩
    · have hentry : PlumOS.mapRange m (virt / 4096) phys ((phys_end - phys) / 4096) flags
          ((virt + offset) / 4096) = (phys + offset / 4096 * 4096) ||| flags := by
        rw [mapRange_of_le m phys flags hpages (by omega), if_pos (by omega),
          show (virt + offset) / 4096 - virt / 4096 = offset / 4096 by omega]
      constructor
      · rw [h'.translate hd' (by omega) (by omega) (by omega) hf hentry,
          show phys + offset / 4096 * 4096 + (virt + offset) % 4096 = phys + offset by omega]
      · have hlower : pagingAlignToLowerPage (virt + offset) = (virt + offset) / 4096 * 4096 := by
          unfold pagingAlignToLowerPage
          simp only [PAGING_PAGE_SIZE]
          omega
        refine ⟨_, h'.get hd' (by rw [hlower]; omega) (by rw [hlower]; omega), ?_⟩
        rw [hlower, show (virt + offset) / 4096 * 4096 / 4096 = (virt + offset) / 4096 by omega,
          hentry]
        exact flags_of_entry (by omega) hf
    · refine ⟨m page, ?_, ?_⟩
      · have hget := h.get hd (show page * 4096 % 4096 = 0 by omega) (by omega)
        rwa [show page * 4096 / 4096 = page by omega] at hget
      · have hget := h'.get hd' (show page * 4096 % 4096 = 0 by omega) (by omega)
        rwa [show page * 4096 / 4096 = page by omega,
          mapRange_of_le m phys flags hpages hpage, if_neg (by omega)] at hget

/-- Two pages across the border of a page table. -/
theorem pagingMapTo_correct_two_pages : ∃ (k k' : Kernel) (chunk d : Nat),
    pagingMapTo chunk 0x3ff000 0x1000000 0x1002000 7 k = .ok (0, k') ∧
      pagingGetPhyiscalAddress d 0x400004 k' = .ok (0x1001004, k') := by
  obtain ⟨chunk, k₁, hnew, -⟩ := pagingNew4gb_returns 5 (boot_freeFrom Disk.blank) (by decide)
  obtain ⟨-, -, ptrs, hmaps, -⟩ := pagingNew4gb_maps (show 5 < 4096 by decide) _ _ _ hnew
  obtain ⟨d, -, hd, -⟩ := id hmaps
  obtain ⟨res, k₂, hmap, rfl, -, htranslate, -⟩ :=
    (@pagingMapTo_correct _ _ _ _ d 0x3ff000 0x1000000 0x1002000 7 hmaps hd (by decide)
      (by decide) (by decide)).2 (by decide) (by decide) (by decide) (by decide) (by decide)
  exact ⟨k₁, k₂, chunk, d, hmap, (htranslate 0x1004 (by decide)).1⟩

/-! ### Runs -/

/-- An address space, with what was stored for its pages. -/
structure Space where
  chunk : Nat
  flags : Nat
  stored : Nat → Option Nat

/-- The kernel with the address spaces that were created. -/
structure SpaceRun where
  kernel : Kernel
  spaces : List Space

/-- The entry of a page: the value last stored, or the page's own address. -/
def Space.entry (sp : Space) (page : Nat) : Nat :=
  (sp.stored page).getD (page * PAGING_PAGE_SIZE ||| sp.flags)

/-- `val` is stored for the page in the address space of `chunk`. -/
def storeEntry (spaces : List Space) (chunk page val : Nat) : List Space :=
  spaces.map fun sp =>
    if sp.chunk = chunk then { sp with stored := Function.update sp.stored page (some val) } else sp

inductive SpaceCall
  | new (flags : Nat)
  | set (chunk virt val : Nat)
  | map (chunk virt phys flags : Nat)

/-- A call. `paging_set` gets the directory of an address space, and `paging_map` of an
unaligned physical address stores nothing. -/
inductive SpaceStep : SpaceRun → SpaceCall → SpaceRun → Prop
  | new {s : SpaceRun} {flags chunk : Nat} {k' : Kernel} (hflags : flags < 256)
      (h : pagingNew4gb flags s.kernel = .ok (chunk, k')) :
      SpaceStep s (.new flags) ⟨k', s.spaces ++ [⟨chunk, flags, fun _ => none⟩]⟩
  | set {s : SpaceRun} {sp : Space} {d virt val : Nat} {res : Int} {k' : Kernel}
      (hsp : sp ∈ s.spaces) (hd : s.kernel.objs sp.chunk = some (.chunk d))
      (hv : virt % PAGING_PAGE_SIZE = 0) (hlt : virt < 0x100000000)
      (h : pagingSet d virt val s.kernel = .ok (res, k')) :
      SpaceStep s (.set sp.chunk virt val)
        ⟨k', storeEntry s.spaces sp.chunk (virt / PAGING_PAGE_SIZE) val⟩
  | map {s : SpaceRun} {sp : Space} {virt phys flags : Nat} {res : Int} {k' : Kernel}
      (hsp : sp ∈ s.spaces) (hv : virt % PAGING_PAGE_SIZE = 0) (hlt : virt < 0x100000000)
      (h : pagingMap sp.chunk virt phys flags s.kernel = .ok (res, k')) :
      SpaceStep s (.map sp.chunk virt phys flags)
        ⟨k', if phys % PAGING_PAGE_SIZE = 0 then
          storeEntry s.spaces sp.chunk (virt / PAGING_PAGE_SIZE) (phys ||| flags) else s.spaces⟩

/-- Every address space reads back what was stored in it, page by page, and takes what
is stored next. -/
structure SpacesHold (s : SpaceRun) : Prop where
  get : ∀ sp ∈ s.spaces, ∃ d, s.kernel.objs sp.chunk = some (.chunk d) ∧
    ∀ virt < 0x100000000, virt % PAGING_PAGE_SIZE = 0 →
      pagingGet d virt s.kernel = .ok (sp.entry (virt / PAGING_PAGE_SIZE), s.kernel)
  set : ∀ sp ∈ s.spaces, ∀ d, s.kernel.objs sp.chunk = some (.chunk d) →
    ∀ virt < 0x100000000, virt % PAGING_PAGE_SIZE = 0 → ∀ val,
      Returns (pagingSet d virt val) s.kernel fun res _ => res = 0
  phyiscal : ∀ sp ∈ s.spaces, ∀ d, s.kernel.objs sp.chunk = some (.chunk d) →
    ∀ virt < 0x100000000, sp.stored (virt / PAGING_PAGE_SIZE) = none →
      pagingGetPhyiscalAddress d virt s.kernel = .ok (virt, s.kernel)

/-- The address spaces own disjoint blocks and hold their entries. -/
def SpacesInv (s : SpaceRun) : Prop :=
  ∃ owned : Nat → List Nat,
    s.spaces.Pairwise (fun a b => (owned a.chunk).Disjoint (owned b.chunk)) ∧
      ∀ sp ∈ s.spaces, sp.flags < 256 ∧ MapsSpace s.kernel sp.chunk (owned sp.chunk) sp.entry

theorem SpacesInv.hold {s : SpaceRun} (h : SpacesInv s) : SpacesHold s := by
  obtain ⟨owned, -, hmaps⟩ := h
  refine ⟨fun sp hsp => ?_, fun sp hsp d hd virt hlt hv val => ?_, fun sp hsp d hd virt hlt hno => ?_⟩
  · obtain ⟨d, -, hd, -⟩ := id (hmaps sp hsp).2
    exact ⟨d, hd, fun virt hlt hv => (hmaps sp hsp).2.get hd hv hlt⟩
  · exact ((hmaps sp hsp).2.set hd hv hlt val).mono fun _ _ h => h.1
  · have hflags := (hmaps sp hsp).1
    refine (hmaps sp hsp).2.phyiscal hd hlt (show sp.flags < 4096 by omega) ?_
    simp only [PAGING_PAGE_SIZE] at hno
    unfold Space.entry
    rw [hno]
    rfl

theorem storeEntry_chunk (spaces : List Space) (chunk page val : Nat) :
    (storeEntry spaces chunk page val).map Space.chunk = spaces.map Space.chunk := by
  unfold storeEntry
  rw [List.map_map]
  apply List.map_congr_left
  intro sp _
  rw [Function.comp_apply]
  split <;> rfl

theorem mem_storeEntry {spaces : List Space} {sp : Space} (hsp : sp ∈ spaces) (page val : Nat) :
    { sp with stored := Function.update sp.stored page (some val) } ∈
      storeEntry spaces sp.chunk page val :=
  List.mem_map.mpr ⟨sp, hsp, if_pos rfl⟩

/-- A new entry in one address space leaves the others as they are. -/
theorem SpacesInv.stored {s : SpaceRun} {owned : Nat → List Nat}
    (hdisjoint : s.spaces.Pairwise fun a b => (owned a.chunk).Disjoint (owned b.chunk))
    (hmaps : ∀ sp ∈ s.spaces, sp.flags < 256 ∧
      MapsSpace s.kernel sp.chunk (owned sp.chunk) sp.entry)
    {sp : Space} (hsp : sp ∈ s.spaces) {page val : Nat} {k' : Kernel}
    (hnew : MapsSpace k' sp.chunk (owned sp.chunk) (Function.update sp.entry page val))
    (honly : OnlyIn (owned sp.chunk) s.kernel k') :
    SpacesInv ⟨k', storeEntry s.spaces sp.chunk page val⟩ := by
  have hother : ∀ a ∈ s.spaces, a ≠ sp → (owned a.chunk).Disjoint (owned sp.chunk) := by
    intro a ha hne
    have : Std.Symm fun a b : Space => (owned a.chunk).Disjoint (owned b.chunk) :=
      ⟨fun _ _ h p ha hb => h hb ha⟩
    exact hdisjoint.forall ha hsp hne
  have hchunk : ∀ a ∈ s.spaces, a ≠ sp → a.chunk ≠ sp.chunk := by
    intro a ha hne heq
    refine hother a ha hne (hmaps a ha).2.owns.chunk_mem ?_
    rw [heq]
    exact (hmaps sp hsp).2.owns.chunk_mem
  refine ⟨owned, ?_, fun b hb => ?_⟩
  · have hpair : (s.spaces.map Space.chunk).Pairwise fun a b => (owned a).Disjoint (owned b) :=
      List.pairwise_map.mpr hdisjoint
    rw [← storeEntry_chunk s.spaces sp.chunk page val, List.pairwise_map] at hpair
    exact hpair
  · obtain ⟨a, ha, rfl⟩ := List.mem_map.mp hb
    by_cases haeq : a = sp
    · subst haeq
      rw [if_pos rfl]
      refine ⟨(hmaps a ha).1, ?_⟩
      convert hnew using 1
      funext page'
      change (Function.update a.stored page (some val) page').getD
        (page' * PAGING_PAGE_SIZE ||| a.flags) = _
      by_cases hpage : page' = page
      · subst hpage
        rw [Function.update_self, Function.update_self]
        rfl
      · rw [Function.update_of_ne hpage, Function.update_of_ne hpage]
        rfl
    · rw [if_neg (hchunk a ha haeq)]
      refine ⟨(hmaps a ha).1, (hmaps a ha).2.congr fun p hp => ?_⟩
      exact ⟨honly.alive ((hmaps a ha).2.owns.alive p hp),
        honly.objs p fun hmem => hother a ha haeq hp hmem⟩

theorem SpacesInv.step {s s' : SpaceRun} {call : SpaceCall} (h : SpacesInv s)
    (hstep : SpaceStep s call s') : SpacesInv s' := by
  obtain ⟨owned, hdisjoint, hmaps⟩ := h
  cases hstep with
  | @new flags chunk k' hflags hnew =>
    obtain ⟨hkeep, -, ptrs, hptrs, hfresh⟩ := pagingNew4gb_maps (by omega) s.kernel _ _ hnew
    -- no old address space owns a new block
    have hold : ∀ sp ∈ s.spaces, ∀ p ∈ owned sp.chunk, p ∉ ptrs := fun sp hsp p hp hmem =>
      hfresh p hmem 1 ((hmaps sp hsp).2.owns.alive p hp)
    have hne : ∀ sp ∈ s.spaces, sp.chunk ≠ chunk := fun sp hsp heq =>
      hold sp hsp _ (hmaps sp hsp).2.owns.chunk_mem (heq ▸ hptrs.owns.chunk_mem)
    refine ⟨Function.update owned chunk ptrs, ?_, fun sp hsp => ?_⟩
    · rw [List.pairwise_append]
      refine ⟨?_, List.pairwise_singleton _ _, fun a ha b hb => ?_⟩
      · refine hdisjoint.imp_of_mem fun {a b} ha hb hab => ?_
        rwa [Function.update_of_ne (hne a ha), Function.update_of_ne (hne b hb)]
      · rw [List.mem_singleton.mp hb, Function.update_of_ne (hne a ha), Function.update_self]
        exact fun p hp hmem => hold a ha p hp hmem
    · rcases List.mem_append.mp hsp with hsp | hsp
      · rw [Function.update_of_ne (hne sp hsp)]
        refine ⟨(hmaps sp hsp).1, (hmaps sp hsp).2.congr fun p hp => ?_⟩
        exact hkeep p 1 ((hmaps sp hsp).2.owns.alive p hp) (by simp)
      · rw [List.mem_singleton.mp hsp, Function.update_self]
        exact ⟨hflags, hptrs⟩
  | set hsp hd hv hlt hset =>
    obtain ⟨-, -, hnew, honly⟩ := ((hmaps _ hsp).2.set hd hv hlt _).ensures _ _ hset
    exact SpacesInv.stored hdisjoint hmaps hsp hnew honly
  | @map sp virt phys flags res k' hsp hv hlt hmap =>
    by_cases hp : phys % PAGING_PAGE_SIZE = 0
    · rw [if_pos hp]
      obtain ⟨-, hnew, honly⟩ := ((hmaps _ hsp).2.map hv hlt hp flags).ensures _ _ hmap
      exact SpacesInv.stored hdisjoint hmaps hsp hnew honly
    · rw [if_neg hp]
      rw [pagingMap_of_unaligned hp] at hmap
      cases hmap
      exact ⟨owned, hdisjoint, hmaps⟩

/-- In every run of creations and changes, from any kernel, every address space reads
back what was last stored in it for the page, and maps the other pages to themselves. -/
theorem space_run_maps {k : Kernel} {tr : List (SpaceCall × SpaceRun)}
    (hrun : Run SpaceStep ⟨k, []⟩ tr) : AllStates SpacesHold ⟨k, []⟩ tr := by
  have hinit : SpacesInv ⟨k, []⟩ := ⟨fun _ => [], List.Pairwise.nil, by simp⟩
  have hall := hrun.invariant (C := fun _ _ => True)
    (fun {s c s'} (h : SpacesInv s) _ hstep => h.step hstep) hinit
    (allSteps_of_forall (fun _ _ => trivial) _ _)
  exact ⟨hall.1.hold, fun x hx => (hall.2 x hx).hold⟩

/-- The run: a new address space, and one change by each call. -/
theorem space_run_maps_three : ∃ (chunk : Nat) (tr : List (SpaceCall × SpaceRun)),
    tr.map Prod.fst = [.new 5, .set chunk 0x400000 0x1000007, .map chunk 0x5000 0x6000 7] ∧
      AllStates SpacesHold ⟨Kernel.boot Disk.blank, []⟩ tr := by
  obtain ⟨chunk, k₁, hnew, -⟩ := pagingNew4gb_returns 5 (boot_freeFrom Disk.blank) (by decide)
  obtain ⟨-, -, ptrs, hmaps₁, -⟩ := pagingNew4gb_maps (show 5 < 4096 by decide) _ _ _ hnew
  obtain ⟨d, -, hd, -⟩ := id hmaps₁
  obtain ⟨_, k₂, hset, -, -, hmaps₂, -⟩ := hmaps₁.set hd (show 0x400000 % 4096 = 0 by decide)
    (by decide) 0x1000007
  obtain ⟨_, k₃, hmap, -⟩ := hmaps₂.map (show 0x5000 % 4096 = 0 by decide) (by decide)
    (show 0x6000 % 4096 = 0 by decide) 7
  have hin : (⟨chunk, 5, fun _ => none⟩ : Space) ∈ [⟨chunk, 5, fun _ => none⟩] :=
    List.mem_singleton_self _
  have hstep₂ := SpaceStep.set (s := ⟨k₁, [⟨chunk, 5, fun _ => none⟩]⟩) hin hd
    (show 0x400000 % PAGING_PAGE_SIZE = 0 by decide) (by decide) hset
  have hstep₃ := SpaceStep.map (s := ⟨k₂, _⟩) (mem_storeEntry hin (0x400000 / 4096) 0x1000007)
    (show 0x5000 % PAGING_PAGE_SIZE = 0 by decide) (by decide) hmap
  refine ⟨chunk, _, ?_, space_run_maps (.cons (.new (by decide) hnew)
    (.cons hstep₂ (.cons hstep₃ (.nil _))))⟩
  rfl

end PlumOS
