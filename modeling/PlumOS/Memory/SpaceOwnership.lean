import PlumOS.Memory.AddressSpace
import PlumOS.Memory.Ownership

/-!
# What an address space owns

The chunk, the directory and the page tables of an address space are allocations of its
own, whatever else is allocated. Mapping pages writes the tables alone, and releasing the
address space ends these allocations and no others.

## Main definitions

- `HoldsSpace` — the address space of a chunk lies in a set of allocations

## Main results

- `pagingNew4gb_intact`, `pagingMapTo_intact`, `pagingFree4gb_released`
-/

namespace PlumOS

open StateExcept

/-- The address space of `chunk` lies in `S`. -/
def HoldsSpace (S : Set Nat) (k : Kernel) (chunk : Nat) : Prop :=
  chunk ∈ S ∧ ∃ d w, k.objs chunk = some (.chunk d) ∧ d ∈ S ∧ k.objs d = some (.words w) ∧
    ∀ i < 1024, pageMask (w i) ∈ S ∧ pageMask (w i) ≠ d

variable {P S S' : Set Nat} {k k' : Kernel} {chunk : Nat}

theorem HoldsSpace.mono (h : HoldsSpace S k chunk) (hS : S ⊆ S') : HoldsSpace S' k chunk := by
  obtain ⟨hc, d, w, hchunk, hd, hw, htables⟩ := h
  exact ⟨hS hc, d, w, hchunk, hS hd, hw, fun i hi => (htables i hi).imp_left fun hmem => hS hmem⟩

/-! ### paging_new_4gb -/

/-- The tables in front of entry `i` of the directory are in `T`. -/
private theorem pagingNew4gbLoop_intact {flags directory : Nat} (hf : flags < 4096)
    (hout : directory ∉ P) :
    ∀ (fuel i offset : Nat) (k : Kernel) (w : Nat → Nat) (T : Set Nat), Guards P k →
      k.Held directory → k.objs directory = some (.words w) → Beside (insert directory P) T k →
      (∀ j < i, pageMask (w j) ∈ T) →
      Framed (Intact P) (pagingNew4gbLoop flags directory fuel i offset) k fun _ k' =>
        ∃ w' T', k'.Held directory ∧ k'.objs directory = some (.words w') ∧
          Beside (insert directory P) T' k' ∧ ∀ j < i + fuel, pageMask (w' j) ∈ T' := by
  intro fuel
  induction fuel with
  | zero =>
    intro i offset k w T h hheld hw hT htables
    exact .pure (.refl h) ⟨w, T, hheld, hw, hT, htables⟩
  | succ fuel ih =>
    intro i offset k w T h hheld hw hT htables
    refine Framed.bind ((kzallocObj_made ((h.insert hheld).union hT.toGuards) (by decide)
      _).weaken fun _ hk => hk.left.tail) ?_
    rintro entry k₁ - ⟨hk₁, hentry⟩
    refine Ensures.bind (deref_spec _ _ _) ?_
    rintro _ _ ⟨rfl, hne, -⟩
    obtain ⟨hnew, -⟩ := hentry.resolve_left fun h0 => hne h0.1
    have hnotP : entry ∉ P := fun hmem => hnew.not_mem (Or.inl (Set.mem_insert_of_mem _ hmem))
    have hnotd : directory ≠ entry := by
      rintro rfl
      exact hnew.not_mem (Or.inl (Set.mem_insert _ _))
    have hnotT : entry ∉ T := fun hmem => hnew.not_mem (Or.inr hmem)
    refine Framed.bind (intact_storeObj hk₁.left.tail.guards hnotP _) ?_
    intro _ k₂ hk₂ hst₂
    refine Framed.bind (intact_deref hk₂.guards _ _) ?_
    rintro dir _ - ⟨rfl, -, hdir⟩
    rw [Obj.words?_eq_some, hst₂.other _ hnotd, hk₁.left.head.2, hw] at hdir
    cases hdir
    refine Framed.bind (intact_storeObj hk₂.guards hout _) ?_
    intro _ k₃ hk₃ hst₃
    have he : k₃.heap_entries = k₁.heap_entries := hst₃.heap_entries.trans hst₂.heap_entries
    have hT₃ : Beside (insert directory P) (insert entry T) k₃ :=
      ((hT.intact hk₁).congr he).insert (hnew.held.congr he) fun hmem => hnew.not_mem (Or.inl hmem)
    obtain ⟨hal₁, hal₂⟩ := hnew.held.aligned
    refine (ih (i + 1) _ k₃ _ _ hk₃.guards ((hk₁.left.head.1).congr he) hst₃.self hT₃ ?_).mono ?_
    · intro j hj
      by_cases hji : j = i
      · subst hji
        rw [Function.update_self, pageMask_directory_entry hal₁ hal₂ hf]
        exact Set.mem_insert _ _
      · rw [Function.update_of_ne hji]
        exact Set.mem_insert_of_mem _ (htables j (by omega))
    · rintro _ k₄ - ⟨w', T', hheld', hw', hT', htables'⟩
      exact ⟨w', T', hheld', hw', hT', fun j hj => htables' j (by omega)⟩

/-- A new address space is in new memory. -/
theorem pagingNew4gb_intact {flags : Nat} (hf : flags < 4096) (h : Guards P k) :
    Framed (Intact P) (pagingNew4gb flags) k fun chunk k' =>
      ∃ S, Beside P S k' ∧ HoldsSpace S k' chunk := by
  refine Framed.bind (kzallocObj_made h (by decide) _) ?_
  rintro directory k₁ hk₁ (⟨rfl, -⟩ | ⟨hnew, -⟩)
  · exact Ensures.bind (pagingNew4gbLoop_null _ _ _ _ _) fun _ _ hfalse => hfalse.elim
  refine Framed.bind (pagingNew4gbLoop_intact hf hnew.not_mem 1024 0 0 k₁ _ ∅ hk₁.guards hnew.held
    hnew.self (.empty _ hk₁.guards.tidy) fun j hj => absurd hj (Nat.not_lt_zero j)) ?_
  rintro _ k₂ hk₂ ⟨w, T, hheld₂, hw₂, hT₂, htables⟩
  refine Framed.bind ((kzallocObj_made ((hk₂.guards.insert hheld₂).union hT₂.toGuards) (by decide)
    _).weaken fun _ hk => hk.left.tail) ?_
  rintro chunk k₃ - ⟨hk₃, hchunk⟩
  refine Ensures.bind (deref_spec _ _ _) ?_
  rintro _ _ ⟨rfl, hne, -⟩
  obtain ⟨hnew₃, -⟩ := hchunk.resolve_left fun h0 => hne h0.1
  have hnotP : chunk ∉ P := fun hmem => hnew₃.not_mem (Or.inl (Set.mem_insert_of_mem _ hmem))
  have hnotd : directory ≠ chunk := by
    rintro rfl
    exact hnew₃.not_mem (Or.inl (Set.mem_insert _ _))
  refine Framed.bind (intact_storeObj hk₃.left.tail.guards hnotP _) ?_
  intro _ k₄ hk₄ hst₄
  have hT₄ : Beside (insert directory P) T k₄ := (hT₂.intact hk₃).congr hst₄.heap_entries
  have hS₄ : Beside P (insert chunk (insert directory T)) k₄ :=
    ((hT₄.mono (Set.subset_insert _ _)).insert (hk₃.left.head.1.congr hst₄.heap_entries)
      hnew.not_mem).insert (hnew₃.held.congr hst₄.heap_entries) hnotP
  refine .pure (.refl hk₄.guards) ⟨_, hS₄, Set.mem_insert _ _, directory, w, hst₄.self,
    Or.inr (Set.mem_insert _ _), ?_, fun i hi => ⟨Or.inr (Or.inr (htables i (by omega))), ?_⟩⟩
  · rw [hst₄.other _ hnotd, hk₃.left.head.2, hw₂]
  · intro heq
    exact hT₄.apart _ (htables i (by omega)) (heq ▸ Set.mem_insert _ _)

/-! ### paging_map_to -/

/-- The directory index of an address is one of 1024. -/
theorem directory_index_lt {virt : Nat} (h : virt < 0x100000000) :
    (pagingGetIndexes virt).2.1 < 1024 := by
  unfold pagingGetIndexes
  split
  · decide
  · simp only [PAGING_TOTAL_ENTRIES_PER_TABLE, PAGING_PAGE_SIZE]
    omega

theorem pagingMap_intact (h : Guards P k) (hS : ∀ p ∈ S, p ∉ P) (hs : HoldsSpace S k chunk)
    {virt : Nat} (hv : virt < 0x100000000) (phys flags : Nat) :
    Framed (Intact P) (pagingMap chunk virt phys flags) k fun _ k' =>
      HoldsSpace S k' chunk ∧ k'.heap_entries = k.heap_entries := by
  unfold pagingMap
  split
  · exact .pure (.refl h) ⟨hs, rfl⟩
  obtain ⟨hc, d, w, hchunk, hd, hw, htables⟩ := id hs
  refine Framed.bind (intact_deref h _ _) ?_
  rintro directory _ - ⟨rfl, -, hdir⟩
  rw [Obj.chunk?_eq_some, hchunk] at hdir
  cases hdir
  have hindex := directory_index_lt hv
  unfold pagingSet
  split
  · exact .pure (.refl h) ⟨hs, rfl⟩
  split
  next res directory_index table_index hget =>
  rw [hget] at hindex
  split
  · exact .pure (.refl h) ⟨hs, rfl⟩
  refine Framed.bind (intact_deref h _ _) ?_
  rintro dir _ - ⟨rfl, -, hdir⟩
  rw [Obj.words?_eq_some, hw] at hdir
  cases hdir
  obtain ⟨htable, hne⟩ := htables directory_index hindex
  refine Framed.bind (intact_deref h _ _) ?_
  rintro entries _ - ⟨rfl, -, hentries⟩
  rw [Obj.words?_eq_some] at hentries
  refine Framed.bind (intact_storeObj h (hS _ htable) _) ?_
  intro _ k₁ hk₁ hst
  refine .pure (.refl hk₁.guards) ⟨⟨hc, d, w, ?_, hd, ?_, htables⟩, hst.heap_entries⟩
  · rw [hst.other chunk ?_, hchunk]
    rintro rfl
    rw [hchunk] at hentries
    cases hentries
  · rw [hst.other d hne.symm, hw]

private theorem pagingMapRange_intact (hS : ∀ p ∈ S, p ∉ P) (flags : Nat) :
    ∀ (total_pages virt phys : Nat) (k : Kernel), Guards P k → HoldsSpace S k chunk →
      virt < 0x100000000 →
      Framed (Intact P) (pagingMapRange chunk flags total_pages virt phys) k fun _ k' =>
        HoldsSpace S k' chunk ∧ k'.heap_entries = k.heap_entries := by
  intro total_pages
  induction total_pages with
  | zero => exact fun _ _ k h hs _ => .pure (.refl h) ⟨hs, rfl⟩
  | succ total_pages ih =>
    intro virt phys k h hs hv
    refine Framed.bind (pagingMap_intact h hS hs hv phys flags) ?_
    rintro res k₁ hk₁ ⟨hs₁, he₁⟩
    split
    · exact .pure (.refl hk₁.guards) ⟨hs₁, he₁⟩
    · refine (ih _ _ k₁ hk₁.guards hs₁ (u32_lt _)).mono ?_
      rintro _ k₂ - ⟨hs₂, he₂⟩
      exact ⟨hs₂, he₂.trans he₁⟩

/-- Mapping pages writes the tables of the address space, and no other memory. -/
theorem pagingMapTo_intact (h : Guards P k) (hS : ∀ p ∈ S, p ∉ P) (hs : HoldsSpace S k chunk)
    {virt : Nat} (hv : virt < 0x100000000) (phys phys_end flags : Nat) :
    Framed (Intact P) (pagingMapTo chunk virt phys phys_end flags) k fun _ k' =>
      HoldsSpace S k' chunk ∧ k'.heap_entries = k.heap_entries := by
  unfold pagingMapTo
  split
  · exact .pure (.refl h) ⟨hs, rfl⟩
  split
  · exact .pure (.refl h) ⟨hs, rfl⟩
  split
  · exact .pure (.refl h) ⟨hs, rfl⟩
  split
  · exact .pure (.refl h) ⟨hs, rfl⟩
  · exact pagingMapRange_intact hS flags _ _ _ k h hs hv

/-! ### paging_free_4gb -/

private theorem pagingFree4gbLoop_released (hS : ∀ p ∈ S, k.Disposable P p)
    (hs : HoldsSpace S k chunk) :
    ∀ (fuel i : Nat) (k₁ : Kernel), i + fuel ≤ 1024 → Released P k k₁ →
      Framed (Released P) (pagingFree4gbLoop chunk fuel i) k₁ fun _ _ => True := by
  intro fuel
  induction fuel with
  | zero =>
    intro i k₁ _ hk₁
    exact .pure (.refl hk₁.guards) trivial
  | succ fuel ih =>
    intro i k₁ hi hk₁
    obtain ⟨-, d, w, hchunk, -, hw, htables⟩ := id hs
    refine Ensures.bind (deref_spec _ _ _) ?_
    rintro directory _ ⟨rfl, -, hdir⟩
    have hc := hk₁.eq_some (Obj.chunk?_eq_some.mp hdir)
    rw [hchunk] at hc
    cases hc
    refine Ensures.bind (deref_spec _ _ _) ?_
    rintro dir _ ⟨rfl, -, hdir⟩
    have hd := hk₁.eq_some (Obj.words?_eq_some.mp hdir)
    rw [hw] at hd
    cases hd
    obtain ⟨hrel, hout⟩ := hS _ (htables i (by omega)).1
    refine Framed.bind (released_kfree hk₁.guards (hk₁.releasable _ hrel) hout) ?_
    intro _ k₂ hk₂ _
    exact ih (i + 1) k₂ (by omega) (hk₁.trans hk₂)

/-- Releasing an address space ends its own allocations and no others, also when some of
them were released before. -/
theorem pagingFree4gb_released {k₁ : Kernel} (hS : ∀ p ∈ S, k.Disposable P p)
    (hs : HoldsSpace S k chunk) (hk₁ : Released P k k₁) :
    Framed (Released P) (pagingFree4gb chunk) k₁ fun _ _ => True := by
  refine Framed.bind (pagingFree4gbLoop_released hS hs 1024 0 k₁ (by omega) hk₁) ?_
  intro _ k₂ hk₂ _
  have hk₂ := hk₁.trans hk₂
  obtain ⟨hc, d, w, hchunk, hd, -, -⟩ := hs
  refine Ensures.bind (deref_spec _ _ _) ?_
  rintro directory _ ⟨rfl, -, hdir⟩
  have hc₂ := hk₂.eq_some (Obj.chunk?_eq_some.mp hdir)
  rw [hchunk] at hc₂
  cases hc₂
  refine Framed.bind (released_kfree hk₂.guards (hk₂.releasable d (hS d hd).1) (hS d hd).2) ?_
  intro _ k₃ hk₃ _
  have hrel := (hk₂.trans hk₃).releasable chunk (hS chunk hc).1
  exact (released_kfree hk₃.guards hrel (hS chunk hc).2).mono fun _ _ _ _ => trivial

end PlumOS
