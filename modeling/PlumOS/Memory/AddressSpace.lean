import PlumOS.Lib.LoggedState
import PlumOS.Memory.Paging

/-!
# Ownership of an address space

`paging_new_4gb` takes 1026 blocks: the chunk, the directory and 1024 page tables.
They are new, distinct, and `paging_free_4gb` gives back exactly these.

## Main results

- `pagingNew4gb_maps` — the new address space owns its blocks and is the identity
- `pagingFree4gbLogged_erases`, `pagingFree4gbLogged_spec` — the pointers that are released
- `pagingFree4gb_spec` — releasing it touches nothing else
-/

namespace PlumOS

open StateExcept

/-- The addresses of the page tables from index `i` on. -/
def tablePtrs (w : Nat → Nat) (i n : Nat) : List Nat := (List.range' i n).map fun j => pageMask (w j)

/-- The blocks `ptrs` are the address space of `chunk`. -/
def OwnsSpace (k : Kernel) (chunk : Nat) (ptrs : List Nat) : Prop :=
  ∃ directory w, k.objs chunk = some (.chunk directory) ∧ k.objs directory = some (.words w) ∧
    ptrs = chunk :: directory :: tablePtrs w 0 1024 ∧ ptrs.Nodup ∧ ∀ p ∈ ptrs, k.Alive p 1

theorem OwnsSpace.chunk_mem {k : Kernel} {chunk : Nat} {ptrs : List Nat}
    (h : OwnsSpace k chunk ptrs) : chunk ∈ ptrs := by
  obtain ⟨d, w, _, _, rfl, _⟩ := h
  exact List.mem_cons_self

theorem OwnsSpace.alive {k : Kernel} {chunk : Nat} {ptrs : List Nat}
    (h : OwnsSpace k chunk ptrs) : ∀ p ∈ ptrs, k.Alive p 1 := by
  obtain ⟨d, w, _, _, _, _, ha⟩ := h
  exact ha

theorem OwnsSpace.nodup {k : Kernel} {chunk : Nat} {ptrs : List Nat}
    (h : OwnsSpace k chunk ptrs) : ptrs.Nodup := by
  obtain ⟨d, w, _, _, _, hn, _⟩ := h
  exact hn

/-- An address space survives every step that keeps its blocks. -/
theorem OwnsSpace.congr {k k' : Kernel} {chunk : Nat} {ptrs : List Nat}
    (h : OwnsSpace k chunk ptrs) (hk : ∀ p ∈ ptrs, k'.Alive p 1 ∧ k'.objs p = k.objs p) :
    OwnsSpace k' chunk ptrs := by
  obtain ⟨d, w, hc, hd, rfl, hnodup, _⟩ := h
  refine ⟨d, w, ?_, ?_, rfl, hnodup, fun p hp => (hk p hp).1⟩
  · rw [(hk chunk (by simp)).2, hc]
  · rw [(hk d (by simp)).2, hd]

/-- The blocks `ptrs` are the address space of `chunk`, and its page tables hold the
entry `m page` for each page. -/
def MapsSpace (k : Kernel) (chunk : Nat) (ptrs : List Nat) (m : Nat → Nat) : Prop :=
  ∃ directory w, k.objs chunk = some (.chunk directory) ∧ k.objs directory = some (.words w) ∧
    ptrs = chunk :: directory :: tablePtrs w 0 1024 ∧ ptrs.Nodup ∧ (∀ p ∈ ptrs, k.Alive p 1) ∧
    ∀ i < 1024, ∃ entries, k.objs (pageMask (w i)) = some (.words entries) ∧
      ∀ b < 1024, entries b = m (1024 * i + b)

theorem MapsSpace.owns {k : Kernel} {chunk : Nat} {ptrs : List Nat} {m : Nat → Nat}
    (h : MapsSpace k chunk ptrs m) : OwnsSpace k chunk ptrs := by
  obtain ⟨d, w, hc, hd, hptrs, hnodup, ha, -⟩ := h
  exact ⟨d, w, hc, hd, hptrs, hnodup, ha⟩

/-! ### paging_new_4gb -/

private theorem pagingNew4gbLoop_spec {flags directory : Nat} (hf : flags < 4096) :
    ∀ (fuel i offset : Nat) (k : Kernel) (w : Nat → Nat), k.Alive directory 1 →
      k.objs directory = some (.words w) →
      Ensures (pagingNew4gbLoop flags directory fuel i offset) k fun _ k' =>
        Keeps [directory] k k' ∧ SameGlobals k k' ∧ k'.Alive directory 1 ∧
        ∃ w', k'.objs directory = some (.words w') ∧ (∀ j < i, w' j = w j) ∧
          (tablePtrs w' i fuel).Nodup ∧
          (∀ p ∈ tablePtrs w' i fuel, k'.Alive p 1 ∧ ∀ n, ¬ k.Alive p n) ∧
          ∀ j < fuel, k'.objs (pageMask (w' (i + j))) =
            some (.words fun b => (offset + j * 0x400000 + b * PAGING_PAGE_SIZE) ||| flags) := by
  intro fuel
  induction fuel with
  | zero =>
    intro i offset k w ha hw
    exact Ensures.pure ⟨Keeps.refl _ k, SameGlobals.refl k, ha, w, hw, fun _ _ => rfl,
      List.nodup_nil, by simp [tablePtrs], by simp⟩
  | succ fuel ih =>
    intro i offset k w ha hw
    refine Ensures.bind (kzallocObj_small (by omega) le_rfl) ?_
    intro entry k₁ hent
    refine Ensures.bind (deref_spec _ _ _) ?_
    rintro _ _ ⟨rfl, hne, -⟩
    obtain ⟨hal, hnew, -, hkeep₁, hglob₁⟩ := hent.resolve_left fun h => hne h.1
    obtain ⟨hda₁, hdo₁⟩ := hkeep₁ directory 1 ha (by simp)
    have hne_dir : directory ≠ entry := fun h => hnew 1 (h ▸ ha)
    refine Ensures.bind (storeObj_spec _ _ _).ensures ?_
    intro _ k₂ hst₂
    refine Ensures.bind (deref_spec _ _ _) ?_
    rintro dir _ ⟨rfl, -, hsel⟩
    obtain rfl : w = dir := by
      rw [hst₂.other _ hne_dir, hdo₁, hw] at hsel
      exact Option.some.inj hsel
    refine Ensures.bind (storeObj_spec _ _ _).ensures ?_
    intro _ k₃ hst₃
    -- the rest of the loop leaves the new table and entry `i` alone
    have hda₃ := hst₃.alive (hst₂.alive hda₁)
    have hent₃ := hst₃.alive (hst₂.alive hal)
    refine (ih (i + 1) _ k₃ _ hda₃ hst₃.self).mono ?_
    rintro _ k₄ ⟨hkeep₄, hglob₄, hda₄, w', hw', hlow, hnodup, hptrs, htables⟩
    have hwi : pageMask (w' i) = entry := by
      rw [hlow i (by omega), Function.update_self]
      obtain ⟨hal₁, hal₂⟩ := hal.aligned
      exact pageMask_directory_entry hal₁ (by omega) hf
    have hlist : tablePtrs w' i (fuel + 1) = entry :: tablePtrs w' (i + 1) fuel := by
      simp only [tablePtrs, List.range'_succ, List.map_cons, hwi]
    have hkeep : Keeps [directory] k k₄ := by
      intro p n hp hpd
      have hp₁ := hkeep₁ p n hp (by simp)
      have hp₂ := hst₂.keeps p n hp₁.1 (by simpa using fun h : p = entry => hnew n (h ▸ hp))
      have hp₃ := hst₃.keeps p n hp₂.1 hpd
      have hp₄ := hkeep₄ p n hp₃.1 hpd
      exact ⟨hp₄.1, hp₄.2.trans (hp₃.2.trans (hp₂.2.trans hp₁.2))⟩
    have hnew₄ : ∀ p ∈ tablePtrs w' (i + 1) fuel, ∀ n, ¬ k.Alive p n := by
      intro p hp n hpn
      exact (hptrs p hp).2 n (hst₃.alive (hst₂.alive (hkeep₁ p n hpn (by simp)).1))
    refine ⟨hkeep, hglob₁.trans (hst₂.globals.trans (hst₃.globals.trans hglob₄)), hda₄, w', hw',
      fun j hj => ?_, ?_, ?_, fun j hj => ?_⟩
    · rw [hlow j (by omega), Function.update_of_ne (by omega)]
    · rw [hlist]
      exact List.nodup_cons.mpr ⟨fun hmem => (hptrs entry hmem).2 1 hent₃, hnodup⟩
    · intro p hp
      rw [hlist] at hp
      rcases List.mem_cons.mp hp with rfl | hp
      · exact ⟨(hkeep₄ p 1 hent₃ (by simpa using hne_dir.symm)).1, hnew⟩
      · exact ⟨(hptrs p hp).1, hnew₄ p hp⟩
    · cases j with
      | zero =>
        rw [Nat.add_zero, hwi, (hkeep₄ entry 1 hent₃ (by simpa using hne_dir.symm)).2,
          hst₃.other _ hne_dir.symm, hst₂.self, Nat.zero_mul, Nat.add_zero]
      | succ j =>
        have htable := htables j (by omega)
        rw [show i + 1 + j = i + (j + 1) by omega, Nat.add_assoc] at htable
        rw [htable]
        have hoffset : PAGING_TOTAL_ENTRIES_PER_TABLE * PAGING_PAGE_SIZE + j * 0x400000 =
            (j + 1) * 0x400000 := by
          simp only [PAGING_TOTAL_ENTRIES_PER_TABLE, PAGING_PAGE_SIZE]
          omega
        rw [hoffset]

/-- Without a directory the first entry is written through NULL. -/
theorem pagingNew4gbLoop_null (flags fuel i offset : Nat) (k : Kernel) :
    Ensures (pagingNew4gbLoop flags 0 (fuel + 1) i offset) k fun _ _ => False := by
  refine Ensures.bind (kzallocObj_spec _ _ _) fun entry k₁ _ => ?_
  refine Ensures.bind (deref_spec _ _ _) fun _ k₂ _ => ?_
  refine Ensures.bind (storeObj_spec _ _ _).ensures fun _ k₃ _ => ?_
  refine Ensures.bind (deref_spec _ _ _) ?_
  rintro _ _ ⟨-, hne, -⟩
  exact absurd rfl hne

/-- A new address space owns its blocks, they are new, and every page is mapped to
itself. -/
theorem pagingNew4gb_maps {flags : Nat} (hf : flags < 4096) (k : Kernel) :
    Ensures (pagingNew4gb flags) k fun chunk k' =>
      Keeps [] k k' ∧ SameGlobals k k' ∧
        ∃ ptrs, MapsSpace k' chunk ptrs (fun page => page * PAGING_PAGE_SIZE ||| flags) ∧
          ∀ p ∈ ptrs, ∀ n, ¬ k.Alive p n := by
  refine Ensures.bind (kzallocObj_small (by omega) le_rfl) ?_
  rintro directory k₁ (⟨rfl, rfl⟩ | ⟨hda₁, hdnew, hdo₁, hkeep₁, hglob₁⟩)
  · exact Ensures.bind (pagingNew4gbLoop_null _ _ _ _ _) fun _ _ h => h.elim
  refine Ensures.bind (pagingNew4gbLoop_spec hf 1024 0 0 k₁ _ hda₁ hdo₁) ?_
  rintro _ k₂ ⟨hkeep₂, hglob₂, hda₂, w, hw₂, -, hnodup, hptrs, htables⟩
  refine Ensures.bind (kzallocObj_small (by omega) (by omega)) ?_
  intro chunk k₃ hchunk
  refine Ensures.bind (deref_spec _ _ _) ?_
  rintro _ _ ⟨rfl, hne, -⟩
  obtain ⟨hca₃, hcnew, -, hkeep₃, hglob₃⟩ := hchunk.resolve_left fun h => hne h.1
  refine Ensures.bind (storeObj_spec _ _ _).ensures ?_
  intro _ k₄ hst₄
  have hdir₂ : ∀ p n, k.Alive p n → k₂.Alive p n ∧ k₂.objs p = k.objs p := by
    intro p n hp
    obtain ⟨hp₁, ho₁⟩ := hkeep₁ p n hp (by simp)
    obtain ⟨hp₂, ho₂⟩ := hkeep₂ p n hp₁ (by simpa using fun h : p = directory => hdnew n (h ▸ hp))
    exact ⟨hp₂, ho₂.trans ho₁⟩
  have hlast : ∀ p n, k₂.Alive p n → k₄.Alive p n ∧ k₄.objs p = k₂.objs p := by
    intro p n hp
    obtain ⟨hp₃, ho₃⟩ := hkeep₃ p n hp (by simp)
    have hne : p ≠ chunk := fun h => hcnew n (h ▸ hp)
    exact ⟨hst₄.alive hp₃, (hst₄.other p hne).trans ho₃⟩
  have hnew₂ : ∀ p ∈ tablePtrs w 0 1024, ∀ n, ¬ k.Alive p n := fun p hp n hpn =>
    (hptrs p hp).2 n (hkeep₁ p n hpn (by simp)).1
  refine Ensures.pure ⟨fun p n hp _ => ?_,
    hglob₁.trans (hglob₂.trans (hglob₃.trans hst₄.globals)),
    chunk :: directory :: tablePtrs w 0 1024,
    ⟨directory, w, hst₄.self, ?_, rfl, ?_, ?_, fun i hi => ?_⟩, ?_⟩
  · obtain ⟨hp₂, ho₂⟩ := hdir₂ p n hp
    obtain ⟨hp₄, ho₄⟩ := hlast p n hp₂
    exact ⟨hp₄, ho₄.trans ho₂⟩
  · rw [(hlast directory 1 hda₂).2, hw₂]
  · have hdir : directory ∉ tablePtrs w 0 1024 := fun hmem => (hptrs _ hmem).2 1 hda₁
    have hch : chunk ∉ directory :: tablePtrs w 0 1024 := by
      intro hmem
      rcases List.mem_cons.mp hmem with h | hmem
      · exact hcnew 1 (h ▸ hda₂)
      · exact hcnew 1 (hptrs _ hmem).1
    exact List.nodup_cons.mpr ⟨hch, List.nodup_cons.mpr ⟨hdir, hnodup⟩⟩
  · intro p hp
    rcases List.mem_cons.mp hp with rfl | hp
    · exact hst₄.alive hca₃
    · rcases List.mem_cons.mp hp with rfl | hp
      · exact (hlast _ 1 hda₂).1
      · exact (hlast _ 1 (hptrs p hp).1).1
  · have htable := htables i hi
    rw [Nat.zero_add] at htable
    have hmem : pageMask (w i) ∈ tablePtrs w 0 1024 :=
      List.mem_map_of_mem (List.mem_range'_1.mpr ⟨by omega, by omega⟩)
    refine ⟨_, ((hlast _ 1 (hptrs _ hmem).1).2).trans htable, fun b _ => ?_⟩
    have haddr : 0 + i * 0x400000 + b * PAGING_PAGE_SIZE = (1024 * i + b) * PAGING_PAGE_SIZE := by
      simp only [PAGING_PAGE_SIZE]
      omega
    rw [haddr]
  · intro p hp n hpn
    rcases List.mem_cons.mp hp with rfl | hp
    · exact hcnew n (hdir₂ _ n hpn).1
    · rcases List.mem_cons.mp hp with rfl | hp
      · exact hdnew n hpn
      · exact hnew₂ p hp n hpn

/-- A new address space owns its blocks, and they are new. -/
theorem pagingNew4gb_spec {flags : Nat} (hf : flags < 4096) (k : Kernel) :
    Ensures (pagingNew4gb flags) k fun chunk k' =>
      Keeps [] k k' ∧ SameGlobals k k' ∧
        ∃ ptrs, OwnsSpace k' chunk ptrs ∧ ∀ p ∈ ptrs, ∀ n, ¬ k.Alive p n := by
  refine (pagingNew4gb_maps hf k).mono ?_
  rintro chunk k' ⟨hkeep, hglob, ptrs, hmaps, hnew⟩
  exact ⟨hkeep, hglob, ptrs, hmaps.owns, hnew⟩

private theorem pagingNew4gbLoop_returns {flags directory : Nat} :
    ∀ (fuel i offset m : Nat) (k : Kernel) (w : Nat → Nat), k.FreeFrom m → m + fuel ≤ 25600 →
      k.Alive directory 1 → k.objs directory = some (.words w) →
      Returns (pagingNew4gbLoop flags directory fuel i offset) k fun _ k' =>
        k'.FreeFrom (m + fuel) := by
  intro fuel
  induction fuel with
  | zero =>
    intro i offset m k w hfree _ _ _
    exact Returns.pure hfree
  | succ fuel ih =>
    intro i offset m k w hfree hm ha hw
    refine Returns.bind (kzallocObj_small_returns hfree (by omega) le_rfl (by omega)) ?_
    rintro entry k₁ ⟨hfree₁, hal, hnew, ho₁, hkeep₁, -⟩
    have hne_dir : directory ≠ entry := fun h => hnew 1 (h ▸ ha)
    obtain ⟨hda₁, hdo₁⟩ := hkeep₁ directory 1 ha (by simp)
    refine Returns.bind (deref_returns hal.ne_zero ho₁ rfl) ?_
    rintro _ _ ⟨rfl, rfl⟩
    refine Returns.bind (storeObj_spec _ _ _) ?_
    intro _ k₂ hst₂
    refine Returns.bind (deref_returns ha.ne_zero
      ((hst₂.other _ hne_dir).trans (hdo₁.trans hw)) rfl) ?_
    rintro _ _ ⟨rfl, rfl⟩
    refine Returns.bind (storeObj_spec _ _ _) ?_
    intro _ k₃ hst₃
    have hfree₃ := hfree₁.congr (hst₃.heap_entries.trans hst₂.heap_entries)
    refine (ih (i + 1) _ (m + 1) k₃ _ hfree₃ (by omega) (hst₃.alive (hst₂.alive hda₁))
      hst₃.self).mono ?_
    intro _ k₄ h₄
    rwa [show m + (fuel + 1) = m + 1 + fuel by omega]

/-- With 1026 free blocks an address space can be made. -/
theorem pagingNew4gb_returns {k : Kernel} {m : Nat} (flags : Nat) (h : k.FreeFrom m)
    (hm : m + 1026 ≤ 25600) :
    Returns (pagingNew4gb flags) k fun _ k' => k'.FreeFrom (m + 1026) := by
  refine Returns.bind (kzallocObj_small_returns h (by omega) le_rfl (by omega)) ?_
  rintro directory k₁ ⟨hfree₁, hal₁, -, ho₁, -, -⟩
  refine Returns.bind (pagingNew4gbLoop_returns 1024 0 0 (m + 1) k₁ _ hfree₁ (by omega) hal₁ ho₁) ?_
  intro _ k₂ hfree₂
  refine Returns.bind (kzallocObj_small_returns hfree₂ (by omega) (by omega) (by omega)) ?_
  rintro chunk k₃ ⟨hfree₃, hal₃, -, ho₃, -, -⟩
  refine Returns.bind (deref_returns hal₃.ne_zero ho₃ rfl) ?_
  rintro _ _ ⟨rfl, rfl⟩
  refine Returns.bind (storeObj_spec _ _ _) ?_
  intro _ k₄ hst₄
  exact Returns.pure (hfree₃.congr hst₄.heap_entries)

/-! ### paging_free_4gb -/

/-- The loop of `paging_free_4gb`, its calls of `kfree` logged. -/
def pagingFree4gbLoopLogged (chunk : Nat) :
    (fuel i : Nat) → StateT (Kernel × List Nat) (Except Fault) PUnit
  | 0, _ => pure ⟨⟩
  | fuel + 1, i => do
    let directory ← silent (deref Obj.chunk? chunk)
    let dir ← silent (deref Obj.words? directory)
    logged (fun _ => pageMask (dir i)) (kfree (pageMask (dir i)))
    pagingFree4gbLoopLogged chunk fuel (i + 1)

/-- `pagingFree4gb` with the pointers that it releases. -/
def pagingFree4gbLogged (chunk : Nat) : StateT (Kernel × List Nat) (Except Fault) PUnit := do
  pagingFree4gbLoopLogged chunk PAGING_TOTAL_ENTRIES_PER_TABLE 0
  let directory ← silent (deref Obj.chunk? chunk)
  logged (fun _ => directory) (kfree directory)
  logged (fun _ => chunk) (kfree chunk)

theorem pagingFree4gbLoopLogged_erases (chunk : Nat) : ∀ fuel i,
    Erases (pagingFree4gbLoopLogged chunk fuel i) (pagingFree4gbLoop chunk fuel i) := by
  intro fuel
  induction fuel with
  | zero => exact fun _ => .pure _
  | succ fuel ih =>
    intro i
    apply Erases.bind (.silent _)
    intro directory
    apply Erases.bind (.silent _)
    intro dir
    apply Erases.bind (.logged _ _)
    exact fun _ => ih (i + 1)

/-- Without the log it is `paging_free_4gb`. -/
theorem pagingFree4gbLogged_erases (chunk : Nat) :
    Erases (pagingFree4gbLogged chunk) (pagingFree4gb chunk) := by
  apply Erases.bind (pagingFree4gbLoopLogged_erases chunk _ _)
  intro _
  apply Erases.bind (.silent _)
  intro directory
  apply Erases.bind (.logged _ _)
  exact fun _ => .logged _ _

private theorem pagingFree4gbLoopLogged_spec {chunk directory : Nat} {w : Nat → Nat} :
    ∀ (fuel i : Nat) (s : Kernel × List Nat), s.1.objs chunk = some (.chunk directory) →
      s.1.objs directory = some (.words w) →
      (chunk :: directory :: tablePtrs w i fuel).Nodup →
      (∀ p ∈ chunk :: directory :: tablePtrs w i fuel, s.1.Alive p 1) →
      Returns (pagingFree4gbLoopLogged chunk fuel i) s fun _ s' =>
        s'.2 = s.2 ++ tablePtrs w i fuel ∧
        s'.1.heap_entries = releasedEntriesOf s.1.heap_entries (tablePtrs w i fuel) ∧
        Keeps (tablePtrs w i fuel) s.1 s'.1 ∧ SameGlobals s.1 s'.1 := by
  intro fuel
  induction fuel with
  | zero =>
    intro i s _ _ _ _
    refine Returns.pure ⟨by simp [tablePtrs], ?_, Keeps.refl _ s.1, SameGlobals.refl s.1⟩
    funext index
    simp [releasedEntriesOf, tablePtrs]
  | succ fuel ih =>
    rintro i ⟨k, calls⟩ hc hd hnodup ha
    dsimp only at hc hd ha
    have hlist : tablePtrs w i (fuel + 1) = pageMask (w i) :: tablePtrs w (i + 1) fuel := by
      simp only [tablePtrs, List.range'_succ, List.map_cons]
    rw [hlist] at hnodup ha
    have hca := ha chunk (by simp)
    have hda := ha directory (by simp)
    have hta := ha (pageMask (w i)) (by simp)
    simp only [List.nodup_cons, List.mem_cons, not_or] at hnodup
    obtain ⟨⟨hcd, hct, hcl⟩, ⟨hdt, hdl⟩, htl, hnd⟩ := hnodup
    refine Returns.bind (Returns.silent (deref_returns hca.ne_zero hc rfl)) ?_
    rintro _ ⟨_, _⟩ ⟨⟨rfl, rfl⟩, rfl⟩
    refine Returns.bind (Returns.silent (deref_returns hda.ne_zero hd rfl)) ?_
    rintro _ ⟨_, _⟩ ⟨⟨rfl, rfl⟩, rfl⟩
    refine Returns.bind (Returns.logged (kfree_spec hta)) ?_
    rintro _ ⟨k₁, _⟩ ⟨hfree, rfl⟩
    dsimp only at hfree
    -- the chunk, the directory and the other tables are still there
    have hstay : ∀ p ∈ chunk :: directory :: tablePtrs w (i + 1) fuel,
        k₁.Alive p 1 ∧ k₁.objs p = k.objs p := by
      intro p hp
      refine hfree.keeps p 1 (ha p ?_) ?_
      · simp only [List.mem_cons] at hp ⊢
        tauto
      · simp only [List.mem_singleton]
        rintro rfl
        simp only [List.mem_cons] at hp
        tauto
    refine (ih (i + 1) (k₁, _) ?_ ?_ ?_ fun p hp => (hstay p hp).1).mono ?_
    · exact (hstay chunk (by simp)).2.trans hc
    · exact (hstay directory (by simp)).2.trans hd
    · exact List.nodup_cons.mpr ⟨by simp [hcd, hcl], List.nodup_cons.mpr ⟨hdl, hnd⟩⟩
    · rintro _ ⟨k₂, _⟩ ⟨hlog, he, hkeep, hglob⟩
      dsimp only at hlog he hkeep hglob ⊢
      rw [hlist]
      refine ⟨by rw [hlog, List.append_assoc]; rfl, ?_, (hfree.keeps.trans hkeep).mono (by simp),
        hfree.globals.trans hglob⟩
      rw [he, hfree.released hta, releasedEntriesOf_append]
      rfl

/-- `paging_free_4gb` releases each block of the address space once, and nothing else. -/
theorem pagingFree4gbLogged_spec {k : Kernel} {chunk : Nat} {ptrs : List Nat}
    (h : OwnsSpace k chunk ptrs) :
    Returns (pagingFree4gbLogged chunk) (k, []) fun _ s => s.2.Perm ptrs ∧
      s.1.heap_entries = releasedEntriesOf k.heap_entries s.2 ∧ Keeps ptrs k s.1 ∧
      SameGlobals k s.1 := by
  obtain ⟨d, w, hc, hd, rfl, hnodup, ha⟩ := h
  refine Returns.bind (pagingFree4gbLoopLogged_spec 1024 0 (k, []) hc hd hnodup ha) ?_
  rintro _ ⟨k₁, _⟩ ⟨rfl, he₁, hkeep₁, hglob₁⟩
  dsimp only at he₁ hkeep₁ hglob₁
  simp only [List.nodup_cons, List.mem_cons, not_or] at hnodup
  obtain ⟨⟨hcd, hcl⟩, hdl, -⟩ := hnodup
  obtain ⟨hca₁, hco₁⟩ := hkeep₁ chunk 1 (ha chunk (by simp)) hcl
  obtain ⟨hda₁, hdo₁⟩ := hkeep₁ d 1 (ha d (by simp)) hdl
  refine Returns.bind (Returns.silent (deref_returns hca₁.ne_zero (hco₁.trans hc) rfl)) ?_
  rintro _ ⟨_, _⟩ ⟨⟨rfl, rfl⟩, rfl⟩
  refine Returns.bind (Returns.logged (kfree_spec hda₁)) ?_
  rintro _ ⟨k₂, _⟩ ⟨hfree₂, rfl⟩
  obtain ⟨hca₂, -⟩ := hfree₂.keeps chunk 1 hca₁ (by simpa using hcd)
  refine (Returns.logged (kfree_spec hca₂)).mono ?_
  rintro _ ⟨k₃, _⟩ ⟨hfree₃, rfl⟩
  dsimp only at hfree₂ hfree₃ ⊢
  refine ⟨?_, ?_, ((hkeep₁.trans hfree₂.keeps).trans hfree₃.keeps).mono ?_,
    hglob₁.trans (hfree₂.globals.trans hfree₃.globals)⟩
  · rw [List.nil_append, List.append_assoc]
    exact List.perm_append_comm.trans (List.Perm.swap _ _ _)
  · rw [hfree₃.released hca₂, hfree₂.released hda₁, he₁, releasedEntriesOf_append,
      releasedEntriesOf_append, List.nil_append, List.append_assoc]
  · intro p hp
    simp only [List.mem_append, List.mem_cons] at hp ⊢
    tauto

/-- `paging_free_4gb` releases the blocks of the address space and nothing else. -/
theorem pagingFree4gb_spec {k : Kernel} {chunk : Nat} {ptrs : List Nat}
    (h : OwnsSpace k chunk ptrs) :
    Returns (pagingFree4gb chunk) k fun _ k' => Keeps ptrs k k' ∧ SameGlobals k k' := by
  obtain ⟨_, s, hrun, -, -, hkeep, hglob⟩ := pagingFree4gbLogged_spec h
  exact ⟨_, _, (pagingFree4gbLogged_erases chunk).ok hrun, hkeep, hglob⟩

end PlumOS
