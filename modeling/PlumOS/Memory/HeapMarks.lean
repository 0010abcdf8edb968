import Mathlib.Data.Set.Basic
import PlumOS.Memory.Heap

/-!
# Marking and freeing runs of blocks

What the loops that write the table do: `heap_mark_blocks_taken` marks a run,
`heap_mark_blocks_free` clears the entries it reaches through `HAS_NEXT`. From
these, what one `heap_malloc` and one `heap_free` change, and the frame rule of
the heap: a set of taken entries that no `HAS_NEXT` from outside leads into
stays as it is under every allocation and under every release that does not
start inside it.

## Main definitions

- `MarkedRun` — a run of entries marked as one allocation
- `Chain` — the entries that a release from a block reaches
- `Allocated` — the effect of a successful `heap_malloc`
- `Guarded` — a set of entries that allocations and foreign releases keep
- `SoundTable` — a table in which every new allocation is guarded
-/

namespace PlumOS

/-- The `HAS_NEXT` bit of an entry. -/
def HasNext (entry : UInt8) : Prop := entry &&& HEAP_BLOCK_HAS_NEXT ≠ 0

instance (entry : UInt8) : Decidable (HasNext entry) := inferInstanceAs (Decidable (_ ≠ _))

/-- Entry `j` of an allocation of `n` blocks. -/
def runEntry (n j : Nat) : UInt8 :=
  if j = 0 then
    if n > 1 then
      HEAP_BLOCK_TABLE_ENTRY_TAKEN ||| HEAP_BLOCK_IS_FIRST ||| HEAP_BLOCK_HAS_NEXT
    else HEAP_BLOCK_TABLE_ENTRY_TAKEN ||| HEAP_BLOCK_IS_FIRST
  else if j + 1 = n then HEAP_BLOCK_TABLE_ENTRY_TAKEN
  else HEAP_BLOCK_TABLE_ENTRY_TAKEN ||| HEAP_BLOCK_HAS_NEXT

theorem runEntry_taken (n j : Nat) :
    heapGetEntryType (runEntry n j) ≠ HEAP_BLOCK_TABLE_ENTRY_FREE := by
  unfold runEntry
  split_ifs <;> decide

theorem runEntry_hasNext {n j : Nat} (hj : j < n) : HasNext (runEntry n j) ↔ j + 1 < n := by
  unfold runEntry
  split_ifs with h₀ h₁ h₂
  · exact iff_of_true (by decide) (by omega)
  · exact iff_of_false (by decide) (by omega)
  · exact iff_of_false (by decide) (by omega)
  · exact iff_of_true (by decide) (by omega)

theorem runEntry_isFirst (n j : Nat) : runEntry n j &&& HEAP_BLOCK_IS_FIRST ≠ 0 ↔ j = 0 := by
  unfold runEntry
  split_ifs with h₀ h₁ h₂
  · exact iff_of_true (by decide) h₀
  · exact iff_of_true (by decide) h₀
  · exact iff_of_false (by decide) h₀
  · exact iff_of_false (by decide) h₀

theorem not_hasNext_free : ¬ HasNext HEAP_BLOCK_TABLE_ENTRY_FREE := by decide

/-- The `n` entries from block `b` on are marked as one allocation. -/
def HeapTable.MarkedRun (t : HeapTable) (b n : Nat) : Prop :=
  ∀ j, j < n → t.entries ((b + j : Nat) : Int) = runEntry n j

theorem HeapTable.MarkedRun.not_free {t : HeapTable} {b n k : Nat} (h : t.MarkedRun b n)
    (h₁ : b ≤ k) (h₂ : k < b + n) : ¬ t.IsFree (k : Int) := by
  have := h (k - b) (by omega)
  rw [show b + (k - b) = k by omega] at this
  unfold HeapTable.IsFree
  rw [this]
  exact runEntry_taken _ _

/-- Two marked runs with different starts share no entry: only the first entry of
a run has the `IS_FIRST` bit. -/
theorem HeapTable.MarkedRun.disjoint {t : HeapTable} {b n b' n' : Nat} (h : t.MarkedRun b n)
    (h' : t.MarkedRun b' n') (hn : 0 < n) (hn' : 0 < n') (hne : b ≠ b') :
    b + n ≤ b' ∨ b' + n' ≤ b := by
  have key : ∀ {c m c' m' : Nat}, t.MarkedRun c m → t.MarkedRun c' m' → 0 < m' → c < c' →
      c + m ≤ c' := by
    intro c m c' m' hc hc' hm' hlt
    by_contra hover
    have h₁ := hc (c' - c) (by omega)
    have h₂ := hc' 0 hm'
    rw [show c + (c' - c) = c' by omega] at h₁
    rw [Nat.add_zero, h₁] at h₂
    have hfirst := (runEntry_isFirst m (c' - c)).mp (h₂ ▸ (runEntry_isFirst m' 0).mpr rfl)
    omega
  rcases Nat.lt_or_gt_of_ne hne with hlt | hgt
  · exact Or.inl (key h h' hn' hlt)
  · exact Or.inr (key h' h hn hgt)

/-- A marked run is determined by its start. -/
theorem HeapTable.MarkedRun.length_eq {t : HeapTable} {b n n' : Nat} (h : t.MarkedRun b n)
    (h' : t.MarkedRun b n') (hn : 0 < n) (hn' : 0 < n') : n = n' := by
  have key : ∀ {m m' : Nat}, t.MarkedRun b m → t.MarkedRun b m' → 0 < m → ¬ m < m' := by
    intro m m' hm hm' hpos hlt
    have h₁ := hm (m - 1) (by omega)
    have h₂ := hm' (m - 1) (by omega)
    have hnext : HasNext (runEntry m' (m - 1)) := (runEntry_hasNext (by omega)).mpr (by omega)
    rw [← h₂, h₁, runEntry_hasNext (by omega)] at hnext
    omega
  have := key h h' hn
  have := key h' h hn'
  omega

/-! ### heap_mark_blocks_taken -/

private theorem heapMarkBlocksTakenLoop_apply (end_block : Int) :
    ∀ (fuel : Nat) (i : Int) (entry : UInt8) (entries : Int → UInt8) (k : Int),
      heapMarkBlocksTakenLoop end_block fuel i entry entries k =
        if i ≤ k ∧ k < i + fuel then
          if k = i then entry
          else if k = end_block then HEAP_BLOCK_TABLE_ENTRY_TAKEN
          else HEAP_BLOCK_TABLE_ENTRY_TAKEN ||| HEAP_BLOCK_HAS_NEXT
        else entries k := by
  intro fuel
  induction fuel with
  | zero =>
    intro i entry entries k
    rw [if_neg (by omega)]
    rfl
  | succ fuel ih =>
    intro i entry entries k
    simp only [heapMarkBlocksTakenLoop]
    rw [ih]
    by_cases hin : i + 1 ≤ k ∧ k < i + 1 + fuel
    · have hin' : i ≤ k ∧ k < i + (fuel + 1 : Nat) := by omega
      rw [if_pos hin, if_pos hin', if_neg (show ¬ k = i by omega)]
      by_cases hk1 : k = i + 1
      · subst hk1
        rw [if_pos rfl]
        by_cases he : i = end_block - 1
        · rw [if_neg (not_not.mpr he), if_pos (show i + 1 = end_block by omega)]
        · rw [if_pos he, if_neg (show ¬ i + 1 = end_block by omega)]
      · rw [if_neg hk1]
    · rw [if_neg hin]
      by_cases hki : k = i
      · subst hki
        rw [if_pos (show k ≤ k ∧ k < k + (fuel + 1 : Nat) by omega), if_pos rfl,
          Function.update_self]
      · rw [if_neg (show ¬ (i ≤ k ∧ k < i + (fuel + 1 : Nat)) by omega),
          Function.update_of_ne hki]

/-- `heap_mark_blocks_taken` marks exactly the run of its blocks. -/
theorem heapMarkBlocksTaken_eq {t t' : HeapTable} {b n : Nat}
    (h : heapMarkBlocksTaken t b n = .ok t') :
    t'.total = t.total ∧ ∀ k : Int, t'.entries k =
      if (b : Int) ≤ k ∧ k < (b : Int) + n then runEntry n (k - b).toNat else t.entries k := by
  simp only [heapMarkBlocksTaken] at h
  split at h
  · cases h
  · cases h
    refine ⟨rfl, fun k => ?_⟩
    dsimp only
    rw [heapMarkBlocksTakenLoop_apply]
    by_cases hk : (b : Int) ≤ k ∧ k < (b : Int) + n
    · rw [if_pos (by omega), if_pos hk]
      unfold runEntry
      by_cases hkb : k = b
      · rw [if_pos hkb, if_pos (show (k - b).toNat = 0 by omega)]
      · rw [if_neg hkb, if_neg (show ¬ (k - b).toNat = 0 by omega)]
        by_cases hke : k = (b : Int) + n - 1
        · rw [if_pos hke, if_pos (by omega)]
        · rw [if_neg hke, if_neg (by omega)]
    · rw [if_neg (by omega), if_neg hk]

theorem heapMarkBlocksTaken_isOk {t : HeapTable} {b n : Nat} (hn : 0 < b + n) :
    ∃ t', heapMarkBlocksTaken t b n = .ok t' := by
  unfold heapMarkBlocksTaken
  rw [if_neg (by omega)]
  exact ⟨_, rfl⟩

/-! ### heap_mark_blocks_free -/

/-- A release from block `b` reaches entry `k`: every entry before it has the
`HAS_NEXT` bit. -/
def Chain (entries : Int → UInt8) (b k : Int) : Prop :=
  b ≤ k ∧ ∀ j, b ≤ j → j < k → HasNext (entries j)

private theorem heapMarkBlocksFreeLoop_chain :
    ∀ (fuel : Nat) (i : Int) (entries : Int → UInt8) (k : Int), Chain entries i k →
      k < i + fuel → heapMarkBlocksFreeLoop fuel i entries k = HEAP_BLOCK_TABLE_ENTRY_FREE := by
  intro fuel
  induction fuel with
  | zero =>
    intro i entries k hc hk
    have := hc.1
    omega
  | succ fuel ih =>
    intro i entries k hc hk
    simp only [heapMarkBlocksFreeLoop]
    rcases lt_or_ge i k with hlt | hge
    · have hnext : ¬ (entries i &&& HEAP_BLOCK_HAS_NEXT = 0) := hc.2 i (by omega) hlt
      rw [if_neg hnext]
      refine ih (i + 1) _ k ⟨by omega, fun j h₁ h₂ => ?_⟩ (by omega)
      rw [Function.update_of_ne (by omega)]
      exact hc.2 j (by omega) h₂
    · obtain rfl : k = i := by have := hc.1; omega
      split
      · exact Function.update_self ..
      · have hout : ∀ (fuel : Nat) (i : Int) (entries : Int → UInt8), k < i →
            heapMarkBlocksFreeLoop fuel i entries k = entries k := by
          intro fuel
          induction fuel with
          | zero => intros; rfl
          | succ fuel ih' =>
            intro i entries hki
            simp only [heapMarkBlocksFreeLoop]
            split
            · exact Function.update_of_ne (by omega) ..
            · rw [ih' _ _ (by omega)]
              exact Function.update_of_ne (by omega) ..
        rw [hout _ _ _ (by omega)]
        exact Function.update_self ..

private theorem heapMarkBlocksFreeLoop_other :
    ∀ (fuel : Nat) (i : Int) (entries : Int → UInt8) (k : Int),
      ¬ (Chain entries i k ∧ k < i + fuel) →
      heapMarkBlocksFreeLoop fuel i entries k = entries k := by
  intro fuel
  induction fuel with
  | zero => intros; rfl
  | succ fuel ih =>
    intro i entries k hc
    have hki : k ≠ i := by
      rintro rfl
      exact hc ⟨⟨le_rfl, fun j h₁ h₂ => by omega⟩, by omega⟩
    simp only [heapMarkBlocksFreeLoop]
    split
    · exact Function.update_of_ne hki ..
    · next hnext =>
      rw [ih]
      · exact Function.update_of_ne hki ..
      · rintro ⟨⟨h₁, h₂⟩, h₃⟩
        refine hc ⟨⟨by omega, fun j hj₁ hj₂ => ?_⟩, by omega⟩
        rcases eq_or_ne j i with rfl | hne
        · exact hnext
        · have := h₂ j (by omega) hj₂
          rwa [Function.update_of_ne hne] at this

@[simp] theorem heapMarkBlocksFree_total (t : HeapTable) (b : Int) :
    (heapMarkBlocksFree t b).total = t.total := rfl

/-- `heap_mark_blocks_free` clears the entries it reaches inside the table. -/
theorem heapMarkBlocksFree_chain {t : HeapTable} {b k : Int} (h : Chain t.entries b k)
    (hk : k < t.total) : (heapMarkBlocksFree t b).entries k = HEAP_BLOCK_TABLE_ENTRY_FREE := by
  have := h.1
  exact heapMarkBlocksFreeLoop_chain _ _ _ _ h (by omega)

/-- `heap_mark_blocks_free` changes no other entry. -/
theorem heapMarkBlocksFree_other {t : HeapTable} {b k : Int}
    (h : Chain t.entries b k → (t.total : Int) ≤ k) :
    (heapMarkBlocksFree t b).entries k = t.entries k := by
  refine heapMarkBlocksFreeLoop_other _ _ _ _ ?_
  rintro ⟨hc, hk⟩
  have := h hc
  have := hc.1
  omega

/-- Every entry after a release is free or as it was. -/
theorem heapMarkBlocksFree_cases (t : HeapTable) (b k : Int) :
    (heapMarkBlocksFree t b).entries k = HEAP_BLOCK_TABLE_ENTRY_FREE ∨
      (heapMarkBlocksFree t b).entries k = t.entries k := by
  by_cases h : Chain t.entries b k ∧ k < t.total
  · exact Or.inl (heapMarkBlocksFree_chain h.1 h.2)
  · exact Or.inr (heapMarkBlocksFree_other fun hc => by
      by_contra hk
      exact h ⟨hc, by omega⟩)

/-- The entries that a release of a marked run reaches are those of the run. -/
theorem HeapTable.MarkedRun.chain_iff {t : HeapTable} {b n : Nat} (h : t.MarkedRun b n)
    (hn : 0 < n) (k : Int) : Chain t.entries b k ↔ (b : Int) ≤ k ∧ k < (b : Int) + n := by
  have hnext : ∀ j : Int, (b : Int) ≤ j → j < (b : Int) + n →
      (HasNext (t.entries j) ↔ j + 1 < (b : Int) + n) := by
    intro j h₁ h₂
    have hj := h (j - b).toNat (by omega)
    rw [show ((b + (j - b).toNat : Nat) : Int) = j by omega] at hj
    rw [hj, runEntry_hasNext (by omega)]
    omega
  constructor
  · rintro ⟨h₁, h₂⟩
    refine ⟨h₁, ?_⟩
    by_contra hk
    have := (hnext ((b : Int) + n - 1) (by omega) (by omega)).mp (h₂ _ (by omega) (by omega))
    omega
  · rintro ⟨h₁, h₂⟩
    exact ⟨h₁, fun j hj₁ hj₂ => (hnext j hj₁ (by omega)).mpr (by omega)⟩

/-- Releasing a marked run frees exactly its entries. -/
theorem HeapTable.MarkedRun.free_entries {t : HeapTable} {b n : Nat} (h : t.MarkedRun b n)
    (hn : 0 < n) (hin : b + n ≤ t.total) (k : Int) :
    (heapMarkBlocksFree t b).entries k =
      if (b : Int) ≤ k ∧ k < (b : Int) + n then HEAP_BLOCK_TABLE_ENTRY_FREE else t.entries k := by
  by_cases hk : (b : Int) ≤ k ∧ k < (b : Int) + n
  · rw [if_pos hk]
    exact heapMarkBlocksFree_chain ((h.chain_iff hn k).mpr hk) (by omega)
  · rw [if_neg hk]
    exact heapMarkBlocksFree_other fun hc => absurd ((h.chain_iff hn k).mp hc) hk

/-- The block number of a block's address, below the 2 GiB mark of the pool. -/
theorem heapAddressToBlock_of_lt (heap : Heap) {b : Nat} (hb : b < 0x80000) :
    heapAddressToBlock heap (heap.saddr + 4096 * b) = b := by
  unfold heapAddressToBlock
  rw [i32_of_range (by omega) (by omega), Int.tdiv_eq_ediv_of_nonneg (by omega)]
  simp only [PLUMOS_HEAP_BLOCK_SIZE]
  omega

/-- From the 2 GiB mark on, the `int` is negative. -/
theorem heapAddressToBlock_of_ge (heap : Heap) {b : Nat} (h₁ : 0x80000 ≤ b)
    (h₂ : b < 0x100000) : heapAddressToBlock heap (heap.saddr + 4096 * b) < 0 := by
  unfold heapAddressToBlock i32
  simp only [PLUMOS_HEAP_BLOCK_SIZE]
  have hdiff : ((heap.saddr + 4096 * b : Nat) : Int) - heap.saddr = 4096 * (b : Int) := by omega
  rw [hdiff]
  have hwrap : ((4096 * (b : Int) + 0x80000000) % 0x100000000 - 0x80000000) =
      -(4096 * (0x100000 - (b : Int))) := by omega
  rw [hwrap, Int.neg_tdiv, Int.tdiv_eq_ediv_of_nonneg (by omega)]
  omega

/-! ### heap_malloc -/

/-- `t'` is `t` with the `n` blocks from `b` on marked; those inside the table
were free, the first one among them. -/
structure Allocated (t t' : HeapTable) (b n : Nat) : Prop where
  total : t'.total = t.total
  start_lt : b < t.total
  free : ∀ k : Nat, b ≤ k → (k = b ∨ k < b + n) → k < t.total → t.IsFree k
  entries : ∀ k : Int, t'.entries k =
    if (b : Int) ≤ k ∧ k < (b : Int) + n then runEntry n (k - b).toNat else t.entries k

theorem Allocated.markedRun {t t' : HeapTable} {b n : Nat} (h : Allocated t t' b n) :
    t'.MarkedRun b n := by
  intro j hj
  rw [h.entries, if_pos (by omega)]
  congr 1
  omega

/-- An entry that was taken is not part of a new allocation. -/
theorem Allocated.keeps {t t' : HeapTable} {b n : Nat} (h : Allocated t t' b n) {k : Int}
    (h₀ : 0 ≤ k) (hk : k < t.total) (ht : ¬ t.IsFree k) : t'.entries k = t.entries k := by
  rw [h.entries, if_neg]
  rintro ⟨h₁, h₂⟩
  have := h.free k.toNat (by omega) (by omega) (by omega)
  rw [show ((k.toNat : Nat) : Int) = k by omega] at this
  exact ht this

/-- The two outcomes of `heap_malloc_blcoks`: no start block and nothing changed,
or the blocks from the start block on are marked. -/
theorem heapMallocBlcoks_cases {heap heap' : Heap} {n p : Nat}
    (h : heapMallocBlcoks heap n = .ok (p, heap')) :
    (heapGetStartBlock heap n < 0 ∧ p = 0 ∧ heap' = heap) ∨
    ∃ b : Nat, heapGetStartBlock heap n = b ∧ p = u32 (heap.saddr + b * 4096) ∧
      heap'.saddr = heap.saddr ∧ Allocated heap.table heap'.table b n := by
  simp only [heapMallocBlcoks] at h
  have hspec := heapGetStartBlock_spec heap n
  by_cases hneg : heapGetStartBlock heap n < 0
  · rw [if_pos hneg] at h
    cases h
    exact Or.inl ⟨hneg, rfl, rfl⟩
  · rw [if_neg hneg] at h
    refine Or.inr ?_
    generalize heapGetStartBlock heap n = r at hspec hneg h
    obtain ⟨b, rfl⟩ : ∃ b : Nat, r = b := ⟨r.toNat, by omega⟩
    cases hm : heapMarkBlocksTaken heap.table b n with
    | error e => simp [hm] at h
    | ok t' =>
      simp only [hm, Except.ok.injEq, Prod.mk.injEq] at h
      obtain ⟨rfl, rfl⟩ := h
      obtain ⟨htot, hent⟩ := heapMarkBlocksTaken_eq hm
      have hrun : b < heap.table.total ∧
          ∀ k : Nat, b ≤ k → (k = b ∨ k < b + n) → k < heap.table.total → heap.table.IsFree k := by
        generalize hr : (b : Int) = r at hspec
        cases hspec with
        | found c hn hc hrun _ =>
          obtain rfl : b = c := by omega
          exact ⟨by omega, fun k h₁ h₂ h₃ => hrun k h₁ (by omega)⟩
        | tail c hc hrun _ _ =>
          obtain rfl : b = c := by omega
          exact ⟨hc, fun k h₁ _ h₃ => hrun k h₁ (by omega)⟩
        | none => exact absurd hr (by simp only [ENOMEM]; omega)
      exact ⟨b, rfl, rfl, rfl, htot, hrun.1, hrun.2, hent⟩

/-- A request for some blocks always comes back. -/
theorem heapMallocBlcoks_isOk (heap : Heap) {n : Nat} (hn : 0 < n) :
    ∃ p heap', heapMallocBlcoks heap n = .ok (p, heap') := by
  simp only [heapMallocBlcoks]
  by_cases hneg : heapGetStartBlock heap n < 0
  · exact ⟨0, heap, by rw [if_pos hneg]⟩
  · rw [if_neg hneg]
    obtain ⟨b, hb⟩ : ∃ b : Nat, heapGetStartBlock heap n = b := ⟨_, (Int.toNat_of_nonneg (by omega)).symm⟩
    rw [hb]
    obtain ⟨t', ht'⟩ := heapMarkBlocksTaken_isOk (t := heap.table) (b := b) (n := n) (by omega)
    rw [ht']
    exact ⟨_, _, rfl⟩

/-- The number of blocks that hold `size` bytes. -/
def blocksOf (size : Nat) : Nat := (size + 4095) / 4096

theorem blocksOf_pos {size : Nat} (h : 1 ≤ size) : 0 < blocksOf size := by
  unfold blocksOf
  omega

/-- Below 2 GiB less a page, the rounding of `heap_malloc` does not overflow. -/
theorem heapTotalBlocks_eq {size : Nat} (h : size ≤ 0x7FFFF000) :
    heapTotalBlocks size = blocksOf size := by
  unfold blocksOf heapTotalBlocks heapAlignValueToUpper
  rw [i32_of_range (by omega) (by omega)]
  have htmod : (size : Int).tmod (PLUMOS_HEAP_BLOCK_SIZE : Nat) = ((size % 4096 : Nat) : Int) := by
    rw [Int.tmod_eq_emod_of_nonneg (by omega)]
    simp [PLUMOS_HEAP_BLOCK_SIZE]
  rw [htmod]
  simp only [PLUMOS_HEAP_BLOCK_SIZE]
  split
  · rw [u32_natCast (by omega)]
    omega
  · rw [u32_of_range (by omega) (by omega)]
    omega

/-! ### The frame rule of the heap -/

/-- The entries of `S` lie in the table, are taken with the contents `v`, and no
`HAS_NEXT` outside `S` leads into `S`: none in the table, and `barrier` ends every
release that starts before it. (The table is behind the boot sector, whose signature
`0x55` is two bytes before it.) -/
structure Guarded (S : Set Int) (v : Int → UInt8) (t : HeapTable) : Prop where
  inside : ∀ i ∈ S, 0 ≤ i ∧ i < t.total
  kept : ∀ i ∈ S, t.entries i = v i
  taken : ∀ i ∈ S, heapGetEntryType (v i) ≠ HEAP_BLOCK_TABLE_ENTRY_FREE
  sealed : ∀ i, 0 ≤ i → i ∉ S → HasNext (t.entries i) → i + 1 ∉ S
  barrier : ¬ HasNext (t.entries (-2))

theorem Guarded.not_free {S : Set Int} {v : Int → UInt8} {t : HeapTable} (h : Guarded S v t)
    {i : Int} (hi : i ∈ S) : ¬ t.IsFree i := by
  unfold HeapTable.IsFree
  rw [h.kept i hi]
  exact h.taken i hi

/-- A release that starts outside `S` stays outside `S`. -/
theorem Guarded.chain {S : Set Int} {v : Int → UInt8} {t : HeapTable} (h : Guarded S v t)
    {b : Int} (hb : b ∉ S) (hb1 : b ≠ -1) {k : Int} (hc : Chain t.entries b k) : k ∉ S := by
  rcases lt_or_ge b 0 with hneg | hpos
  · -- the release ends before the table
    intro hk
    have := h.inside k hk
    exact h.barrier (hc.2 (-2) (by omega) (by omega))
  · have key : ∀ d : Nat, Chain t.entries b (b + d) → b + d ∉ S := by
      intro d
      induction d with
      | zero => intro _; simpa using hb
      | succ d ih =>
        intro hc
        have hd := ih ⟨by omega, fun j h₁ h₂ => hc.2 j h₁ (by omega)⟩
        have := h.sealed _ (by omega) hd (hc.2 _ (by omega) (by omega))
        rwa [show b + (d : Int) + 1 = b + ((d + 1 : Nat) : Int) by omega] at this
    have := key (k - b).toNat
    rw [show b + ((k - b).toNat : Int) = k by have := hc.1; omega] at this
    exact this hc

theorem Guarded.free {S : Set Int} {v : Int → UInt8} {t : HeapTable} (h : Guarded S v t)
    {b : Int} (hb : b ∉ S) (hb1 : b ≠ -1) : Guarded S v (heapMarkBlocksFree t b) where
  inside := h.inside
  taken := h.taken
  kept := fun i hi => by
    rw [heapMarkBlocksFree_other fun hc => absurd hi (h.chain hb hb1 hc)]
    exact h.kept i hi
  sealed := fun i h0 hi hn => by
    rcases heapMarkBlocksFree_cases t b i with hf | hk
    · rw [hf] at hn
      exact absurd hn not_hasNext_free
    · rw [hk] at hn
      exact h.sealed i h0 hi hn
  barrier := by
    rcases heapMarkBlocksFree_cases t b (-2) with hf | hk
    · rw [hf]
      exact not_hasNext_free
    · rw [hk]
      exact h.barrier

theorem Guarded.allocated {S : Set Int} {v : Int → UInt8} {t t' : HeapTable} {b n : Nat}
    (h : Guarded S v t) (ha : Allocated t t' b n) : Guarded S v t' where
  inside := fun i hi => by rw [ha.total]; exact h.inside i hi
  taken := h.taken
  kept := fun i hi => by
    have hin := h.inside i hi
    rw [ha.keeps hin.1 hin.2 (h.not_free hi)]
    exact h.kept i hi
  sealed := fun i h0 hi hn hi1 => by
    have hin := h.inside _ hi1
    rw [ha.entries] at hn
    split at hn
    · next hrange =>
      -- `i` is in the new run and has a next block, so `i + 1` is in it too
      rw [runEntry_hasNext (by omega)] at hn
      have := ha.free (i + 1).toNat (by omega) (by omega) (by omega)
      rw [show (((i + 1).toNat : Nat) : Int) = i + 1 by omega] at this
      exact h.not_free hi1 this
    · exact h.sealed i h0 hi hn hi1
  barrier := by
    rw [ha.entries, if_neg (by omega)]
    exact h.barrier

/-- The start block of a new allocation is not guarded. -/
theorem Guarded.start_not_mem {S : Set Int} {v : Int → UInt8} {t t' : HeapTable} {b n : Nat}
    (h : Guarded S v t) (ha : Allocated t t' b n) : (b : Int) ∉ S :=
  fun hb => h.not_free hb (ha.free b le_rfl (Or.inl rfl) ha.start_lt)

/-- A table as allocations and releases of whole allocations leave it: a `HAS_NEXT`
leads to a taken entry that is not the first one of an allocation. -/
structure SoundTable (t : HeapTable) : Prop where
  next_taken : ∀ i : Int, 0 ≤ i → i + 1 < t.total → HasNext (t.entries i) →
    ¬ t.IsFree (i + 1) ∧ t.entries (i + 1) &&& HEAP_BLOCK_IS_FIRST = 0
  barrier : ¬ HasNext (t.entries (-2))

/-- The entries of a new allocation that lie in the table. -/
def runBlocks (t : HeapTable) (b n : Nat) : Set Int :=
  { i | (b : Int) ≤ i ∧ i < b + n ∧ i < t.total }

/-- In a sound table a new allocation is guarded. -/
theorem SoundTable.guarded {t t' : HeapTable} {b n : Nat} (h : SoundTable t)
    (ha : Allocated t t' b n) : Guarded (runBlocks t b n) t'.entries t' where
  inside := fun i hi => by
    rw [ha.total]
    exact ⟨by have := hi.1; omega, hi.2.2⟩
  kept := fun _ _ => rfl
  taken := fun i hi => by
    rw [ha.entries, if_pos ⟨hi.1, hi.2.1⟩]
    exact runEntry_taken _ _
  sealed := fun i h0 hi hn hi1 => by
    obtain ⟨h₁, h₂, h₃⟩ := hi1
    have hout : ¬ ((b : Int) ≤ i ∧ i < (b : Int) + n) := fun hin => hi ⟨hin.1, hin.2, by omega⟩
    rw [ha.entries, if_neg hout] at hn
    -- `i` is the entry before the run, whose first entry was free
    have hfree := ha.free b le_rfl (Or.inl rfl) ha.start_lt
    have hib : i + 1 = (b : Int) := by omega
    exact (h.next_taken i h0 h₃ hn).1 (hib ▸ hfree)
  barrier := by
    rw [ha.entries, if_neg (by omega)]
    exact h.barrier

theorem SoundTable.allocated {t t' : HeapTable} {b n : Nat} (h : SoundTable t)
    (ha : Allocated t t' b n) : SoundTable t' where
  next_taken := fun i h0 hi hn => by
    have hpos := ha.entries i
    have hpos' := ha.entries (i + 1)
    rw [ha.total] at hi
    unfold HeapTable.IsFree
    rw [hpos']
    rw [hpos] at hn
    by_cases hin : (b : Int) ≤ i ∧ i < (b : Int) + n
    · rw [if_pos hin] at hn
      have hnext := (runEntry_hasNext (by omega)).mp hn
      rw [if_pos (by omega)]
      refine ⟨runEntry_taken _ _, ?_⟩
      by_contra hfirst
      have := (runEntry_isFirst n (i + 1 - b).toNat).mp hfirst
      omega
    · rw [if_neg hin] at hn
      have hold := h.next_taken i h0 hi hn
      -- the first block of the allocation was free
      have hne : i + 1 ≠ b := fun heq => hold.1 (heq ▸ ha.free b le_rfl (Or.inl rfl) ha.start_lt)
      rw [if_neg (by omega)]
      exact hold
  barrier := by
    rw [ha.entries, if_neg (by omega)]
    exact h.barrier

/-- Releasing a whole allocation. -/
theorem SoundTable.released {t t' : HeapTable} {b n : Nat} (h : SoundTable t)
    (hm : t.MarkedRun b n) (hn : 0 < n) (htotal : t'.total = t.total)
    (he : ∀ i : Int, t'.entries i = if (b : Int) ≤ i ∧ i < (b : Int) + n then
      HEAP_BLOCK_TABLE_ENTRY_FREE else t.entries i) : SoundTable t' where
  next_taken := fun i h0 hi hnext => by
    rw [htotal] at hi
    rw [he] at hnext
    split at hnext
    · exact absurd hnext not_hasNext_free
    · next hin =>
      have hold := h.next_taken i h0 hi hnext
      -- the first block of the allocation is no next block
      have hne : i + 1 ≠ b := by
        intro heq
        have hfirst := hm 0 hn
        rw [Nat.add_zero, ← heq] at hfirst
        rw [hfirst] at hold
        exact (runEntry_isFirst n 0).mpr rfl hold.2
      unfold HeapTable.IsFree
      rw [he, if_neg (by omega)]
      exact hold
  barrier := by
    rw [he, if_neg (by omega)]
    exact h.barrier

end PlumOS
