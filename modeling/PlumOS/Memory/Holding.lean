import Mathlib.Data.Set.BooleanAlgebra
import Mathlib.Order.CompletePartialOrder
import PlumOS.Memory.Ownership

/-!
# All that is allocated

What the kernel heap holds, as a set of pointers: an allocation adds one pointer, a
release takes one away.

## Main definitions

- `Holding` — the allocations are those of a set

## Main results

- `kzalloc_holding`, `kzallocObj_holding`, `kfree_holding`
-/

namespace PlumOS

open StateExcept

/-- The table is tidy, and the allocations are those of `A`. -/
structure Holding (A : Set Nat) (k : Kernel) : Prop extends Guards A k where
  only : ∀ p, k.Held p → p ∈ A

instance (k : Kernel) (p : Nat) : Decidable (k.Held p) :=
  decidable_of_iff ((p - 0x1000000) / 4096 < 25600 ∧ p = blockAddress ((p - 0x1000000) / 4096) ∧
      heapGetEntryType (k.heap_entries ((p - 0x1000000) / 4096 : Nat)) ≠ HEAP_BLOCK_TABLE_ENTRY_FREE ∧
      k.heap_entries ((p - 0x1000000) / 4096 : Nat) &&& HEAP_BLOCK_IS_FIRST ≠ 0) <| by
    constructor
    · rintro ⟨hb, hp, hs⟩
      exact ⟨_, hb, hp, hs⟩
    · rintro ⟨b, hb, rfl, hs⟩
      have hblock : (blockAddress b - 0x1000000) / 4096 = b := by
        unfold blockAddress
        omega
      rw [hblock]
      exact ⟨hb, rfl, hs⟩

section Holding

variable {A B : Set Nat} {k k' : Kernel} {p q : Nat}

theorem Holding.of_tidy (h : k.Tidy) : Holding { p | k.Held p } k :=
  ⟨⟨h, fun _ hp => hp⟩, fun _ hp => hp⟩

theorem Holding.zero_notMem (h : Holding A k) : 0 ∉ A := fun hp => (h.held 0 hp).ne_zero rfl

theorem Holding.congr (h : Holding A k) (he : k'.heap_entries = k.heap_entries) : Holding A k' :=
  ⟨⟨h.tidy.congr he, fun p hp => (h.held p hp).congr he⟩, fun p hp => h.only p (hp.congr he.symm)⟩

theorem Holding.of_eq (h : Holding A k) (hA : A = B) : Holding B k := hA ▸ h

/-- An allocation starts at the pointer that is returned, and nowhere else. -/
theorem Kzalloced.held {size : Nat} (ha : Kzalloced k size p k') (hq : k'.Held q) :
    q = p ∧ size ≠ 0 ∨ k.Held q := by
  obtain ⟨b, rfl, hall⟩ := ha.block
  obtain ⟨c, hc, rfl, hs⟩ := hq
  unfold HeapTable.IsStart HeapTable.IsFree at hs
  rw [hall.entries] at hs
  split at hs
  · next hin =>
    have hfirst := (runEntry_isFirst _ _).mp hs.2
    obtain rfl : c = b := by omega
    refine Or.inl ⟨rfl, ?_⟩
    rintro rfl
    have hnone : heapTotalBlocks 0 = 0 := by decide
    omega
  · exact Or.inr ⟨c, hc, rfl, hs⟩

/-- Memory from `kzalloc` is new. None is taken for nothing. -/
theorem kzalloc_holding (h : Holding A k) (size : Nat) :
    Framed (Intact A) (kzalloc size) k fun p k' => (p = 0 ∧ k' = k) ∨ p ≠ 0 ∧ p ∉ A ∧
      (size ≠ 0 → Holding (insert p A) k') ∧ (size = 0 → Holding A k') := by
  intro p k' hrun
  obtain ⟨hk', hcases⟩ := kzalloc_obtained h.toGuards size p k' hrun
  refine ⟨hk', ?_⟩
  rcases kzalloc_spec k size p k' hrun with hnull | ha
  · exact Or.inl hnull
  obtain ⟨hzero, -⟩ | ⟨hne, hp, hobt⟩ := hcases
  · exact absurd hzero ha.ne_zero
  refine Or.inr ⟨hne, hp, fun hsize => ⟨hk'.guards.insert (hobt.held (by omega)), fun q hq => ?_⟩,
    fun hsize => ⟨hk'.guards, fun q hq => ?_⟩⟩
  · rcases ha.held hq with ⟨rfl, -⟩ | hold
    · exact Set.mem_insert _ _
    · exact Set.mem_insert_of_mem _ (h.only q hold)
  · rcases ha.held hq with ⟨-, hne⟩ | hold
    · exact absurd hsize hne
    · exact h.only q hold

/-- A new structure is in new memory. -/
theorem kzallocObj_holding (h : Holding A k) {size : Nat} (h₁ : 1 ≤ size) (zero : Obj) :
    Framed (Intact A) (kzallocObj size zero) k fun p k' => (p = 0 ∧ k' = k) ∨
      p ≠ 0 ∧ p ∉ A ∧ k'.objs p = some zero ∧ Holding (insert p A) k' := by
  refine Framed.bind (kzalloc_holding h size) ?_
  rintro p k₁ hk₁ (⟨rfl, rfl⟩ | ⟨hne, hp, hheld, -⟩)
  · exact .pure (.refl h.toGuards) (Or.inl ⟨rfl, rfl⟩)
  rw [if_neg hne]
  refine Framed.bind (intact_storeObj hk₁.guards hp zero) ?_
  intro _ k₂ hk₂ hst
  exact .pure (.refl hk₂.guards) (Or.inr ⟨hne, hp, hst.self,
    (hheld (by omega)).congr hst.heap_entries⟩)

/-- A release starts no allocation, and ends the one at its pointer. -/
theorem kfree_held {a : PUnit} (h : kfree p k = .ok (a, k')) (hq : k'.Held q) :
    k.Held q ∧ q ≠ p := by
  rw [kfree_eq] at h
  cases h
  obtain ⟨c, hc, rfl, hs⟩ := hq
  have hfree : ¬ (heapMarkBlocksFree k.heap.table (pointerBlock p)).IsFree c := hs.1
  have hsame : (heapMarkBlocksFree k.heap.table (pointerBlock p)).entries c =
      k.heap.table.entries c := by
    rcases heapMarkBlocksFree_cases k.heap.table (pointerBlock p) c with hzero | hsame
    · refine absurd ?_ hfree
      unfold HeapTable.IsFree
      rw [hzero]
      decide
    · exact hsame
  refine ⟨⟨c, hc, rfl, ?_⟩, ?_⟩
  · unfold HeapTable.IsStart HeapTable.IsFree at hs ⊢
    rw [← hsame]
    exact hs
  · rintro rfl
    refine hfree ?_
    unfold HeapTable.IsFree
    have hstart : Chain k.heap.table.entries c c := ⟨le_rfl, fun _ _ _ => by omega⟩
    rw [pointerBlock_blockAddress hc, heapMarkBlocksFree_chain hstart (by
      rw [Kernel.heap_total]
      omega)]
    decide

/-- A release takes away the allocation at the pointer; NULL takes away none. -/
theorem kfree_holding (h : Holding A k) (hp : p = 0 ∨ p ∈ A) :
    Framed (Intact (A \ {p})) (kfree p) k fun _ k' => Holding (A \ {p}) k' := by
  have hrel : k.Releasable p := hp.elim Or.inl fun hp => (h.held p hp).releasable
  have hout : p ∉ A \ {p} := fun hmem => hmem.2 rfl
  intro a k' hrun
  obtain ⟨hk', -⟩ := released_kfree (h.toGuards.mono Set.sdiff_subset) hrel hout a k' hrun
  refine ⟨hk'.toIntact, hk'.guards, fun q hq => ?_⟩
  obtain ⟨hold, hne⟩ := kfree_held hrun hq
  exact ⟨h.only q hold, hne⟩

end Holding

end PlumOS
