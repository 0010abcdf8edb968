import PlumOS.Disk.Streamer
import PlumOS.Memory.Fence

/-!
# Blocks that stay allocated

A pointer is held when it points to the first block of an allocation, of whatever length.
In a tidy table a release that starts at such a block, or at a free one, ends that
allocation alone; so code that only releases what it was given leaves every other
allocation as it was, with the structure in it.

## Main definitions

- `TidyTable` — a table in which no release runs into another allocation
- `Kernel.Held`, `Kernel.Releasable` — pointers to an allocation, and pointers to release
- `Guards`, `Intact` — a set of allocations, and what leaves them as they were
- `Released` — what releases do to the pointers and structures that are left
- `Beside` — allocations that are apart from others

## Main results

- `TidyTable.release_start` — a release leaves the starts of the other allocations alone
- `released_kfree`, `kzalloc_obtained`, `kzallocObj_made`
-/

namespace PlumOS

open StateExcept

/-- The entry is the first one of an allocation. -/
def HeapTable.IsStart (t : HeapTable) (i : Int) : Prop :=
  ¬ t.IsFree i ∧ t.entries i &&& HEAP_BLOCK_IS_FIRST ≠ 0

/-- A `HAS_NEXT` leads from a taken entry to a taken one that is no first entry. -/
structure TidyTable (t : HeapTable) : Prop extends SoundTable t where
  free_end : ∀ i : Int, 0 ≤ i → i < t.total → t.IsFree i → ¬ HasNext (t.entries i)

section Table

variable {t t' : HeapTable} {b i : Int}

/-- The block is outside the table, free, or the first one of an allocation. -/
def HeapTable.Releasable (t : HeapTable) (b : Int) : Prop :=
  b ≠ -1 ∧ (0 ≤ b → b < t.total → t.IsFree b ∨ t.IsStart b)

/-- Past its first entry a release reaches no first entry and no free one. -/
theorem TidyTable.chain (h : TidyTable t) (hb : b ≠ -1) (hc : Chain t.entries b i) (h₀ : 0 ≤ i)
    (hi : i < t.total) : i = b ∨ ¬ t.IsFree i ∧ t.entries i &&& HEAP_BLOCK_IS_FIRST = 0 := by
  rcases eq_or_ne i b with heq | hne
  · exact Or.inl heq
  have hle := hc.1
  rcases lt_or_ge b 0 with hneg | hpos
  · exact absurd (hc.2 (-2) (by omega) (by omega)) h.barrier
  · have hnext := h.next_taken (i - 1) (by omega) (by omega) (hc.2 _ (by omega) (by omega))
    rw [show i - 1 + 1 = i by omega] at hnext
    exact Or.inr hnext

/-- A release leaves the starts of the other allocations alone. -/
theorem TidyTable.release_start (h : TidyTable t) (hb : b ≠ -1) (h₀ : 0 ≤ i) (hi : i < t.total)
    (hs : t.IsStart i) (hne : i ≠ b) : (heapMarkBlocksFree t b).entries i = t.entries i := by
  refine heapMarkBlocksFree_other fun hc => ?_
  rcases h.chain hb hc h₀ hi with heq | ⟨-, hfirst⟩
  · exact absurd heq hne
  · exact absurd hfirst hs.2

theorem TidyTable.release (h : TidyTable t) (hb : t.Releasable b) :
    TidyTable (heapMarkBlocksFree t b) where
  next_taken := by
    intro i h₀ hi hnext
    rcases heapMarkBlocksFree_cases t b i with hfree | hsame
    · rw [hfree] at hnext
      exact absurd hnext not_hasNext_free
    rw [hsame] at hnext
    have hold := h.next_taken i h₀ hi hnext
    -- a release that reached the next entry would start there or pass through this one
    have hout : (heapMarkBlocksFree t b).entries (i + 1) = t.entries (i + 1) := by
      refine heapMarkBlocksFree_other fun hc => ?_
      rcases eq_or_ne b (i + 1) with rfl | hne
      · rcases hb.2 (by omega) hi with hfree | hs
        · exact absurd hfree hold.1
        · exact absurd hold.2 hs.2
      · have hle := hc.1
        have hcleared := heapMarkBlocksFree_chain (t := t) (b := b) (k := i)
          ⟨by omega, fun j h₁ h₂ => hc.2 j h₁ (by omega)⟩ (by
            rw [heapMarkBlocksFree_total] at hi
            omega)
        rw [hsame] at hcleared
        rw [hcleared] at hnext
        exact absurd hnext not_hasNext_free
    unfold HeapTable.IsFree
    rw [hout]
    exact hold
  barrier := by
    rcases heapMarkBlocksFree_cases t b (-2) with hfree | hsame
    · rw [hfree]
      exact not_hasNext_free
    · rw [hsame]
      exact h.barrier
  free_end := by
    intro i h₀ hi hfree
    rcases heapMarkBlocksFree_cases t b i with hzero | hsame
    · rw [hzero]
      exact not_hasNext_free
    · unfold HeapTable.IsFree at hfree
      rw [hsame] at hfree ⊢
      exact h.free_end i h₀ hi hfree

theorem HeapTable.Releasable.release (h : t.Releasable i) :
    (heapMarkBlocksFree t b).Releasable i := by
  refine ⟨h.1, fun h₀ hi => ?_⟩
  unfold HeapTable.IsStart HeapTable.IsFree
  rcases heapMarkBlocksFree_cases t b i with hzero | hsame
  · rw [hzero]
    exact Or.inl (by decide)
  · rw [hsame]
    exact h.2 h₀ hi

theorem TidyTable.allocated {c n : Nat} (h : TidyTable t) (ha : Allocated t t' c n) :
    TidyTable t' where
  toSoundTable := h.toSoundTable.allocated ha
  free_end := by
    intro i h₀ hi hfree
    unfold HeapTable.IsFree at hfree
    rw [ha.total] at hi
    rw [ha.entries] at hfree ⊢
    split at hfree
    · exact absurd hfree (runEntry_taken _ _)
    · next hout =>
      rw [if_neg hout]
      exact h.free_end i h₀ hi hfree

theorem Allocated.isStart {c n : Nat} (ha : Allocated t t' c n) (hn : 0 < n) : t'.IsStart c := by
  unfold HeapTable.IsStart HeapTable.IsFree
  rw [ha.entries, if_pos (by omega), show ((c : Int) - c).toNat = 0 by omega]
  exact ⟨runEntry_taken n 0, (runEntry_isFirst n 0).mpr rfl⟩

end Table

/-! ### Pointers -/

/-- The kernel heap's table is tidy. -/
def Kernel.Tidy (k : Kernel) : Prop := TidyTable k.heap.table

/-- The pointer is the address of an allocation. -/
def Kernel.Held (k : Kernel) (p : Nat) : Prop :=
  ∃ b < 25600, p = blockAddress b ∧ k.heap.table.IsStart b

/-- The pointer is NULL or the address of a block that is free or starts an allocation. -/
def Kernel.Releasable (k : Kernel) (p : Nat) : Prop :=
  p = 0 ∨ ∃ b : Nat, b < 25600 ∧ p = blockAddress b ∧ k.heap.table.Releasable b

section Pointers

variable {k k' : Kernel} {p : Nat}

theorem boot_tidy (disk : Disk) : (Kernel.boot disk).Tidy where
  toSoundTable := boot_heapSound disk
  free_end := fun _ _ _ _ => not_hasNext_free

theorem Kernel.Tidy.congr (h : k.Tidy) (he : k'.heap_entries = k.heap_entries) : k'.Tidy := by
  have htable : k'.heap.table = k.heap.table := by
    unfold Kernel.heap
    rw [he]
  unfold Kernel.Tidy
  rwa [htable]

theorem Kernel.Held.congr (h : k.Held p) (he : k'.heap_entries = k.heap_entries) : k'.Held p := by
  obtain ⟨b, hb, hp, hs⟩ := h
  refine ⟨b, hb, hp, ?_⟩
  unfold HeapTable.IsStart HeapTable.IsFree at hs ⊢
  rwa [Kernel.heap_entries_eq, he]

theorem Kernel.Releasable.congr (h : k.Releasable p) (he : k'.heap_entries = k.heap_entries) :
    k'.Releasable p := by
  refine h.imp_right ?_
  rintro ⟨b, hb, hp, hr⟩
  refine ⟨b, hb, hp, ?_⟩
  unfold HeapTable.Releasable HeapTable.IsStart HeapTable.IsFree at hr ⊢
  rwa [Kernel.heap_entries_eq, he]

theorem Kernel.Held.ne_zero (h : k.Held p) : p ≠ 0 := by
  obtain ⟨b, -, rfl, -⟩ := h
  unfold blockAddress
  omega

theorem Kernel.Held.aligned (h : k.Held p) : p % 4096 = 0 ∧ p < 0x100000000 := by
  obtain ⟨b, hb, rfl, -⟩ := h
  unfold blockAddress
  omega

theorem Kernel.Held.releasable (h : k.Held p) : k.Releasable p := by
  obtain ⟨b, hb, hp, hs⟩ := h
  exact Or.inr ⟨b, hb, hp, by omega, fun _ _ => Or.inr hs⟩

theorem releasable_zero (k : Kernel) : k.Releasable 0 := Or.inl rfl

end Pointers

/-! ### What is left as it was -/

/-- The lists of processes and tasks are the same. -/
structure SameLists (k k' : Kernel) : Prop where
  processes : k'.processes = k.processes
  current_process : k'.current_process = k.current_process
  task_head : k'.task_head = k.task_head
  task_tail : k'.task_tail = k.task_tail
  current_task : k'.current_task = k.current_task

/-- The table is tidy, and the pointers of `P` are held. -/
structure Guards (P : Set Nat) (k : Kernel) : Prop where
  tidy : k.Tidy
  held : ∀ p ∈ P, k.Held p

/-- The allocations `P` are there in `k'` as they were in `k`, with the same structures in
them. -/
structure Intact (P : Set Nat) (k k' : Kernel) : Prop where
  guards : Guards P k'
  objs : ∀ p ∈ P, k'.objs p = k.objs p
  lists : SameLists k k'

/-- Of the other pointers and structures none is new. -/
structure Released (P : Set Nat) (k k' : Kernel) : Prop extends Intact P k k' where
  releasable : ∀ p, k.Releasable p → k'.Releasable p
  only : ∀ p, k'.objs p = k.objs p ∨ k'.objs p = none

/-- The pointer can be released without harm to `P`. -/
def Kernel.Disposable (k : Kernel) (P : Set Nat) (p : Nat) : Prop := k.Releasable p ∧ p ∉ P

/-- The allocations `S` are none of `P`. -/
structure Beside (P S : Set Nat) (k : Kernel) : Prop extends Guards S k where
  apart : ∀ p ∈ S, p ∉ P

section Intact

variable {P S : Set Nat} {k k' k₁ k₂ k₃ : Kernel} {p q : Nat}

theorem SameLists.refl (k : Kernel) : SameLists k k := ⟨rfl, rfl, rfl, rfl, rfl⟩

theorem SameLists.trans (h : SameLists k₁ k₂) (h' : SameLists k₂ k₃) : SameLists k₁ k₃ where
  processes := h'.processes.trans h.processes
  current_process := h'.current_process.trans h.current_process
  task_head := h'.task_head.trans h.task_head
  task_tail := h'.task_tail.trans h.task_tail
  current_task := h'.current_task.trans h.current_task

theorem SameGlobals.lists (h : SameGlobals k k') : SameLists k k' :=
  ⟨h.processes, h.current_process, h.task_head, h.task_tail, h.current_task⟩

theorem Guards.union (h : Guards P k) (h' : Guards S k) : Guards (P ∪ S) k :=
  ⟨h.tidy, fun p hp => hp.elim (h.held p) (h'.held p)⟩

theorem Guards.insert (h : Guards P k) (hp : k.Held p) : Guards (Insert.insert p P) k := by
  refine ⟨h.tidy, ?_⟩
  rintro q (rfl | hq)
  · exact hp
  · exact h.held q hq

theorem Guards.mono (h : Guards P k) (hS : S ⊆ P) : Guards S k :=
  ⟨h.tidy, fun p hp => h.held p (hS hp)⟩

theorem Guards.left (h : Guards (P ∪ S) k) : Guards P k := h.mono Set.subset_union_left

theorem Guards.empty (h : k.Tidy) : Guards ∅ k := ⟨h, fun _ hp => absurd hp (Set.notMem_empty _)⟩

theorem Guards.singleton (h : k.Tidy) (hp : k.Held p) : Guards {p} k := by
  refine ⟨h, ?_⟩
  rintro _ rfl
  exact hp

theorem Intact.refl (h : Guards P k) : Intact P k k := ⟨h, fun _ _ => rfl, .refl k⟩

theorem Intact.trans (h : Intact P k₁ k₂) (h' : Intact P k₂ k₃) : Intact P k₁ k₃ :=
  ⟨h'.guards, fun p hp => (h'.objs p hp).trans (h.objs p hp), h.lists.trans h'.lists⟩

instance : IsTrans Kernel (Intact P) := ⟨fun _ _ _ => Intact.trans⟩

theorem Intact.mono (h : Intact P k k') (hS : S ⊆ P) : Intact S k k' :=
  ⟨h.guards.mono hS, fun p hp => h.objs p (hS hp), h.lists⟩

theorem Intact.left (h : Intact (P ∪ S) k k') : Intact P k k' := h.mono Set.subset_union_left

theorem Intact.right (h : Intact (P ∪ S) k k') : Intact S k k' := h.mono Set.subset_union_right

theorem Intact.tail (h : Intact (Insert.insert p P) k k') : Intact P k k' :=
  h.mono (Set.subset_insert _ _)

theorem Intact.head (h : Intact (Insert.insert p P) k k') : k'.Held p ∧ k'.objs p = k.objs p :=
  ⟨h.guards.held p (Set.mem_insert _ _), h.objs p (Set.mem_insert _ _)⟩

/-- A change of other parts of the state. -/
theorem Intact.of_same (h : Guards P k) (he : k'.heap_entries = k.heap_entries)
    (ho : k'.objs = k.objs) (hl : SameLists k k') : Intact P k k' :=
  ⟨⟨h.tidy.congr he, fun p hp => (h.held p hp).congr he⟩, fun _ _ => by rw [ho], hl⟩

theorem Intact.stored {o : Obj} (h : Guards P k) (hst : Stored k p o k') (hp : p ∉ P) :
    Intact P k k' := by
  refine ⟨⟨h.tidy.congr hst.heap_entries, fun q hq => (h.held q hq).congr hst.heap_entries⟩,
    fun q hq => hst.other q ?_, hst.globals.lists⟩
  rintro rfl
  exact hp hq

theorem Released.refl (h : Guards P k) : Released P k k :=
  ⟨.refl h, fun _ h => h, fun _ => Or.inl rfl⟩

theorem Released.trans (h : Released P k₁ k₂) (h' : Released P k₂ k₃) : Released P k₁ k₃ where
  toIntact := h.toIntact.trans h'.toIntact
  releasable := fun p hp => h'.releasable p (h.releasable p hp)
  only := by
    intro p
    rcases h'.only p with heq | hnone
    · rw [heq]
      exact h.only p
    · exact Or.inr hnone

instance : IsTrans Kernel (Released P) := ⟨fun _ _ _ => Released.trans⟩

theorem Released.eq_some {o : Obj} (h : Released P k k') (ho : k'.objs p = some o) :
    k.objs p = some o := by
  rcases h.only p with heq | hnone
  · rwa [← heq]
  · rw [hnone] at ho
    cases ho

theorem Beside.empty (P : Set Nat) (h : k.Tidy) : Beside P ∅ k where
  toGuards := .empty h
  apart := fun _ hp => absurd hp (Set.notMem_empty _)

theorem Beside.insert (h : Beside P S k) (hp : k.Held p) (hP : p ∉ P) :
    Beside P (Insert.insert p S) k where
  toGuards := h.toGuards.insert hp
  apart := by
    rintro q (rfl | hq)
    · exact hP
    · exact h.apart q hq

theorem Beside.mono (h : Beside P' S k) (hP : P ⊆ P') : Beside P S k :=
  ⟨h.toGuards, fun p hp hmem => h.apart p hp (hP hmem)⟩

theorem Beside.congr (h : Beside P S k) (he : k'.heap_entries = k.heap_entries) : Beside P S k' :=
  ⟨⟨h.tidy.congr he, fun p hp => (h.held p hp).congr he⟩, h.apart⟩

theorem Beside.singleton (h : k.Tidy) (hp : k.Held p) (hP : p ∉ P) : Beside P {p} k where
  toGuards := .singleton h hp
  apart := by
    rintro _ rfl
    exact hP

theorem Beside.disposable (h : Beside P S k) : ∀ p ∈ S, k.Disposable P p :=
  fun p hp => ⟨(h.held p hp).releasable, h.apart p hp⟩

/-- All of `P` and `S` stays. -/
theorem Beside.intact (h : Beside P S k) (hk : Intact (P ∪ S) k k') : Beside P S k' :=
  ⟨hk.right.guards, h.apart⟩

/-! ### kfree and kzalloc -/

/-- A release ends one allocation at most. -/
theorem released_kfree (h : Guards P k) (hp : k.Releasable p) (hP : p ∉ P) :
    Framed (Released P) (kfree p) k fun _ k' => k'.objs p = none := by
  have hblock : k.heap.table.Releasable (pointerBlock p) ∧
      ∀ c < 25600, pointerBlock p = (c : Nat) → p = blockAddress c := by
    rcases hp with rfl | ⟨b, hb, rfl, hr⟩
    · rw [pointerBlock_zero]
      exact ⟨⟨by decide, fun h => absurd h (by decide)⟩, fun c _ hc => by omega⟩
    · rw [pointerBlock_blockAddress hb]
      exact ⟨hr, fun c _ hc => by rw [show b = c by omega]⟩
  refine .modifies ⟨⟨⟨h.tidy.release hblock.1, fun q hq => ?_⟩, fun q hq => ?_,
    ⟨rfl, rfl, rfl, rfl, rfl⟩⟩, fun q hq => ?_, fun q => ?_⟩ (Function.update_self ..)
  · obtain ⟨c, hc, rfl, hs⟩ := h.held q hq
    have hkept := h.tidy.release_start hblock.1.1 (by omega) (by rw [Kernel.heap_total]; omega) hs
      fun heq => hP (hblock.2 c hc heq.symm ▸ hq)
    refine ⟨c, hc, rfl, ?_⟩
    unfold HeapTable.IsStart HeapTable.IsFree at hs ⊢
    rw [← hkept] at hs
    exact hs
  · refine Function.update_of_ne ?_ _ _
    rintro rfl
    exact hP hq
  · refine hq.imp_right ?_
    rintro ⟨c, hc, rfl, hr⟩
    exact ⟨c, hc, rfl, hr.release⟩
  · by_cases hq : q = p
    · subst hq
      exact Or.inr (Function.update_self ..)
    · exact Or.inl (Function.update_of_ne hq _ _)

/-- `k'` is `k` with `size` bytes allocated at `p`. -/
structure Obtained (k : Kernel) (size p : Nat) (k' : Kernel) : Prop where
  intact : Intact { q | k.Held q } k k'
  fresh : ¬ k.Held p
  held : 1 ≤ size → k'.Held p
  releasable : k'.Releasable p
  one_block : size ≤ 4096 → ∀ q, k.Releasable q → k'.Releasable q
  only : ∀ q, k'.objs q = k.objs q ∨ k'.objs q = none
  globals : SameGlobals k k'

/-- An allocation clears no address of another one. -/
private theorem Kzalloced.clears_free {size : Nat} (ha : Kzalloced k size p k') {c : Nat}
    (hc : c < 25600) (hin : p ≤ blockAddress c ∧ blockAddress c < p + size) :
    k.heap.table.IsFree c := by
  obtain ⟨b, rfl, hall⟩ := ha.block
  have hspace := ha.in_space
  have hcovers : size ≤ 4096 * heapTotalBlocks size := heapTotalBlocks_covers (by
    unfold blockAddress at hspace
    omega)
  unfold blockAddress at hin
  exact hall.free c (by omega) (by omega) (by rw [Kernel.heap_total]; omega)

theorem Kzalloced.obtained {size : Nat} (h : k.Tidy) (ha : Kzalloced k size p k') :
    Obtained k size p k' := by
  obtain ⟨b, hpb, hall⟩ := id ha.block
  have hspace := ha.in_space
  have hcovers : size ≤ 4096 * heapTotalBlocks size := heapTotalBlocks_covers (by
    unfold blockAddress at hpb
    omega)
  have hlt := hall.start_lt
  rw [Kernel.heap_total] at hlt
  have hfree := hall.free b le_rfl (Or.inl rfl) hall.start_lt
  have hobjs : ∀ q, k'.objs q = if p ≤ q ∧ q < p + size then none else k.objs q := by
    intro q
    rw [ha.eq]
  refine ⟨⟨⟨h.allocated hall, ?_⟩, ?_, ha.globals.lists⟩, ?_, fun h₁ => ⟨b, hlt, hpb, ?_⟩,
    Or.inr ⟨b, hlt, hpb, by omega, ?_⟩, fun hsize q hq => ?_, fun q => ?_, ha.globals⟩
  · rintro q ⟨c, hc, rfl, hs⟩
    have hkept := hall.keeps (k := c) (by omega) (by rw [Kernel.heap_total]; omega) hs.1
    refine ⟨c, hc, rfl, ?_⟩
    unfold HeapTable.IsStart HeapTable.IsFree at hs ⊢
    rwa [hkept]
  · rintro q ⟨c, hc, rfl, hs⟩
    rw [hobjs, if_neg fun hin => hs.1 (ha.clears_free hc hin)]
  · rintro ⟨c, hc, hpc, hs⟩
    rw [hpb, blockAddress_inj] at hpc
    subst hpc
    exact hs.1 hfree
  · exact hall.isStart (by omega)
  · intro _ _
    rcases Nat.eq_zero_or_pos (heapTotalBlocks size) with hzero | hpos
    · left
      unfold HeapTable.IsFree
      rw [hall.entries, if_neg (by omega)]
      exact hfree
    · exact Or.inr (hall.isStart hpos)
  · refine hq.imp_right ?_
    rintro ⟨c, hc, rfl, hr⟩
    refine ⟨c, hc, rfl, hr.1, fun h₀ h₁ => ?_⟩
    have hn : heapTotalBlocks size ≤ 1 := by
      rw [heapTotalBlocks_eq (by omega)]
      unfold blocksOf
      omega
    by_cases hcb : (c : Int) = b ∧ heapTotalBlocks size = 1
    · rw [hcb.1]
      exact Or.inr (hall.isStart (by omega))
    · unfold HeapTable.IsStart HeapTable.IsFree
      rw [hall.entries, if_neg (by omega)]
      exact hr.2 h₀ h₁
  · rw [hobjs]
    split
    · exact Or.inr rfl
    · exact Or.inl rfl

/-- Memory from `kzalloc` is new, and all that was allocated stays. -/
theorem kzalloc_obtained (h : Guards P k) (size : Nat) :
    Framed (Intact P) (kzalloc size) k fun p k' => (p = 0 ∧ k' = k) ∨
      p ≠ 0 ∧ p ∉ P ∧ Obtained k size p k' := by
  refine (kzalloc_spec k size).mono ?_
  rintro p k' (⟨rfl, rfl⟩ | ha)
  · exact ⟨.refl h, Or.inl ⟨rfl, rfl⟩⟩
  · have hobt := ha.obtained h.tidy
    exact ⟨hobt.intact.mono h.held, Or.inr ⟨ha.ne_zero, fun hp => hobt.fresh (h.held p hp), hobt⟩⟩

/-- `k'` is `k` with the new structure `o` at `p`. -/
structure Made (P : Set Nat) (k : Kernel) (p : Nat) (o : Obj) (k' : Kernel) : Prop where
  ne_zero : p ≠ 0
  not_mem : p ∉ P
  held : k'.Held p
  self : k'.objs p = some o
  only : ∀ q, q ≠ p → k'.objs q = k.objs q ∨ k'.objs q = none
  globals : SameGlobals k k'

theorem kzallocObj_made (h : Guards P k) {size : Nat} (h₁ : 1 ≤ size) (zero : Obj) :
    Framed (Intact P) (kzallocObj size zero) k fun p k' => (p = 0 ∧ k' = k) ∨
      Made P k p zero k' ∧ (size ≤ 4096 → ∀ q, k.Releasable q → k'.Releasable q) := by
  refine Framed.bind (kzalloc_obtained h size) ?_
  rintro p k₁ hk₁ (⟨rfl, rfl⟩ | ⟨h0, hP, hobt⟩)
  · exact .pure (.refl h) (Or.inl ⟨rfl, rfl⟩)
  · rw [if_neg h0]
    refine Framed.bind (P := fun _ k' => Stored k₁ p zero k') ?_ ?_
    · exact (storeObj_spec k₁ p zero).ensures.mono fun _ _ hst => ⟨.stored hk₁.guards hst hP, hst⟩
    · intro _ k₂ hk₂ hst
      refine .pure (.refl hk₂.guards) (Or.inr ⟨⟨h0, hP, (hobt.held h₁).congr hst.heap_entries,
        hst.self, fun q hq => ?_, hobt.globals.trans hst.globals⟩, fun hsize q hq => ?_⟩)
      · rw [hst.other q hq]
        exact hobt.only q
      · exact (hobt.one_block hsize q hq).congr hst.heap_entries

theorem intact_storeObj (h : Guards P k) (hp : p ∉ P) (o : Obj) :
    Framed (Intact P) (storeObj p o) k fun _ k' => Stored k p o k' :=
  (storeObj_spec k p o).ensures.mono fun _ _ hst => ⟨.stored h hst hp, hst⟩

/-- A structure outside `P` is changed. -/
theorem intact_modify {α : Type} {sel : Obj → Option α} {mk : α → Obj}
    (hmk : ∀ {o : Option Obj} {a : α}, o.bind sel = some a ↔ o = some (mk a)) (h : Guards P k)
    (hp : p ∉ P) (f : α → α) :
    Framed (Intact P) (do let a ← deref sel p; storeObj p (mk (f a))) k fun _ k' =>
      ∃ a, k.objs p = some (mk a) ∧ Stored k p (mk (f a)) k' := by
  refine Ensures.bind (deref_spec sel p k) ?_
  rintro a _ ⟨rfl, -, ha⟩
  exact (intact_storeObj h hp _).mono fun _ _ _ hst => ⟨a, hmk.mp ha, hst⟩

theorem intact_deref {α : Type} (h : Guards P k) (sel : Obj → Option α) (p : Nat) :
    Framed (Intact P) (deref sel p) k fun a k' => k = k' ∧ p ≠ 0 ∧ (k.objs p).bind sel = some a := by
  refine (deref_spec sel p k).mono ?_
  rintro a _ ⟨rfl, hp, ha⟩
  exact ⟨.refl h, rfl, hp, ha⟩

theorem intact_reads {α : Type} (h : Guards P k) (f : Kernel → α) :
    Framed (Intact P) (reads f : KM α) k fun a k' => k = k' ∧ a = f k :=
  .reads (.refl h) ⟨rfl, rfl⟩

theorem intact_onDisk {α : Type} (h : Guards P k) {m : DM α} {Q : α → Disk → Prop}
    (hm : Ensures m k.disk Q) :
    Framed (Intact P) (onDisk m) k fun a k' => k' = { k with disk := k'.disk } ∧ Q a k'.disk := by
  refine ((onDisk_spec m k).and (onDisk_ensures hm)).mono ?_
  rintro a k' ⟨hk', hQ⟩
  refine ⟨.of_same h ?_ ?_ ?_, hk', hQ⟩
  · rw [hk']
  · rw [hk']
  · rw [hk']
    exact ⟨rfl, rfl, rfl, rfl, rfl⟩

theorem intact_storeBytes (h : Guards P k) (p : Nat) (bytes : List UInt8) :
    Framed (Intact P) (storeBytes p bytes) k fun _ k' =>
      k' = { k with mem := writeBytes k.mem p bytes } :=
  .modifies (.of_same h rfl rfl ⟨rfl, rfl, rfl, rfl, rfl⟩) rfl

end Intact

end PlumOS
