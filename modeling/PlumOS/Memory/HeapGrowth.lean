import PlumOS.Disk.Streamer
import PlumOS.Memory.KHeap

/-!
# Code that only allocates

With free memory behind some block, allocating and writing to what was allocated leaves
all that was alive before as it was: the structures and every byte of the blocks.

## Main definitions

- `Grown` — what such code has done to the state
-/

namespace PlumOS

open StateExcept

/-- Two live allocations do not overlap. -/
theorem Kernel.Alive.apart {k : Kernel} {p n q m a : Nat} (h : k.Alive p n) (h' : k.Alive q m)
    (hne : p ≠ q) (h₁ : p ≤ a) (h₂ : a < p + 4096 * n) : ¬ (q ≤ a ∧ a < q + 4096 * m) := by
  obtain ⟨b, rfl, hn, hin, hrun⟩ := h
  obtain ⟨c, rfl, hm, hin', hrun'⟩ := h'
  have hbc : b ≠ c := fun hbc => hne (by rw [hbc])
  have := hrun.disjoint hrun' hn hm hbc
  unfold blockAddress at h₁ h₂ ⊢
  omega

/-- `k` comes from `k₀` by allocating and writing to what was allocated, and the blocks
from `m` on are free. -/
structure Grown (k₀ : Kernel) (m : Nat) (k : Kernel) : Prop where
  free : k.FreeFrom m
  alive : ∀ p n, k₀.Alive p n → k.Alive p n
  mem : ∀ p n a, k₀.Alive p n → p ≤ a → a < p + 4096 * n → k.mem a = k₀.mem a
  objs : ∀ p n a, k₀.Alive p n → p ≤ a → a < p + 4096 * n → k.objs a = k₀.objs a
  volume : SameVolume k₀.disk k.disk

section Grown

variable {k₀ k k' : Kernel} {m : Nat}

theorem Grown.refl (h : k.FreeFrom m) : Grown k m k :=
  ⟨h, fun _ _ hp => hp, fun _ _ _ _ _ _ => rfl, fun _ _ _ _ _ _ => rfl, .refl _⟩

theorem Grown.trans {k₁ : Kernel} {m' : Nat} (h : Grown k₀ m k₁) (h' : Grown k₁ m' k) :
    Grown k₀ m' k where
  free := h'.free
  alive := fun p n hp => h'.alive p n (h.alive p n hp)
  mem := fun p n a hp h₁ h₂ => (h'.mem p n a (h.alive p n hp) h₁ h₂).trans (h.mem p n a hp h₁ h₂)
  objs := fun p n a hp h₁ h₂ => (h'.objs p n a (h.alive p n hp) h₁ h₂).trans (h.objs p n a hp h₁ h₂)
  volume := h.volume.trans h'.volume

theorem Grown.mono {m' : Nat} (h : Grown k₀ m k) (hm : m ≤ m') : Grown k₀ m' k :=
  { h with free := h.free.mono hm }

/-- A function of the disk that leaves the volume as it is. -/
theorem Grown.onDisk (h : Grown k₀ m k) (hk : k' = { k with disk := k'.disk })
    (hv : SameVolume k.disk k'.disk) : Grown k₀ m k' := by
  have hobjs : k'.objs = k.objs := by rw [hk]
  have hmem : k'.mem = k.mem := by rw [hk]
  have hentries : k'.heap_entries = k.heap_entries := by rw [hk]
  exact
    { free := h.free.congr hentries
      alive := fun p n hp => (h.alive p n hp).congr hentries
      mem := hmem ▸ h.mem
      objs := hobjs ▸ h.objs
      volume := h.volume.trans hv }

theorem Kzalloced.grown {size ptr : Nat} (ha : Kzalloced k size ptr k')
    (hal : k'.Alive ptr (blocksOf size)) (hfree : k'.FreeFrom m) : Grown k m k' := by
  have hout : ∀ p n a, k.Alive p n → p ≤ a → a < p + 4096 * n → ¬ (ptr ≤ a ∧ a < ptr + size) := by
    intro p n a hp h₁ h₂ hin
    refine (ha.alive hp).apart hal (ha.ne_alive hp) h₁ h₂ ⟨hin.1, ?_⟩
    unfold blocksOf
    omega
  refine ⟨hfree, fun p n hp => ha.alive hp, fun p n a hp h₁ h₂ => ?_, fun p n a hp h₁ h₂ => ?_, ?_⟩
  · rw [ha.eq]
    exact if_neg (hout p n a hp h₁ h₂)
  · rw [ha.eq]
    exact if_neg (hout p n a hp h₁ h₂)
  · rw [ha.eq]
    exact .refl _

/-- Memory that was allocated since `k₀`. -/
structure Grown.Own (k₀ k : Kernel) (ptr n : Nat) : Prop where
  alive : k.Alive ptr n
  fresh : ∀ n', ¬ k₀.Alive ptr n'

theorem Grown.Own.apart {ptr n p n' a : Nat} (h : Grown k₀ m k) (ho : Grown.Own k₀ k ptr n)
    (hp : k₀.Alive p n') (h₁ : p ≤ a) (h₂ : a < p + 4096 * n') : ¬ (ptr ≤ a ∧ a < ptr + 4096 * n) :=
  (h.alive p n' hp).apart ho.alive (fun heq => ho.fresh n' (heq ▸ hp)) h₁ h₂

theorem Grown.Own.mono {k₁ : Kernel} {m' ptr n : Nat} (ho : Grown.Own k₀ k₁ ptr n)
    (h : Grown k₁ m' k) : Grown.Own k₀ k ptr n := ⟨h.alive ptr n ho.alive, ho.fresh⟩

/-- A structure was written to memory of one's own. -/
theorem Grown.stored (h : Grown k₀ m k) {ptr n : Nat} {o : Obj} (ho : Grown.Own k₀ k ptr n)
    (hst : Stored k ptr o k') : Grown k₀ m k' where
  free := h.free.congr hst.heap_entries
  alive := fun p n hp => hst.alive (h.alive p n hp)
  mem := hst.mem ▸ h.mem
  objs := by
    intro p n' a hp h₁ h₂
    refine (hst.other a ?_).trans (h.objs p n' a hp h₁ h₂)
    rintro rfl
    obtain ⟨_, _, hn, _⟩ := id ho.alive
    exact ho.apart h hp h₁ h₂ ⟨le_rfl, by omega⟩
  volume := hst.disk ▸ h.volume

theorem Grown.storeBytes (h : Grown k₀ m k) {ptr n : Nat} {bytes : List UInt8}
    (ho : Grown.Own k₀ k ptr n) (hlen : bytes.length ≤ 4096 * n) :
    Returns (storeBytes ptr bytes) k fun _ k' => Grown k₀ m k' ∧
      k' = { k with mem := writeBytes k.mem ptr bytes } := by
  refine .modifies ⟨⟨h.free, h.alive, ?_, h.objs, h.volume⟩, rfl⟩
  intro p n' a hp h₁ h₂
  have := ho.apart h hp h₁ h₂
  exact (writeBytes_of_not_mem (by omega)).trans (h.mem p n' a hp h₁ h₂)

theorem Grown.kzalloc (h : Grown k₀ m k) {size : Nat} (h₁ : 1 ≤ size)
    (h₂ : m + blocksOf size ≤ 25600) :
    Returns (kzalloc size) k fun ptr k' => ptr ≠ 0 ∧ Grown k₀ (m + blocksOf size) k' ∧
      Grown k (m + blocksOf size) k' ∧ Grown.Own k₀ k' ptr (blocksOf size) ∧
      (∀ n, ¬ k.Alive ptr n) ∧ ∀ a, ptr ≤ a → a < ptr + size → k'.objs a = none := by
  refine (kzalloc_returns h.free h₁ h₂).mono ?_
  rintro ptr k' ⟨ha, hal, hfree⟩
  have hg := ha.grown hal hfree
  refine ⟨ha.ne_zero, h.trans hg, hg, ⟨hal, fun n hp => ha.ne_alive (h.alive _ _ hp) rfl⟩,
    fun n hp => ha.ne_alive hp rfl, fun a h₃ h₄ => ?_⟩
  rw [ha.eq]
  exact if_pos ⟨h₃, h₄⟩

/-- Allocating a structure of any size. -/
theorem Grown.kzallocStructure (h : Grown k₀ m k) {size : Nat} {zero : Obj} (h₁ : 1 ≤ size)
    (h₂ : m + blocksOf size ≤ 25600) :
    Returns (kzallocObj size zero) k fun ptr k' => ptr ≠ 0 ∧ Grown k₀ (m + blocksOf size) k' ∧
      Grown k (m + blocksOf size) k' ∧ Grown.Own k₀ k' ptr (blocksOf size) ∧
      k'.objs ptr = some zero := by
  refine .bind (h.kzalloc h₁ h₂) ?_
  rintro ptr k₁ ⟨hne, hg, hg', hown, hfresh, -⟩
  rw [if_neg hne]
  refine .bind (storeObj_spec k₁ ptr zero) ?_
  intro _ k₂ hst
  exact .pure ⟨hne, hg.stored hown hst, hg'.stored ⟨hown.alive, hfresh⟩ hst,
    ⟨hst.alive hown.alive, hown.fresh⟩, hst.self⟩

theorem Grown.kzallocObj (h : Grown k₀ m k) {size : Nat} {zero : Obj} (h₁ : 1 ≤ size)
    (h₂ : size ≤ 4096) (hm : m + 1 ≤ 25600) :
    Returns (kzallocObj size zero) k fun ptr k' => ptr ≠ 0 ∧ Grown k₀ (m + 1) k' ∧
      Grown k (m + 1) k' ∧ Grown.Own k₀ k' ptr 1 ∧ k'.objs ptr = some zero := by
  have hone : blocksOf size = 1 := by
    unfold blocksOf
    omega
  rw [← hone] at hm ⊢
  exact h.kzallocStructure h₁ hm

theorem kfree_objs (ptr : Nat) (k : Kernel) :
    Ensures (PlumOS.kfree ptr) k fun _ k' => k'.objs = Function.update k.objs ptr none :=
  .modifies rfl

/-- Memory of one's own is released. -/
theorem Grown.kfree {ptr n : Nat} (h : Grown k₀ m k) (ho : Grown.Own k₀ k ptr n) :
    Returns (kfree ptr) k fun _ k' => Grown k₀ m k' ∧ Freed k ptr k' := by
  have hother : ∀ p n' a, k₀.Alive p n' → p ≤ a → a < p + 4096 * n' → a ≠ ptr := by
    rintro p n' a hp h₁ h₂ rfl
    obtain ⟨_, _, hn, _⟩ := id ho.alive
    exact ho.apart h hp h₁ h₂ ⟨le_rfl, by omega⟩
  refine ((kfree_spec ho.alive).and_ensures (kfree_objs ptr k)).mono ?_
  rintro _ k' ⟨hf, hobjs⟩
  refine ⟨?_, hf⟩
  exact
    { free := h.free.freed ho.alive hf
      alive := fun p n' hp => (hf.keeps p n' (h.alive p n' hp) (by
        rw [List.mem_singleton]
        rintro rfl
        exact ho.fresh n' hp)).1
      mem := hf.mem ▸ h.mem
      objs := fun p n' a hp h₁ h₂ => by
        rw [hobjs, Function.update_of_ne (hother p n' a hp h₁ h₂)]
        exact h.objs p n' a hp h₁ h₂
      volume := hf.disk ▸ h.volume }

/-- Memory that is new since a later state is new. -/
theorem Grown.Own.before {ptr n : Nat} (h : Grown k₀ m k) (ho : Grown.Own k k' ptr n) :
    Grown.Own k₀ k' ptr n := ⟨ho.alive, fun n' hn => ho.fresh n' (h.alive _ _ hn)⟩

/-- The kernel with another structure at `p`. -/
def Kernel.put (k : Kernel) (p : Nat) (o : Obj) : Kernel :=
  { k with objs := Function.update k.objs p (some o) }

theorem Kernel.put_stored (k : Kernel) (p : Nat) (o : Obj) : Stored k p o (k.put p o) :=
  ⟨Function.update_self .., fun _ hq => Function.update_of_ne hq _ _, rfl, rfl, rfl,
    ⟨rfl, rfl, rfl, rfl, rfl, rfl⟩⟩

theorem Kernel.put_alive {k : Kernel} {p q n : Nat} {o : Obj} :
    (k.put p o).Alive q n ↔ k.Alive q n := Iff.rfl

theorem Kernel.put_put (k : Kernel) (p : Nat) (o o' : Obj) : (k.put p o).put p o' = k.put p o' := by
  unfold Kernel.put
  rw [Function.update_idem]

/-- A structure that was there before was written: it is as if it had been written before the
allocations. -/
theorem Grown.put (h : Grown k₀ m k) {p : Nat} {o : Obj} (hst : Stored k p o k') :
    Grown (k₀.put p o) m k' where
  free := h.free.congr hst.heap_entries
  alive := fun q n hq => hst.alive (h.alive q n hq)
  mem := hst.mem ▸ h.mem
  objs := by
    intro q n a hq h₁ h₂
    by_cases hap : a = p
    · rw [hap, hst.self]
      exact (k₀.put_stored p o).self.symm
    · rw [hst.other a hap, (k₀.put_stored p o).other a hap]
      exact h.objs q n a hq h₁ h₂
  volume := hst.disk ▸ h.volume

theorem Grown.Own.put {p ptr n : Nat} {o : Obj} (ho : Grown.Own k₀ k ptr n)
    (hst : Stored k p o k') : Grown.Own (k₀.put p o) k' ptr n := ⟨hst.alive ho.alive, ho.fresh⟩

end Grown

end PlumOS
