import Mathlib.Data.Set.Insert
import PlumOS.Disk.Streamer
import PlumOS.Memory.KHeap

/-!
# Fences

A fence protects some blocks of the kernel heap, structures and bytes in them and some
entries of the table of file descriptors. Code that only releases and follows safe
pointers, those from which no chain of structures leads into the fence, leaves all
that as it is, whatever else it does and however it fails.

## Main definitions

- `Fence`, `Fence.Stands` — what is protected, and a state in which it can be
- `Fence.Safe` — a pointer that may be released and followed
- `Fenced` — what code that keeps to safe pointers does to the state
-/

namespace PlumOS

open StateExcept

/-- The block of `kernel_heap` that a pointer is taken to be in. -/
def pointerBlock (p : Nat) : Int := (i32 ((p : Int) - PLUMOS_HEAP_ADDRESS)).tdiv PLUMOS_HEAP_BLOCK_SIZE

theorem heapAddressToBlock_eq (k : Kernel) (p : Nat) :
    heapAddressToBlock k.heap p = pointerBlock p := rfl

theorem pointerBlock_blockAddress {b : Nat} (hb : b < 25600) :
    pointerBlock (blockAddress b) = b := by
  unfold pointerBlock blockAddress
  simp only [PLUMOS_HEAP_ADDRESS, PLUMOS_HEAP_BLOCK_SIZE]
  rw [i32_of_range (by omega) (by omega), Int.tdiv_eq_ediv_of_nonneg (by omega)]
  omega

theorem pointerBlock_zero : pointerBlock 0 = -4096 := by decide

/-- A pointer behind the start of the pool is in a block of the table only if its
address says so. -/
theorem pointerBlock_of_ge {p : Nat} (h₁ : 0x1000000 ≤ p) (h₂ : p < 0x100000000)
    (h₀ : 0 ≤ pointerBlock p) : pointerBlock p = ((p : Int) - 0x1000000) / 4096 := by
  unfold pointerBlock at h₀ ⊢
  simp only [PLUMOS_HEAP_ADDRESS, PLUMOS_HEAP_BLOCK_SIZE] at h₀ ⊢
  rcases lt_or_ge p 0x81000000 with hlt | hge
  · rw [i32_of_range (by omega) (by omega), Int.tdiv_eq_ediv_of_nonneg (by omega)]
    rfl
  · have hneg : i32 ((p : Int) - (0x1000000 : Nat)) = -(0x101000000 - (p : Int)) := by
      unfold i32
      omega
    rw [hneg, Int.neg_tdiv, Int.tdiv_eq_ediv_of_nonneg (by omega)] at h₀
    omega

/-- What is protected: blocks of the pool, structures and bytes in them, and entries of
`file_descriptors`. -/
structure Fence where
  blocks : Set Int
  objects : Set Nat
  bytes : Set Nat
  slots : Set Nat
  objects_in : ∀ p ∈ objects, pointerBlock p ∈ blocks
  bytes_in : ∀ a ∈ bytes, pointerBlock a ∈ blocks

/-! ### Pointers in structures -/

/-- The pointers in a structure that are released with it. -/
def Obj.held : Obj → List Nat
  | .pathPart p => [p.part]
  | .elfFile f => [f.elf_memory]
  | .fatItem i => [i.item]
  | .fatDirectory d => [d.item]
  | _ => []

/-- The pointers in a structure that are followed to another one. -/
def Obj.followed : Obj → List Nat
  | .pathRoot r => [r.first]
  | .pathPart p => [p.next]
  | .fileDescriptor d => [d.private_]
  | .fatFileDescriptor d => [d.item]
  | .fatItem i => if i.type = FAT_ITEM_TYPE_DIRECTORY then [i.item] else []
  | _ => []

/-- The number of the descriptor that a structure is. -/
def Obj.index : Obj → Option Int
  | .fileDescriptor d => some d.index
  | _ => none

namespace Fence

variable {F : Fence} {k k' : Kernel} {p : Nat}

/-- The protected entries are taken and no release from outside reaches them. -/
def Stands (F : Fence) (k : Kernel) : Prop := Guarded F.blocks k.heap_entries k.heap.table

/-- The release of the pointer does not start in a protected block. -/
def Outside (F : Fence) (p : Nat) : Prop := pointerBlock p ∉ F.blocks ∧ pointerBlock p ≠ -1

/-- The structure releases what is outside, follows what is in `G`, and is not the
descriptor of a protected entry. -/
structure Fits (F : Fence) (G : Nat → Prop) (o : Obj) : Prop where
  held : ∀ q ∈ o.held, F.Outside q
  followed : ∀ q ∈ o.followed, G q
  index : ∀ i ∈ F.slots, o.index ≠ some ((i : Int) + 1)

/-- From the pointers in `G` only pointers in `G` are reached, and all that they
release is outside. -/
def Closed (F : Fence) (k : Kernel) (G : Set Nat) : Prop :=
  ∀ p ∈ G, F.Outside p ∧ (p ≠ 0 → ∀ o, k.objs p = some o → F.Fits (· ∈ G) o)

/-- The `n` bytes from `p` on are not protected. -/
def Clear (F : Fence) (p n : Nat) : Prop := ∀ a ∈ F.bytes, a < p ∨ p + n ≤ a

/-- No chain of structures from the pointer leads to a release in the fence. -/
def Safe (F : Fence) (k : Kernel) (p : Nat) : Prop := ∃ G, F.Closed k G ∧ p ∈ G

theorem Safe.outside (h : F.Safe k p) : F.Outside p := by
  obtain ⟨G, hG, hp⟩ := h
  exact (hG p hp).1

theorem Safe.held (h : F.Safe k p) (hp : p ≠ 0) {o : Obj} (ho : k.objs p = some o) {q : Nat}
    (hq : q ∈ o.held) : F.Outside q := by
  obtain ⟨G, hG, hmem⟩ := h
  exact ((hG p hmem).2 hp o ho).held q hq

theorem Safe.followed (h : F.Safe k p) (hp : p ≠ 0) {o : Obj} (ho : k.objs p = some o) {q : Nat}
    (hq : q ∈ o.followed) : F.Safe k q := by
  obtain ⟨G, hG, hmem⟩ := h
  exact ⟨G, hG, ((hG p hmem).2 hp o ho).followed q hq⟩

theorem Safe.fits (h : F.Safe k p) (hp : p ≠ 0) {o : Obj} (ho : k.objs p = some o) :
    F.Fits (F.Safe k) o where
  held := fun _ hq => h.held hp ho hq
  followed := fun _ hq => h.followed hp ho hq
  index := by
    obtain ⟨G, hG, hmem⟩ := h
    exact ((hG p hmem).2 hp o ho).index

/-- The structures may change as long as the new ones release and follow what was safe. -/
theorem Safe.step (h : F.Safe k p)
    (hobjs : ∀ q, F.Outside q → q ≠ 0 → ∀ o, k'.objs q = some o → k.objs q = some o ∨
      F.Fits (F.Safe k) o) : F.Safe k' p := by
  refine ⟨{ q | F.Safe k q }, ?_, h⟩
  intro q hq
  refine ⟨hq.outside, fun hq0 o ho => ?_⟩
  rcases hobjs q hq.outside hq0 o ho with hold | hnew
  · exact hq.fits hq0 hold
  · exact hnew

/-- A pointer is safe when what it points to releases and follows what is safe. -/
theorem Safe.intro (hp : F.Outside p)
    (ho : p ≠ 0 → ∀ o, k.objs p = some o → F.Fits (F.Safe k) o) : F.Safe k p := by
  refine ⟨insert p { q | F.Safe k q }, ?_, Set.mem_insert ..⟩
  rintro q (rfl | hq)
  · refine ⟨hp, fun hq0 o hobj => ?_⟩
    obtain ⟨hheld, hfollowed, hindex⟩ := ho hq0 o hobj
    exact ⟨hheld, fun r hr => Set.mem_insert_of_mem _ (hfollowed r hr), hindex⟩
  · refine ⟨hq.outside, fun hq0 o hobj => ?_⟩
    obtain ⟨hheld, hfollowed, hindex⟩ := hq.fits hq0 hobj
    exact ⟨hheld, fun r hr => Set.mem_insert_of_mem _ (hfollowed r hr), hindex⟩

theorem Stands.outside_zero (h : F.Stands k) : F.Outside 0 := by
  rw [Outside, pointerBlock_zero]
  refine ⟨fun hmem => ?_, by decide⟩
  have := (h.inside _ hmem).1
  omega

theorem Stands.safe_zero (h : F.Stands k) : F.Safe k 0 :=
  Safe.intro h.outside_zero fun h0 => absurd rfl h0

theorem Outside.not_mem (h : F.Outside p) : p ∉ F.objects := fun hp => h.1 (F.objects_in p hp)

end Fence

/-! ### The frame of a fence -/

/-- `k'` comes from `k` by code that keeps to pointers safe for the fence. -/
structure Fenced (F : Fence) (k k' : Kernel) : Prop where
  guarded : Guarded F.blocks k.heap_entries k'.heap.table
  safe : ∀ p, F.Safe k p → F.Safe k' p
  objs : ∀ p ∈ F.objects, k'.objs p = k.objs p
  mem : ∀ a ∈ F.bytes, k'.mem a = k.mem a
  slots : ∀ i ∈ F.slots, k'.file_descriptors i = k.file_descriptors i
  opened : ∀ i, F.Safe k (k.file_descriptors i) → F.Safe k' (k'.file_descriptors i)
  volume : SameVolume k.disk k'.disk

section Fenced

variable {F : Fence} {k k' k₁ k₂ k₃ : Kernel}

theorem Fenced.refl (h : F.Stands k) : Fenced F k k :=
  ⟨h, fun _ hp => hp, fun _ _ => rfl, fun _ _ => rfl, fun _ _ => rfl, fun _ hi => hi, .refl _⟩

theorem Fenced.stands (h : Fenced F k k') : F.Stands k' where
  inside := h.guarded.inside
  kept := fun _ _ => rfl
  taken := fun i hi => by
    have hkept := h.guarded.kept i hi
    rw [Kernel.heap_entries_eq] at hkept
    rw [hkept]
    exact h.guarded.taken i hi
  sealed := h.guarded.sealed
  barrier := h.guarded.barrier

theorem Fenced.trans (h : Fenced F k₁ k₂) (h' : Fenced F k₂ k₃) : Fenced F k₁ k₃ where
  guarded :=
    { inside := h'.guarded.inside
      kept := fun i hi => (h'.guarded.kept i hi).trans (h.guarded.kept i hi)
      taken := h.guarded.taken
      sealed := h'.guarded.sealed
      barrier := h'.guarded.barrier }
  safe := fun p hp => h'.safe p (h.safe p hp)
  objs := fun p hp => (h'.objs p hp).trans (h.objs p hp)
  mem := fun a ha => (h'.mem a ha).trans (h.mem a ha)
  slots := fun i hi => (h'.slots i hi).trans (h.slots i hi)
  opened := fun i hi => h'.opened i (h.opened i hi)
  volume := h.volume.trans h'.volume

instance : IsTrans Kernel (Fenced F) := ⟨fun _ _ _ => Fenced.trans⟩

/-- A change of other parts of the state. -/
theorem Fenced.of_same (h : F.Stands k) (he : k'.heap_entries = k.heap_entries)
    (ho : k'.objs = k.objs) (hm : ∀ a ∈ F.bytes, k'.mem a = k.mem a)
    (hs : ∀ i ∈ F.slots, k'.file_descriptors i = k.file_descriptors i)
    (hopened : ∀ i, k'.file_descriptors i = k.file_descriptors i ∨ F.Safe k (k'.file_descriptors i))
    (hv : SameVolume k.disk k'.disk) : Fenced F k k' where
  guarded := by
    have htable : k'.heap.table = k.heap.table := by
      unfold Kernel.heap
      rw [he]
    rw [htable]
    exact h
  safe := fun p hp => hp.step fun q _ _ o hq => Or.inl (by rwa [ho] at hq)
  objs := fun _ _ => by rw [ho]
  mem := hm
  slots := hs
  opened := fun i hi => by
    have hsafe : F.Safe k (k'.file_descriptors i) := by
      rcases hopened i with heq | hsafe
      · rwa [heq]
      · exact hsafe
    exact hsafe.step fun q _ _ o hq => Or.inl (by rwa [ho] at hq)
  volume := hv

theorem framed_deref {α : Type} (h : F.Stands k) (sel : Obj → Option α) (p : Nat) :
    Framed (Fenced F) (deref sel p) k fun a k' =>
      k = k' ∧ p ≠ 0 ∧ (k.objs p).bind sel = some a := by
  refine (deref_spec sel p k).mono ?_
  rintro a _ ⟨rfl, hp, ha⟩
  exact ⟨.refl h, rfl, hp, ha⟩

theorem framed_reads {α : Type} (h : F.Stands k) (f : Kernel → α) :
    Framed (Fenced F) (reads f : KM α) k fun a k' => k = k' ∧ a = f k :=
  .reads (.refl h) ⟨rfl, rfl⟩

/-- A function of the disk that leaves the volume as it is. -/
theorem framed_onDisk {α : Type} (h : F.Stands k) {m : DM α} {Q : α → Disk → Prop}
    (hm : Ensures m k.disk fun a d => SameVolume k.disk d ∧ Q a d) :
    Framed (Fenced F) (onDisk m) k fun a k' => k' = { k with disk := k'.disk } ∧ Q a k'.disk := by
  refine (onDisk_spec m k).and (onDisk_ensures hm) |>.mono ?_
  rintro a k' ⟨hk', hv, hQ⟩
  refine ⟨.of_same h ?_ ?_ ?_ ?_ ?_ hv, hk', hQ⟩
  · rw [hk']
  · rw [hk']
  · intro a _
    rw [hk']
  · intro i _
    rw [hk']
  · intro i
    rw [hk']
    exact Or.inl rfl

theorem framed_storeBytes (h : F.Stands k) {p : Nat} {bytes : List UInt8}
    (hclear : F.Clear p bytes.length) :
    Framed (Fenced F) (storeBytes p bytes) k fun _ k' => k'.objs = k.objs :=
  .modifies (.of_same h rfl rfl (fun a ha => writeBytes_of_not_mem (hclear a ha)) (fun _ _ => rfl)
    (fun _ => Or.inl rfl) (.refl _)) rfl

theorem Fence.Clear.mono {p n n' : Nat} (h : F.Clear p n) (hn : n' ≤ n) : F.Clear p n' :=
  fun a ha => (h a ha).imp_right fun hle => by omega

/-- A structure was stored that releases and follows what is safe. -/
theorem Fenced.stored (h : F.Stands k) {p : Nat} {o : Obj} (hst : Stored k p o k')
    (hp : p ∉ F.objects) (hfits : F.Fits (F.Safe k) o) : Fenced F k k' := by
  have hsafe : ∀ q, F.Safe k q → F.Safe k' q := fun q hq => hq.step fun r _ _ o' ho' => ?_
  refine ⟨?_, hsafe, fun q hq => ?_, fun a _ => ?_, fun i _ => ?_, fun i hi => ?_, ?_⟩
  · exact (@Fenced.of_same _ _ { k with heap_entries := k'.heap_entries } h hst.heap_entries rfl
      (fun _ _ => rfl) (fun _ _ => rfl) (fun _ => Or.inl rfl) (.refl _)).guarded
  · exact hst.other q fun hqp => hp (hqp ▸ hq)
  · rw [hst.mem]
  · rw [hst.globals.file_descriptors]
  · rw [hst.globals.file_descriptors]
    exact hsafe _ hi
  · rw [hst.disk]
    exact .refl _
  · by_cases hr : r = p
    · subst hr
      rw [hst.self] at ho'
      cases ho'
      exact Or.inr hfits
    · rw [hst.other r hr] at ho'
      exact Or.inl ho'

theorem framed_storeObj (h : F.Stands k) {p : Nat} {o : Obj} (hp : p ∉ F.objects)
    (hfits : F.Fits (F.Safe k) o) :
    Framed (Fenced F) (storeObj p o) k fun _ k' => Stored k p o k' ∧ (F.Outside p → F.Safe k' p) := by
  refine (storeObj_spec k p o).ensures.mono ?_
  intro _ k' hst
  have hk' := Fenced.stored h hst hp hfits
  refine ⟨hk', hst, fun hout => .intro hout fun _ o' ho' => ?_⟩
  rw [hst.self] at ho'
  cases ho'
  exact ⟨hfits.held, fun q hq => hk'.safe q (hfits.followed q hq), hfits.index⟩

/-- Changing a structure at a safe pointer, when the new one releases and follows what
is safe. -/
theorem framed_modify {α : Type} {sel : Obj → Option α} {mk : α → Obj}
    (hmk : ∀ {o : Option Obj} {a : α}, o.bind sel = some a ↔ o = some (mk a)) (h : F.Stands k)
    {p : Nat} (hp : F.Safe k p) (f : α → α)
    (hnew : ∀ a, p ≠ 0 → k.objs p = some (mk a) → F.Fits (F.Safe k) (mk (f a))) :
    Framed (Fenced F) (do let a ← deref sel p; storeObj p (mk (f a))) k fun _ k' =>
      F.Safe k' p ∧ ∃ a, k.objs p = some (mk a) ∧ Stored k p (mk (f a)) k' := by
  refine Framed.bind (framed_deref h sel p) ?_
  rintro a _ - ⟨rfl, hp0, ha⟩
  rw [hmk] at ha
  refine (framed_storeObj h hp.outside.not_mem (hnew a hp0 ha)).mono ?_
  rintro _ k' - ⟨hst, hsafe⟩
  exact ⟨hsafe hp.outside, a, ha, hst⟩

/-- Releasing a pointer outside the fence. -/
theorem framed_kfree (h : F.Stands k) {p : Nat} (hp : F.Outside p) :
    Framed (Fenced F) (kfree p) k fun _ k' => k'.objs = Function.update k.objs p none := by
  have hobjs : ∀ r o, Function.update k.objs p none r = some o → k.objs r = some o := by
    intro r o ho
    by_cases hr : r = p
    · subst hr
      rw [Function.update_self] at ho
      cases ho
    · rwa [Function.update_of_ne hr] at ho
  refine .modifies ⟨h.free hp.1 hp.2, fun q hq => hq.step fun r _ _ o ho => Or.inl (hobjs r o ho),
    fun q hq => ?_, fun _ _ => rfl, fun _ _ => rfl,
    fun i hi => hi.step fun r _ _ o ho => Or.inl (hobjs r o ho), .refl _⟩ rfl
  · refine Function.update_of_ne ?_ _ _
    rintro rfl
    exact hp.not_mem hq

/-- `heap_malloc` rounds a size that fits behind the pool's start to enough blocks. -/
theorem heapTotalBlocks_covers {size : Nat} (h : size ≤ 0xFF000000) :
    size ≤ 4096 * heapTotalBlocks size := by
  rcases lt_or_ge size 0x7FFFF001 with hlt | hge
  · rw [heapTotalBlocks_eq (by omega)]
    unfold blocksOf
    omega
  unfold heapTotalBlocks heapAlignValueToUpper
  rcases lt_or_ge size 0x80000000 with hpos | hneg
  · have htmod : (i32 (size : Int)).tmod (PLUMOS_HEAP_BLOCK_SIZE : Nat) = ((size % 4096 : Nat) : Int) := by
      rw [i32_of_range (by omega) (by omega), Int.tmod_eq_emod_of_nonneg (by omega)]
      simp [PLUMOS_HEAP_BLOCK_SIZE]
    rw [htmod, i32_of_range (by omega) (by omega)]
    simp only [PLUMOS_HEAP_BLOCK_SIZE]
    unfold u32
    split
    · omega
    · omega
  · -- the `int` is negative, so the rounding adds up to two blocks
    have hval : i32 (size : Int) = -((0x100000000 - size : Nat) : Int) := by
      unfold i32
      omega
    have htmod : (i32 (size : Int)).tmod (PLUMOS_HEAP_BLOCK_SIZE : Nat) =
        -(((0x100000000 - size) % 4096 : Nat) : Int) := by
      rw [hval, Int.neg_tmod, Int.tmod_eq_emod_of_nonneg (by omega)]
      simp [PLUMOS_HEAP_BLOCK_SIZE]
    rw [htmod, hval]
    simp only [PLUMOS_HEAP_BLOCK_SIZE]
    unfold u32
    split
    · omega
    · omega

/-- What an allocation clears is outside the fence. -/
private theorem Kzalloced.clears_outside {size ptr : Nat} (h : F.Stands k)
    (ha : Kzalloced k size ptr k') {p : Nat} (hmem : pointerBlock p ∈ F.blocks) :
    ¬ (ptr ≤ p ∧ p < ptr + size) := by
  rintro ⟨h₁, h₂⟩
  obtain ⟨b, rfl, hall⟩ := ha.block
  obtain ⟨h₀, hlt⟩ := h.inside _ hmem
  have hspace := ha.in_space
  have hcovers : size ≤ 4096 * heapTotalBlocks size := heapTotalBlocks_covers (by
    unfold blockAddress at hspace
    omega)
  have hstart := hall.start_lt
  rw [Kernel.heap_total] at hlt hstart
  have hblock := pointerBlock_of_ge (p := p) (by unfold blockAddress at h₁; omega) (by omega) h₀
  unfold blockAddress at h₁ h₂
  refine h.not_free hmem ?_
  have := hall.free (pointerBlock p).toNat (by omega) (by omega) (by rw [Kernel.heap_total]; omega)
  rwa [Int.toNat_of_nonneg h₀] at this

theorem Fenced.kzalloced {size ptr : Nat} (h : F.Stands k) (ha : Kzalloced k size ptr k') :
    Fenced F k k' := by
  obtain ⟨b, -, hall⟩ := ha.block
  have hsafe : ∀ p, F.Safe k p → F.Safe k' p := by
    intro p hp
    refine hp.step fun q _ _ o hq => ?_
    rw [ha.eq] at hq
    dsimp only at hq
    split at hq
    · cases hq
    · exact Or.inl hq
  refine ⟨h.allocated hall, hsafe, fun p hp => ?_, fun a hmem => ?_, fun i _ => ?_, fun i hi => ?_, ?_⟩
  · rw [ha.eq]
    exact if_neg (ha.clears_outside h (F.objects_in p hp))
  · rw [ha.eq]
    exact if_neg (ha.clears_outside h (F.bytes_in a hmem))
  · rw [ha.eq]
  · refine hsafe _ ?_
    rw [ha.eq]
    exact hi
  · rw [ha.eq]
    exact .refl _

theorem Kzalloced.outside {size ptr : Nat} (h : F.Stands k) (ha : Kzalloced k size ptr k') :
    F.Outside ptr := by
  obtain ⟨b, rfl, hall⟩ := ha.block
  have hlt := hall.start_lt
  rw [Kernel.heap_total] at hlt
  rw [Fence.Outside, pointerBlock_blockAddress hlt]
  exact ⟨h.start_not_mem hall, by omega⟩

/-- Memory from `kzalloc` is outside the fence, and nothing is in it. -/
theorem framed_kzalloc (h : F.Stands k) (size : Nat) :
    Framed (Fenced F) (kzalloc size) k fun ptr k' => F.Outside ptr ∧ (1 ≤ size → F.Safe k' ptr) ∧
      (ptr ≠ 0 → F.Clear ptr size) := by
  refine (kzalloc_spec k size).mono ?_
  rintro ptr k' (⟨rfl, rfl⟩ | ha)
  · exact ⟨.refl h, h.outside_zero, fun _ => h.safe_zero, fun h0 => absurd rfl h0⟩
  · refine ⟨.kzalloced h ha, ha.outside h, fun hsize => .intro (ha.outside h) fun _ o ho => ?_,
      fun _ a hmem => ?_⟩
    · rw [ha.eq] at ho
      dsimp only at ho
      rw [if_pos (by omega)] at ho
      cases ho
    · have := ha.clears_outside h (F.bytes_in a hmem)
      omega

/-- A new structure of zeros. -/
theorem framed_kzallocObj (h : F.Stands k) (size : Nat) {z : Obj}
    (hheld : ∀ q ∈ z.held, q = 0) (hfollowed : ∀ q ∈ z.followed, q = 0)
    (hindex : ∀ i : Nat, z.index ≠ some ((i : Int) + 1)) :
    Framed (Fenced F) (kzallocObj size z) k fun ptr k' => F.Safe k' ptr := by
  refine Framed.bind ((kzalloc_spec k size).mono fun ptr k' hcase => ?_)
    (P := fun ptr _ => F.Outside ptr) ?_
  · rcases hcase with ⟨rfl, rfl⟩ | ha
    · exact ⟨.refl h, h.outside_zero⟩
    · exact ⟨.kzalloced h ha, ha.outside h⟩
  · intro ptr k₁ hk₁ hptr
    have hst := hk₁.stands
    split
    · exact .pure (.refl hst) hst.safe_zero
    · refine Framed.bind (framed_storeObj hst hptr.not_mem ⟨?_, ?_, fun i _ => hindex i⟩) ?_
      · intro q hq
        rw [hheld q hq]
        exact hst.outside_zero
      · intro q hq
        rw [hfollowed q hq]
        exact hst.safe_zero
      · rintro _ k₂ hk₂ ⟨-, hsafe⟩
        exact .pure (.refl hk₂.stands) (hsafe hptr)

end Fenced

/-! ### New fences -/

/-- The entries of the kernel heap's table are as allocations and releases leave them. -/
def Kernel.HeapSound (k : Kernel) : Prop := SoundTable k.heap.table

theorem boot_heapSound (disk : Disk) : (Kernel.boot disk).HeapSound where
  next_taken := fun _ _ _ h => absurd h not_hasNext_free
  barrier := not_hasNext_free

theorem Kernel.HeapSound.kzalloced {k k' : Kernel} {size ptr : Nat} (h : k.HeapSound)
    (ha : Kzalloced k size ptr k') : k'.HeapSound := by
  obtain ⟨b, -, hall⟩ := ha.block
  exact SoundTable.allocated h hall

theorem Kernel.HeapSound.freed {k k' : Kernel} {p n : Nat} (h : k.HeapSound) (hp : k.Alive p n)
    (hf : Freed k p k') : k'.HeapSound := by
  obtain ⟨b, rfl, hn, -, hm⟩ := id hp
  exact SoundTable.released h hm hn rfl fun i => hf.entries b n i rfl hp

/-- A fence around nothing. -/
def emptyFence : Fence where
  blocks := ∅
  objects := ∅
  bytes := ∅
  slots := ∅
  objects_in := fun _ h => absurd h (Set.notMem_empty _)
  bytes_in := fun _ h => absurd h (Set.notMem_empty _)

theorem emptyFence_stands {k : Kernel} (h : k.HeapSound) : emptyFence.Stands k where
  inside := fun _ h => absurd h (Set.notMem_empty _)
  kept := fun _ _ => rfl
  taken := fun _ h => absurd h (Set.notMem_empty _)
  sealed := fun _ _ _ _ h => absurd h (Set.notMem_empty _)
  barrier := h.barrier

/-- The fence around a new allocation. -/
def allocationFence (b n : Nat) : Fence where
  blocks := { i | (b : Int) ≤ i ∧ i < b + n ∧ i < 25600 }
  objects := ∅
  bytes := ∅
  slots := ∅
  objects_in := fun _ h => absurd h (Set.notMem_empty _)
  bytes_in := fun _ h => absurd h (Set.notMem_empty _)

theorem allocationFence_stands {k k' : Kernel} {size b : Nat} (h : k.HeapSound)
    (hall : Allocated k.heap.table k'.heap.table b (heapTotalBlocks size)) :
    (allocationFence b (heapTotalBlocks size)).Stands k' :=
  h.guarded hall

/-- `F` protects memory alone, and stands in `k'` around a block that was free in `k`. -/
structure NewFence (F : Fence) (k k' : Kernel) : Prop where
  no_objects : F.objects = ∅
  no_bytes : F.bytes = ∅
  no_slots : F.slots = ∅
  fresh : ∃ b ∈ F.blocks, k.heap.table.IsFree b
  stands : F.Stands k'

theorem NewFence.fenced {F : Fence} {k k₁ k₂ : Kernel} (h : NewFence F k k₁)
    (hf : Fenced F k₁ k₂) : NewFence F k k₂ :=
  ⟨h.no_objects, h.no_bytes, h.no_slots, h.fresh, hf.stands⟩

theorem NewFence.not_mem {F : Fence} {k k' : Kernel} (h : NewFence F k k') (p : Nat) :
    p ∉ F.objects := by
  rw [h.no_objects]
  exact Set.notMem_empty p

theorem NewFence.not_slot {F : Fence} {k k' : Kernel} (h : NewFence F k k') (i : Nat) :
    i ∉ F.slots := by
  rw [h.no_slots]
  exact Set.notMem_empty i

/-- A structure that is allocated gets a fence around it. -/
theorem kzallocObj_newFence {k : Kernel} (h : k.HeapSound) {size : Nat} (h₁ : 1 ≤ size)
    (h₂ : size ≤ 0x7FFFF000) (zero : Obj) :
    Ensures (kzallocObj size zero) k fun ptr k' => (ptr = 0 ∧ k' = k) ∨
      ptr ≠ 0 ∧ ∃ F, NewFence F k k' := by
  refine (kzallocObj_spec k size zero).mono ?_
  rintro ptr k' (⟨rfl, rfl⟩ | ⟨k₁, ha, rfl⟩)
  · exact Or.inl ⟨rfl, rfl⟩
  · obtain ⟨b, -, hall⟩ := id ha.block
    have hlt := hall.start_lt
    rw [Kernel.heap_total] at hlt
    have hpos := blocksOf_pos h₁
    rw [← heapTotalBlocks_eq h₂] at hpos
    refine Or.inr ⟨ha.ne_zero, allocationFence b (heapTotalBlocks size), rfl, rfl, rfl,
      ⟨b, ⟨le_rfl, by omega, by omega⟩, hall.free b le_rfl (Or.inl rfl) hall.start_lt⟩, ?_⟩
    exact @allocationFence_stands _ { k₁ with objs := _ } _ _ h hall

end PlumOS
