import PlumOS.Isr80h.ArgumentCopy
import PlumOS.Task.LoadedProgram

/-!
# Arguments for a new process

With enough memory and slots, `process_inject_arguments` gives a process copies of all its
arguments. It changes the process, its page tables and memory that nothing else had, so that
what was alive before is as it was.

## Main definitions

- `GrownBut` — a state that has grown, but for some structures
- `UsedTo` — the first slots of a process are in use
- `Passed` — a process that was given its arguments

## Main results

- `processInjectArguments_passes`
-/

namespace PlumOS

open StateExcept Patches

/-! ### All but some structures -/

/-- `k'` comes from `k` by allocating and writing to what was allocated, and by changing the
structures at `S`. The blocks from `m` on are free. -/
structure GrownBut (S : List Nat) (k : Kernel) (m : Nat) (k' : Kernel) : Prop where
  free : k'.FreeFrom m
  alive : ∀ p n, k.Alive p n → k'.Alive p n
  mem : ∀ p n a, k.Alive p n → p ≤ a → a < p + 4096 * n → k'.mem a = k.mem a
  objs : ∀ p n a, k.Alive p n → p ≤ a → a < p + 4096 * n → a ∉ S → k'.objs a = k.objs a
  volume : SameVolume k.disk k'.disk

section GrownBut

variable {S : List Nat} {k₀ k k' : Kernel} {m m' : Nat}

theorem Grown.but (hg : Grown k m k') : GrownBut S k m k' :=
  ⟨hg.free, hg.alive, hg.mem, fun p n a hp h₁ h₂ _ => hg.objs p n a hp h₁ h₂, hg.volume⟩

theorem GrownBut.trans (hg : GrownBut S k₀ m k) (hg' : GrownBut S k m' k') :
    GrownBut S k₀ m' k' where
  free := hg'.free
  alive := fun p n hp => hg'.alive p n (hg.alive p n hp)
  mem := fun p n a hp h₁ h₂ => (hg'.mem p n a (hg.alive p n hp) h₁ h₂).trans (hg.mem p n a hp h₁ h₂)
  objs := fun p n a hp h₁ h₂ hS =>
    (hg'.objs p n a (hg.alive p n hp) h₁ h₂ hS).trans (hg.objs p n a hp h₁ h₂ hS)
  volume := hg.volume.trans hg'.volume

theorem GrownBut.onlyIn {ptrs : List Nat} (hg : GrownBut S k₀ m k) (ho : OnlyIn ptrs k k')
    (hS : ∀ q ∈ ptrs, q ∈ S) : GrownBut S k₀ m k' where
  free := hg.free.congr ho.heap_entries
  alive := fun p n hp => ho.alive (hg.alive p n hp)
  mem := ho.mem ▸ hg.mem
  objs := fun p n a hp h₁ h₂ ha =>
    (ho.objs a fun hmem => ha (hS a hmem)).trans (hg.objs p n a hp h₁ h₂ ha)
  volume := by
    rw [ho.disk]
    exact hg.volume

theorem GrownBut.stored {p : Nat} {o : Obj} (hg : GrownBut S k₀ m k) (hst : Stored k p o k')
    (hS : p ∈ S) : GrownBut S k₀ m k' where
  free := hg.free.congr hst.heap_entries
  alive := fun q n hq => hst.alive (hg.alive q n hq)
  mem := hst.mem ▸ hg.mem
  objs := fun q n a hq h₁ h₂ ha =>
    (hst.other a fun heq => ha (heq ▸ hS)).trans (hg.objs q n a hq h₁ h₂ ha)
  volume := by
    rw [hst.disk]
    exact hg.volume

/-- Memory that is not in an old allocation is written. -/
theorem GrownBut.written (hg : GrownBut S k₀ m k) (hk : k' = { k with mem := k'.mem })
    (hmem : ∀ p n a, k₀.Alive p n → p ≤ a → a < p + 4096 * n → k'.mem a = k.mem a) :
    GrownBut S k₀ m k' where
  free := hg.free.congr (by rw [hk])
  alive := fun p n hp => (hg.alive p n hp).congr (by rw [hk])
  mem := fun p n a hp h₁ h₂ => (hmem p n a hp h₁ h₂).trans (hg.mem p n a hp h₁ h₂)
  objs := by
    rw [hk]
    exact hg.objs
  volume := by
    rw [hk]
    exact hg.volume

/-- The structures that change may be new themselves. -/
theorem Grown.trans_but (hg : Grown k₀ m k) (hg' : GrownBut S k m' k')
    (hS : ∀ q ∈ S, ∃ n, Grown.Own k₀ k q n) : Grown k₀ m' k' where
  free := hg'.free
  alive := fun p n hp => hg'.alive p n (hg.alive p n hp)
  mem := fun p n a hp h₁ h₂ => (hg'.mem p n a (hg.alive p n hp) h₁ h₂).trans (hg.mem p n a hp h₁ h₂)
  objs := by
    intro p n a hp h₁ h₂
    refine (hg'.objs p n a (hg.alive p n hp) h₁ h₂ fun ha => ?_).trans (hg.objs p n a hp h₁ h₂)
    obtain ⟨l, hown⟩ := hS a ha
    obtain ⟨_, _, hl, _⟩ := id hown.alive
    exact hown.apart hg hp h₁ h₂ ⟨le_rfl, by omega⟩
  volume := hg.volume.trans hg'.volume

theorem GrownBut.own {ptr n : Nat} (hg : GrownBut S k m k') (ho : Grown.Own k₀ k ptr n) :
    Grown.Own k₀ k' ptr n := ⟨hg.alive _ _ ho.alive, ho.fresh⟩

theorem GrownBut.own_before {ptr n : Nat} (hg : GrownBut S k₀ m k) (ho : Grown.Own k k' ptr n) :
    Grown.Own k₀ k' ptr n := ⟨ho.alive, fun n' hn => ho.fresh n' (hg.alive _ _ hn)⟩

end GrownBut

/-! ### A request of the process -/

/-- The slots up to `j` are in use, and the others are free. -/
def UsedTo (j : Nat) (allocations : Nat → ProcessAllocation) : Prop :=
  ∀ i, (allocations i).ptr = 0 ↔ j ≤ i

theorem UsedTo.index {j : Nat} {allocations : Nat → ProcessAllocation} (h : UsedTo j allocations)
    (hj : j < 1024) : processFindFreeAllocationIndex allocations = some j := by
  unfold processFindFreeAllocationIndex
  rw [List.find?_range_eq_some]
  refine ⟨beq_iff_eq.mpr ((h j).mpr le_rfl), List.mem_range.mpr hj, fun i hi => ?_⟩
  have hused : (allocations i).ptr ≠ 0 := fun h0 => absurd ((h i).mp h0) (by omega)
  simpa using hused

theorem UsedTo.update {j ptr size : Nat} {allocations : Nat → ProcessAllocation}
    (h : UsedTo j allocations) (hptr : ptr ≠ 0) :
    UsedTo (j + 1) (Function.update allocations j ⟨ptr, size⟩) := by
  intro i
  rw [Function.update_apply]
  split
  · next heq => exact iff_of_false hptr (by omega)
  · rw [h i]
    omega

/-- Below the heap the same pages are mapped. -/
def SamePrograms (map map' : Nat → Nat) : Prop := ∀ page < 0x1000, map' page = map page

section Malloc

variable {process size j m : Nat} {k : Kernel} {p : Process} {t : Task} {ptrs : List Nat}
  {map : Nat → Nat}

/-- With a free block and a slot, a request of a block at most succeeds. -/
theorem processMalloc_grown (h : ProcessAt process k p t ptrs map) (hfree : k.FreeFrom m)
    (hm : m + 1 ≤ 25600) (h₁ : 1 ≤ size) (h₂ : size ≤ 4096) (hused : UsedTo j p.allocations)
    (hj : j < 1024) :
    Returns (processMalloc process size) k fun ptr k' => GrownBut (process :: ptrs) k (m + 1) k' ∧
      SameGlobals k k' ∧ Grown.Own k k' ptr 1 ∧ NewMemory k size ptr k' ∧ ∃ map',
        SamePrograms map map' ∧ ProcessAt process k'
          { p with allocations := Function.update p.allocations j ⟨ptr, size⟩ } t ptrs map' := by
  have hblocks : blocksOf size = 1 := by
    unfold blocksOf
    omega
  obtain ⟨n, hn⟩ := h.process_alive
  refine (Returns.and_ensures (Q := fun ptr k' => GrownBut (process :: ptrs) k (m + 1) k' ∧
    SameGlobals k k' ∧ Grown.Own k k' ptr 1 ∧ ∃ map', SamePrograms map map' ∧ ProcessAt process k'
      { p with allocations := Function.update p.allocations j ⟨ptr, size⟩ } t ptrs map') ?_
    (processMalloc_either h ⟨h₁, by omega⟩).ensures).mono ?_
  · refine .bind (((Grown.refl hfree).kzalloc h₁ (by omega)).and_ensures
      (kzalloc_spec k size)) ?_
    rintro ptr k₁ ⟨⟨hne, hg₁, -, hown₁, -⟩, halloc⟩
    rw [hblocks] at hg₁ hown₁
    have hglob₁ := (halloc.resolve_left fun hbad => hne hbad.1).globals
    rw [if_neg hne]
    have hat₁ : ProcessAt process k₁ p t ptrs map := h.kept fun q l hq _ =>
      ⟨hg₁.alive q l hq, hg₁.obj hq⟩
    refine .bind (deref_returns hn.ne_zero hat₁.process_eq rfl) ?_
    rintro _ _ ⟨rfl, rfl⟩
    rw [hused.index hj]
    refine .bind (deref_returns h.task_alive.ne_zero hat₁.task_eq rfl) ?_
    rintro _ _ ⟨rfl, rfl⟩
    obtain ⟨haligned, hlt⟩ := hown₁.alive.aligned
    refine .bind (hat₁.space.mapAllocation (hblocks ▸ hown₁.alive) haligned (by omega) _) ?_
    rintro _ k₂ ⟨rfl, hmaps, honly⟩
    rw [if_neg (lt_irrefl _)]
    refine .bind (modifyProcess_returns _ hn.ne_zero
      ((honly.objs _ hat₁.process_not_mem).trans hat₁.process_eq)) ?_
    intro _ k₃ hst
    refine .pure ⟨(hg₁.but.onlyIn honly fun q hq => List.mem_cons_of_mem _ hq).stored hst
      (List.mem_cons_self ..), hglob₁.trans (honly.globals.trans hst.globals),
      ⟨hst.alive (honly.alive hown₁.alive), hown₁.fresh⟩, _, fun page hpage => ?_,
      (hat₁.changed hmaps honly hst rfl).1⟩
    refine Patch.apply_of_not_mem ?_
    change ¬ (ptr / 4096 ≤ page ∧ _)
    obtain ⟨b, rfl, -⟩ := hown₁.alive
    unfold blockAddress
    omega
  · rintro ptr k' ⟨⟨hg, hglob, hown, map', hsame, hat⟩, ⟨rfl, -⟩ | ⟨-, -, -, -, -, hnew, -⟩⟩
    · exact absurd rfl hown.alive.ne_zero
    · exact ⟨hg, hglob, hown, hnew, map', hsame, hat⟩

end Malloc

/-! ### The copies -/

section Loop

variable {process argv : Nat} {k₀ k : Kernel} {t : Task} {ptrs : List Nat}

theorem Kernel.Alive.inUse {p n a : Nat} (hp : k.Alive p n) (h₁ : p ≤ a) (h₂ : a < p + 4096 * n) :
    k.InUse a := by
  obtain ⟨b, rfl, hn, -, hm⟩ := hp
  intro c hc hfree
  by_contra hin
  unfold blockAddress at h₁ h₂ hin
  exact hm.not_free (k := c) (by omega) (by omega) hfree

/-- A turn of the loop writes memory and nothing else. -/
theorem copyOne_memory {current str i : Nat} (k : Kernel)
    (hnode : current + 512 ≤ str ∨ str + commandArgumentSize ≤ current) :
    Ensures (do
      strncpyKernel str current (commandArgumentSize - 1) 0
      storeBytes (argv + 4 * i) (wordBytes str)) k fun _ k' => k' = { k with mem := k'.mem } := by
  intro _ k' hrun
  rw [bind_of_ok (copyArgument_eq k hnode)] at hrun
  cases hrun
  rfl

/-- With a block and a slot for each node, the loop gets to the end of the list. The buffers are
new memory. -/
theorem processInjectLoop_passes {fuel current i r j m l : Nat} {p : Process} {map : Nat → Nat}
    (hg : GrownBut (process :: ptrs) k₀ m k) (hglob : SameGlobals k₀ k)
    (h : ProcessAt process k p t ptrs map) (hused : UsedTo j p.allocations) (hj : j + r ≤ 1024)
    (hm : m + r ≤ 25600) (hargv : Grown.Own k₀ k argv l) (hl : 4 * (i + r) ≤ 4096 * l)
    (hnodes : ArgumentNodes k current r) (hfuel : r < fuel)
    (hapart : ∀ j < r, ∀ o < 516, k.argumentNode current j + o < argv + 4 * i ∨
      argv + 4 * (i + r) ≤ k.argumentNode current j + o) :
    Returns (processInjectLoop process argv fuel current i) k fun complete k' => complete = true ∧
      GrownBut (process :: ptrs) k₀ (m + r) k' ∧ SameGlobals k₀ k' ∧
      (∀ q n, k.Alive q n → k'.Alive q n) ∧
      (∀ x < r, Grown.Own k₀ k' (readWord k'.mem (argv + 4 * (i + x))) 1) ∧
      ∃ allocations map', SamePrograms map map' ∧
        ProcessAt process k' { p with allocations := allocations } t ptrs map' := by
  induction r generalizing fuel current i j m k p map with
  | zero =>
    obtain ⟨fuel, rfl⟩ : ∃ n, fuel = n + 1 := Nat.exists_eq_add_of_le' hfuel
    obtain rfl : current = 0 := hnodes.length.stops
    exact .pure ⟨rfl, hg, hglob, fun _ _ hq => hq, fun x hx => absurd hx (Nat.not_lt_zero x),
      p.allocations, map, fun _ _ => rfl, h⟩
  | succ r ih =>
    obtain ⟨fuel, rfl⟩ : ∃ n, fuel = n + 1 := Nat.exists_eq_add_of_le' (Nat.one_le_of_lt hfuel)
    unfold processInjectLoop
    rw [if_neg hnodes.next.1]
    refine .bind (processMalloc_grown h hg.free (by omega) (by decide) (by decide) hused
      (by omega)) ?_
    rintro str k₁ ⟨hg₁, hglob₁, hown₁, hnew, map₁, hsame₁, h₁⟩
    rw [if_neg hown₁.alive.ne_zero, ← bind_assoc]
    have harray : ∀ a, argv + 4 * i ≤ a → a < argv + 4 * (i + (r + 1)) → k.InUse a :=
      fun a h₁ h₂ => hargv.alive.inUse (by omega) (by omega)
    have hfresh : ∀ a, k.InUse a → a < str ∨ str + commandArgumentSize ≤ a := fun a ha =>
      hnew.fresh requestSize_argument ha (.inr (by decide))
    have hnode : current + 512 ≤ str ∨ str + commandArgumentSize ≤ current := by
      refine ranges_apart (by decide) (by decide) fun a h₁ h₂ => hfresh a ?_
      have hin := hnodes.inUse 0 (Nat.succ_pos r) (a - current) (by omega)
      rwa [show k.argumentNode current 0 = current from rfl, Nat.add_sub_cancel' h₁] at hin
    have hentry : argv + 4 * i + 4 ≤ str ∨ str + commandArgumentSize ≤ argv + 4 * i :=
      ranges_apart (by decide) (by decide) fun a h₁ h₂ => hfresh a (harray a h₁ (by omega))
    have hstr := hown₁.alive.aligned.2
    refine .bind ((copyOne_returns (by omega) hnode hentry).and_ensures (copyOne_memory k₁ hnode)) ?_
    rintro _ k₃ ⟨hone, hk₃⟩
    -- the buffer is new and the array is, so that nothing old is written
    have hg₃ : GrownBut (process :: ptrs) k₀ (m + 1) k₃ := by
      refine (hg.trans hg₁).written hk₃ fun q n a hq h₁ h₂ => hone.others a ?_ ?_
      · exact hfresh a ((hg.alive q n hq).inUse h₁ h₂)
      · have hout := (hg.alive q n hq).apart hargv.alive (fun heq => hargv.fresh n (heq ▸ hq)) h₁ h₂
        omega
    have hinUse : ∀ a, k.InUse a → k₃.InUse a := fun a ha => (hnew.inUse ha).congr hone.only.2
    have hmem : ∀ a, k.InUse a → (a < argv + 4 * i ∨ argv + 4 * (i + 1) ≤ a) →
        k₃.mem a = k.mem a := fun a ha hout => (hone.others a (hfresh a ha) hout).trans
      (hnew.mem_eq requestSize_argument ha (.inr (by decide)))
    have hnodeMem : ∀ j < r + 1, ∀ o < 516, k₃.mem (k.argumentNode current j + o) =
        k.mem (k.argumentNode current j + o) := fun j hj o ho =>
      hmem _ (hnodes.inUse j hj o ho) (by have := hapart j hj o ho; omega)
    obtain ⟨hnodes₃, hsame⟩ := hnodes.congr hnodeMem hinUse
    refine .bind (R := fun next k' => k₃ = k' ∧ next = k₃.nextArgument current)
      (.reads ⟨rfl, rfl⟩) ?_
    rintro _ _ ⟨rfl, rfl⟩
    have hat₃ := h₁.kept hone.only.keeps
    have hargv₃ : Grown.Own k₀ k₃ argv l :=
      ⟨(hg₁.alive _ _ hargv.alive).congr hone.only.2, hargv.fresh⟩
    have hapart₃ : ∀ j < r, ∀ o < 516,
        k₃.argumentNode (k₃.nextArgument current) j + o < argv + 4 * (i + 1) ∨
          argv + 4 * (i + 1 + r) ≤ k₃.argumentNode (k₃.nextArgument current) j + o := by
      intro j hj o ho
      have hout := hapart (j + 1) (Nat.succ_lt_succ hj) o ho
      rw [← hsame (j + 1) (Nat.succ_lt_succ hj)] at hout
      change k₃.argumentNode current (j + 1) + o < _ ∨ _ ≤ k₃.argumentNode current (j + 1) + o
      omega
    have hrest := processInjectLoop_copies hat₃ hnodes₃.next.2 (Nat.lt_of_succ_lt_succ hfuel)
      (fun a h₁ h₂ => hinUse a (harray a (by omega) (by omega))) hapart₃
    refine ((ih hg₃ (hglob.trans (hglob₁.trans (by rw [hk₃]; exact ⟨rfl, rfl, rfl, rfl, rfl, rfl⟩)))
      hat₃ (hused.update hown₁.alive.ne_zero) (by omega) (by omega) hargv₃ (by omega)
      hnodes₃.next.2 (Nat.lt_of_succ_lt_succ hfuel) hapart₃).and_ensures hrest.ensures).mono ?_
    rintro complete k' ⟨⟨rfl, hg', hglob', halive', howns, allocations, map', hsame', hat'⟩, -, hcopies⟩
    obtain ⟨-, hframe⟩ := hcopies rfl
    have halive₃ : ∀ q n, k₁.Alive q n → k'.Alive q n := fun q n hq =>
      halive' q n (hq.congr hone.only.2)
    refine ⟨rfl, ?_, hglob', fun q n hq => halive₃ q n (hg₁.alive q n hq), fun x hx => ?_,
      allocations, map',
      fun page hpage => (hsame' page hpage).trans (hsame₁ page hpage), hat'⟩
    · rwa [show m + (r + 1) = m + 1 + r by omega]
    · cases x with
      | zero =>
        have hword : readWord k'.mem (argv + 4 * (i + 0)) = str := by
          rw [Nat.add_zero, ← hone.entry]
          exact readWord_congr fun o ho =>
            hframe _ (hinUse _ (harray _ (by omega) (by omega))) (by omega)
        rw [hword]
        exact ⟨halive₃ _ _ hown₁.alive, (hg.own_before hown₁).fresh⟩
      | succ x =>
        have hown := howns x (by omega)
        rwa [show i + 1 + x = i + (x + 1) by omega] at hown

end Loop

/-! ### process_inject_arguments -/

/-- The process was given its arguments: the list of `n` nodes from `root` on in `k`. Below the
heap the same pages are mapped, and what was alive is as it was. -/
structure Passed (k : Kernel) (m process : Nat) (p : Process) (t : Task) (ptrs : List Nat)
    (map : Nat → Nat) (root n argv : Nat) (k' : Kernel) : Prop where
  grown : GrownBut (process :: ptrs) k m k'
  globals : SameGlobals k k'
  processAt : ∃ allocations map', SamePrograms map map' ∧ ProcessAt process k'
    { p with allocations := allocations, arguments := ⟨n, argv⟩ } t ptrs map'
  array : Grown.Own k k' argv 1
  buffers : ∀ x < n, Grown.Own k k' (readWord k'.mem (argv + 4 * x)) 1
  copies : Copied k k' argv root 0 n

section Inject

variable {process j m root n : Nat} {k : Kernel} {p : Process} {t : Task} {ptrs : List Nat}
  {map : Nat → Nat}

/-- For every list of one argument or more: with a block and a slot for each of them and for the
array, the process is given copies of all of them. -/
theorem processInjectArguments_passes (h : ProcessAt process k p t ptrs map)
    (hfree : k.FreeFrom m) (hused : UsedTo j p.allocations) (hj : j + (n + 1) ≤ 1024)
    (hm : m + (n + 1) ≤ 25600) (hn : 1 ≤ n) (hnodes : ArgumentNodes k root n) :
    Returns (processInjectArguments process root) k fun res k' => res = 0 ∧
      ∃ argv, Passed k (m + (n + 1)) process p t ptrs map root n argv k' := by
  have hcount := processCountCommandArguments_of_length hnodes.length
    (show n < commandArgumentFuel by unfold commandArgumentFuel; omega)
  have hword : u32 ((4 * n : Nat) : Int) = 4 * n := u32_natCast (by omega)
  have hsize : RequestSize (4 * n) := ⟨by omega, by omega⟩
  refine .bind (R := fun argc k' => k = k' ∧ n = argc) ⟨_, _, hcount, rfl, rfl⟩ ?_
  rintro _ _ ⟨rfl, rfl⟩
  rw [if_neg (by omega), hword]
  refine .bind (processMalloc_grown h hfree (by omega) (by omega) (by omega) hused (by omega)) ?_
  rintro argv k₁ ⟨hg₁, hglob₁, hown₁, hnew, map₁, hsame₁, h₁⟩
  rw [if_neg hown₁.alive.ne_zero]
  have hkept : ∀ j < n, ∀ o < 516, k₁.mem (k.argumentNode root j + o) =
      k.mem (k.argumentNode root j + o) := fun j hj o ho =>
    hnew.mem_eq hsize (hnodes.inUse j hj o ho) (.inr (by omega))
  obtain ⟨hnodes₁, hsame⟩ := hnodes.congr hkept fun a ha => hnew.inUse ha
  have hfuel : n < commandArgumentFuel := by
    unfold commandArgumentFuel
    omega
  have hapart : ∀ j < n, ∀ o < 516, k₁.argumentNode root j + o < argv + 4 * 0 ∨
      argv + 4 * (0 + n) ≤ k₁.argumentNode root j + o := by
    intro j hj o ho
    rw [hsame j hj]
    have hfresh := hnew.fresh hsize (hnodes.inUse j hj o ho) (.inr (by omega))
    omega
  have harray : ∀ a, argv + 4 * 0 ≤ a → a < argv + 4 * (0 + n) → k₁.InUse a :=
    fun a h₁ h₂ => hown₁.alive.inUse (by omega) (by omega)
  have hloop := (processInjectLoop_passes hg₁ hglob₁ h₁ (hused.update hown₁.alive.ne_zero)
    (by omega) (by omega) hown₁ (by omega) hnodes₁ hfuel hapart).and_ensures
    (processInjectLoop_copies h₁ hnodes₁ hfuel harray hapart).ensures
  refine .bind hloop ?_
  rintro _ k₂ ⟨⟨rfl, hg₂, hglob₂, halive₂, howns, allocations, map₂, hsame₂, h₂⟩, -, hcopies⟩
  obtain ⟨hcopied, -⟩ := hcopies rfl
  obtain ⟨l, hl⟩ := h₂.process_alive
  refine .bind (modifyProcess_returns _ hl.ne_zero h₂.process_eq) ?_
  intro _ k₃ hst
  have hargc : i32 ((n : Nat) : Int) = n := i32_natCast (by omega)
  refine .pure ⟨rfl, argv, ?_⟩
  exact
    { grown := by
        rw [show m + (n + 1) = m + 1 + n by omega]
        exact hg₂.stored hst (List.mem_cons_self ..)
      globals := hglob₂.trans hst.globals
      processAt := by
        refine ⟨allocations, map₂, fun page hpage =>
          (hsame₂ page hpage).trans (hsame₁ page hpage), ?_⟩
        have hat := (h₂.changed h₂.space (.refl ptrs k₂) hst rfl).1
        rwa [hargc] at hat
      array := ⟨hst.alive (halive₂ _ _ hown₁.alive), hown₁.fresh⟩
      buffers := fun x hx => by
        have hown := howns x hx
        rw [Nat.zero_add] at hown
        rw [hst.mem]
        exact ⟨hst.alive hown.alive, hown.fresh⟩
      copies := fun x hx => by
        have hcopy := hcopied x hx
        rw [← hst.mem, hsame x hx] at hcopy
        rwa [readString_congr fun o ho => hkept x hx o (by
          simp only [commandArgumentSize] at ho
          omega)] at hcopy }

end Inject

end PlumOS
