import PlumOS.Fs.PathParts
import PlumOS.Isr80h.ArgumentList
import PlumOS.Task.StringCopy

/-!
# The copies of the arguments

`process_inject_arguments` allocates an array for the arguments and a buffer for each of
them. When there is no memory for the array it changes its status, but unlike for a buffer
it goes on: with memory for the first buffer it stores through NULL.

## Main definitions

- `Kernel.InUse`, `ArgumentNodes` — memory that no allocation takes, and a list in it
- `processInjectArgumentsWatched` — the code, that leaves at a store through a NULL `argv`
- `InjectsArguments` — what a caller expects

## Main results

- `processMalloc_either` — one request, in every state of the heap
- `processInjectLoop_copies`
- `processInjectArguments_copies_iff`
-/

namespace PlumOS

open StateExcept ListWalk

/-! ### One request -/

/-- Byte `a` is in no free block of the heap. -/
def Kernel.InUse (k : Kernel) (a : Nat) : Prop :=
  ∀ b : Nat, b < 25600 → k.heap.table.IsFree b → a < blockAddress b ∨ blockAddress b + 4096 ≤ a

/-- `size` bytes of memory, all zero, were allocated at `ptr`. -/
structure NewMemory (k : Kernel) (size ptr : Nat) (k' : Kernel) : Prop where
  block : ∃ b, ptr = blockAddress b ∧ Allocated k.heap.table k'.heap.table b (heapTotalBlocks size)
  mem : k'.mem = fun a => if ptr ≤ a ∧ a < ptr + size then 0 else k.mem a

section Request

variable {process : Nat} {k k' : Kernel} {pr : Process} {t : Task} {ptrs : List Nat}
  {m : Nat → Nat} {size ptr : Nat}

/-- A request of at least one byte returns, whatever is free. -/
theorem kzalloc_runs (hsize : RequestSize size) (k : Kernel) :
    Returns (kzalloc size) k fun ptr k' =>
      (ptr = 0 ∧ k' = k ∧ k.NoRoom size) ∨ (¬ k.NoRoom size ∧ Kzalloced k size ptr k') := by
  by_cases hno : k.NoRoom size
  · exact ⟨0, k, kzalloc_of_noRoom hno, .inl ⟨rfl, rfl, hno⟩⟩
  have hblocks : 0 < heapTotalBlocks size := by
    rw [heapTotalBlocks_eq hsize.2]
    exact blocksOf_pos hsize.1
  obtain ⟨p, heap', hok⟩ : ∃ p heap',
      heapMallocBlcoks k.heap (heapTotalBlocks size) = .ok (p, heap') := by
    unfold heapMallocBlcoks heapMarkBlocksTaken
    dsimp only
    split
    · exact ⟨_, _, rfl⟩
    · rw [if_neg (by omega)]
      exact ⟨_, _, rfl⟩
  rcases heapMallocBlcoks_cases hok with ⟨hneg, -, -⟩ | ⟨b, -, rfl, -, hall⟩
  · exact absurd (heapGetStartBlock_neg_iff.mp hneg) hno
  have hlt := hall.start_lt
  have hmax := hsize.2
  rw [Kernel.heap_total] at hlt
  have hptr : u32 (k.heap.saddr + b * 4096) = blockAddress b := by
    rw [Kernel.heap_saddr, u32_of_range (by omega) (by omega)]
    unfold blockAddress
    omega
  rw [hptr] at hok
  refine (kzalloc_of_ok hok hall (by unfold blockAddress; omega)).mono ?_
  rintro _ k' ⟨rfl, ha, -⟩
  exact .inr ⟨hno, ha⟩

/-- The memory of a request is mapped, also where it goes over the end of the pool. -/
theorem MapsSpace.mapMemory (h : MapsSpace k t.page_directory ptrs m) {b : Nat} (hb : b < 25600)
    (hsize : RequestSize size) (flags : Nat) :
    Returns (pagingMapTo t.page_directory (blockAddress b) (blockAddress b)
      (pagingAlignAddress (u32 ((blockAddress b + size : Nat) : Int))) flags) k fun res k' =>
        res = 0 ∧ (∃ m', MapsSpace k' t.page_directory ptrs m') ∧ OnlyIn ptrs k k' := by
  have haligned := blockAddress_aligned b
  have hlt : blockAddress b + 4096 ≤ 0x7400000 := by
    unfold blockAddress
    omega
  obtain ⟨-, hmax⟩ := hsize
  rw [u32_natCast (by omega), pagingAlignAddress_eq (by omega)]
  refine (h.mapTo haligned (by omega) haligned (by omega) (by omega) (by omega) flags).mono ?_
  rintro res k' ⟨hres, hmaps, honly⟩
  exact ⟨hres, ⟨_, hmaps⟩, honly⟩

/-- A request of a process fails when the heap has no room or the process no slot, and its
table of allocations is then as before. Otherwise the memory is new and recorded. -/
theorem processMalloc_either (h : ProcessAt process k pr t ptrs m) (hsize : RequestSize size) :
    Returns (processMalloc process size) k fun ptr k' =>
      (ptr = 0 ∧ (k.NoRoom size ∧ k' = k ∨
          processFindFreeAllocationIndex pr.allocations = none) ∧
        ProcessAt process k' pr t ptrs m) ∨
      (ptr ≠ 0 ∧ ¬ k.NoRoom size ∧ ∃ index m',
        processFindFreeAllocationIndex pr.allocations = some index ∧ NewMemory k size ptr k' ∧
        ProcessAt process k'
          { pr with allocations := Function.update pr.allocations index ⟨ptr, size⟩ } t ptrs m') := by
  obtain ⟨n, hn⟩ := h.process_alive
  refine .bind (kzalloc_runs hsize k) ?_
  rintro ptr k₁ (⟨rfl, rfl, hno⟩ | ⟨hroom, ha⟩)
  · rw [if_pos rfl]
    exact .pure (.inl ⟨rfl, .inl ⟨hno, rfl⟩, h⟩)
  have h₁ := h.kept (ha.keeps hsize.2)
  rw [if_neg ha.ne_zero]
  refine .bind (deref_returns hn.ne_zero h₁.process_eq rfl) ?_
  rintro _ _ ⟨rfl, rfl⟩
  cases hindex : processFindFreeAllocationIndex pr.allocations with
  | none => exact .pure (.inl ⟨rfl, .inr rfl, h₁⟩)
  | some index =>
    obtain ⟨b, hb, hall⟩ := ha.block
    refine .bind (deref_returns h₁.task_alive.ne_zero h₁.task_eq rfl) ?_
    rintro _ _ ⟨rfl, rfl⟩
    have hmap := h₁.space.mapMemory hall.start_lt hsize userWriteable
    rw [← hb] at hmap
    refine .bind hmap ?_
    rintro _ k₂ ⟨rfl, ⟨m', hmaps⟩, honly⟩
    rw [if_neg (lt_irrefl 0)]
    have hpr₂ := (honly.objs _ h₁.process_not_mem).trans h₁.process_eq
    refine .bind (modifyProcess_returns _ hn.ne_zero hpr₂) ?_
    intro _ k₃ hst
    have hentries : k₃.heap_entries = k₁.heap_entries :=
      hst.heap_entries.trans honly.heap_entries
    refine .pure (.inr ⟨ha.ne_zero, hroom, index, m', rfl, ⟨⟨b, hb, ?_⟩, ?_⟩,
      (h₁.changed hmaps honly hst rfl).1⟩)
    · exact ⟨rfl, hall.start_lt, hall.free, fun i => (congrFun hentries i).trans (hall.entries i)⟩
    · rw [hst.mem, honly.mem, ha.eq]

end Request

/-! ### New memory -/

section NewMemory

variable {k k' : Kernel} {size ptr a : Nat}

/-- The memory of a request was free: no byte of it was in use. A request of more than a
block can go over the end of the pool. -/
theorem NewMemory.fresh (h : NewMemory k size ptr k') (hsize : RequestSize size)
    (ha : k.InUse a) (hin : a < 0x7400000 ∨ size ≤ 4096) : a < ptr ∨ ptr + size ≤ a := by
  obtain ⟨b, rfl, hall⟩ := h.block
  by_contra hout
  obtain ⟨c, hc⟩ : ∃ c, c = (a - 0x1000000) / 4096 := ⟨_, rfl⟩
  have hlt := hall.start_lt
  rw [Kernel.heap_total] at hlt
  have hblocks := heapTotalBlocks_eq hsize.2
  unfold blocksOf at hblocks
  unfold blockAddress at hout
  have hfree := hall.free c (by omega) (by omega) (by rw [Kernel.heap_total]; omega)
  have hcase := ha c (by omega) hfree
  unfold blockAddress at hcase
  omega

theorem NewMemory.mem_eq (h : NewMemory k size ptr k') (hsize : RequestSize size)
    (ha : k.InUse a) (hin : a < 0x7400000 ∨ size ≤ 4096) : k'.mem a = k.mem a := by
  have hfresh := h.fresh hsize ha hin
  rw [h.mem]
  exact if_neg (by omega)

/-- What was in use is so still. -/
theorem NewMemory.inUse (h : NewMemory k size ptr k') (ha : k.InUse a) : k'.InUse a := by
  obtain ⟨b, -, hall⟩ := h.block
  intro c hc hfree
  unfold HeapTable.IsFree at hfree
  rw [hall.entries] at hfree
  split at hfree
  · exact absurd hfree (runEntry_taken _ _)
  · exact ha c hc hfree

/-- The new memory is in use. -/
theorem NewMemory.inUse_self (h : NewMemory k size ptr k') (hsize : RequestSize size)
    (h₁ : ptr ≤ a) (h₂ : a < ptr + size) : k'.InUse a := by
  obtain ⟨b, rfl, hall⟩ := h.block
  have hblocks := heapTotalBlocks_eq hsize.2
  unfold blocksOf at hblocks
  intro c hc hfree
  unfold HeapTable.IsFree at hfree
  rw [hall.entries] at hfree
  unfold blockAddress at h₁ h₂ ⊢
  by_contra hout
  rw [if_pos (by omega)] at hfree
  exact absurd hfree (runEntry_taken _ _)

theorem Kernel.InUse.congr (h : k.InUse a) (he : k'.heap_entries = k.heap_entries) :
    k'.InUse a := by
  intro b hb hfree
  refine h b hb ?_
  unfold HeapTable.IsFree at hfree ⊢
  rw [Kernel.heap_entries_eq] at hfree ⊢
  rwa [he] at hfree

end NewMemory

/-! ### One argument -/

section Copy

variable {k : Kernel} {dest src : Nat}

theorem readString_succ (mem : Nat → UInt8) (p n : Nat) : readString mem p (n + 1) =
    if mem p = 0x00 then [] else mem p :: readString mem (p + 1) n := by
  have hbytes : readBytes mem p (n + 1) = mem p :: readBytes mem (p + 1) n := by
    rw [Nat.add_comm n 1, readBytes_append]
    rfl
  unfold readString
  rw [hbytes, List.takeWhile_cons]
  by_cases h0 : mem p = 0x00
  · simp [h0]
  · simp [h0]

theorem readString_congr {mem mem' : Nat → UInt8} {p n : Nat}
    (h : ∀ i < n, mem (p + i) = mem' (p + i)) : readString mem p n = readString mem' p n :=
  congrArg (List.takeWhile _) (readBytes_congr h)

theorem readString_length_le (mem : Nat → UInt8) (p n : Nat) :
    (readString mem p n).length ≤ n := by
  refine (List.takeWhile_prefix _).length_le.trans ?_
  rw [readBytes_length]

theorem zero_not_mem_readString (mem : Nat → UInt8) (p n : Nat) : 0 ∉ readString mem p n :=
  fun hmem => absurd (List.mem_takeWhile_imp hmem) (by decide)

/-- `strncpy` in the kernel copies the string, cut to the size, with its NUL. -/
theorem strncpyKernel_eq {fuel i : Nat}
    (hapart : ∀ j < fuel, src + i + j < dest ∨ dest + i + fuel ≤ src + i + j) :
    strncpyKernel dest src fuel i k = .ok (⟨⟩, { k with
      mem := writeBytes k.mem (dest + i) (readString k.mem (src + i) fuel ++ [0x00]) }) := by
  induction fuel generalizing i k with
  | zero => rfl
  | succ fuel ih =>
    unfold strncpyKernel
    rw [bind_of_ok (a := k.mem (src + i)) (t := k) rfl, readString_succ]
    by_cases h0 : k.mem (src + i) = 0x00
    · rw [if_pos h0, if_pos h0]
      rfl
    · rw [if_neg h0, if_neg h0,
        bind_of_ok (m := storeBytes (dest + i) [k.mem (src + i)]) (a := ⟨⟩) rfl, ih ?_]
      · -- the characters behind are not those that were stored
        have hsame : readString (writeBytes k.mem (dest + i) [k.mem (src + i)]) (src + (i + 1))
            fuel = readString k.mem (src + i + 1) fuel := by
          refine readString_congr fun j hj => writeBytes_of_not_mem ?_
          have := hapart (j + 1) (by omega)
          simp only [List.length_singleton]
          omega
        dsimp only
        rw [hsame]
        have happend := writeBytes_append k.mem (dest + i) [k.mem (src + i)]
          (readString k.mem (src + i + 1) fuel ++ [0x00])
        rw [List.length_singleton, Nat.add_assoc] at happend
        rw [happend]
        rfl
      · intro j hj
        have := hapart (j + 1) (by omega)
        omega

end Copy

/-! ### The list and the array -/

/-- Node `j` of the list. -/
def Kernel.argumentNode (k : Kernel) (root j : Nat) : Nat := k.nextArgument^[j] root

/-- The list from `root` on has `n` nodes, in memory of the heap that is in use or below it. -/
structure ArgumentNodes (k : Kernel) (root n : Nat) : Prop where
  length : k.ListLength root n
  below : ∀ j < n, k.argumentNode root j + 516 ≤ 0x7400000
  inUse : ∀ j < n, ∀ o < 516, k.InUse (k.argumentNode root j + o)

section Nodes

variable {k k' : Kernel} {root n p : Nat}

theorem nextArgument_congr (hp : p + 516 ≤ 0x7400000)
    (hmem : ∀ o < 516, k'.mem (p + o) = k.mem (p + o)) : k'.nextArgument p = k.nextArgument p := by
  unfold Kernel.nextArgument commandArgumentSize
  rw [u32_natCast (by omega)]
  refine readWord_congr fun o ho => ?_
  rw [Nat.add_assoc]
  exact hmem (512 + o) (by omega)

/-- The same list in another state. -/
theorem ArgumentNodes.congr (h : ArgumentNodes k root n)
    (hmem : ∀ j < n, ∀ o < 516, k'.mem (k.argumentNode root j + o) =
      k.mem (k.argumentNode root j + o))
    (hinUse : ∀ a, k.InUse a → k'.InUse a) :
    ArgumentNodes k' root n ∧ ∀ j < n, k'.argumentNode root j = k.argumentNode root j := by
  have hstep : ∀ j < n, k'.nextArgument (k.nextArgument^[j] root) =
      k.nextArgument (k.nextArgument^[j] root) := fun j hj =>
    nextArgument_congr (h.below j hj) (hmem j hj)
  have hnode : ∀ j < n, k'.argumentNode root j = k.argumentNode root j := fun j hj =>
    iterate_congr hstep j hj.le
  refine ⟨⟨h.length.congr hstep, fun j hj => ?_, fun j hj o ho => ?_⟩, hnode⟩
  · rw [hnode j hj]
    exact h.below j hj
  · rw [hnode j hj]
    exact hinUse _ (h.inUse j hj o ho)

/-- The list behind its first node. -/
theorem ArgumentNodes.next (h : ArgumentNodes k root (n + 1)) :
    root ≠ 0 ∧ ArgumentNodes k (k.nextArgument root) n := by
  obtain ⟨hroot, hlength⟩ := stops_succ_iff.mp h.length
  exact ⟨hroot, hlength, fun j hj => h.below (j + 1) (Nat.succ_lt_succ hj),
    fun j hj => h.inUse (j + 1) (Nat.succ_lt_succ hj)⟩

/-- There are fewer nodes than addresses below the end of the heap. -/
theorem ArgumentNodes.le (h : ArgumentNodes k root n) : n ≤ 0x7400000 := by
  have hcard := h.length.le_card (S := Finset.range 0x7400000) fun j hj => by
    have hbelow := h.below j hj
    unfold Kernel.argumentNode at hbelow
    exact Finset.mem_range.mpr (by omega)
  rwa [Finset.card_range] at hcard

end Nodes

/-- Entries `i` to `i + r` of `argv` point to NUL-terminated copies of the arguments from
`current` on, as they are in `k`: each to the first 511 characters at most. -/
def Copied (k k' : Kernel) (argv current i r : Nat) : Prop :=
  ∀ j < r, StringAt k'.mem (readWord k'.mem (argv + 4 * (i + j)))
    (readString k.mem (k.argumentNode current j) (commandArgumentSize - 1))

section Loop

variable {process argv : Nat} {t : Task} {ptrs : List Nat}

theorem requestSize_argument : RequestSize commandArgumentSize := ⟨by decide, by decide⟩

/-- What one turn of the loop does once there is a buffer: the copy, and the entry. -/
structure CopiedOne (k₁ : Kernel) (argv i current str : Nat) (k₃ : Kernel) : Prop where
  only : OnlyMemory k₁ k₃
  copy : StringAt k₃.mem str (readString k₁.mem current (commandArgumentSize - 1))
  entry : readWord k₃.mem (argv + 4 * i) = str
  others : ∀ a, (a < str ∨ str + commandArgumentSize ≤ a) →
    (a < argv + 4 * i ∨ argv + 4 * (i + 1) ≤ a) → k₃.mem a = k₁.mem a

/-- The copy of one argument, into a buffer apart from its node. -/
theorem copyArgument_eq {current str : Nat} (k : Kernel)
    (hnode : current + 512 ≤ str ∨ str + commandArgumentSize ≤ current) :
    strncpyKernel str current (commandArgumentSize - 1) 0 k = .ok (⟨⟩, { k with
      mem := writeBytes k.mem str
        (readString k.mem current (commandArgumentSize - 1) ++ [0x00]) }) := by
  apply strncpyKernel_eq
  intro j hj
  simp only [commandArgumentSize] at hj hnode ⊢
  omega

theorem copyOne_returns {k₁ : Kernel} {current str i : Nat} (hstr : str < 0x100000000)
    (hnode : current + 512 ≤ str ∨ str + commandArgumentSize ≤ current)
    (hentry : argv + 4 * (i + 1) ≤ str ∨ str + commandArgumentSize ≤ argv + 4 * i) :
    Returns (do
      strncpyKernel str current (commandArgumentSize - 1) 0
      storeBytes (argv + 4 * i) (wordBytes str)) k₁
      fun _ k₃ => CopiedOne k₁ argv i current str k₃ := by
  have hlength := readString_length_le k₁.mem current (commandArgumentSize - 1)
  have hcopy := copyArgument_eq k₁ hnode
  simp only [commandArgumentSize] at hnode hentry hlength
  refine ⟨⟨⟩, _, (bind_of_ok hcopy).trans rfl, ⟨rfl, rfl⟩, ?_, readWord_wordBytes _ _ hstr, ?_⟩
  · have hread := readBytes_writeBytes k₁.mem str
      (readString k₁.mem current (commandArgumentSize - 1) ++ [0x00])
    rw [List.length_append] at hread
    have hstring : StringAt (writeBytes k₁.mem str
        (readString k₁.mem current (commandArgumentSize - 1) ++ [0x00])) str
        (readString k₁.mem current (commandArgumentSize - 1)) :=
      ⟨zero_not_mem_readString _ _ _, hread⟩
    refine hstring.congr fun j hj => ?_
    · refine (writeBytes_of_not_mem ?_).trans rfl
      simp only [commandArgumentSize] at hj
      simp only [wordBytes, List.length_cons, List.length_nil]
      omega
  · intro a hout hout'
    refine (writeBytes_of_not_mem ?_).trans (writeBytes_of_not_mem ?_)
    · simp only [wordBytes, List.length_cons, List.length_nil]
      omega
    · simp only [commandArgumentSize] at hout ⊢
      rw [List.length_append, List.length_singleton]
      omega

/-- What was stored stays where the memory is not changed any more. -/
theorem CopiedOne.stays {k₁ k₃ k' : Kernel} {i current str : Nat}
    (h : CopiedOne k₁ argv i current str k₃)
    (hentry : ∀ o < 4, k'.mem (argv + 4 * i + o) = k₃.mem (argv + 4 * i + o))
    (hcopy : ∀ o < commandArgumentSize, k'.mem (str + o) = k₃.mem (str + o)) :
    StringAt k'.mem (readWord k'.mem (argv + 4 * i))
      (readString k₁.mem current (commandArgumentSize - 1)) := by
  rw [readWord_congr hentry, h.entry]
  refine h.copy.congr fun o ho => hcopy o ?_
  have hlength := readString_length_le k₁.mem current (commandArgumentSize - 1)
  simp only [commandArgumentSize] at hlength ho ⊢
  omega

/-- Two ranges are apart when no byte of the one is in the other. -/
theorem ranges_apart {p n q l : Nat} (hl : 0 < l) (hn : 0 < n)
    (h : ∀ a, p ≤ a → a < p + n → a < q ∨ q + l ≤ a) : p + n ≤ q ∨ q + l ≤ p := by
  by_contra hmeet
  have hfirst := h p le_rfl (by omega)
  have hmiddle := h q (by omega) (by omega)
  omega

theorem OnlyMemory.keeps {k k' : Kernel} (h : OnlyMemory k k') : Keeps [] k k' :=
  fun p _ hp _ => ⟨hp.congr h.2, congrFun h.1 p⟩

/-- The loop from node `current` on, for the entries from `i` on. Whenever it gets to the
end of the list, all arguments were copied and nothing else in use was changed. -/
theorem processInjectLoop_copies {fuel current i r : Nat} {k : Kernel} {pr : Process}
    {m : Nat → Nat} (h : ProcessAt process k pr t ptrs m) (hnodes : ArgumentNodes k current r)
    (hfuel : r < fuel)
    (harray : ∀ a, argv + 4 * i ≤ a → a < argv + 4 * (i + r) → k.InUse a)
    (hapart : ∀ j < r, ∀ o < 516, k.argumentNode current j + o < argv + 4 * i ∨
      argv + 4 * (i + r) ≤ k.argumentNode current j + o) :
    Returns (processInjectLoop process argv fuel current i) k fun complete k' =>
      (∃ pr' m', ProcessAt process k' pr' t ptrs m' ∧ pr'.arguments = pr.arguments) ∧
        (complete = true → Copied k k' argv current i r ∧ ∀ a, k.InUse a →
          (a < argv + 4 * i ∨ argv + 4 * (i + r) ≤ a) → k'.mem a = k.mem a) := by
  induction r generalizing fuel current i k pr m with
  | zero =>
    obtain ⟨fuel, rfl⟩ : ∃ n, fuel = n + 1 := Nat.exists_eq_add_of_le' hfuel
    obtain rfl : current = 0 := hnodes.length.stops
    exact .pure ⟨⟨pr, m, h, rfl⟩, fun _ =>
      ⟨fun j hj => absurd hj (Nat.not_lt_zero j), fun _ _ _ => rfl⟩⟩
  | succ r ih =>
    obtain ⟨fuel, rfl⟩ : ∃ n, fuel = n + 1 := Nat.exists_eq_add_of_le' (Nat.one_le_of_lt hfuel)
    unfold processInjectLoop
    rw [if_neg hnodes.next.1]
    refine .bind (processMalloc_either h requestSize_argument) ?_
    rintro str k₁ (⟨rfl, -, h₁⟩ | ⟨hne, -, index, m', -, hnew, h₁⟩)
    · rw [if_pos rfl]
      exact .pure ⟨⟨pr, m, h₁, rfl⟩, nofun⟩
    rw [if_neg hne, ← bind_assoc]
    -- the buffer is apart from the node and from the array
    have hfresh : ∀ a, k.InUse a → a < str ∨ str + commandArgumentSize ≤ a := fun a ha =>
      hnew.fresh requestSize_argument ha (.inr (by decide))
    have hstr : str < 0x100000000 := by
      obtain ⟨b, rfl, hall⟩ := hnew.block
      have hlt := hall.start_lt
      rw [Kernel.heap_total] at hlt
      unfold blockAddress
      omega
    have hnode : current + 512 ≤ str ∨ str + commandArgumentSize ≤ current := by
      refine ranges_apart (by decide) (by decide) fun a h₁ h₂ => hfresh a ?_
      have hin := hnodes.inUse 0 (Nat.succ_pos r) (a - current) (by omega)
      rwa [show k.argumentNode current 0 = current from rfl, Nat.add_sub_cancel' h₁] at hin
    have hentry : argv + 4 * i + 4 ≤ str ∨ str + commandArgumentSize ≤ argv + 4 * i :=
      ranges_apart (by decide) (by decide) fun a h₁ h₂ => hfresh a (harray a h₁ (by omega))
    refine .bind (copyOne_returns hstr hnode hentry) ?_
    intro _ k₃ hone
    have hinUse : ∀ a, k.InUse a → k₃.InUse a := fun a ha => (hnew.inUse ha).congr hone.only.2
    have hmem : ∀ a, k.InUse a → (a < argv + 4 * i ∨ argv + 4 * (i + 1) ≤ a) →
        k₃.mem a = k.mem a := fun a ha hout => (hone.others a (hfresh a ha) hout).trans
      (hnew.mem_eq requestSize_argument ha (.inr (by decide)))
    have hnodeMem : ∀ j < r + 1, ∀ o < 516, k₃.mem (k.argumentNode current j + o) =
        k.mem (k.argumentNode current j + o) := fun j hj o ho =>
      hmem _ (hnodes.inUse j hj o ho) (by have := hapart j hj o ho; omega)
    obtain ⟨hnodes₃, hsame⟩ := hnodes.congr hnodeMem hinUse
    refine .bind (R := fun next k' => k₃ = k' ∧ next = k₃.nextArgument current)
      (.reads ⟨rfl, rfl⟩) ?_
    rintro _ _ ⟨rfl, rfl⟩
    refine (ih (h₁.kept hone.only.keeps) hnodes₃.next.2 (Nat.lt_of_succ_lt_succ hfuel)
      (fun a h₁ h₂ => hinUse a (harray a (by omega) (by omega))) fun j hj o ho => ?_).mono ?_
    · have hout := hapart (j + 1) (Nat.succ_lt_succ hj) o ho
      rw [← hsame (j + 1) (Nat.succ_lt_succ hj)] at hout
      change k₃.argumentNode current (j + 1) + o < _ ∨ _ ≤ k₃.argumentNode current (j + 1) + o
      omega
    rintro complete k' ⟨hat, hcopies⟩
    refine ⟨hat, fun hcomplete => ?_⟩
    obtain ⟨hcopied, hframe⟩ := hcopies hcomplete
    have hstring : ∀ j < r + 1, readString k₃.mem (k₃.argumentNode current j)
        (commandArgumentSize - 1) = readString k.mem (k.argumentNode current j)
        (commandArgumentSize - 1) := by
      intro j hj
      rw [hsame j hj]
      exact readString_congr fun o ho => hnodeMem j hj o (by simp only [commandArgumentSize] at ho; omega)
    refine ⟨fun j hj => ?_, fun a ha hout => ?_⟩
    · cases j with
      | zero =>
        have hsource : readString k₁.mem current (commandArgumentSize - 1) =
            readString k.mem (k.argumentNode current 0) (commandArgumentSize - 1) :=
          readString_congr fun o ho => hnew.mem_eq requestSize_argument
            (hnodes.inUse 0 (Nat.succ_pos r) o (by simp only [commandArgumentSize] at ho; omega))
            (.inr (by decide))
        rw [← hsource, Nat.add_zero]
        refine hone.stays (fun o ho => ?_) fun o ho => ?_
        · exact hframe _ (hinUse _ (harray _ (by omega) (by omega))) (by omega)
        · refine hframe _ ((hnew.inUse_self requestSize_argument (Nat.le_add_right str o)
            (Nat.add_lt_add_left ho str)).congr hone.only.2) ?_
          by_contra harr
          have hout := hfresh (str + o) (harray _ (by omega) (by omega))
          omega
      | succ j =>
        have hj' := hcopied j (Nat.lt_of_succ_lt_succ hj)
        rw [← hstring (j + 1) hj]
        rwa [Nat.add_assoc, Nat.add_comm 1 j] at hj'
    · exact (hframe a (hinUse a ha) (by omega)).trans (hmem a ha (by omega))

end Loop

/-! ### The store through argv -/

/-- The loop of `process_inject_arguments`, that leaves before a store through NULL. -/
def processInjectLoopWatched (process argv : Nat) : (fuel current i : Nat) →
    Leaving PUnit Kernel Fault Bool
  | 0, _, _ => stays (fails .divergence)
  | fuel + 1, current, i =>
    if current = 0 then pure true
    else do
      let argument_str ← stays (processMalloc process commandArgumentSize)
      if argument_str = 0 then pure false
      else do
        stays (strncpyKernel argument_str current (commandArgumentSize - 1) 0)
        expects (fun _ => argv ≠ 0) ⟨⟩
        stays (storeBytes (argv + 4 * i) (wordBytes argument_str))
        let next ← stays (commandArgumentNext current)
        processInjectLoopWatched process argv fuel next (i + 1)

/-- `process_inject_arguments`. -/
def processInjectArgumentsWatched (process root_argument : Nat) :
    Leaving PUnit Kernel Fault Int := do
  let argc ← stays (processCountCommandArguments commandArgumentFuel root_argument)
  if argc = 0 then pure (- EIO)
  else do
    let argv ← stays (processMalloc process (u32 ((4 * argc : Nat) : Int)))
    let res := if argv = 0 then -ENOMEM else 0
    let complete ← processInjectLoopWatched process argv commandArgumentFuel root_argument 0
    if !complete then pure (res - ENOMEM)
    else do
      stays (modifyProcess process fun p => { p with arguments := ⟨i32 argc, argv⟩ })
      pure res

section Watched

variable {process argv fuel current i : Nat} {k : Kernel}

theorem processInjectLoopWatched_watches :
    Watches (processInjectLoopWatched process argv fuel current i)
      (processInjectLoop process argv fuel current i) := by
  induction fuel generalizing current i with
  | zero => exact .stays _
  | succ fuel ih =>
    unfold processInjectLoopWatched processInjectLoop
    refine .ite (.pure _) (.bind (.stays _) fun argument_str => .ite (.pure _) ?_)
    refine .bind (.stays _) fun _ => .expects ?_
    exact .bind (.stays _) fun _ => .bind (.stays _) fun next => ih

/-- Where it does not leave, it is the code. -/
theorem processInjectArgumentsWatched_watches (root_argument : Nat) :
    Watches (processInjectArgumentsWatched process root_argument)
      (processInjectArguments process root_argument) := by
  unfold processInjectArgumentsWatched processInjectArguments
  refine .bind (.stays _) fun argc => .ite (.pure _) (.bind (.stays _) fun argv => ?_)
  refine .bind processInjectLoopWatched_watches fun complete => .ite (.pure _) ?_
  exact .bind (.stays _) fun _ => .pure _

/-- With an array the loop never stores through NULL. -/
theorem processInjectLoopWatched_neverLeaves (hargv : argv ≠ 0) :
    NeverLeaves (processInjectLoopWatched process argv fuel current i) k := by
  induction fuel generalizing current i k with
  | zero => exact .stays _
  | succ fuel ih =>
    unfold processInjectLoopWatched
    split
    · exact .pure _
    refine .bind (.stays _) fun argument_str k₁ => ?_
    split
    · exact .pure _
    refine .bind (.stays _) fun _ k₂ => .bind (Ends.expects hargv trivial) fun _ k₃ => ?_
    exact .bind (.stays _) fun _ k₄ => .bind (.stays _) fun next k₅ => ih

/-- Without one it does so as soon as there is a first buffer. -/
theorem processInjectLoopWatched_null {process fuel root str : Nat} {k k₁ : Kernel}
    (hroot : root ≠ 0) (hnode : root + 512 ≤ str ∨ str + commandArgumentSize ≤ root)
    (hmalloc : processMalloc process commandArgumentSize k = .ok (str, k₁)) (hstr : str ≠ 0) :
    ¬ NeverLeaves (processInjectLoopWatched process 0 (fuel + 1) root i) k := by
  have hcopy := copyArgument_eq k₁ hnode
  intro h
  unfold processInjectLoopWatched at h
  rw [if_neg hroot] at h
  have h₁ := (Ends.stays_bind_of_ok hmalloc).mp h
  rw [if_neg hstr] at h₁
  have h₂ := (Ends.stays_bind_of_ok hcopy).mp h₁
  exact (Ends.expects_bind_of_neg (c := fun _ => (0 : Nat) ≠ 0) (fun hne => hne rfl)).mp h₂

end Watched

/-! ### process_inject_arguments -/

/-- What is expected of `process_inject_arguments`: status 0 and copies of all the
arguments, or a negative status and the arguments of the process as they were; in both
cases no store through a NULL `argv`. -/
structure InjectsArguments (k : Kernel) (process : Nat) (pr : Process) (root n : Nat) : Prop where
  result : Returns (processInjectArguments process root) k fun res k' => ∃ pr',
    k'.objs process = some (.process pr') ∧
      (res = 0 ∧ pr'.arguments.argc = n ∧ Copied k k' pr'.arguments.argv root 0 n ∨
        res < 0 ∧ pr'.arguments = pr.arguments)
  stores : NeverLeaves (processInjectArgumentsWatched process root) k

section Inject

variable {process root n : Nat} {k : Kernel} {pr : Process} {t : Task} {ptrs : List Nat}
  {m : Nat → Nat}

/-- With an array, whatever happens to the buffers. -/
theorem processInjectArguments_of_array {argv index : Nat} {k₁ : Kernel} {m₁ : Nat → Nat}
    (hnodes : ArgumentNodes k root n) (hn : 1 ≤ n)
    (hmalloc : processMalloc process (4 * n) k = .ok (argv, k₁)) (hargv : argv ≠ 0)
    (hnew : NewMemory k (4 * n) argv k₁)
    (h₁ : ProcessAt process k₁
      { pr with allocations := Function.update pr.allocations index ⟨argv, 4 * n⟩ } t ptrs m₁) :
    InjectsArguments k process pr root n := by
  have hle := hnodes.le
  have hsize : RequestSize (4 * n) := ⟨by omega, by omega⟩
  have hword : u32 ((4 * n : Nat) : Int) = 4 * n := u32_natCast (by omega)
  have hcount := processCountCommandArguments_of_length hnodes.length
    (show n < commandArgumentFuel by unfold commandArgumentFuel; omega)
  have hkept : ∀ j < n, ∀ o < 516, k₁.mem (k.argumentNode root j + o) =
      k.mem (k.argumentNode root j + o) := fun j hj o ho =>
    hnew.mem_eq hsize (hnodes.inUse j hj o ho) (.inl (by have := hnodes.below j hj; omega))
  obtain ⟨hnodes₁, hsame⟩ := hnodes.congr hkept fun a ha => hnew.inUse ha
  have hfuel : n < commandArgumentFuel := by
    unfold commandArgumentFuel
    omega
  constructor
  · refine .bind (R := fun argc k' => k = k' ∧ n = argc) ⟨_, _, hcount, rfl, rfl⟩ ?_
    rintro _ _ ⟨rfl, rfl⟩
    rw [if_neg (by omega), hword]
    refine .bind (R := fun ptr k' => k₁ = k' ∧ argv = ptr) ⟨_, _, hmalloc, rfl, rfl⟩ ?_
    rintro _ _ ⟨rfl, rfl⟩
    rw [if_neg hargv]
    refine .bind (processInjectLoop_copies h₁ hnodes₁ hfuel ?_ ?_) ?_
    · intro a ha₁ ha₂
      exact hnew.inUse_self hsize (by omega) (by omega)
    · intro j hj o ho
      rw [hsame j hj]
      have hbelow := hnodes.below j hj
      have hfresh := hnew.fresh hsize (hnodes.inUse j hj o ho) (.inl (by omega))
      omega
    rintro complete k₂ ⟨⟨pr₂, m₂, h₂, hargs⟩, hcopies⟩
    obtain ⟨l, hl⟩ := h₂.process_alive
    cases complete with
    | false =>
      exact .pure ⟨pr₂, h₂.process_eq, .inr ⟨show (0 : Int) - ENOMEM < 0 by decide, hargs⟩⟩
    | true =>
      refine .bind (modifyProcess_returns _ hl.ne_zero h₂.process_eq) ?_
      intro _ k₃ hst
      refine .pure ⟨_, hst.self, .inl ⟨rfl, i32_of_range (by omega) (by omega), fun j hj => ?_⟩⟩
      have hcopied := (hcopies rfl).1 j hj
      rw [← hst.mem, hsame j hj] at hcopied
      rwa [readString_congr fun o ho => hkept j hj o (by simp only [commandArgumentSize] at ho; omega)]
        at hcopied
  · unfold processInjectArgumentsWatched
    refine (Ends.stays_bind_of_ok hcount).mpr ?_
    rw [if_neg (by omega), hword]
    refine (Ends.stays_bind_of_ok hmalloc).mpr ?_
    refine NeverLeaves.bind (processInjectLoopWatched_neverLeaves hargv) fun complete k₂ => ?_
    split
    · exact .pure _
    · exact .bind (.stays _) fun _ _ => .pure _

/-- Without an array, when there is no memory or no slot for the first buffer either. -/
theorem processInjectArguments_of_failed {k₁ k₂ : Kernel} {m₁ : Nat → Nat}
    (hnodes : ArgumentNodes k root n) (hn : 1 ≤ n)
    (hmalloc : processMalloc process (4 * n) k = .ok (0, k₁))
    (hfirst : processMalloc process commandArgumentSize k₁ = .ok (0, k₂))
    (h₂ : ProcessAt process k₂ pr t ptrs m₁) : InjectsArguments k process pr root n := by
  have hle := hnodes.le
  have hword : u32 ((4 * n : Nat) : Int) = 4 * n := u32_natCast (by omega)
  have hcount := processCountCommandArguments_of_length hnodes.length
    (show n < commandArgumentFuel by unfold commandArgumentFuel; omega)
  obtain ⟨l, rfl⟩ : ∃ l, n = l + 1 := Nat.exists_eq_add_of_le' hn
  have hroot := hnodes.next.1
  constructor
  · refine .bind (R := fun argc k' => k = k' ∧ l + 1 = argc) ⟨_, _, hcount, rfl, rfl⟩ ?_
    rintro _ _ ⟨rfl, rfl⟩
    rw [if_neg (Nat.succ_ne_zero l), hword]
    refine .bind (R := fun ptr k' => k₁ = k' ∧ 0 = ptr) ⟨_, _, hmalloc, rfl, rfl⟩ ?_
    rintro _ _ ⟨rfl, rfl⟩
    have hloop : processInjectLoop process 0 commandArgumentFuel root 0 k₁ = .ok (false, k₂) :=
      (congrFun (if_neg hroot) k₁).trans ((bind_of_ok hfirst).trans rfl)
    refine .bind (R := fun complete k' => k₂ = k' ∧ complete = false) ⟨_, _, hloop, rfl, rfl⟩ ?_
    rintro _ _ ⟨rfl, rfl⟩
    exact .pure ⟨pr, h₂.process_eq, .inr ⟨show -ENOMEM - ENOMEM < 0 by decide, rfl⟩⟩
  · unfold processInjectArgumentsWatched
    refine (Ends.stays_bind_of_ok hcount).mpr ?_
    rw [if_neg (Nat.succ_ne_zero l), hword]
    refine (Ends.stays_bind_of_ok hmalloc).mpr ?_
    have hloop : NeverLeaves (processInjectLoopWatched process 0 commandArgumentFuel root 0) k₁ := by
      unfold commandArgumentFuel processInjectLoopWatched
      rw [if_neg hroot]
      exact (Ends.stays_bind_of_ok hfirst).mpr (.pure trivial)
    refine NeverLeaves.bind hloop fun complete k₂ => ?_
    split
    · exact .pure _
    · exact .bind (.stays _) fun _ _ => .pure _

/-- Without an array, when there is a first buffer: the store through NULL. -/
theorem processInjectArguments_stores_null {str : Nat} {k₁ : Kernel}
    (hnodes : ArgumentNodes k root n) (hn : 1 ≤ n) (hno : k.NoRoom (4 * n))
    (hfirst : processMalloc process commandArgumentSize k = .ok (str, k₁)) (hstr : str ≠ 0)
    (hnew : NewMemory k commandArgumentSize str k₁) :
    ¬ NeverLeaves (processInjectArgumentsWatched process root) k := by
  have hle := hnodes.le
  have hword : u32 ((4 * n : Nat) : Int) = 4 * n := u32_natCast (by omega)
  have hcount := processCountCommandArguments_of_length hnodes.length
    (show n < commandArgumentFuel by unfold commandArgumentFuel; omega)
  have hmalloc : processMalloc process (4 * n) k = .ok (0, k) := bind_of_ok (kzalloc_of_noRoom hno)
  have hnode : root + 512 ≤ str ∨ str + commandArgumentSize ≤ root :=
    ranges_apart (by decide) (by decide) fun a h₁ h₂ => by
      have hin := hnodes.inUse 0 hn (a - root) (by omega)
      rw [show k.argumentNode root 0 = root from rfl, Nat.add_sub_cancel' h₁] at hin
      exact hnew.fresh requestSize_argument hin (.inr (by decide))
  obtain ⟨l, rfl⟩ : ∃ l, n = l + 1 := Nat.exists_eq_add_of_le' hn
  intro h
  unfold processInjectArgumentsWatched at h
  have h₁ := (Ends.stays_bind_of_ok hcount).mp h
  rw [if_neg (Nat.succ_ne_zero l), hword] at h₁
  have h₂ := (Ends.stays_bind_of_ok hmalloc).mp h₁
  exact processInjectLoopWatched_null hnodes.next.1 hnode hfirst hstr h₂.left

/-- There is a first buffer but no array. -/
theorem not_injectsArguments {index : Nat} (h : ProcessAt process k pr t ptrs m)
    (hnodes : ArgumentNodes k root n) (hn : 1 ≤ n) (hno : k.NoRoom (4 * n))
    (hroom : ¬ k.NoRoom commandArgumentSize)
    (hslot : processFindFreeAllocationIndex pr.allocations = some index) :
    ¬ InjectsArguments k process pr root n := by
  obtain ⟨str, k₁, hfirst, hcase⟩ := processMalloc_either h requestSize_argument
  rcases hcase with ⟨-, ⟨hno₁, -⟩ | hnone, -⟩ | ⟨hne, -, _, _, -, hnew, -⟩
  · exact absurd hno₁ hroom
  · exact nomatch hslot.symm.trans hnone
  · exact fun hinj =>
      processInjectArguments_stores_null hnodes hn hno hfirst hne hnew hinj.stores

/-- For every process and every list of one argument or more, whatever is free in the heap
and in the process: the arguments are copied, or the failure leaves the process's arguments
alone, and nothing is stored through NULL, exactly when the request for the array does not
fail alone: where the heap has no room for it, it has none for a buffer or the process has
no slot. -/
theorem processInjectArguments_copies_iff (h : ProcessAt process k pr t ptrs m)
    (hnodes : ArgumentNodes k root n) (hn : 1 ≤ n) :
    InjectsArguments k process pr root n ↔ (k.NoRoom (4 * n) → k.NoRoom commandArgumentSize ∨
      processFindFreeAllocationIndex pr.allocations = none) := by
  have hle := hnodes.le
  have hsize : RequestSize (4 * n) := ⟨by omega, by omega⟩
  obtain ⟨argv, k₁, hmalloc, hcase⟩ := processMalloc_either h hsize
  rcases hcase with ⟨rfl, hwhy, h₁⟩ | ⟨hne, hroom, index, m₁, -, hnew, h₁⟩
  · obtain ⟨str, k₂, hfirst, hcase⟩ := processMalloc_either h₁ requestSize_argument
    rcases hcase with ⟨rfl, hwhy₂, h₂⟩ | ⟨-, hroom, index, -, hslot, -, -⟩
    · refine iff_of_true (processInjectArguments_of_failed hnodes hn hmalloc hfirst h₂) fun _ => ?_
      rcases hwhy with ⟨-, rfl⟩ | hnone
      · exact hwhy₂.imp (fun hno => hno.1) id
      · exact .inr hnone
    · rcases hwhy with ⟨hno, rfl⟩ | hnone
      · refine iff_of_false (not_injectsArguments h hnodes hn hno hroom hslot) fun hcond => ?_
        rcases hcond hno with hno₂ | hnone
        · exact hroom hno₂
        · exact nomatch hslot.symm.trans hnone
      · exact nomatch hslot.symm.trans hnone
  · exact iff_of_true (processInjectArguments_of_array hnodes hn hmalloc hne hnew h₁)
      fun hno => absurd hno hroom

end Inject

/-! ### A heap with one free block -/

/-- A list of `n` nodes from `0x2000000` on, one in each kilobyte, with empty arguments. -/
def argumentMemory (n a : Nat) : UInt8 :=
  if 0x2000000 ≤ a ∧ (a - 0x2000000) / 0x400 + 1 < n ∧ 512 ≤ (a - 0x2000000) % 0x400 then
    (wordBytes (0x2000000 + 0x400 * ((a - 0x2000000) / 0x400 + 1))).getD
      ((a - 0x2000000) % 0x400 - 512) 0
  else 0

/-- The kernel with one process, such a list, and block 2056 of the heap free. -/
def Kernel.withArguments (n : Nat) : Kernel :=
  { Kernel.withTask (fun n => n * PAGING_PAGE_SIZE ||| userWriteable) with
    heap_entries := fun i => if i = 2056 then 0 else 0x41
    mem := argumentMemory n }

section WithArguments

variable {n : Nat}

theorem withArguments_isFree_iff {i : Int} :
    (Kernel.withArguments n).heap.table.IsFree i ↔ i = 2056 := by
  unfold HeapTable.IsFree
  rw [Kernel.heap_entries_eq]
  by_cases hi : i = 2056
  · exact iff_of_true (congrArg heapGetEntryType (if_pos hi)) hi
  · refine iff_of_false (fun hfree => ?_) hi
    have htaken : heapGetEntryType 0x41 = HEAP_BLOCK_TABLE_ENTRY_FREE :=
      (congrArg heapGetEntryType (if_neg hi)).symm.trans hfree
    exact absurd htaken (by decide)

theorem withArguments_alive {b : Nat} (hb : b < 2056) :
    (Kernel.withArguments n).Alive (blockAddress b) 1 := by
  refine ⟨b, rfl, Nat.zero_lt_one, by omega, fun j hj => ?_⟩
  obtain rfl : j = 0 := by omega
  have hentry : ∀ i : Int, i ≠ 2056 → (Kernel.withArguments n).heap_entries i = 0x41 :=
    fun _ hi => if_neg hi
  rw [Kernel.heap_entries_eq, hentry _ (by omega)]
  decide

theorem withArguments_objs : (Kernel.withArguments n).objs =
    (Kernel.withTask fun n => n * PAGING_PAGE_SIZE ||| userWriteable).objs := rfl

theorem withArguments_processAt : ProcessAt (blockAddress 2053) (Kernel.withArguments n)
    Process.ofFirst ⟨blockAddress 1, Registers.zero, blockAddress 2053, 0, 0⟩
    ((List.range' 1 1026).map blockAddress) fun n => n * PAGING_PAGE_SIZE ||| userWriteable where
  process_eq := by
    rw [withArguments_objs, withTask_objs, if_neg (by decide), if_neg (by decide),
      if_neg (by decide), if_pos rfl]
  process_alive := ⟨1, withArguments_alive (by decide)⟩
  task_eq := by
    change (Kernel.withArguments n).objs (blockAddress 0) = _
    rw [withArguments_objs, withTask_objs, if_pos rfl]
  task_alive := withArguments_alive (by decide)
  space := by
    refine .of_blocks (by decide) (fun b _ hb => withArguments_alive (by omega)) fun b h₀ hb => ?_
    rw [withArguments_objs, withTask_objs, if_neg (by omega), if_pos (by omega)]

theorem withArguments_next {j : Nat} (hj : j < n) (hn : n ≤ 0x1000) :
    (Kernel.withArguments n).nextArgument (0x2000000 + 0x400 * j) =
      if j + 1 < n then 0x2000000 + 0x400 * (j + 1) else 0 := by
  have hbyte : ∀ o < 4, argumentMemory n (0x2000000 + 0x400 * j + 512 + o) =
      if j + 1 < n then (wordBytes (0x2000000 + 0x400 * (j + 1))).getD o 0 else 0 := by
    intro o ho
    unfold argumentMemory
    rw [show (0x2000000 + 0x400 * j + 512 + o - 0x2000000) / 0x400 = j by omega,
      show (0x2000000 + 0x400 * j + 512 + o - 0x2000000) % 0x400 = 512 + o by omega]
    by_cases hlast : j + 1 < n
    · rw [if_pos ⟨by omega, hlast, by omega⟩, if_pos hlast, Nat.add_sub_cancel_left]
    · rw [if_neg fun h => hlast h.2.1, if_neg hlast]
  have hmem : (Kernel.withArguments n).mem = argumentMemory n := rfl
  unfold Kernel.nextArgument commandArgumentSize
  rw [u32_natCast (by omega), hmem]
  by_cases hlast : j + 1 < n
  · rw [if_pos hlast, ← readWord_wordBytes (w := 0x2000000 + 0x400 * (j + 1)) (argumentMemory n)
      (0x2000000 + 0x400 * j + 512) (by omega)]
    refine readWord_congr fun o ho => ?_
    rw [hbyte o ho, if_pos hlast]
    unfold writeBytes
    rw [if_pos ⟨by omega, by simp only [wordBytes, List.length_cons, List.length_nil]; omega⟩,
      Nat.add_sub_cancel_left]
  · rw [if_neg hlast, readWord_eq, hbyte 1 (by decide), hbyte 2 (by decide), hbyte 3 (by decide),
      show argumentMemory n (0x2000000 + 0x400 * j + 512) = _ from hbyte 0 (by decide)]
    simp only [if_neg hlast]
    rfl

theorem withArguments_node (hn : n ≤ 0x1000) : ∀ j < n,
    (Kernel.withArguments n).argumentNode 0x2000000 j = 0x2000000 + 0x400 * j
  | 0, _ => rfl
  | j + 1, hj => by
    have ih := withArguments_node hn j (by omega)
    unfold Kernel.argumentNode at ih ⊢
    rw [Function.iterate_succ_apply', ih, withArguments_next (by omega) hn, if_pos hj]

theorem withArguments_nodes (h₁ : 1 ≤ n) (hn : n ≤ 0x1000) :
    ArgumentNodes (Kernel.withArguments n) 0x2000000 n where
  length := by
    constructor
    · have hlast := withArguments_node hn (n - 1) (by omega)
      unfold Kernel.argumentNode at hlast
      rw [show n = n - 1 + 1 by omega, Function.iterate_succ_apply',
        show n - 1 + 1 = n by omega, hlast, withArguments_next (by omega) hn, if_neg (by omega)]
    · intro j hj
      have hnode := withArguments_node hn j hj
      unfold Kernel.argumentNode at hnode
      rw [hnode]
      omega
  below := by
    intro j hj
    rw [withArguments_node hn j hj]
    omega
  inUse := by
    intro j hj o ho b hb hfree
    have h2056 := withArguments_isFree_iff.mp hfree
    rw [withArguments_node hn j hj]
    unfold blockAddress
    omega

/-- In this heap there is room for one block and not for two. -/
theorem withArguments_room : ¬ (Kernel.withArguments n).NoRoom commandArgumentSize := by
  rintro ⟨-, hzero | hno⟩
  · exact absurd hzero (by decide)
  · refine hno ⟨2056, show 2056 + heapTotalBlocks commandArgumentSize ≤ 25600 by decide, fun j h₁ h₂ => withArguments_isFree_iff.mpr ?_⟩
    rw [show heapTotalBlocks commandArgumentSize = 1 by decide] at h₂
    omega

theorem withArguments_noRoom : (Kernel.withArguments n).NoRoom (4 * 1025) := by
  refine ⟨fun hlast => ?_, .inr ?_⟩
  · exact absurd (withArguments_isFree_iff.mp hlast.2)
      (show ¬ ((25600 : Nat) : Int) - 1 = 2056 by decide)
  · rintro ⟨b, -, hrun⟩
    rw [show heapTotalBlocks (4 * 1025) = 2 by decide] at hrun
    have h₁ := withArguments_isFree_iff.mp (hrun b le_rfl (by omega))
    have h₂ := withArguments_isFree_iff.mp (hrun (b + 1) (by omega) (by omega))
    omega

end WithArguments

/-- For one argument in this heap. -/
theorem processInjectArguments_copies_iff_one : InjectsArguments (Kernel.withArguments 1)
    (blockAddress 2053) Process.ofFirst 0x2000000 1 :=
  (processInjectArguments_copies_iff withArguments_processAt
    (withArguments_nodes (by decide) (by decide)) (by decide)).mpr fun hno => .inl hno

/-- For 1025 arguments the array needs two blocks, and the first buffer has one. -/
theorem processInjectArguments_one_block : ∃ (k : Kernel) (process : Nat) (pr : Process)
    (t : Task) (ptrs : List Nat) (m : Nat → Nat) (root : Nat),
    ProcessAt process k pr t ptrs m ∧ ArgumentNodes k root 1025 ∧
      ¬ InjectsArguments k process pr root 1025 := by
  have hnodes : ArgumentNodes (Kernel.withArguments 1025) 0x2000000 1025 :=
    withArguments_nodes (by decide) (by decide)
  have hslot : processFindFreeAllocationIndex Process.ofFirst.allocations = some 0 := by
    unfold processFindFreeAllocationIndex
    rw [List.find?_range_eq_some]
    exact ⟨rfl, List.mem_range.mpr (by decide), fun j hj => absurd hj (Nat.not_lt_zero j)⟩
  exact ⟨_, _, _, _, _, _, _, withArguments_processAt, hnodes, not_injectsArguments
    withArguments_processAt hnodes (by decide) withArguments_noRoom withArguments_room hslot⟩

end PlumOS
