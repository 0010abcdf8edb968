import PlumOS.Kernel.Scribble

/-!
# Where command 8 stores

`isr80h_command8_get_program_arguments` takes a pointer from the stack of the task,
translates it through the page tables of the task, and stores `argc` and `argv` there.
What it reads and where it stores is said here by functions of the state before it, and
it is shown that it does this and no more.

## Main definitions

- `Kernel.userWord`, `Kernel.physicalAddress` — reading through page tables
- `Kernel.argumentsPointer`, `Layout.storeArguments` — where, and what

## Main results

- `isr80hCommand8GetProgramArguments_ends`, `isr80hCommand8GetProgramArguments_passes`
-/

namespace PlumOS

open StateExcept

/-! ### Reading through page tables -/

/-- The byte at `virt` in the address space of a page directory, if its page is present. -/
def Kernel.userByte (k : Kernel) (directory virt : Nat) : Option UInt8 := do
  let (entry, page) ← k.walk directory virt
  if isPresent entry && isPresent page then some (k.mem (pageMask page + virt % PAGING_PAGE_SIZE))
  else none

/-- The word at `virt`. -/
def Kernel.userWord (k : Kernel) (directory virt : Nat) : Option Nat := do
  let b0 ← k.userByte directory (u32 virt)
  let b1 ← k.userByte directory (u32 ((virt + 1 : Nat) : Int))
  let b2 ← k.userByte directory (u32 ((virt + 2 : Nat) : Int))
  let b3 ← k.userByte directory (u32 ((virt + 3 : Nat) : Int))
  some (b0.toNat + 0x100 * b1.toNat + 0x10000 * b2.toNat + 0x1000000 * b3.toNat)

/-- The physical address behind `virt`, whether its page is present or not. -/
def Kernel.physicalAddress (k : Kernel) (directory virt : Nat) : Option Nat := do
  let (_, page) ← k.walk directory virt
  some (pageMask page + virt % PAGING_PAGE_SIZE)

section Reads

variable {s : System}

theorem translate_spec (virt : Nat) (k : Kernel) :
    Ensures (translate virt) k fun phys k' => k = k' ∧
      phys.map k.mem = k.userByte k.current_directory virt := by
  intro phys k' h
  unfold translate at h
  unfold Kernel.userByte
  cases hw : k.walk k.current_directory virt with
  | none =>
    rw [hw] at h
    cases h
  | some p =>
    obtain ⟨entry, page⟩ := p
    rw [hw] at h
    cases h
    refine ⟨rfl, ?_⟩
    change Option.map k.mem (if _ then _ else _) = if _ then _ else _
    split
    · rfl
    · rfl

theorem translate_returns {virt : Nat} {k : Kernel} {c : UInt8}
    (h : k.userByte k.current_directory virt = some c) :
    Returns (translate virt) k fun phys k' => k = k' ∧ phys.map k.mem = some c := by
  have hw : ∃ p, k.walk k.current_directory virt = some p := by
    unfold Kernel.userByte at h
    rw [Option.bind_eq_bind, Option.bind_eq_some_iff] at h
    obtain ⟨p, hp, -⟩ := h
    exact ⟨p, hp⟩
  obtain ⟨⟨entry, page⟩, hp⟩ := hw
  have hr : ∃ phys, translate virt k = .ok (phys, k) := by
    unfold translate
    rw [hp]
    exact ⟨_, rfl⟩
  obtain ⟨phys, hphys⟩ := hr
  exact ⟨phys, k, hphys, rfl, (translate_spec virt k _ _ hphys).2.trans h⟩

theorem loadByte_ends (e : Entry) (virt : Nat) :
    Ends (loadByte e virt) s Resumes fun c s' => s = s' ∧
      s.kernel.userByte s.kernel.current_directory (u32 virt) = some c := by
  refine .bind (inKernel_looks_ends (translate_spec _ _)) ?_
  rintro phys _ ⟨rfl, hphys⟩
  cases phys with
  | none => exact pageFault_ends e
  | some phys => exact inKernel_looks_ends (.reads ⟨rfl, hphys.symm⟩)

theorem loadByte_passes {virt : Nat} {c : UInt8} (e : Entry)
    (h : s.kernel.userByte s.kernel.current_directory (u32 virt) = some c) :
    Passes (loadByte e virt) s fun a s' => s = s' ∧ a = c := by
  refine .bind (inKernel_looks_passes (translate_returns h)) ?_
  rintro phys _ ⟨rfl, hphys⟩
  cases phys with
  | none => cases hphys
  | some phys => exact inKernel_looks_passes (.reads ⟨rfl, Option.some.inj hphys⟩)

theorem userWord_eq_some {k : Kernel} {directory virt w : Nat} :
    k.userWord directory virt = some w ↔ ∃ b0 b1 b2 b3,
      k.userByte directory (u32 virt) = some b0 ∧
      k.userByte directory (u32 ((virt + 1 : Nat) : Int)) = some b1 ∧
      k.userByte directory (u32 ((virt + 2 : Nat) : Int)) = some b2 ∧
      k.userByte directory (u32 ((virt + 3 : Nat) : Int)) = some b3 ∧
      b0.toNat + 0x100 * b1.toNat + 0x10000 * b2.toNat + 0x1000000 * b3.toNat = w := by
  simp [Kernel.userWord, Option.bind_eq_some_iff]

theorem userWord_lt {k : Kernel} {directory virt w : Nat} (h : k.userWord directory virt = some w) :
    w < 0x100000000 := by
  obtain ⟨b0, b1, b2, b3, -, -, -, -, rfl⟩ := userWord_eq_some.mp h
  have := b0.toNat_lt
  have := b1.toNat_lt
  have := b2.toNat_lt
  have := b3.toNat_lt
  omega

theorem loadWord_ends (e : Entry) (virt : Nat) :
    Ends (loadWord e virt) s Resumes fun w s' => s = s' ∧
      s.kernel.userWord s.kernel.current_directory virt = some w := by
  refine .bind (loadByte_ends e _) ?_
  rintro b0 _ ⟨rfl, h0⟩
  refine .bind (loadByte_ends e _) ?_
  rintro b1 _ ⟨rfl, h1⟩
  refine .bind (loadByte_ends e _) ?_
  rintro b2 _ ⟨rfl, h2⟩
  refine .bind (loadByte_ends e _) ?_
  rintro b3 _ ⟨rfl, h3⟩
  exact .pure ⟨rfl, userWord_eq_some.mpr ⟨b0, b1, b2, b3, h0, h1, h2, h3, rfl⟩⟩

theorem loadWord_passes {virt w : Nat} (e : Entry)
    (h : s.kernel.userWord s.kernel.current_directory virt = some w) :
    Passes (loadWord e virt) s fun a s' => s = s' ∧ a = w := by
  obtain ⟨b0, b1, b2, b3, h0, h1, h2, h3, rfl⟩ := userWord_eq_some.mp h
  refine .bind (loadByte_passes e h0) ?_
  rintro _ _ ⟨rfl, rfl⟩
  refine .bind (loadByte_passes e h1) ?_
  rintro _ _ ⟨rfl, rfl⟩
  refine .bind (loadByte_passes e h2) ?_
  rintro _ _ ⟨rfl, rfl⟩
  refine .bind (loadByte_passes e h3) ?_
  rintro _ _ ⟨rfl, rfl⟩
  exact .pure ⟨rfl, rfl⟩

end Reads

/-! ### The pointer -/

theorem pagingSwitch_eq (chunk : Nat) (k : Kernel) :
    Ensures (pagingSwitch chunk) k fun _ k' => ∃ d, k.objs chunk = some (.chunk d) ∧
      k' = { k with current_directory := d } := by
  refine .bind (deref_spec _ _ _) ?_
  rintro d _ ⟨rfl, -, hd⟩
  exact .modifies ⟨d, Obj.chunk?_eq_some.mp hd, rfl⟩

theorem pagingSwitch_returns {chunk d : Nat} {k : Kernel} (h0 : chunk ≠ 0)
    (hd : k.objs chunk = some (.chunk d)) :
    Returns (pagingSwitch chunk) k fun _ k' => k' = { k with current_directory := d } := by
  refine .bind (deref_returns h0 hd rfl) ?_
  rintro _ _ ⟨rfl, rfl⟩
  exact .modifies rfl

theorem kernelPage_eq (k : Kernel) :
    Ensures kernelPage k fun _ k' => ∃ d, k' = { k with current_directory := d } := by
  refine .bind (reads_spec Kernel.kernel_chunk).ensures ?_
  rintro _ _ ⟨rfl, rfl⟩
  exact (pagingSwitch_eq _ _).mono fun _ _ ⟨d, _, hk'⟩ => ⟨d, hk'⟩

theorem kernelPage_returns {k : Kernel} {d : Nat} (h0 : k.kernel_chunk ≠ 0)
    (hd : k.objs k.kernel_chunk = some (.chunk d)) :
    Returns kernelPage k fun _ k' => k' = { k with current_directory := d } := by
  refine .bind (reads_spec Kernel.kernel_chunk) ?_
  rintro _ _ ⟨rfl, rfl⟩
  exact pagingSwitch_returns h0 hd

/-- The system with another page directory loaded. -/
def System.loaded (s : System) (directory : Nat) : System :=
  { s with kernel := { s.kernel with current_directory := directory } }

theorem taskPageTask_eq (task : Nat) (k : Kernel) :
    Ensures (taskPageTask task) k fun _ k' => ∃ t d, k.objs task = some (.task t) ∧
      k.objs t.page_directory = some (.chunk d) ∧ k' = { k with current_directory := d } := by
  refine .bind (deref_spec _ _ _) ?_
  rintro t _ ⟨rfl, -, ht⟩
  refine (pagingSwitch_eq _ _).mono ?_
  rintro _ _ ⟨d, hd, hk'⟩
  exact ⟨t, d, Obj.task?_eq_some.mp ht, hd, hk'⟩

/-- `task` is the task `t`, with the page directory at `d`. -/
structure Kernel.TaskSpace (k : Kernel) (task : Nat) (t : Task) (d : Nat) : Prop where
  task_ne_zero : task ≠ 0
  task : k.objs task = some (.task t)
  chunk_ne_zero : t.page_directory ≠ 0
  chunk : k.objs t.page_directory = some (.chunk d)

/-- The kernel's own page directory is at `kd`. -/
structure Kernel.KernelSpace (k : Kernel) (kd : Nat) : Prop where
  ne_zero : k.kernel_chunk ≠ 0
  chunk : k.objs k.kernel_chunk = some (.chunk kd)

section Pointer

variable {s : System}

theorem taskGetStackItem_ends (e : Entry) (task index : Nat) :
    Ends (taskGetStackItem e task index) s Resumes fun item s' => ∃ t d kd,
      s.kernel.objs task = some (.task t) ∧ s.kernel.objs t.page_directory = some (.chunk d) ∧
      s.kernel.userWord d (t.registers.esp.toNat + 4 * index) = some item ∧ s' = s.loaded kd := by
  refine .bind (inKernel_looks_ends (deref_spec _ _ _)) ?_
  rintro t _ ⟨rfl, -, ht⟩
  rw [Obj.task?_eq_some] at ht
  refine .bind (inKernel_ends (taskPageTask_eq _ _)) ?_
  rintro _ s₁ ⟨hs₁, t', d, ht', hd, hk₁⟩
  rw [ht] at ht'
  cases ht'
  rw [hk₁] at hs₁
  subst hs₁
  refine .bind (loadWord_ends e _) ?_
  rintro item _ ⟨rfl, hitem⟩
  refine .bind (inKernel_ends (kernelPage_eq _)) ?_
  rintro _ s₂ ⟨hs₂, kd, hk₂⟩
  rw [hk₂] at hs₂
  exact .pure ⟨t, d, kd, ht, hd, hitem, hs₂⟩

theorem taskGetStackItem_passes {task index item kd : Nat} {t : Task} {d : Nat} (e : Entry)
    (htask : s.kernel.TaskSpace task t d) (hkernel : s.kernel.KernelSpace kd)
    (hitem : s.kernel.userWord d (t.registers.esp.toNat + 4 * index) = some item) :
    Passes (taskGetStackItem e task index) s fun a s' => s' = s.loaded kd ∧ a = item := by
  refine .bind (inKernel_looks_passes (deref_returns htask.task_ne_zero htask.task rfl)) ?_
  rintro _ _ ⟨rfl, rfl⟩
  refine .bind (inKernel_passes (Q := fun _ k' => k' = { s.kernel with current_directory := d }) ?_) ?_
  · refine .bind (deref_returns htask.task_ne_zero htask.task rfl) ?_
    rintro _ _ ⟨rfl, rfl⟩
    exact pagingSwitch_returns htask.chunk_ne_zero htask.chunk
  rintro _ s₁ ⟨hs₁, hk₁⟩
  rw [hk₁] at hs₁
  subst hs₁
  refine .bind (loadWord_passes e hitem) ?_
  rintro _ _ ⟨rfl, rfl⟩
  refine .bind (inKernel_passes (kernelPage_returns hkernel.ne_zero hkernel.chunk)) ?_
  rintro _ s₂ ⟨hs₂, hk₂⟩
  rw [hk₂] at hs₂
  exact .pure ⟨hs₂, rfl⟩

end Pointer

/-! ### The address behind the pointer -/

/-- Rounding down to a page does not change the indexes. -/
theorem pagingGetIndexes_lower (virt : Nat) : pagingGetIndexes (pagingAlignToLowerPage virt) =
    (0, virt / (PAGING_TOTAL_ENTRIES_PER_TABLE * PAGING_PAGE_SIZE),
      virt % (PAGING_TOTAL_ENTRIES_PER_TABLE * PAGING_PAGE_SIZE) / PAGING_PAGE_SIZE) := by
  unfold pagingGetIndexes pagingAlignToLowerPage pagingIsAligned PAGING_PAGE_SIZE
    PAGING_TOTAL_ENTRIES_PER_TABLE
  rw [if_neg (by simp; omega)]
  ext
  · rfl
  · dsimp only
    omega
  · dsimp only
    omega

theorem physicalAddress_eq_some {k : Kernel} {directory virt a : Nat} :
    k.physicalAddress directory virt = some a ↔ ∃ dir table,
      k.objs directory = some (.words dir) ∧
      k.objs (pageMask (dir (virt / (PAGING_TOTAL_ENTRIES_PER_TABLE * PAGING_PAGE_SIZE)))) =
        some (.words table) ∧
      pageMask (table (virt % (PAGING_TOTAL_ENTRIES_PER_TABLE * PAGING_PAGE_SIZE) /
        PAGING_PAGE_SIZE)) + virt % PAGING_PAGE_SIZE = a := by
  unfold Kernel.physicalAddress Kernel.walk
  cases hdir : (k.objs directory).bind Obj.words? with
  | none =>
    refine ⟨nofun, ?_⟩
    rintro ⟨dir, table, h, -⟩
    rw [Obj.words?_eq_some.mpr h] at hdir
    cases hdir
  | some dir =>
    have hobj := Obj.words?_eq_some.mp hdir
    dsimp only
    cases htable : (k.objs (pageMask
        (dir (virt / (PAGING_TOTAL_ENTRIES_PER_TABLE * PAGING_PAGE_SIZE))))).bind Obj.words? with
    | none =>
      refine ⟨nofun, ?_⟩
      rintro ⟨dir', table, h, h', -⟩
      rw [hobj] at h
      cases h
      rw [Obj.words?_eq_some.mpr h'] at htable
      cases htable
    | some table =>
      have hobj' := Obj.words?_eq_some.mp htable
      constructor
      · rintro ⟨⟩
        exact ⟨dir, table, hobj, hobj', rfl⟩
      · rintro ⟨dir', table', h, h', rfl⟩
        rw [hobj] at h
        cases h
        rw [hobj'] at h'
        cases h'
        rfl

theorem pagingGetPhyiscalAddress_spec (directory virt : Nat) (k : Kernel) :
    Ensures (pagingGetPhyiscalAddress directory virt) k fun a k' => k = k' ∧
      k.physicalAddress directory virt = some a := by
  unfold pagingGetPhyiscalAddress pagingGet
  dsimp only
  rw [pagingGetIndexes_lower]
  refine .bind (R := fun entry k' => k = k' ∧ k.physicalAddress directory virt =
    some (pageMask entry + virt % PAGING_PAGE_SIZE)) ?_ ?_
  · refine .bind (deref_spec _ _ _) ?_
    rintro dir _ ⟨rfl, -, hdir⟩
    refine .bind (deref_spec _ _ _) ?_
    rintro table _ ⟨rfl, -, htable⟩
    refine .pure ⟨rfl, physicalAddress_eq_some.mpr ⟨dir, table, ?_, ?_, rfl⟩⟩
    · exact Obj.words?_eq_some.mp hdir
    · exact Obj.words?_eq_some.mp htable
  · rintro entry _ ⟨rfl, h⟩
    refine .pure ⟨rfl, h.trans ?_⟩
    unfold pagingAlignToLowerPage
    congr 2
    exact (Nat.sub_sub_self (Nat.mod_le _ _)).symm

theorem pagingGetPhyiscalAddress_returns {k : Kernel} {directory virt a : Nat} {w : Nat → Nat}
    (h0 : directory ≠ 0) (hw : k.objs directory = some (.words w))
    (htables : ∀ i < 1024, pageMask (w i) ≠ 0) (hlt : virt < 0x100000000)
    (h : k.physicalAddress directory virt = some a) :
    Returns (pagingGetPhyiscalAddress directory virt) k fun a' k' => k = k' ∧ a' = a := by
  obtain ⟨dir, table, hdir, htable, -⟩ := physicalAddress_eq_some.mp h
  rw [hw] at hdir
  cases hdir
  have hr : Returns (pagingGetPhyiscalAddress directory virt) k fun _ _ => True := by
    unfold pagingGetPhyiscalAddress pagingGet
    dsimp only
    rw [pagingGetIndexes_lower]
    refine .bind (R := fun _ _ => True) ?_ fun _ _ _ => .pure trivial
    refine .bind (deref_returns h0 hw rfl) ?_
    rintro _ _ ⟨rfl, rfl⟩
    refine .bind (deref_returns (htables _ ?_) htable rfl) ?_
    · change virt / (1024 * 4096) < 1024
      omega
    rintro _ _ ⟨rfl, rfl⟩
    exact .pure trivial
  refine (hr.and_ensures (pagingGetPhyiscalAddress_spec _ _ _)).mono ?_
  rintro a' _ ⟨-, rfl, ha'⟩
  exact ⟨rfl, Option.some.inj (ha'.symm.trans h)⟩

theorem taskVirtualAddressToPhysical_spec (task virt : Nat) (k : Kernel) :
    Ensures (taskVirtualAddressToPhysical task virt) k fun a k' => k = k' ∧
      ∃ t d, k.objs task = some (.task t) ∧ k.objs t.page_directory = some (.chunk d) ∧
        k.physicalAddress d virt = some a := by
  refine .bind (deref_spec _ _ _) ?_
  rintro t _ ⟨rfl, -, ht⟩
  refine .bind (deref_spec _ _ _) ?_
  rintro d _ ⟨rfl, -, hd⟩
  refine (pagingGetPhyiscalAddress_spec _ _ _).mono ?_
  rintro a _ ⟨rfl, ha⟩
  exact ⟨rfl, t, d, Obj.task?_eq_some.mp ht, Obj.chunk?_eq_some.mp hd, ha⟩

/-! ### The stores -/

/-- The pointer that `isr80h_command8_get_program_arguments` gets from the top of the
stack of the task that runs, translated. -/
def Kernel.argumentsPointer (k : Kernel) (esp : Nat) : Option Nat := do
  let t ← (k.objs k.current_task).bind Obj.task?
  let d ← (k.objs t.page_directory).bind Obj.chunk?
  let argument ← k.userWord d esp
  k.physicalAddress d argument

/-- `argc` and `argv` of the process that runs. -/
def Kernel.currentArguments (k : Kernel) : Option ProcessArguments := do
  let t ← (k.objs k.current_task).bind Obj.task?
  let p ← (k.objs t.process).bind Obj.process?
  some p.arguments

/-- The kernel when `argc` is stored at `p` and `argv` behind it. -/
def Layout.storeArguments (L : Layout) (k : Kernel) (p : Nat) (a : ProcessArguments) : Kernel :=
  L.store (L.store k p (wordBytes (u32 a.argc))) (p + 4) (wordBytes a.argv)

/-- The two stores at `p` overwrite no structure, no code and no stack. -/
def Layout.Admits (L : Layout) (k : Kernel) (p : Nat) : Prop :=
  L.forbids k p 4 = false ∧ L.forbids k (p + 4) 4 = false

theorem processGetArguments_spec (L : Layout) (process arguments : Nat) (k : Kernel) :
    Ensures (processGetArguments L process arguments) k fun _ k' => ∃ p,
      k.objs process = some (.process p) ∧ L.Admits k arguments ∧
      k' = L.storeArguments k arguments p.arguments := by
  refine .bind (deref_spec _ _ _) ?_
  rintro p _ ⟨rfl, -, hp⟩
  rw [Obj.process?_eq_some] at hp
  refine .bind (storeRaw_spec L _ _ _) ?_
  rintro _ _ ⟨rfl, hf⟩
  refine .bind (deref_spec _ _ _) ?_
  rintro p' _ ⟨rfl, -, hp'⟩
  obtain rfl : p = p' := by
    rw [Obj.process?_eq_some] at hp'
    cases hp.symm.trans hp'
    rfl
  refine (storeRaw_spec L _ _ _).mono ?_
  rintro _ _ ⟨rfl, hf'⟩
  exact ⟨p, hp, ⟨hf, hf'⟩, rfl⟩

theorem storeRaw_returns {L : Layout} {k : Kernel} {p : Nat} {bytes : List UInt8}
    (h : L.forbids k p bytes.length = false) :
    Returns (storeRaw L p bytes) k fun _ k' => k' = L.store k p bytes := by
  refine ⟨⟨⟩, _, ?_, rfl⟩
  unfold storeRaw
  rw [h]
  rfl

theorem processGetArguments_returns {L : Layout} {process arguments : Nat} {p : Process}
    {k : Kernel} (h0 : process ≠ 0) (hp : k.objs process = some (.process p))
    (h : L.Admits k arguments) :
    Returns (processGetArguments L process arguments) k fun _ k' =>
      k' = L.storeArguments k arguments p.arguments := by
  refine .bind (deref_returns h0 hp rfl) ?_
  rintro _ _ ⟨rfl, rfl⟩
  refine .bind (storeRaw_returns h.1) ?_
  rintro _ _ rfl
  refine .bind (deref_returns h0 (k := L.store k arguments _) hp rfl) ?_
  rintro _ _ ⟨rfl, rfl⟩
  exact storeRaw_returns h.2

/-! ### The command -/

section Command

variable {s : System}

theorem currentProcess_spec (k : Kernel) :
    Ensures currentProcess k fun process k' => k = k' ∧ ∃ t,
      k.objs k.current_task = some (.task t) ∧ process = t.process := by
  refine .bind (reads_spec Kernel.current_task).ensures ?_
  rintro _ _ ⟨rfl, rfl⟩
  refine .bind (deref_spec _ _ _) ?_
  rintro t _ ⟨rfl, -, ht⟩
  exact .pure ⟨rfl, t, Obj.task?_eq_some.mp ht, rfl⟩

theorem argumentsPointer_eq_some {k : Kernel} {esp p : Nat} :
    k.argumentsPointer esp = some p ↔ ∃ t d argument, k.objs k.current_task = some (.task t) ∧
      k.objs t.page_directory = some (.chunk d) ∧ k.userWord d esp = some argument ∧
      k.physicalAddress d argument = some p := by
  constructor
  · intro h
    obtain ⟨t, ht, h⟩ := Option.bind_eq_some_iff.mp h
    obtain ⟨d, hd, h⟩ := Option.bind_eq_some_iff.mp h
    obtain ⟨argument, harg, hp⟩ := Option.bind_eq_some_iff.mp h
    exact ⟨t, d, argument, Obj.task?_eq_some.mp ht, Obj.chunk?_eq_some.mp hd, harg, hp⟩
  · rintro ⟨t, d, argument, ht, hd, harg, hp⟩
    exact Option.bind_eq_some_iff.mpr ⟨t, Obj.task?_eq_some.mpr ht,
      Option.bind_eq_some_iff.mpr ⟨d, Obj.chunk?_eq_some.mpr hd,
        Option.bind_eq_some_iff.mpr ⟨argument, harg, hp⟩⟩⟩

theorem currentArguments_eq_some {k : Kernel} {a : ProcessArguments} :
    k.currentArguments = some a ↔ ∃ t p, k.objs k.current_task = some (.task t) ∧
      k.objs t.process = some (.process p) ∧ p.arguments = a := by
  constructor
  · intro h
    obtain ⟨t, ht, h⟩ := Option.bind_eq_some_iff.mp h
    obtain ⟨p, hp, ha⟩ := Option.bind_eq_some_iff.mp h
    exact ⟨t, p, Obj.task?_eq_some.mp ht, Obj.process?_eq_some.mp hp, Option.some.inj ha⟩
  · rintro ⟨t, p, ht, hp, rfl⟩
    exact Option.bind_eq_some_iff.mpr ⟨t, Obj.task?_eq_some.mpr ht,
      Option.bind_eq_some_iff.mpr ⟨p, Obj.process?_eq_some.mpr hp, rfl⟩⟩

/-- The command stores the arguments of the process at the translated pointer. -/
theorem isr80hCommand8GetProgramArguments_ends (L : Layout) (e : Entry) {t : Task}
    (ht : s.kernel.objs s.kernel.current_task = some (.task t)) :
    Ends (isr80hCommand8GetProgramArguments L e) s Resumes fun _ s' => ∃ p a kd,
      s.kernel.argumentsPointer t.registers.esp.toNat = some p ∧
      s.kernel.currentArguments = some a ∧ L.Admits s.kernel p ∧
      s'.kernel = L.storeArguments (s.loaded kd).kernel p a := by
  refine .bind (inKernel_looks_ends (currentProcess_spec _)) ?_
  rintro process _ ⟨rfl, t₁, ht₁, rfl⟩
  rw [ht] at ht₁
  cases ht₁
  refine .bind (R := fun argument s' => ∃ d kd, s.kernel.objs t.page_directory = some (.chunk d) ∧
    s.kernel.userWord d t.registers.esp.toNat = some argument ∧ s' = s.loaded kd) ?_ ?_
  · refine .bind (inKernel_looks_ends (.reads ⟨rfl, rfl⟩)) ?_
    rintro task _ ⟨rfl, rfl⟩
    refine (taskGetStackItem_ends e _ _).mono ?_
    rintro argument s' ⟨t₁, d, kd, ht₁, hd, harg, hs'⟩
    rw [ht] at ht₁
    cases ht₁
    exact ⟨d, kd, hd, harg, hs'⟩
  rintro argument _ ⟨d, kd, hd, harg, rfl⟩
  refine .bind (inKernel_looks_ends (.reads ⟨rfl, rfl⟩)) ?_
  rintro task _ ⟨rfl, rfl⟩
  refine .bind (inKernel_looks_ends (taskVirtualAddressToPhysical_spec _ _ _)) ?_
  rintro p _ ⟨rfl, t₁, d₁, ht₁, hd₁, hp⟩
  obtain rfl : t = t₁ := by
    cases ht.symm.trans ht₁
    rfl
  obtain rfl : d = d₁ := by
    cases hd.symm.trans hd₁
    rfl
  refine .bind (inKernel_ends (processGetArguments_spec _ _ _ _)) ?_
  rintro _ s' ⟨-, pr, hpr, hadmits, hk'⟩
  exact .pure ⟨p, pr.arguments, kd,
    argumentsPointer_eq_some.mpr ⟨t, d, argument, ht, hd, harg, hp⟩,
    currentArguments_eq_some.mpr ⟨t, pr, ht, hpr, rfl⟩, hadmits, hk'⟩

/-- The pointer is found, and what is done with it follows, with the kernel's page
directory loaded. -/
theorem argumentsPointer_passes {α : Type} {t : Task} {d kd p : Nat} {w : Nat → Nat}
    {f : Nat → Nat → HM α} {Q : α → System → Prop} (e : Entry)
    (htask : s.kernel.TaskSpace s.kernel.current_task t d) (hkernel : s.kernel.KernelSpace kd)
    (hd0 : d ≠ 0) (hw : s.kernel.objs d = some (.words w))
    (htables : ∀ i < 1024, pageMask (w i) ≠ 0)
    (hp : s.kernel.argumentsPointer t.registers.esp.toNat = some p)
    (hf : Passes (f t.process p) (s.loaded kd) Q) :
    Passes (do
      let process ← inKernel currentProcess
      let argument ← stackItem e 0
      let task ← inKernel taskCurrent
      let arguments ← inKernel (taskVirtualAddressToPhysical task argument)
      f process arguments) s Q := by
  obtain ⟨t₁, d₁, argument, ht₁, hd₁, harg, hphys⟩ := argumentsPointer_eq_some.mp hp
  obtain rfl : t = t₁ := by
    cases htask.task.symm.trans ht₁
    rfl
  obtain rfl : d = d₁ := by
    cases htask.chunk.symm.trans hd₁
    rfl
  refine .bind (R := fun process s' => s = s' ∧ process = t.process) ?_ ?_
  · refine inKernel_looks_passes (.bind (reads_spec Kernel.current_task) ?_)
    rintro _ _ ⟨rfl, rfl⟩
    refine .bind (deref_returns htask.task_ne_zero htask.task rfl) ?_
    rintro _ _ ⟨rfl, rfl⟩
    exact .pure ⟨rfl, rfl⟩
  rintro _ _ ⟨rfl, rfl⟩
  refine .bind (R := fun a s' => s' = s.loaded kd ∧ a = argument) ?_ ?_
  · refine .bind (inKernel_looks_passes (.reads ⟨rfl, rfl⟩)) ?_
    rintro task _ ⟨rfl, rfl⟩
    exact taskGetStackItem_passes e htask hkernel harg
  rintro _ _ ⟨rfl, rfl⟩
  refine .bind (inKernel_looks_passes (.reads ⟨rfl, rfl⟩)) ?_
  rintro task _ ⟨rfl, rfl⟩
  refine .bind (R := fun a s' => s.loaded kd = s' ∧ a = p) ?_ ?_
  · refine inKernel_looks_passes (.bind (deref_returns htask.task_ne_zero
      (k := (s.loaded kd).kernel) htask.task rfl) ?_)
    rintro _ _ ⟨rfl, rfl⟩
    refine .bind (deref_returns htask.chunk_ne_zero (k := (s.loaded kd).kernel) htask.chunk rfl) ?_
    rintro _ _ ⟨rfl, rfl⟩
    exact pagingGetPhyiscalAddress_returns hd0 hw htables (userWord_lt harg) hphys
  rintro _ _ ⟨rfl, rfl⟩
  exact hf

/-- It does so when the stores overwrite nothing the kernel needs. -/
theorem isr80hCommand8GetProgramArguments_passes {L : Layout} {t : Task} {d kd p : Nat}
    {a : ProcessArguments} {w : Nat → Nat} (e : Entry)
    (htask : s.kernel.TaskSpace s.kernel.current_task t d) (hkernel : s.kernel.KernelSpace kd)
    (hd0 : d ≠ 0) (hw : s.kernel.objs d = some (.words w))
    (htables : ∀ i < 1024, pageMask (w i) ≠ 0) (hprocess : t.process ≠ 0)
    (hp : s.kernel.argumentsPointer t.registers.esp.toNat = some p)
    (ha : s.kernel.currentArguments = some a) (hadmits : L.Admits s.kernel p) :
    Passes (isr80hCommand8GetProgramArguments L e) s fun _ s' =>
      s'.kernel = L.storeArguments (s.loaded kd).kernel p a := by
  obtain ⟨t₂, pr, ht₂, hpr, rfl⟩ := currentArguments_eq_some.mp ha
  obtain rfl : t = t₂ := by
    cases htask.task.symm.trans ht₂
    rfl
  refine argumentsPointer_passes e htask hkernel hd0 hw htables hp ?_
  refine .bind (inKernel_passes (processGetArguments_returns hprocess
    (k := (s.loaded kd).kernel) hpr hadmits)) ?_
  rintro _ s' ⟨-, hk'⟩
  exact .pure hk'

end Command

end PlumOS
