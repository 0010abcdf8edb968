import PlumOS.Idt.OwnDirectory

/-!
# Whose memory command 8 stores to

`isr80h_command8_get_program_arguments` translates the pointer it gets once, whatever the
permission bits of its page, and stores eight bytes from the physical address on. The
program sees eight bytes at its pointer. The two are the same bytes, and the program's own,
when the first and the last of them are on pages that it may write, these pages are
adjacent in physical memory, and nothing of the kernel and of another process is there.

## Main definitions

- `Kernel.writeableByte` — the byte that a program may write at an address
- `isr80hCommand8Stores` — the command up to its stores
- `StoresInOwnMemory` — what a caller expects of the stores
- `Layout.OwnArguments` — when this is so

## Main results

- `isr80hCommand8GetProgramArguments_eq`, `isr80hCommand8_stores_iff`
-/

namespace PlumOS

open StateExcept

/-! ### Who may write -/

/-- A program may write to a page with this entry. -/
def canWrite (entry : Nat) : Bool :=
  isPresent entry && entry &&& PAGING_IS_WRITEABLE != 0 && entry &&& PAGING_ACCESS_FROM_ALL != 0

/-- The physical address behind `virt`, if a program may write there: the entries of the
page directory and of the page table both permit it. -/
def Kernel.writeableByte (k : Kernel) (directory virt : Nat) : Option Nat := do
  let (entry, page) ← k.walk directory virt
  if canWrite entry && canWrite page then some (pageMask page + virt % PAGING_PAGE_SIZE)
  else none

def PLUMOS_HEAP_TABLE_ADDRESS : Nat := 0x7E00

/-- The byte at `a` is the kernel's: of its code, its stack, `current_task`, the table of
its heap or a structure, page tables among them. -/
def Layout.KernelByte (L : Layout) (k : Kernel) (a : Nat) : Prop :=
  L.reserved a ∨ (L.current_task ≤ a ∧ a < L.current_task + 4) ∨
    (PLUMOS_HEAP_TABLE_ADDRESS ≤ a ∧
      a < PLUMOS_HEAP_TABLE_ADDRESS + PLUMOS_HEAP_SIZE_BYTES / PLUMOS_HEAP_BLOCK_SIZE) ∨
    k.structureAt a

/-- The memory at `start` was allocated for the process: its stack, its program, or what
it asked for. -/
def Kernel.AllocatedFor (k : Kernel) (p : Process) (start : Nat) : Prop :=
  start = p.stack ∨ start = p.ptr ∨
    (∃ file, k.objs p.elf_file = some (.elfFile file) ∧ start = file.elf_memory) ∨
    ∃ i < PLUMOS_MAX_PROGRAM_ALLOCATIONS, start = (p.allocations i).ptr

/-- The byte at `a` is in the memory of a process other than `process`. -/
def Kernel.OthersByte (k : Kernel) (process a : Nat) : Prop :=
  ∃ q p start n, q ≠ process ∧ k.objs q = some (.process p) ∧ k.AllocatedFor p start ∧
    k.Alive start n ∧ start ≤ a ∧ a < start + n * PLUMOS_HEAP_BLOCK_SIZE

section Bytes

variable {k : Kernel} {directory virt a : Nat}

theorem canWrite_isPresent {entry : Nat} (h : canWrite entry = true) : isPresent entry = true := by
  unfold canWrite at h
  rw [Bool.and_eq_true, Bool.and_eq_true] at h
  exact h.1.1

theorem writeableByte_eq_some : k.writeableByte directory virt = some a ↔ ∃ entry page,
    k.walk directory virt = some (entry, page) ∧ canWrite entry = true ∧ canWrite page = true ∧
      pageMask page + virt % PAGING_PAGE_SIZE = a := by
  unfold Kernel.writeableByte
  cases k.walk directory virt with
  | none => simp
  | some p =>
    obtain ⟨entry, page⟩ := p
    simp [and_assoc]

/-- What a program may write to is behind the address. -/
theorem physicalAddress_of_writeable (h : k.writeableByte directory virt = some a) :
    k.physicalAddress directory virt = some a := by
  obtain ⟨entry, page, hw, -, -, rfl⟩ := writeableByte_eq_some.mp h
  unfold Kernel.physicalAddress
  rw [hw]
  rfl

/-- What it may write to, it may read. -/
theorem userByte_of_writeable (h : k.writeableByte directory virt = some a) :
    k.userByte directory virt = some (k.mem a) := by
  obtain ⟨entry, page, hw, he, hp, rfl⟩ := writeableByte_eq_some.mp h
  unfold Kernel.userByte
  rw [hw]
  change (if isPresent entry && isPresent page then _ else _) = _
  rw [canWrite_isPresent he, canWrite_isPresent hp]
  rfl

/-- The entries depend on the page only. -/
theorem walk_of_same_page {virt' : Nat} (h : virt / 4096 = virt' / 4096) :
    k.walk directory virt = k.walk directory virt' := by
  have hdir : virt / (PAGING_TOTAL_ENTRIES_PER_TABLE * PAGING_PAGE_SIZE) =
      virt' / (PAGING_TOTAL_ENTRIES_PER_TABLE * PAGING_PAGE_SIZE) := by
    unfold PAGING_TOTAL_ENTRIES_PER_TABLE PAGING_PAGE_SIZE
    omega
  have htable : virt % (PAGING_TOTAL_ENTRIES_PER_TABLE * PAGING_PAGE_SIZE) / PAGING_PAGE_SIZE =
      virt' % (PAGING_TOTAL_ENTRIES_PER_TABLE * PAGING_PAGE_SIZE) / PAGING_PAGE_SIZE := by
    unfold PAGING_TOTAL_ENTRIES_PER_TABLE PAGING_PAGE_SIZE
    omega
  unfold Kernel.walk
  rw [hdir, htable]

/-- On one page, physical addresses are as far apart as virtual ones. -/
theorem writeableByte_of_same_page {virt' a' : Nat} (h : k.writeableByte directory virt = some a)
    (hpage : virt' / 4096 = virt / 4096) (ha : a' + virt = a + virt') :
    k.writeableByte directory virt' = some a' := by
  obtain ⟨entry, page, hw, he, hp, rfl⟩ := writeableByte_eq_some.mp h
  refine writeableByte_eq_some.mpr ⟨entry, page, ?_, he, hp, ?_⟩
  · rw [walk_of_same_page hpage, hw]
  · unfold PAGING_PAGE_SIZE at ha ⊢
    omega

end Bytes

/-! ### The command up to its stores -/

/-- What `isr80h_command8_get_program_arguments` stores, and where. -/
def isr80hCommand8Stores (e : Entry) : HM (List (Nat × List UInt8)) := do
  let process ← inKernel currentProcess
  let argument ← stackItem e 0
  let task ← inKernel taskCurrent
  let arguments ← inKernel (taskVirtualAddressToPhysical task argument)
  let p ← inKernel (deref Obj.process? process)
  pure [(arguments, wordBytes (u32 p.arguments.argc)), (arguments + 4, wordBytes p.arguments.argv)]

/-- Stores, one behind the other. -/
def storeAll (L : Layout) : List (Nat × List UInt8) → KM PUnit
  | [] => pure ⟨⟩
  | (p, bytes) :: stores => do
    storeRaw L p bytes
    storeAll L stores

/-- Each byte that is stored, with its address. -/
def storedBytes (stores : List (Nat × List UInt8)) : List (Nat × UInt8) :=
  stores.flatMap fun (p, bytes) => bytes.zipIdx.map fun (c, i) => (p + i, c)

theorem processGetArguments_eq (L : Layout) (process arguments : Nat) :
    processGetArguments L process arguments = (do
      let p ← deref Obj.process? process
      storeAll L [(arguments, wordBytes (u32 p.arguments.argc)),
        (arguments + 4, wordBytes p.arguments.argv)]) := by
  funext k
  unfold processGetArguments
  cases hp : deref Obj.process? process k with
  | error f => rw [bind_of_error hp, bind_of_error hp]
  | ok r =>
    obtain ⟨p, k₁⟩ := r
    obtain ⟨rfl, h0, hobj⟩ := deref_spec _ _ _ _ _ hp
    rw [bind_of_ok hp, bind_of_ok hp]
    unfold storeAll
    cases hs : storeRaw L arguments (wordBytes (u32 p.arguments.argc)) k with
    | error f => rw [bind_of_error hs, bind_of_error hs]
    | ok r =>
      obtain ⟨_, k₂⟩ := r
      obtain ⟨rfl, -⟩ := storeRaw_spec L _ _ _ _ _ hs
      rw [bind_of_ok hs, bind_of_ok hs]
      -- the store leaves the structure of the process alone
      have hp' : deref Obj.process? process (L.store k arguments (wordBytes (u32 p.arguments.argc))) =
          .ok (p, L.store k arguments (wordBytes (u32 p.arguments.argc))) := by
        have hreturns : Returns (deref Obj.process? process)
            (L.store k arguments (wordBytes (u32 p.arguments.argc))) _ :=
          deref_returns h0 (Obj.process?_eq_some.mp hobj) rfl
        obtain ⟨_, _, hrun, rfl, rfl⟩ := hreturns
        exact hrun
      rw [bind_of_ok hp']
      unfold storeAll storeAll
      rw [bind_pure_unit]

private theorem inKernel_bind {α β : Type} (m : KM α) (f : α → KM β) :
    inKernel (m >>= f) = inKernel m >>= fun a => inKernel (f a) := by
  apply ExceptT.ext
  funext s
  rw [run_bind]
  unfold inKernel
  rw [run_stays, run_stays]
  unfold onKernel
  cases hm : m s.kernel with
  | error e => rw [bind_of_error hm]
  | ok r =>
    obtain ⟨a, k⟩ := r
    rw [bind_of_ok hm]
    rfl

/-- The command looks up what it stores, and stores it. -/
theorem isr80hCommand8GetProgramArguments_eq (L : Layout) (e : Entry) :
    isr80hCommand8GetProgramArguments L e = (do
      let stores ← isr80hCommand8Stores e
      inKernel (storeAll L stores)
      pure 0) := by
  unfold isr80hCommand8GetProgramArguments isr80hCommand8Stores
  simp only [processGetArguments_eq, inKernel_bind, bind_assoc, pure_bind]

/-! ### Where the stores land -/

/-- The task `t` of the process `p` runs, with the page directory at `d`; `argument` is on
top of its stack. -/
structure CallsCommand8 (k : Kernel) (t : Task) (d : Nat) (p : Process) (argument : Nat) :
    Prop where
  task : k.TaskSpace k.current_task t d
  task_lt : k.current_task < 0x100000000
  kernel : ∃ kd, k.KernelSpace kd
  directory_ne_zero : d ≠ 0
  directory : ∃ w, k.objs d = some (.words w) ∧ ∀ i < 1024, pageMask (w i) ≠ 0 ∧
    ∃ table, k.objs (pageMask (w i)) = some (.words table)
  process_ne_zero : t.process ≠ 0
  process : k.objs t.process = some (.process p)
  argument : k.userWord d t.registers.esp.toNat = some argument

/-- The bytes of `argc` and `argv`. -/
def argumentBytes (p : Process) : List UInt8 :=
  wordBytes (u32 p.arguments.argc) ++ wordBytes p.arguments.argv

/-- What is expected of the command: each byte it stores is the one that the program sees
there from `argument` on, may be written by the program, and is neither the kernel's nor
another process's; nothing else changes, and the program then sees `argc` and `argv`. -/
structure StoresInOwnMemory (L : Layout) (e : Entry) (s : System) (d process : Nat) (p : Process)
    (argument : Nat) : Prop where
  lands : ∀ stores s', (isr80hCommand8Stores e).run s = .ok (.ok stores, s') →
    ∀ i a c, (storedBytes stores)[i]? = some (a, c) →
      s.kernel.writeableByte d (u32 ((argument + i : Nat) : Int)) = some a ∧
      ¬ L.KernelByte s.kernel a ∧ ¬ s.kernel.OthersByte process a
  stores : Passes (isr80hCommand8GetProgramArguments L e) s fun _ s' =>
    s'.kernel.objs = s.kernel.objs ∧ s'.kernel.heap_entries = s.kernel.heap_entries ∧
    s'.kernel.current_task = s.kernel.current_task ∧
    (∀ a, s'.kernel.mem a ≠ s.kernel.mem a →
      ∃ i < 8, s.kernel.writeableByte d (u32 ((argument + i : Nat) : Int)) = some a) ∧
    ∀ i < 8, s'.kernel.userByte d (u32 ((argument + i : Nat) : Int)) = (argumentBytes p)[i]?

/-- The first and the last of the eight bytes are on pages that the program may write and
that are adjacent in physical memory; the kernel and other processes have nothing there. -/
structure Layout.OwnArguments (L : Layout) (k : Kernel) (d process argument : Nat) : Prop where
  adjacent : ∃ a, k.writeableByte d argument = some a ∧
    k.writeableByte d (u32 ((argument + 7 : Nat) : Int)) = some (a + 7)
  free : ∀ a, k.physicalAddress d argument = some a → ∀ i < 8,
    ¬ L.KernelByte k (a + i) ∧ ¬ k.OthersByte process (a + i)

section Command8

variable {s : System} {t : Task} {d : Nat} {p : Process} {argument : Nat}

/-- Each address is translated to some physical one. -/
theorem CallsCommand8.physicalAddress (h : CallsCommand8 s.kernel t d p argument) :
    ∃ a, s.kernel.physicalAddress d argument = some a := by
  obtain ⟨w, hw, htables⟩ := h.directory
  have hlt := userWord_lt h.argument
  obtain ⟨-, table, htable⟩ := htables
    (argument / (PAGING_TOTAL_ENTRIES_PER_TABLE * PAGING_PAGE_SIZE)) (by
      unfold PAGING_TOTAL_ENTRIES_PER_TABLE PAGING_PAGE_SIZE
      omega)
  exact ⟨_, physicalAddress_eq_some.mpr ⟨w, table, hw, htable, rfl⟩⟩

theorem CallsCommand8.argumentsPointer {a : Nat} (h : CallsCommand8 s.kernel t d p argument)
    (ha : s.kernel.physicalAddress d argument = some a) :
    s.kernel.argumentsPointer t.registers.esp.toNat = some a :=
  argumentsPointer_eq_some.mpr ⟨t, d, argument, h.task.task, h.task.chunk, h.argument, ha⟩

/-- The two stores are at the translated pointer. -/
theorem isr80hCommand8Stores_passes {a : Nat} (e : Entry)
    (h : CallsCommand8 s.kernel t d p argument)
    (ha : s.kernel.physicalAddress d argument = some a) :
    Passes (isr80hCommand8Stores e) s fun stores _ => stores =
      [(a, wordBytes (u32 p.arguments.argc)), (a + 4, wordBytes p.arguments.argv)] := by
  obtain ⟨kd, hkernel⟩ := h.kernel
  obtain ⟨w, hw, htables⟩ := h.directory
  refine argumentsPointer_passes e h.task hkernel h.directory_ne_zero hw
    (fun i hi => (htables i hi).1) (h.argumentsPointer ha) ?_
  refine .bind (inKernel_looks_passes (deref_returns h.process_ne_zero
    (k := (s.loaded kd).kernel) h.process rfl)) ?_
  rintro _ _ ⟨rfl, rfl⟩
  exact .pure rfl

/-- The bytes of the two stores follow one another. -/
theorem storedBytes_arguments (a : Nat) (p : Process) (i : Nat) :
    (storedBytes [(a, wordBytes (u32 p.arguments.argc)), (a + 4, wordBytes p.arguments.argv)])[i]? =
      (argumentBytes p)[i]?.map fun c => (a + i, c) := by
  unfold storedBytes argumentBytes wordBytes
  rcases i with _ | _ | _ | _ | _ | _ | _ | _ | i
  all_goals rfl

theorem argumentBytes_length (p : Process) : (argumentBytes p).length = 8 := rfl

/-- The bytes in between are on the page of the first or on that of the last. -/
theorem writeableByte_between {k : Kernel} {a : Nat} (hlt : argument < 0x100000000)
    (hfirst : k.writeableByte d argument = some a)
    (hlast : k.writeableByte d (u32 ((argument + 7 : Nat) : Int)) = some (a + 7)) {i : Nat}
    (hi : i < 8) : k.writeableByte d (u32 ((argument + i : Nat) : Int)) = some (a + i) := by
  have hu7 : u32 ((argument + 7 : Nat) : Int) = (argument + 7) % 0x100000000 := by
    unfold u32
    omega
  have hui : u32 ((argument + i : Nat) : Int) = (argument + i) % 0x100000000 := by
    unfold u32
    omega
  rw [hu7] at hlast
  rw [hui]
  by_cases hpage : argument % 4096 + i < 4096
  · exact writeableByte_of_same_page hfirst (by omega) (by omega)
  · exact writeableByte_of_same_page hlast (by omega) (by omega)

/-- Where nothing of the kernel is, the two stores do no harm. -/
theorem Layout.admits_of_free {L : Layout} {k : Kernel} {a : Nat}
    (h : ∀ i < 8, ¬ L.KernelByte k (a + i)) : L.Admits k a := by
  have hfree : ∀ j ≤ 4, L.forbids k (a + j) 4 = false := by
    intro j hj
    unfold Layout.forbids
    rw [List.any_eq_false]
    intro i hi
    rw [List.mem_range] at hi
    have hno := h (j + i) (by omega)
    unfold Layout.KernelByte at hno
    rw [← Nat.add_assoc] at hno
    push Not at hno
    rw [Bool.or_eq_true]
    rintro (hr | hs)
    · exact hno.1 hr
    · exact hno.2.2.2 hs
  exact ⟨hfree 0 (by omega), hfree 4 (by omega)⟩

/-- The stores at `a` leave `current_task` alone when its bytes are not among the eight. -/
theorem Layout.storeArguments_current_task {L : Layout} {k : Kernel} {a : Nat}
    {args : ProcessArguments} (hlt : k.current_task < 0x100000000)
    (h : ∀ i < 8, ¬ L.KernelByte k (a + i)) :
    (L.storeArguments k a args).current_task = k.current_task := by
  have haway : a + 8 ≤ L.current_task ∨ L.current_task + 4 ≤ a := by
    by_contra hno
    rcases Nat.le_total a L.current_task with hle | hle
    · have hin : ¬ L.KernelByte k L.current_task := by
        have := h (L.current_task - a) (by omega)
        rwa [Nat.add_sub_cancel' hle] at this
      exact hin (Or.inr (Or.inl ⟨by omega, by omega⟩))
    · exact h 0 (by omega) (Or.inr (Or.inl ⟨by omega, by omega⟩))
  have hfirst : (L.store k a (wordBytes (u32 args.argc))).current_task = k.current_task :=
    L.store_current_task hlt (by
      change a + 4 ≤ _ ∨ _
      omega)
  unfold Layout.storeArguments
  rw [L.store_current_task (by rwa [hfirst]) (by
    change a + 4 + 4 ≤ _ ∨ _
    omega), hfirst]

/-- The memory that the two stores leave. -/
theorem Layout.storeArguments_mem (L : Layout) (k : Kernel) (a : Nat) (p : Process) :
    (L.storeArguments k a p.arguments).mem = writeBytes k.mem a (argumentBytes p) :=
  writeBytes_append k.mem a (wordBytes (u32 p.arguments.argc)) (wordBytes p.arguments.argv)

end Command8

/-! ### Two pointers -/

/-- The process of the first of two programs, with two arguments. -/
def callerProcess : Process :=
  { Process.zero with task := 0x1500000, arguments := ⟨2, blockAddress 900⟩ }

/-- Its task, with the registers saved. -/
def callerTask : Task :=
  { programTask 1277 0x2500000 0 with registers := { Registers.zero with esp := 0x3feffc } }

/-- It calls command 8 with the pointer `argument`. Of the pages below 4 MB it may write the
one of its stack, and read all. -/
def System.callsCommand8 (argument : Nat) : System :=
  ⟨{ Kernel.twoPrograms with
      mem := writeBytes (fun _ => 0) 0x3feffc (wordBytes argument)
      objs := Function.update (Function.update Kernel.twoPrograms.objs 0x1500000
        (some (.task callerTask))) (blockAddress 1283)
        (some (.words fun i => i * PAGING_PAGE_SIZE ||| if i = 0x3fe then 7 else 5)) }, 0, 0, false⟩

theorem callsCommand8_objs (argument : Nat) {b : Nat} (h : b ≠ 1280) (h' : b ≠ 1283) :
    (System.callsCommand8 argument).kernel.objs (blockAddress b) =
      Kernel.twoPrograms.objs (blockAddress b) := by
  unfold System.callsCommand8
  dsimp only
  rw [Function.update_of_ne, Function.update_of_ne]
  · exact fun heq => h (blockAddress_inj.mp (heq.trans (show _ = blockAddress 1280 from rfl)))
  · exact fun heq => h' (blockAddress_inj.mp heq)

theorem callsCommand8_calls {argument : Nat}
    (harg : (System.callsCommand8 argument).kernel.userWord (blockAddress 1282) 0x3feffc =
      some argument) :
    CallsCommand8 (System.callsCommand8 argument).kernel callerTask (blockAddress 1282)
      callerProcess argument where
  task := ⟨Nat.succ_ne_zero _, rfl, by decide, (callsCommand8_objs argument (by decide) (by decide)).trans
    (twoPrograms_objs 1281)⟩
  task_lt := show 0x1500000 < 0x100000000 by decide
  kernel := ⟨blockAddress 1, Nat.succ_ne_zero _,
    (callsCommand8_objs argument (b := 0) (by decide) (by decide)).trans (twoPrograms_objs 0)⟩
  directory_ne_zero := by decide
  directory := by
    refine ⟨fun i => blockAddress (1283 + i) ||| 7,
      (callsCommand8_objs argument (by decide) (by decide)).trans (twoPrograms_objs 1282), ?_⟩
    intro i hi
    have hmask : pageMask (blockAddress (1283 + i) ||| 7) = blockAddress (1283 + i) := by
      refine pageMask_or_flags (blockAddress_aligned _) ?_ (by omega)
      unfold blockAddress
      omega
    dsimp only
    rw [hmask]
    refine ⟨by unfold blockAddress; omega, ?_⟩
    rcases Nat.eq_zero_or_pos i with rfl | hpos
    · refine ⟨fun i => i * PAGING_PAGE_SIZE ||| if i = 0x3fe then 7 else 5, ?_⟩
      unfold System.callsCommand8
      dsimp only
      rw [Nat.add_zero, Function.update_self]
    · refine ⟨fun j => (i * 1024 + j) * 4096 ||| 7, ?_⟩
      rw [callsCommand8_objs argument (by omega) (by omega), twoPrograms_objs,
        if_neg (by omega), if_pos (by omega)]
      exact programObjs_table (g := 1277) hi
  process_ne_zero := by decide
  process := (callsCommand8_objs argument (by decide) (by decide)).trans (twoPrograms_objs 1277)
  argument := harg

end PlumOS
