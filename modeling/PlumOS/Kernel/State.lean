import Mathlib.Data.List.GetD
import Mathlib.Logic.Function.Basic
import PlumOS.Lib.StateExcept
import PlumOS.Memory.Heap

/-!
# The state of the kernel

Memory is kept in two layers. Structures that live in heap memory are objects,
found by the address of their first byte; everything else (file data, directory
records, strings, stacks) is bytes. An access through a pointer that is NULL, an
error code, released or of another type is a fault.

## Main definitions

- `Obj` — the structures that live in heap memory
- `Disk` — the disk, with the state of the FAT16 driver bound to it
- `Kernel`, `KM` — the kernel's state, and functions that run on it
-/

namespace PlumOS

open StateExcept

/-- `struct registers`. -/
structure Registers where
  edi : UInt32
  esi : UInt32
  ebp : UInt32
  ebx : UInt32
  edx : UInt32
  ecx : UInt32
  eax : UInt32
  ip : UInt32
  cs : UInt32
  flags : UInt32
  esp : UInt32
  ss : UInt32
  deriving DecidableEq

/-- `struct interrupt_frame`: what `pushad` and the processor push. -/
structure InterruptFrame where
  edi : UInt32
  esi : UInt32
  ebp : UInt32
  reserved : UInt32
  ebx : UInt32
  edx : UInt32
  ecx : UInt32
  eax : UInt32
  ip : UInt32
  cs : UInt32
  flags : UInt32
  esp : UInt32
  ss : UInt32
  deriving DecidableEq

def Registers.zero : Registers := ⟨0, 0, 0, 0, 0, 0, 0, 0, 0, 0, 0, 0⟩

/-- `struct task`. -/
structure Task where
  page_directory : Nat
  registers : Registers
  process : Nat
  next : Nat
  prev : Nat

def Task.zero : Task := ⟨0, Registers.zero, 0, 0, 0⟩

/-- `struct process_allocation`. -/
structure ProcessAllocation where
  ptr : Nat
  size : Nat

def PROCESS_FILETYPE_ELF : Nat := 0
def PROCESS_FILETYPE_BINARY : Nat := 1

/-- `struct keyboard_buffer`, a member of `struct process`. -/
structure KeyboardBuffer where
  buffer : Nat → UInt8
  tail : Int
  head : Int

/-- `struct process_arguments`. -/
structure ProcessArguments where
  argc : Int
  argv : Nat

/-- `struct process`. `ptr` is the union of `ptr` and `elf_file`. -/
structure Process where
  id : Nat
  filename : Nat → UInt8
  task : Nat
  allocations : Nat → ProcessAllocation
  filetype : Nat
  ptr : Nat
  stack : Nat
  size : Nat
  keyboard : KeyboardBuffer
  arguments : ProcessArguments

def Process.zero : Process :=
  ⟨0, fun _ => 0, 0, fun _ => ⟨0, 0⟩, 0, 0, 0, 0, ⟨fun _ => 0, 0, 0⟩, ⟨0, 0⟩⟩

/-- The member `elf_file` of the union. -/
def Process.elf_file (p : Process) : Nat := p.ptr

/-- `struct elf_file`. -/
structure ElfFile where
  elf_memory : Nat
  virtual_base_address : Nat
  virtual_end_address : Nat
  physical_base_address : Nat
  physical_end_address : Nat

def ElfFile.zero : ElfFile := ⟨0, 0, 0, 0, 0⟩

/-- `struct path_root`. -/
structure PathRoot where
  drive_no : Int
  first : Nat

/-- `struct path_part`. -/
structure PathPart where
  part : Nat
  next : Nat

/-- `struct file_descriptor`. -/
structure FileDescriptor where
  index : Int
  filesystem : Nat
  private_ : Nat
  disk : Nat
  deriving DecidableEq

/-- `struct fat_file_descriptor`. -/
structure FatFileDescriptor where
  item : Nat
  pos : Nat
  deriving DecidableEq

def FAT_ITEM_TYPE_DIRECTORY : Nat := 0
def FAT_ITEM_TYPE_FILE : Nat := 1

/-- `struct fat_item`. `item` is the union of `item` and `directory`. -/
structure FatItem where
  item : Nat
  type : Nat
  deriving DecidableEq

/-- The member `directory` of the union. -/
def FatItem.directory (f : FatItem) : Nat := f.item

/-- `struct fat_directory`. -/
structure FatDirectory where
  item : Nat
  total : Int
  sector_pos : Int
  end_sector_pos : Int

/-- A structure in heap memory. A page directory and a page table are both an
array of 1024 words. -/
inductive Obj
  | process (p : Process)
  | task (t : Task)
  | chunk (directory_entry : Nat)
  | words (entries : Nat → Nat)
  | elfFile (f : ElfFile)
  | pathRoot (r : PathRoot)
  | pathPart (p : PathPart)
  | fileDescriptor (d : FileDescriptor)
  | fatFileDescriptor (d : FatFileDescriptor)
  | fatItem (i : FatItem)
  | fatDirectory (d : FatDirectory)

namespace Obj

def process? : Obj → Option Process | process p => some p | _ => none
def task? : Obj → Option Task | task t => some t | _ => none
def chunk? : Obj → Option Nat | chunk d => some d | _ => none
def words? : Obj → Option (Nat → Nat) | words w => some w | _ => none
def elfFile? : Obj → Option ElfFile | elfFile f => some f | _ => none
def pathRoot? : Obj → Option PathRoot | pathRoot r => some r | _ => none
def pathPart? : Obj → Option PathPart | pathPart p => some p | _ => none
def fileDescriptor? : Obj → Option FileDescriptor | fileDescriptor d => some d | _ => none
def fatFileDescriptor? : Obj → Option FatFileDescriptor | fatFileDescriptor d => some d | _ => none
def fatItem? : Obj → Option FatItem | fatItem i => some i | _ => none
def fatDirectory? : Obj → Option FatDirectory | fatDirectory d => some d | _ => none

end Obj

/-- The fields of `struct fat_header` and `struct fat_header_extended` that the
driver reads. -/
structure FatHeader where
  sectors_per_cluster : Nat
  reserved_sectors : Nat
  fat_copies : Nat
  root_directory_entries : Nat
  sectors_per_fat : Nat
  signature : Nat

/-- `struct fat_private`. A stream is its position. -/
structure FatPrivate where
  header : FatHeader
  root_directory : FatDirectory
  cluster_read_stream : Int
  fat_read_stream : Int
  directory_stream : Int

/-- `struct disk`, with the bytes on it. `fs_private` is `none` when no filesystem
is bound to the disk. -/
structure Disk where
  sector_size : Int
  fs_private : Option FatPrivate
  image : Nat → UInt8

/-- The kernel's state. `heap_entries` are the bytes from
`kernel_heap_table.entries` on, before and after it. -/
structure Kernel where
  heap_entries : Int → UInt8
  mem : Nat → UInt8
  objs : Nat → Option Obj
  file_descriptors : Nat → Nat
  processes : Nat → Nat
  current_process : Nat
  task_head : Nat
  task_tail : Nat
  current_task : Nat
  kernel_chunk : Nat
  current_directory : Nat
  disk : Disk

/-- Functions of the kernel. -/
abbrev KM := StateT Kernel (Except Fault)

/-- The number of blocks of `kernel_heap`. -/
def kernelHeapBlocks : Nat := PLUMOS_HEAP_SIZE_BYTES / PLUMOS_HEAP_BLOCK_SIZE

/-- `kernel_heap`. -/
def Kernel.heap (k : Kernel) : Heap where
  table := { entries := k.heap_entries, total := kernelHeapBlocks, total_le := by decide }
  saddr := PLUMOS_HEAP_ADDRESS

@[simp] theorem Kernel.heap_saddr (k : Kernel) : k.heap.saddr = 0x1000000 := rfl
@[simp] theorem Kernel.heap_total (k : Kernel) : k.heap.table.total = 25600 := rfl
@[simp] theorem Kernel.heap_entries_eq (k : Kernel) : k.heap.table.entries = k.heap_entries := rfl

/-- The kernel when the heap is set up and nothing is allocated. -/
def Kernel.boot (disk : Disk) : Kernel where
  heap_entries := fun _ => 0
  mem := fun _ => 0
  objs := fun _ => none
  file_descriptors := fun _ => 0
  processes := fun _ => 0
  current_process := 0
  task_head := 0
  task_tail := 0
  current_task := 0
  kernel_chunk := 0
  current_directory := 0
  disk := disk

/-- A disk of zeros that no filesystem is bound to. -/
def Disk.blank : Disk := ⟨512, none, fun _ => 0⟩

/-! ### Objects and bytes -/

/-- Read the structure at `p`. -/
def deref {α : Type} (sel : Obj → Option α) (p : Nat) : KM α := fun k =>
  if p = 0 then .error .badPointer
  else match (k.objs p).bind sel with
    | some a => .ok (a, k)
    | none => .error (pointerFault p)

/-- Put a structure at `p`. -/
def storeObj (p : Nat) (o : Obj) : KM PUnit :=
  modifies fun k => { k with objs := Function.update k.objs p (some o) }

def modifyTask (p : Nat) (f : Task → Task) : KM PUnit := do
  let t ← deref Obj.task? p
  storeObj p (.task (f t))

def modifyProcess (p : Nat) (f : Process → Process) : KM PUnit := do
  let t ← deref Obj.process? p
  storeObj p (.process (f t))

/-- The bytes of memory from `p` on. -/
def readBytes (mem : Nat → UInt8) (p n : Nat) : List UInt8 :=
  (List.range n).map fun i => mem (p + i)

@[simp] theorem readBytes_length (mem : Nat → UInt8) (p n : Nat) : (readBytes mem p n).length = n := by
  simp [readBytes]

theorem getElem_readBytes {mem : Nat → UInt8} {p n i : Nat} (h : i < (readBytes mem p n).length) :
    (readBytes mem p n)[i] = mem (p + i) := by
  simp [readBytes]

theorem readBytes_append (mem : Nat → UInt8) (p m n : Nat) :
    readBytes mem p (m + n) = readBytes mem p m ++ readBytes mem (p + m) n := by
  unfold readBytes
  rw [List.range_add, List.map_append, List.map_map]
  congr 1
  apply List.map_congr_left
  intro i _
  rw [Function.comp_apply, Nat.add_assoc]

theorem readBytes_congr {mem mem' : Nat → UInt8} {p q n : Nat}
    (h : ∀ i < n, mem (p + i) = mem' (q + i)) : readBytes mem p n = readBytes mem' q n :=
  List.map_congr_left fun i hi => h i (List.mem_range.mp hi)

theorem readBytes_inj {mem mem' : Nat → UInt8} {p q n : Nat} :
    readBytes mem p n = readBytes mem' q n ↔ ∀ i < n, mem (p + i) = mem' (q + i) := by
  unfold readBytes
  rw [List.map_inj_left]
  simp

/-- Memory with `bytes` written from `p` on. -/
def writeBytes (mem : Nat → UInt8) (p : Nat) (bytes : List UInt8) : Nat → UInt8 := fun a =>
  if p ≤ a ∧ a < p + bytes.length then bytes.getD (a - p) 0 else mem a

/-- Writing on behind the bytes just written. -/
theorem writeBytes_append (mem : Nat → UInt8) (p : Nat) (l l' : List UInt8) :
    writeBytes (writeBytes mem p l) (p + l.length) l' = writeBytes mem p (l ++ l') := by
  funext a
  unfold writeBytes
  simp only [List.length_append]
  by_cases h₂ : p + l.length ≤ a ∧ a < p + l.length + l'.length
  · rw [if_pos h₂, if_pos (by omega), List.getD_append_right _ _ _ _ (by omega),
      show a - (p + l.length) = a - p - l.length by omega]
  · rw [if_neg h₂]
    by_cases h₁ : p ≤ a ∧ a < p + l.length
    · rw [if_pos h₁, if_pos (by omega), List.getD_append _ _ _ _ (by omega)]
    · rw [if_neg h₁, if_neg (by omega)]

theorem writeBytes_of_not_mem {mem : Nat → UInt8} {p a : Nat} {l : List UInt8}
    (h : a < p ∨ p + l.length ≤ a) : writeBytes mem p l a = mem a :=
  if_neg (by omega)

theorem writeBytes_nil (mem : Nat → UInt8) (p : Nat) : writeBytes mem p [] = mem := by
  funext a
  exact if_neg (by simp)

/-- What was written can be read. -/
theorem readBytes_writeBytes (mem : Nat → UInt8) (p : Nat) (l : List UInt8) :
    readBytes (writeBytes mem p l) p l.length = l := by
  apply List.ext_getElem
  · simp
  · intro i hi hi'
    rw [getElem_readBytes]
    unfold writeBytes
    rw [if_pos (by omega), show p + i - p = i by omega, List.getD_eq_getElem _ _ hi']

theorem writeBytes_inj {mem : Nat → UInt8} {p : Nat} {l l' : List UInt8}
    (hlen : l.length = l'.length) : writeBytes mem p l = writeBytes mem p l' ↔ l = l' := by
  constructor
  · intro h
    rw [← readBytes_writeBytes mem p l, h, hlen, readBytes_writeBytes]
  · rintro rfl
    rfl

theorem readBytes_succ (mem : Nat → UInt8) (p n : Nat) :
    readBytes mem p (n + 1) = mem p :: readBytes mem (p + 1) n := by
  rw [Nat.add_comm n 1, readBytes_append]
  rfl

/-- Writing over the end of what was just written. -/
theorem writeBytes_overwrite (mem : Nat → UInt8) (p : Nat) (l l₁ l₂ : List UInt8)
    (h : l₁.length ≤ l₂.length) :
    writeBytes (writeBytes mem p (l ++ l₁)) (p + l.length) l₂ = writeBytes mem p (l ++ l₂) := by
  rw [← writeBytes_append mem p l l₁, ← writeBytes_append mem p l l₂]
  funext a
  unfold writeBytes
  split
  · rfl
  · rw [if_neg (by omega)]

/-- Writing over the start of what was just written. -/
theorem writeBytes_front (mem : Nat → UInt8) (p : Nat) (l l' : List UInt8)
    (h : l'.length ≤ l.length) :
    writeBytes (writeBytes mem p l) p l' = writeBytes mem p (l' ++ l.drop l'.length) := by
  rw [← writeBytes_append]
  funext a
  unfold writeBytes
  rw [List.length_drop]
  by_cases hfront : p ≤ a ∧ a < p + l'.length
  · rw [if_pos hfront, if_neg (by omega), if_pos hfront]
  · rw [if_neg hfront, if_neg hfront]
    by_cases hin : p ≤ a ∧ a < p + l.length
    · rw [if_pos hin, if_pos (by omega), List.getD_eq_getElem?_getD, List.getD_eq_getElem?_getD,
        List.getElem?_drop]
      congr 2
      omega
    · rw [if_neg hin, if_neg (by omega)]

/-- Behind the `n` bytes at `p` the `m` bytes at `q` begin, or the other way round. -/
def Apart (p n q m : Nat) : Prop := p + n ≤ q ∨ q + m ≤ p

theorem readBytes_writeBytes_apart {mem : Nat → UInt8} {p n q : Nat} {l : List UInt8}
    (h : Apart p n q l.length) : readBytes (writeBytes mem q l) p n = readBytes mem p n := by
  apply readBytes_congr
  intro i hi
  apply writeBytes_of_not_mem
  rcases h with h | h <;> omega

/-- The string `s` is at `p`, with its NUL. -/
def StringAt (mem : Nat → UInt8) (p : Nat) (s : List UInt8) : Prop :=
  0 ∉ s ∧ readBytes mem p (s.length + 1) = s ++ [0]

/-- A string is determined by the bytes at its address. -/
theorem StringAt.unique {mem : Nat → UInt8} {p : Nat} {s s' : List UInt8} (h : StringAt mem p s)
    (h' : StringAt mem p s') : s = s' := by
  have key : ∀ {t t' : List UInt8}, StringAt mem p t → StringAt mem p t' →
      ¬ t.length < t'.length := by
    intro t t' ht ht' hlt
    have hnul : mem (p + t.length) = 0 := by
      have := congrArg (fun l => l[t.length]?) ht.2
      simpa [readBytes] using this
    have hchar : mem (p + t.length) = t'[t.length] := by
      have := congrArg (fun l => l[t.length]?) ht'.2
      simpa [readBytes, List.getElem?_append_left, hlt, Nat.lt_succ_of_lt hlt] using this
    exact ht'.1 (hnul ▸ hchar ▸ List.getElem_mem hlt)
  have hlen : s.length = s'.length := by
    have := key h h'
    have := key h' h
    omega
  have hbytes := h.2.symm.trans ((hlen ▸ h'.2 :))
  exact (List.append_inj hbytes hlen).1

section Strings

variable {mem : Nat → UInt8} {p : Nat}

theorem stringAt_nil : StringAt mem p [] ↔ mem p = 0 := by
  simp [StringAt, readBytes]

theorem stringAt_cons {c : UInt8} {s : List UInt8} :
    StringAt mem p (c :: s) ↔ c ≠ 0 ∧ mem p = c ∧ StringAt mem (p + 1) s := by
  unfold StringAt
  rw [List.length_cons, readBytes_succ, List.mem_cons, not_or, List.cons_append, List.cons.injEq,
    and_assoc, ne_comm]
  exact and_congr_right fun _ => and_left_comm

theorem StringAt.congr {mem' : Nat → UInt8} {s : List UInt8} (h : StringAt mem p s)
    (hmem : ∀ i < s.length + 1, mem' (p + i) = mem (p + i)) : StringAt mem' p s :=
  ⟨h.1, (readBytes_congr hmem).trans h.2⟩

/-- The end of a string is a string. -/
theorem StringAt.drop {l s : List UInt8} (h : StringAt mem p (l ++ s)) :
    StringAt mem (p + l.length) s := by
  induction l generalizing p with
  | nil => exact h
  | cons c l ih =>
    have htail := ih (stringAt_cons.mp h).2.2
    rwa [Nat.add_right_comm, Nat.add_assoc] at htail

theorem StringAt.get {l s : List UInt8} {c : UInt8} (h : StringAt mem p (l ++ c :: s)) :
    mem (p + l.length) = c ∧ c ≠ 0 := by
  have htail := stringAt_cons.mp h.drop
  exact ⟨htail.2.1, htail.1⟩

theorem StringAt.end {s : List UInt8} (h : StringAt mem p s) : mem (p + s.length) = 0 := by
  have hnil : StringAt mem p (s ++ []) := by rwa [List.append_nil]
  exact stringAt_nil.mp hnil.drop

/-- What was written with a NUL is a string. -/
theorem stringAt_writeBytes {s : List UInt8} (h : 0 ∉ s) (mem : Nat → UInt8) (p : Nat) :
    StringAt (writeBytes mem p (s ++ [0])) p s := by
  refine ⟨h, ?_⟩
  have hread := readBytes_writeBytes mem p (s ++ [0])
  rwa [List.length_append, List.length_singleton] at hread

end Strings

def storeBytes (p : Nat) (bytes : List UInt8) : KM PUnit :=
  modifies fun k => { k with mem := writeBytes k.mem p bytes }

/-- The half word at `p`. -/
def readHalf (mem : Nat → UInt8) (p : Nat) : Nat :=
  (mem p).toNat + 256 * (mem (p + 1)).toNat

/-- The word at `p`. -/
def readWord (mem : Nat → UInt8) (p : Nat) : Nat :=
  readHalf mem p + 0x10000 * readHalf mem (p + 2)

theorem readHalf_lt (mem : Nat → UInt8) (p : Nat) : readHalf mem p < 0x10000 := by
  unfold readHalf
  have := (mem p).toNat_lt
  have := (mem (p + 1)).toNat_lt
  omega

theorem readWord_lt (mem : Nat → UInt8) (p : Nat) : readWord mem p < 0x100000000 := by
  unfold readWord
  have := readHalf_lt mem p
  have := readHalf_lt mem (p + 2)
  omega

/-- The bytes of a word. -/
def wordBytes (w : Nat) : List UInt8 :=
  [UInt8.ofNat w, UInt8.ofNat (w / 0x100), UInt8.ofNat (w / 0x10000), UInt8.ofNat (w / 0x1000000)]

theorem readWord_eq (mem : Nat → UInt8) (a : Nat) : readWord mem a =
    (mem a).toNat + 0x100 * (mem (a + 1)).toNat + 0x10000 * (mem (a + 2)).toNat +
      0x1000000 * (mem (a + 3)).toNat := by
  unfold readWord readHalf
  rw [Nat.add_assoc a 2 1]
  omega

theorem readWord_congr {mem mem' : Nat → UInt8} {a : Nat}
    (h : ∀ o < 4, mem' (a + o) = mem (a + o)) : readWord mem' a = readWord mem a := by
  rw [readWord_eq, readWord_eq, h 1 (by decide), h 2 (by decide), h 3 (by decide),
    show mem' a = mem a from h 0 (by decide)]

/-- A word that was written can be read. -/
theorem readWord_wordBytes {w : Nat} (mem : Nat → UInt8) (a : Nat) (h : w < 0x100000000) :
    readWord (writeBytes mem a (wordBytes w)) a = w := by
  have hbyte : ∀ i < 4, writeBytes mem a (wordBytes w) (a + i) = (wordBytes w).getD i 0 := by
    intro i hi
    unfold writeBytes
    rw [if_pos ⟨by omega, by simp only [wordBytes, List.length_cons, List.length_nil]; omega⟩,
      show a + i - a = i by omega]
  rw [readWord_eq, hbyte 1 (by omega), hbyte 2 (by omega), hbyte 3 (by omega),
    show writeBytes mem a (wordBytes w) a = _ from hbyte 0 (by omega)]
  simp only [wordBytes, List.getD_cons_zero, List.getD_cons_succ, UInt8.toNat_ofNat']
  omega

/-- A store beside a word leaves it alone. -/
theorem readWord_writeBytes_of_disjoint {p a : Nat} {bytes : List UInt8} (mem : Nat → UInt8)
    (h : p + bytes.length ≤ a ∨ a + 4 ≤ p) :
    readWord (writeBytes mem p bytes) a = readWord mem a := by
  exact readWord_congr fun i hi => writeBytes_of_not_mem (by omega)

/-- Read something of the memory at `p`. -/
def derefMem {α : Type} (read : (Nat → UInt8) → Nat → α) (p : Nat) : KM α := fun k =>
  if p = 0 then .error .badPointer else .ok (read k.mem p, k)

theorem deref_eq_ok {α : Type} {sel : Obj → Option α} {p : Nat} {k k' : Kernel} {a : α} :
    deref sel p k = .ok (a, k') ↔ p ≠ 0 ∧ (k.objs p).bind sel = some a ∧ k = k' := by
  unfold deref
  split
  · next hp => simp [hp]
  · next hp =>
    cases h : (k.objs p).bind sel with
    | none => simp
    | some b => simp [hp]

theorem deref_ok {α : Type} {sel : Obj → Option α} {p : Nat} {k : Kernel} {o : Obj} {a : α}
    (hp : p ≠ 0) (ho : k.objs p = some o) (ha : sel o = some a) :
    deref sel p k = .ok (a, k) :=
  deref_eq_ok.mpr ⟨hp, by rw [ho]; exact ha, rfl⟩

theorem deref_returns {α : Type} {sel : Obj → Option α} {p : Nat} {k : Kernel} {o : Obj} {a : α}
    (hp : p ≠ 0) (ho : k.objs p = some o) (ha : sel o = some a) :
    Returns (deref sel p) k fun b k' => k = k' ∧ a = b :=
  ⟨a, k, deref_ok hp ho ha, rfl, rfl⟩

/-- A structure that was read is there, and nothing changed. -/
theorem deref_spec {α : Type} (sel : Obj → Option α) (p : Nat) (k : Kernel) :
    Ensures (deref sel p) k fun a k' => k = k' ∧ p ≠ 0 ∧ (k.objs p).bind sel = some a := by
  intro a k' hd
  obtain ⟨hp, hsel, rfl⟩ := deref_eq_ok.mp hd
  exact ⟨rfl, hp, hsel⟩

theorem derefMem_spec {α : Type} (read : (Nat → UInt8) → Nat → α) (p : Nat) (k : Kernel) :
    Ensures (derefMem read p) k fun a k' => k = k' ∧ p ≠ 0 ∧ a = read k.mem p := by
  intro a k' h
  unfold derefMem at h
  split at h
  · cases h
  · next hp =>
    cases h
    exact ⟨rfl, hp, rfl⟩

/-! ### Structures of one type -/

theorem bind_sel_eq_some {α : Type} {sel : Obj → Option α} {mk : α → Obj}
    (h : ∀ o a, sel o = some a ↔ o = mk a) {o : Option Obj} {a : α} :
    o.bind sel = some a ↔ o = some (mk a) := by
  cases o with
  | none => simp
  | some o => simp [h]

theorem Obj.process?_eq_some {o : Option Obj} {p : Process} :
    o.bind Obj.process? = some p ↔ o = some (.process p) :=
  bind_sel_eq_some fun o a => by cases o <;> simp [Obj.process?, eq_comm]

theorem Obj.task?_eq_some {o : Option Obj} {t : Task} :
    o.bind Obj.task? = some t ↔ o = some (.task t) :=
  bind_sel_eq_some fun o a => by cases o <;> simp [Obj.task?, eq_comm]

theorem Obj.chunk?_eq_some {o : Option Obj} {d : Nat} :
    o.bind Obj.chunk? = some d ↔ o = some (.chunk d) :=
  bind_sel_eq_some fun o a => by cases o <;> simp [Obj.chunk?, eq_comm]

theorem Obj.words?_eq_some {o : Option Obj} {w : Nat → Nat} :
    o.bind Obj.words? = some w ↔ o = some (.words w) :=
  bind_sel_eq_some fun o a => by cases o <;> simp [Obj.words?, eq_comm]

theorem Obj.elfFile?_eq_some {o : Option Obj} {f : ElfFile} :
    o.bind Obj.elfFile? = some f ↔ o = some (.elfFile f) :=
  bind_sel_eq_some fun o a => by cases o <;> simp [Obj.elfFile?, eq_comm]

theorem Obj.pathRoot?_eq_some {o : Option Obj} {r : PathRoot} :
    o.bind Obj.pathRoot? = some r ↔ o = some (.pathRoot r) :=
  bind_sel_eq_some fun o a => by cases o <;> simp [Obj.pathRoot?, eq_comm]

theorem Obj.pathPart?_eq_some {o : Option Obj} {p : PathPart} :
    o.bind Obj.pathPart? = some p ↔ o = some (.pathPart p) :=
  bind_sel_eq_some fun o a => by cases o <;> simp [Obj.pathPart?, eq_comm]

theorem Obj.fileDescriptor?_eq_some {o : Option Obj} {d : FileDescriptor} :
    o.bind Obj.fileDescriptor? = some d ↔ o = some (.fileDescriptor d) :=
  bind_sel_eq_some fun o a => by cases o <;> simp [Obj.fileDescriptor?, eq_comm]

theorem Obj.fatFileDescriptor?_eq_some {o : Option Obj} {d : FatFileDescriptor} :
    o.bind Obj.fatFileDescriptor? = some d ↔ o = some (.fatFileDescriptor d) :=
  bind_sel_eq_some fun o a => by cases o <;> simp [Obj.fatFileDescriptor?, eq_comm]

theorem Obj.fatItem?_eq_some {o : Option Obj} {i : FatItem} :
    o.bind Obj.fatItem? = some i ↔ o = some (.fatItem i) :=
  bind_sel_eq_some fun o a => by cases o <;> simp [Obj.fatItem?, eq_comm]

theorem Obj.fatDirectory?_eq_some {o : Option Obj} {d : FatDirectory} :
    o.bind Obj.fatDirectory? = some d ↔ o = some (.fatDirectory d) :=
  bind_sel_eq_some fun o a => by cases o <;> simp [Obj.fatDirectory?, eq_comm]

end PlumOS
