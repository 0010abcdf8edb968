import PlumOS.Isr80h.ProgramArguments
import PlumOS.Memory.SpaceRestore
import PlumOS.Task.ProcessMallocFail

/-!
# Copying a string from a task

`copy_string_from_task` maps a scratch block into the address space of the task, copies
the string there with the task's directory loaded, and puts the old entry back. When the
copy runs into a page that is not present, nothing behind it is run.

## Main definitions

- `StringFrom` — a string, cut off after a number of bytes
- `bytesPresent`, `Kernel.readsPresent` — the copy meets only pages that are present
- `SpacesKept` — what `copy_string_from_task` is to leave as it was

## Main results

- `strncpyLoop_ends`, `strncpyLoop_passes`
-/

namespace PlumOS

open StateExcept

/-! ### Addresses -/

/-- The address of `virt` under its entries in the page directory and the page table, if
both are present. -/
def presentAddress (entries : Option (Nat × Nat)) (virt : Nat) : Option Nat :=
  match entries with
  | none => none
  | some (entry, page) =>
    if isPresent entry && isPresent page then some (pageMask page + virt % PAGING_PAGE_SIZE)
    else none

theorem userByte_eq (k : Kernel) (directory virt : Nat) :
    k.userByte directory virt = (presentAddress (k.walk directory virt) virt).map k.mem := by
  unfold Kernel.userByte
  cases k.walk directory virt with
  | none => rfl
  | some p =>
    obtain ⟨entry, page⟩ := p
    change (if _ then _ else _) = Option.map k.mem (if _ then _ else _)
    split
    · rfl
    · rfl

/-- The entries for `virt` when the page at `tmp` is mapped to itself. -/
def Kernel.scratchWalk (k : Kernel) (directory tmp virt : Nat) : Option (Nat × Nat) :=
  (k.walk directory virt).map fun p =>
    (p.1, if virt / PAGING_PAGE_SIZE = tmp / PAGING_PAGE_SIZE then tmp ||| userWriteable else p.2)

/-- The address of byte `i` behind `virt`. -/
def Kernel.byteAddress (k : Kernel) (directory virt i : Nat) : Option Nat :=
  let a := u32 ((virt + i : Nat) : Int)
  presentAddress (k.walk directory a) a

/-- The same when the page at `tmp` is mapped to itself. -/
def Kernel.scratchAddress (k : Kernel) (directory tmp virt i : Nat) : Option Nat :=
  let a := u32 ((virt + i : Nat) : Int)
  presentAddress (k.scratchWalk directory tmp a) a

/-- Memory with the `max` bytes from `tmp` on cleared. -/
def Kernel.cleared (k : Kernel) (tmp max : Nat) : Nat → UInt8 := fun a =>
  if tmp ≤ a ∧ a < tmp + max then 0 else k.mem a

theorem scratchWalk_of_ne {k : Kernel} {directory tmp virt : Nat}
    (h : virt / PAGING_PAGE_SIZE ≠ tmp / PAGING_PAGE_SIZE) :
    k.scratchWalk directory tmp virt = k.walk directory virt := by
  unfold Kernel.scratchWalk
  simp only [if_neg h, Prod.mk.eta, Option.map_id']

/-! ### Strings -/

/-- `str` is the string of the bytes from `i` on, or its first `n` bytes if it is longer. -/
inductive StringFrom (byte : Nat → Option UInt8) : (i n : Nat) → List UInt8 → Prop
  | full {i : Nat} : StringFrom byte i 0 []
  | nul {i n : Nat} (h : byte i = some 0x00) : StringFrom byte i (n + 1) []
  | cons {i n : Nat} {c : UInt8} {str : List UInt8} (h : byte i = some c) (hc : c ≠ 0x00)
      (hrest : StringFrom byte (i + 1) n str) : StringFrom byte i (n + 1) (c :: str)

theorem StringFrom.congr {byte byte' : Nat → Option UInt8} {i n : Nat} {str : List UInt8}
    (h : StringFrom byte i n str) (heq : ∀ j, i ≤ j → j < i + n → byte j = byte' j) :
    StringFrom byte' i n str := by
  induction h with
  | full => exact .full
  | nul h => exact .nul ((heq _ le_rfl (by omega)).symm.trans h)
  | cons h hc _ ih =>
    refine .cons ((heq _ le_rfl (by omega)).symm.trans h) hc (ih fun j h₁ h₂ => ?_)
    exact heq j (by omega) (by omega)

/-- The bytes that `strncpy(tmp, virtual, max)` reads from byte `i` on are where `address`
says, and present; each is stored behind `tmp` before the next is read. -/
def bytesPresent (address : Nat → Option Nat) (tmp : Nat) :
    (fuel i : Nat) → (mem : Nat → UInt8) → Bool
  | 0, _, _ => true
  | fuel + 1, i, mem =>
    match address i with
    | none => false
    | some phys => mem phys == 0x00 ||
        bytesPresent address tmp fuel (i + 1) (writeBytes mem (tmp + i) [mem phys])

/-- Where the copy does not read what it writes, the bytes are present exactly when there is
a string. -/
theorem bytesPresent_iff {address : Nat → Option Nat} {tmp : Nat} :
    ∀ (fuel i : Nat) (mem : Nat → UInt8), i + fuel ≤ 4096 →
      (∀ j phys, j < i + fuel → address j = some phys → phys < tmp ∨ tmp + 4096 ≤ phys) →
      (bytesPresent address tmp fuel i mem = true ↔
        ∃ str, StringFrom (fun j => (address j).map mem) i fuel str) := by
  intro fuel
  induction fuel with
  | zero => exact fun i mem _ _ => iff_of_true rfl ⟨[], .full⟩
  | succ fuel ih =>
    intro i mem hle hapart
    unfold bytesPresent
    cases hphys : address i with
    | none =>
      refine iff_of_false Bool.false_ne_true ?_
      intro h
      obtain ⟨str, hstr⟩ := h
      cases hstr with
      | nul hnone => simp [hphys] at hnone
      | cons hnone => simp [hphys] at hnone
    | some phys =>
      have hbyte : (address i).map mem = some (mem phys) := by rw [hphys, Option.map_some]
      have hrest := ih (i + 1) (writeBytes mem (tmp + i) [mem phys]) (by omega)
        fun j p hj => hapart j p (by omega)
      have hsame : ∀ j, i + 1 ≤ j → j < i + 1 + fuel →
          (address j).map (writeBytes mem (tmp + i) [mem phys]) = (address j).map mem := by
        intro j _ hj
        cases hp : address j with
        | none => rfl
        | some p =>
          have := hapart j p (by omega) hp
          rw [Option.map_some, Option.map_some, writeBytes_of_not_mem]
          simp only [List.length_singleton]
          omega
      rw [Bool.or_eq_true_iff, hrest]
      constructor
      · rintro (hnul | ⟨str, hstr⟩)
        · exact ⟨[], .nul (by rw [hbyte, beq_iff_eq.mp hnul])⟩
        · by_cases hnul : mem phys = 0x00
          · exact ⟨[], .nul (by rw [hbyte, hnul])⟩
          · exact ⟨_, .cons hbyte hnul (hstr.congr hsame)⟩
      · intro h
        obtain ⟨str, hstr⟩ := h
        cases hstr with
        | nul hnul => exact Or.inl (beq_iff_eq.mpr (Option.some.inj (hbyte.symm.trans hnul)))
        | cons _ _ hstr => exact Or.inr ⟨_, hstr.congr fun j h₁ h₂ => (hsame j h₁ h₂).symm⟩

/-- What is read back of a string and the NUL behind it. -/
theorem readString_writeBytes {mem : Nat → UInt8} {p n : Nat} {str : List UInt8}
    (hlen : str.length ≤ n) (hstr : ∀ c ∈ str, c ≠ 0x00) :
    readString (writeBytes mem p (str ++ [0x00])) p n = str := by
  unfold readString
  obtain ⟨m, rfl⟩ := Nat.exists_eq_add_of_le hlen
  have hstored : readBytes (writeBytes mem p (str ++ [0x00])) p str.length = str := by
    rw [← writeBytes_append]
    refine (readBytes_congr fun i hi => ?_).trans (readBytes_writeBytes mem p str)
    exact writeBytes_of_not_mem (Or.inl (by omega))
  rw [readBytes_append, hstored, List.takeWhile_append_of_pos (by simpa using hstr)]
  cases m with
  | zero => simp [readBytes]
  | succ m =>
    have hnul : writeBytes mem p (str ++ [0x00]) (p + str.length) = 0x00 := by
      unfold writeBytes
      rw [if_pos (by simp)]
      simp
    unfold readBytes
    rw [List.range_succ_eq_map, List.map_cons, Nat.add_zero, hnul]
    simp

/-! ### strncpy -/

/-- The system with other bytes in memory. -/
def System.withMemory (s : System) (mem : Nat → UInt8) : System :=
  { s with kernel := { s.kernel with mem := mem } }

section Loop

variable {s : System} {tmp virt : Nat}

theorem storeBytes_returns (p : Nat) (bytes : List UInt8) (k : Kernel) :
    Returns (storeBytes p bytes) k fun _ k' => k' = { k with mem := writeBytes k.mem p bytes } :=
  .modifies rfl

theorem storeBytes_passes (p : Nat) (bytes : List UInt8) :
    Passes (inKernel (storeBytes p bytes)) s fun _ s' =>
      s' = s.withMemory (writeBytes s.kernel.mem p bytes) := by
  refine (inKernel_passes (storeBytes_returns p bytes _)).mono ?_
  rintro _ s' ⟨hs', hk'⟩
  rw [hk'] at hs'
  exact hs'

theorem storeBytes_ends {E : UserReturn → System → Prop} (p : Nat) (bytes : List UInt8) :
    Ends (inKernel (storeBytes p bytes)) s E fun _ s' =>
      s' = s.withMemory (writeBytes s.kernel.mem p bytes) := by
  refine (inKernel_ends (storeBytes_returns p bytes _).ensures).mono ?_
  rintro _ s' ⟨hs', hk'⟩
  rw [hk'] at hs'
  exact hs'

/-- When the copy comes to its end, every byte was present. -/
theorem strncpyLoop_ends (e : Entry) : ∀ (fuel i : Nat) (s : System),
    Ends (strncpyLoop e tmp virt fuel i) s Resumes fun _ _ =>
      bytesPresent (s.kernel.byteAddress s.kernel.current_directory virt) tmp fuel i s.kernel.mem = true := by
  intro fuel
  induction fuel with
  | zero => exact fun i s => (storeBytes_ends _ _).mono fun _ _ _ => rfl
  | succ fuel ih =>
    intro i s
    refine .bind (loadByte_ends e _) ?_
    rintro c _ ⟨rfl, hc⟩
    rw [userByte_eq, Option.map_eq_some_iff] at hc
    obtain ⟨phys, hphys, rfl⟩ := hc
    have hstep : bytesPresent (s.kernel.byteAddress s.kernel.current_directory virt) tmp (fuel + 1) i s.kernel.mem =
        (s.kernel.mem phys == 0x00 || bytesPresent (s.kernel.byteAddress s.kernel.current_directory virt) tmp fuel (i + 1)
          (writeBytes s.kernel.mem (tmp + i) [s.kernel.mem phys])) := by
      rw [bytesPresent, show s.kernel.byteAddress s.kernel.current_directory virt i = some phys from hphys]
    rw [hstep]
    split
    · next hnul => exact (storeBytes_ends _ _).mono fun _ _ _ => by simp [hnul]
    · refine .bind (storeBytes_ends _ _) ?_
      rintro _ _ rfl
      refine (ih (i + 1) _).mono fun _ _ hrest => ?_
      exact Bool.or_eq_true_iff.mpr (Or.inr hrest)

/-- When every byte is present, the string is copied behind `tmp`, and it is the one that
was there unless the copy reads what it has written. -/
theorem strncpyLoop_passes (e : Entry) : ∀ (fuel i : Nat) (s : System),
    bytesPresent (s.kernel.byteAddress s.kernel.current_directory virt) tmp fuel i s.kernel.mem = true →
    Passes (strncpyLoop e tmp virt fuel i) s fun _ s' => ∃ str : List UInt8,
      s' = s.withMemory (writeBytes s.kernel.mem (tmp + i) (str ++ [0x00])) ∧
      str.length ≤ fuel ∧ (∀ c ∈ str, c ≠ 0x00) ∧
      ((∀ j phys, j < i + fuel → s.kernel.byteAddress s.kernel.current_directory virt j = some phys →
          phys < tmp + i ∨ tmp + (i + fuel) ≤ phys) →
        StringFrom (fun j => (s.kernel.byteAddress s.kernel.current_directory virt j).map s.kernel.mem) i fuel str) := by
  intro fuel
  induction fuel with
  | zero =>
    intro i s _
    refine (storeBytes_passes _ _).mono ?_
    rintro _ s' hs'
    exact ⟨[], hs', le_rfl, by simp, fun _ => .full⟩
  | succ fuel ih =>
    intro i s h
    unfold bytesPresent at h
    cases hphys : s.kernel.byteAddress s.kernel.current_directory virt i with
    | none =>
      rw [hphys] at h
      cases h
    | some phys =>
      rw [hphys] at h
      dsimp only at h
      have hbyte : s.kernel.userByte s.kernel.current_directory (u32 ((virt + i : Nat) : Int)) =
          some (s.kernel.mem phys) := by
        rw [userByte_eq]
        exact congrArg (Option.map s.kernel.mem) hphys
      refine .bind (loadByte_passes e hbyte) ?_
      rintro _ _ ⟨rfl, rfl⟩
      by_cases hnul : s.kernel.mem phys = 0x00
      · rw [if_pos hnul]
        refine (storeBytes_passes _ _).mono ?_
        rintro _ s' hs'
        refine ⟨[], hs', Nat.zero_le _, by simp, fun _ => .nul ?_⟩
        rw [hphys, Option.map_some, hnul]
      · rw [if_neg hnul]
        have hrest := (Bool.or_eq_true_iff.mp h).resolve_left (by simpa using hnul)
        refine .bind (storeBytes_passes _ _) ?_
        rintro _ _ rfl
        refine (ih (i + 1) _ hrest).mono ?_
        rintro _ s' ⟨str, hs', hlen, hstr, hat⟩
        refine ⟨s.kernel.mem phys :: str, ?_, Nat.succ_le_succ hlen, ?_, fun hapart => ?_⟩
        · rw [hs']
          change s.withMemory (writeBytes (writeBytes _ _ _) _ _) = _
          rw [← Nat.add_assoc]
          exact congrArg s.withMemory (writeBytes_append _ _ [s.kernel.mem phys] _)
        · simpa [hnul] using hstr
        · refine .cons (by rw [hphys, Option.map_some]) hnul ((hat ?_).congr fun j _ hj => ?_)
          · intro j p hj hp
            have := hapart j p (by omega) hp
            omega
          -- the byte that was stored is not among those still to be read
          · change (s.kernel.byteAddress s.kernel.current_directory virt j).map (writeBytes _ _ _) = _
            cases hp : s.kernel.byteAddress s.kernel.current_directory virt j with
            | none => rfl
            | some p =>
              have := hapart j p (by omega) hp
              rw [Option.map_some, Option.map_some, writeBytes_of_not_mem]
              simp only [List.length_singleton]
              omega

end Loop

/-! ### One entry of a page table -/

/-- The entry for the page of `virt` is in `table`, a page table of `directory`. -/
structure EntryIn (k : Kernel) (directory virt table : Nat) (w entries : Nat → Nat) : Prop where
  directory_ne_zero : directory ≠ 0
  words : k.objs directory = some (.words w)
  table_eq : pageMask (w (virt / 0x400000)) = table
  table_ne_zero : table ≠ 0
  table_ne : table ≠ directory
  entries : k.objs table = some (.words entries)

/-- The kernel with another structure at `p`. -/
def Kernel.withObj (k : Kernel) (p : Nat) (o : Obj) : Kernel :=
  { k with objs := Function.update k.objs p (some o) }

theorem Kernel.withObj_withObj (k : Kernel) (p : Nat) (o o' : Obj) :
    (k.withObj p o).withObj p o' = k.withObj p o' := by
  unfold Kernel.withObj
  rw [Function.update_idem]

theorem Kernel.withObj_self {k : Kernel} {p : Nat} {o : Obj} (h : k.objs p = some o) :
    k.withObj p o = k := by
  unfold Kernel.withObj
  rw [← h, Function.update_eq_self]

namespace EntryIn

variable {k : Kernel} {directory virt table : Nat} {w entries : Nat → Nat}

theorem get (h : EntryIn k directory virt table w entries) (hv : virt % 4096 = 0) :
    pagingGet directory virt k = .ok (entries (virt % 0x400000 / 4096), k) := by
  have hdir : deref Obj.words? directory k = .ok (w, k) :=
    deref_ok h.directory_ne_zero h.words rfl
  have htable : deref Obj.words? (pageMask (w (virt / 0x400000))) k = .ok (entries, k) := by
    rw [h.table_eq]
    exact deref_ok h.table_ne_zero h.entries rfl
  unfold pagingGet
  rw [pagingGetIndexes_of_aligned hv]
  dsimp only
  rw [bind_of_ok hdir, bind_of_ok htable]
  rfl

theorem set (h : EntryIn k directory virt table w entries) (hv : virt % 4096 = 0) (val : Nat) :
    pagingSet directory virt val k = .ok (0,
      k.withObj table (.words (Function.update entries (virt % 0x400000 / 4096) val))) := by
  have hdir : deref Obj.words? directory k = .ok (w, k) :=
    deref_ok h.directory_ne_zero h.words rfl
  have htable : deref Obj.words? (pageMask (w (virt / 0x400000))) k = .ok (entries, k) := by
    rw [h.table_eq]
    exact deref_ok h.table_ne_zero h.entries rfl
  rw [pagingSet_of_aligned hv, bind_of_ok hdir, bind_of_ok htable, h.table_eq]
  rfl

/-- The entry is still there when another one was stored in the table. -/
theorem stored (h : EntryIn k directory virt table w entries) (entries' : Nat → Nat) :
    EntryIn (k.withObj table (.words entries')) directory virt table w entries' where
  directory_ne_zero := h.directory_ne_zero
  words := (Function.update_of_ne h.table_ne.symm _ _).trans h.words
  table_eq := h.table_eq
  table_ne_zero := h.table_ne_zero
  table_ne := h.table_ne
  entries := Function.update_self ..

theorem withMemory (h : EntryIn k directory virt table w entries) (mem : Nat → UInt8) :
    EntryIn { k with mem := mem } directory virt table w entries :=
  ⟨h.directory_ne_zero, h.words, h.table_eq, h.table_ne_zero, h.table_ne, h.entries⟩

/-- Storing the entry that was there restores the page table. -/
theorem restored (h : EntryIn k directory virt table w entries) (index val : Nat) :
    (k.withObj table (.words (Function.update entries index val))).withObj table
      (.words (Function.update (Function.update entries index val) index (entries index))) = k := by
  rw [Kernel.withObj_withObj, Function.update_idem, Function.update_eq_self,
    Kernel.withObj_self h.entries]

end EntryIn

section Space

variable {k : Kernel} {chunk directory : Nat} {ptrs : List Nat} {m : Nat → Nat}

theorem MapsSpace.entryIn (h : MapsSpace k chunk ptrs m) (hd : k.objs chunk = some (.chunk directory))
    {virt : Nat} (hlt : virt < 0x100000000) :
    ∃ table w entries, EntryIn k directory virt table w entries := by
  obtain ⟨d, w, hc, hdir, rfl, hnodup, ha, htables⟩ := h
  rw [hd] at hc
  cases hc
  obtain ⟨entries, he, -⟩ := htables (virt / 0x400000) (by omega)
  have hmem : pageMask (w (virt / 0x400000)) ∈ tablePtrs w 0 1024 :=
    List.mem_map_of_mem (List.mem_range'_1.mpr ⟨by omega, by omega⟩)
  simp only [List.nodup_cons] at hnodup
  refine ⟨_, w, entries, (ha directory (by simp)).ne_zero, hdir, rfl,
    (ha _ (by simp [hmem])).ne_zero, ?_, he⟩
  intro heq
  exact hnodup.2.1 (heq ▸ hmem)

/-- The processor finds the entry of the page. -/
theorem MapsSpace.walk_eq (h : MapsSpace k chunk ptrs m)
    (hd : k.objs chunk = some (.chunk directory)) {w : Nat → Nat}
    (hw : k.objs directory = some (.words w)) {virt : Nat} (hlt : virt < 0x100000000) :
    k.walk directory virt = some (w (virt / 0x400000), m (virt / 4096)) := by
  obtain ⟨d, w', hc, hdir, -, -, -, htables⟩ := h
  rw [hd] at hc
  cases hc
  rw [hw] at hdir
  cases hdir
  obtain ⟨entries, he, hm⟩ := htables (virt / 0x400000) (by omega)
  have hpage := hm (virt % 0x400000 / 4096) (by omega)
  rw [show 1024 * (virt / 0x400000) + virt % 0x400000 / 4096 = virt / 4096 by omega] at hpage
  unfold Kernel.walk
  rw [Obj.words?_eq_some.mpr hw]
  dsimp only
  rw [show PAGING_TOTAL_ENTRIES_PER_TABLE * PAGING_PAGE_SIZE = 0x400000 from rfl,
    Obj.words?_eq_some.mpr he, ← hpage]
  rfl

theorem MapsSpace.walk_congr {k' : Kernel} (h : MapsSpace k chunk ptrs m)
    (hd : k.objs chunk = some (.chunk directory)) (hk : ∀ p ∈ ptrs, k'.objs p = k.objs p)
    {virt : Nat} (hlt : virt < 0x100000000) : k'.walk directory virt = k.walk directory virt := by
  obtain ⟨d, w, hc, hdir, rfl, -, -, -⟩ := h
  rw [hd] at hc
  cases hc
  have hmem : pageMask (w (virt / 0x400000)) ∈ tablePtrs w 0 1024 :=
    List.mem_map_of_mem (List.mem_range'_1.mpr ⟨by omega, by omega⟩)
  unfold Kernel.walk
  rw [hk directory (by simp), Obj.words?_eq_some.mpr hdir]
  dsimp only
  rw [show PAGING_TOTAL_ENTRIES_PER_TABLE * PAGING_PAGE_SIZE = 0x400000 from rfl,
    hk _ (by simp [hmem])]

/-- What it finds when the page at `tmp` was mapped to itself. -/
theorem MapsSpace.scratchWalk_eq (h : MapsSpace k chunk ptrs m)
    (hd : k.objs chunk = some (.chunk directory)) {tmp table : Nat} {w entries : Nat → Nat}
    (hin : EntryIn k directory tmp table w entries) (ht : tmp % 4096 = 0)
    (htlt : tmp < 0x100000000) {virt : Nat} (hlt : virt < 0x100000000) :
    (k.withObj table (.words (Function.update entries (tmp % 0x400000 / 4096)
      (tmp ||| userWriteable)))).walk directory virt = k.scratchWalk directory tmp virt := by
  obtain ⟨_, _, hset, -, hd', h', -⟩ := h.set hd ht htlt (tmp ||| userWriteable)
  rw [hin.set ht] at hset
  cases hset
  rw [h'.walk_eq hd' (hin.stored _).words hlt]
  unfold Kernel.scratchWalk
  rw [h.walk_eq hd hin.words hlt, Option.map_some, Function.update_apply]
  rfl

end Space

/-! ### Between the two switches -/

section Switches

variable {k : Kernel} {task d kd tmp table : Nat} {t : Task} {w entries : Nat → Nat}

/-- The page at `tmp` mapped to itself in the address space of the task. -/
def Kernel.scratchMapped (k : Kernel) (table tmp : Nat) (entries : Nat → Nat) : Kernel :=
  k.withObj table (.words (Function.update entries (tmp % 0x400000 / 4096) (tmp ||| userWriteable)))

theorem scratchMapped_chunk (h : EntryIn k d tmp table w entries) {chunk c : Nat}
    (hc : k.objs chunk = some (.chunk c)) :
    (k.scratchMapped table tmp entries).objs chunk = some (.chunk c) := by
  have hne : chunk ≠ table := by
    rintro rfl
    rw [h.entries] at hc
    cases hc
  exact (Function.update_of_ne hne _ _).trans hc

theorem mapScratch_eq (htask : k.TaskSpace task t d) (hin : EntryIn k d tmp table w entries)
    (ht : tmp % 4096 = 0) :
    mapScratch task tmp k = .ok ((d, entries (tmp % 0x400000 / 4096)),
      { k.scratchMapped table tmp entries with current_directory := d }) := by
  have hstruct : deref Obj.task? task k = .ok (t, k) :=
    deref_ok htask.task_ne_zero htask.task rfl
  have hchunk : deref Obj.chunk? t.page_directory k = .ok (d, k) :=
    deref_ok htask.chunk_ne_zero htask.chunk rfl
  have hmap : pagingMap t.page_directory tmp tmp userWriteable k =
      .ok (0, k.scratchMapped table tmp entries) := by
    unfold pagingMap
    rw [if_neg (by simp only [PAGING_PAGE_SIZE]; omega), bind_of_ok hchunk]
    exact hin.set ht _
  have hchunk' : deref Obj.chunk? t.page_directory (k.scratchMapped table tmp entries) =
      .ok (d, k.scratchMapped table tmp entries) :=
    deref_ok htask.chunk_ne_zero (scratchMapped_chunk hin htask.chunk) rfl
  have hswitch : pagingSwitch t.page_directory (k.scratchMapped table tmp entries) =
      .ok (⟨⟩, { k.scratchMapped table tmp entries with current_directory := d }) :=
    bind_of_ok hchunk'
  unfold mapScratch
  rw [bind_of_ok hstruct, bind_of_ok hchunk, bind_of_ok (hin.get ht), bind_of_ok hmap,
    bind_of_ok hswitch]
  rfl

/-- The entry is put back, and the scratch block is released. -/
theorem takeScratch_eq (hkernel : k.KernelSpace kd) (hload : k.current_directory = kd)
    (hin : EntryIn k d tmp table w entries) (ht : tmp % 4096 = 0) (max : Nat) {k' : Kernel}
    (hfree : kfree tmp k = .ok (⟨⟩, k')) :
    takeScratch d tmp (entries (tmp % 0x400000 / 4096)) max
        { k.scratchMapped table tmp entries with current_directory := d } =
      .ok ((0, some (readString k.mem tmp (max - 1))), k') := by
  subst hload
  have hpage : kernelPage { k.scratchMapped table tmp entries with current_directory := d } =
      .ok (⟨⟩, k.scratchMapped table tmp entries) := by
    obtain ⟨_, k₁, hpage, rfl⟩ := kernelPage_returns
      (k := { k.scratchMapped table tmp entries with current_directory := d })
      hkernel.ne_zero (scratchMapped_chunk hin hkernel.chunk)
    exact hpage
  have hset : pagingSet d tmp (entries (tmp % 0x400000 / 4096)) (k.scratchMapped table tmp entries) =
      .ok (0, k) := by
    have hstored := (hin.stored (Function.update entries (tmp % 0x400000 / 4096)
      (tmp ||| userWriteable))).set ht (entries (tmp % 0x400000 / 4096))
    rw [hin.restored] at hstored
    exact hstored
  unfold takeScratch
  rw [bind_of_ok hpage, bind_of_ok hset, if_neg (by decide)]
  change (kfree tmp >>= fun _ => pure (0, some (readString k.mem tmp (max - 1)))) k = _
  rw [bind_of_ok hfree]
  rfl

end Switches

/-! ### copy_string_from_task -/

/-- The task at `task` has an address space, with its directory at `d`, and the kernel's own
directory is loaded. -/
structure Kernel.ServesTask (k : Kernel) (task : Nat) (t : Task) (d : Nat) : Prop where
  task_space : k.TaskSpace task t d
  task_alive : ∃ n, k.Alive task n
  space : ∃ ptrs m, MapsSpace k t.page_directory ptrs m
  kernel_space : k.KernelSpace k.current_directory
  kernel_alive : ∃ n, k.Alive k.kernel_chunk n
  heap : k.heap.table.ZeroFree

/-- The heap table, the structures in live memory, the address spaces among them, and the
directory that is loaded are what they were. -/
structure SpacesKept (k k' : Kernel) : Prop where
  heap_entries : k'.heap_entries = k.heap_entries
  structures : Keeps [] k k'
  spaces : ∀ chunk ptrs, OwnsSpace k chunk ptrs →
    OwnsSpace k' chunk ptrs ∧ ∀ p ∈ ptrs, k'.objs p = k.objs p
  directory : k'.current_directory = k.current_directory

/-- The pages that the copy to `tmp` reads from `virt` on are present: those of the bytes up
to the NUL, at most `max - 1`, with the page at `tmp` mapped to itself and cleared. -/
def Kernel.readsPresent (k : Kernel) (d tmp virt max : Nat) : Bool :=
  bytesPresent (k.scratchAddress d tmp virt) tmp (max - 1) 0 (k.cleared tmp max)

/-- No page of the `max` bytes from `virt` on is the page at `tmp` or is translated to it. -/
def Kernel.ApartFromPage (k : Kernel) (d tmp virt max : Nat) : Prop :=
  ∀ i < max, u32 ((virt + i : Nat) : Int) / PAGING_PAGE_SIZE ≠ tmp / PAGING_PAGE_SIZE ∧
    ∀ phys, k.byteAddress d virt i = some phys →
      phys / PAGING_PAGE_SIZE ≠ tmp / PAGING_PAGE_SIZE

section Apart

variable {k : Kernel} {d tmp virt max : Nat}

theorem Kernel.ApartFromPage.address (h : k.ApartFromPage d tmp virt max) {i : Nat}
    (hi : i < max) : k.scratchAddress d tmp virt i = k.byteAddress d virt i := by
  unfold Kernel.scratchAddress Kernel.byteAddress
  dsimp only
  rw [scratchWalk_of_ne (h i hi).1]

theorem Kernel.ApartFromPage.clear (h : k.ApartFromPage d tmp virt max) (ht : tmp % 4096 = 0)
    {i phys : Nat} (hi : i < max) (hphys : k.byteAddress d virt i = some phys) :
    phys < tmp ∨ tmp + 4096 ≤ phys := by
  have hne := (h i hi).2 phys hphys
  simp only [PAGING_PAGE_SIZE] at hne
  omega

/-- The copy reads the string that the task sees. -/
theorem Kernel.ApartFromPage.string_iff (h : k.ApartFromPage d tmp virt max)
    (ht : tmp % 4096 = 0) (hmax : max < 4096) {str : List UInt8} :
    StringFrom (fun i => (k.scratchAddress d tmp virt i).map (k.cleared tmp max)) 0 (max - 1)
        str ↔
      StringFrom (fun i => k.userByte d (u32 ((virt + i : Nat) : Int))) 0 (max - 1) str := by
  have hbyte : ∀ i < max, (k.scratchAddress d tmp virt i).map (k.cleared tmp max) =
      k.userByte d (u32 ((virt + i : Nat) : Int)) := by
    intro i hi
    rw [userByte_eq, h.address hi]
    change (k.byteAddress d virt i).map _ = (k.byteAddress d virt i).map _
    cases hphys : k.byteAddress d virt i with
    | none => rfl
    | some phys =>
      have := h.clear ht hi hphys
      exact congrArg some (if_neg (by omega))
  exact ⟨fun hstr => hstr.congr fun i _ hi => hbyte i (by omega),
    fun hstr => hstr.congr fun i _ hi => (hbyte i (by omega)).symm⟩

/-- In a copy that stays clear of the page at `tmp`, the pages are present exactly when the task
sees a string at `virt`, of which `max - 1` bytes count. -/
theorem readsPresent_iff_of_apart (ht : tmp % 4096 = 0) (hmax : max < 4096)
    (h : k.ApartFromPage d tmp virt max) :
    k.readsPresent d tmp virt max = true ↔
      ∃ str, StringFrom (fun i => k.userByte d (u32 ((virt + i : Nat) : Int))) 0 (max - 1) str := by
  unfold Kernel.readsPresent
  rw [bytesPresent_iff _ _ _ (by omega)]
  · exact exists_congr fun str => h.string_iff ht hmax
  · intro i phys hi hphys
    rw [h.address (by omega)] at hphys
    exact h.clear ht (by omega) hphys

end Apart

theorem SpacesKept.of_keeps {k k' : Kernel} (he : k'.heap_entries = k.heap_entries)
    (hkeep : Keeps [] k k') (hdir : k'.current_directory = k.current_directory) :
    SpacesKept k k' where
  heap_entries := he
  structures := hkeep
  spaces := fun _ _ h => ⟨h.congr fun p hp => hkeep p 1 (h.alive p hp) (by simp),
    fun p hp => (hkeep p 1 (h.alive p hp) (by simp)).2⟩
  directory := hdir

/-- The release of the scratch block leaves what was there before `kzalloc`. -/
theorem SpacesKept.of_scratch {k k₁ k' : Kernel} {max b : Nat} (hzero : k.heap.table.ZeroFree)
    (hmax : max < 4096) (h₁ : 1 ≤ max) (hb : b ∈ k.freeBlocks)
    (hz : Kzalloced k max (blockAddress b) k₁)
    (he : k₁.heap_entries = takenEntries k.heap_entries {b})
    (mem : Nat → UInt8) (hfree : kfree (blockAddress b) { k₁ with mem := mem } = .ok (⟨⟩, k')) :
    SpacesKept k k' := by
  have halive := hz.alive_one h₁ (by omega)
  have hfreed : Freed { k₁ with mem := mem } (blockAddress b) k' :=
    (kfree_spec (k := { k₁ with mem := mem }) halive).ensures _ _ hfree
  refine .of_keeps ?_ ?_ ?_
  · have htook : TookBlocks k 1 k₁ :=
      ⟨{b}, Finset.card_singleton b, Finset.singleton_subset_iff.mpr hb, he⟩
    refine (hfreed.released halive).trans (htook.restored hzero fun c => ?_)
    change _ ↔ c ∈ k.freeBlocks ∧ c ∉ k₁.freeBlocks
    rw [freeBlocks_of_taken he, List.mem_singleton, blockAddress_inj, Finset.mem_sdiff,
      Finset.mem_singleton, not_and_not_right]
    constructor
    · rintro rfl
      exact ⟨hb, fun _ => rfl⟩
    · rintro ⟨hc, heq⟩
      exact heq hc
  · intro p n hp _
    obtain ⟨hp₁, ho₁⟩ := hz.keeps (by omega) p n hp (by simp)
    obtain ⟨hp', ho'⟩ := hfreed.keeps p n hp₁ (by simpa using hz.ne_alive hp)
    exact ⟨hp', ho'.trans ho₁⟩
  · cases hfree
    have hdir := congrArg Kernel.current_directory hz.eq
    exact hdir

section Copy

variable {s : System} {task virt max d : Nat} {t : Task}

/-- With a free block for it, the copy runs between the two switches, and whatever it puts
into memory, what follows it restores the rest. -/
theorem copyStringFromTask_run (e : Entry) (virt : Nat) (hserves : s.kernel.ServesTask task t d)
    (h₁ : 1 ≤ max) (hmax : max < 4096) (hfree : 0 < s.kernel.freeBlocks.card) :
    ∃ (b old : Nat) (s₂ : System), s.kernel.heap.table.LowestRun 1 b ∧
      (copyStringFromTask e task virt max).run s =
        (strncpyLoop e (blockAddress b) virt (max - 1) 0 >>= fun _ =>
          inKernel (takeScratch d (blockAddress b) old max) >>= fun r =>
            pure (r.1, r.2.getD e.buffer)).run s₂ ∧
      s₂.kernel.mem = s.kernel.cleared (blockAddress b) max ∧
      s₂.kernel.byteAddress s₂.kernel.current_directory virt =
        s.kernel.scratchAddress d (blockAddress b) virt ∧
      ∀ mem, Returns (takeScratch d (blockAddress b) old max) (s₂.withMemory mem).kernel
        fun r k' => r = (0, some (readString mem (blockAddress b) (max - 1))) ∧
          SpacesKept s.kernel k' := by
  obtain ⟨_, k₁, hok, b, rfl, hb, hlow, hz, he⟩ := kzalloc_takes hfree h₁ (show max ≤ 4096 by omega)
  obtain ⟨ptrs, m, hmaps⟩ := hserves.space
  obtain ⟨n, htask⟩ := hserves.task_alive
  obtain ⟨nk, hkernel⟩ := hserves.kernel_alive
  have hkeep := hz.keeps (by omega)
  have haligned := blockAddress_aligned b
  have hpos : blockAddress b < 0x100000000 := by
    have := (Kernel.mem_freeBlocks.mp hb).1
    unfold blockAddress
    omega
  -- what the allocation leaves of the two address spaces
  have hspaces := fun p hp => hkeep p 1 (hmaps.owns.alive p hp) (by simp)
  have hmaps₁ := hmaps.congr hspaces
  have hspace₁ : k₁.TaskSpace task t d :=
    ⟨hserves.task_space.task_ne_zero, (hkeep task n htask (by simp)).2.trans hserves.task_space.task,
      hserves.task_space.chunk_ne_zero,
      (hspaces _ hmaps.owns.chunk_mem).2.trans hserves.task_space.chunk⟩
  have hchunk : k₁.kernel_chunk = s.kernel.kernel_chunk := by
    rw [hz.eq]
  have hdir : k₁.current_directory = s.kernel.current_directory := by
    rw [hz.eq]
  have hmem : k₁.mem = s.kernel.cleared (blockAddress b) max := by
    rw [hz.eq]
    rfl
  have hkernel₁ : k₁.KernelSpace s.kernel.current_directory := by
    refine ⟨by rw [hchunk]; exact hserves.kernel_space.ne_zero, ?_⟩
    rw [hchunk]
    exact (hkeep _ nk hkernel (by simp)).2.trans hserves.kernel_space.chunk
  obtain ⟨table, w, entries, hin⟩ := hmaps₁.entryIn hspace₁.chunk hpos
  have hmap := mapScratch_eq hspace₁ hin haligned
  refine ⟨b, entries (blockAddress b % 0x400000 / 4096), { s with kernel :=
    { k₁.scratchMapped table (blockAddress b) entries with current_directory := d } }, hlow, ?_,
    hmem, funext fun i => ?_, fun mem => ?_⟩
  · unfold copyStringFromTask
    rw [if_neg (by simp only [PAGING_PAGE_SIZE]; omega)]
    rw [show (inKernel (kzalloc max) : HM Nat) = stays (onKernel (kzalloc max)) from rfl,
      run_stays_bind (onKernel_of_ok hok), if_neg hz.ne_zero]
    rw [show (inKernel (mapScratch task (blockAddress b)) : HM (Nat × Nat)) =
      stays (onKernel (mapScratch task (blockAddress b))) from rfl,
      run_stays_bind (onKernel_of_ok hmap)]
  · have hlt : u32 ((virt + i : Nat) : Int) < 0x100000000 := u32_lt _
    have hwalk := hmaps₁.scratchWalk_eq hspace₁.chunk hin haligned hpos hlt
    have hsame := hmaps.walk_congr hserves.task_space.chunk (fun p hp => (hspaces p hp).2) hlt
    have hscratch : k₁.scratchWalk d (blockAddress b) (u32 ((virt + i : Nat) : Int)) =
        s.kernel.scratchWalk d (blockAddress b) (u32 ((virt + i : Nat) : Int)) := by
      unfold Kernel.scratchWalk
      rw [hsame]
    exact congrArg (presentAddress · _) (hwalk.trans hscratch)
  · have hfreed := kfree_eq (blockAddress b) { k₁ with mem := mem }
    refine ⟨_, _, takeScratch_eq (k := { k₁ with mem := mem })
      ⟨hkernel₁.ne_zero, hkernel₁.chunk⟩ hdir (hin.withMemory mem) haligned max hfreed, rfl, ?_⟩
    exact .of_scratch hserves.heap hmax h₁ hb hz he mem hfreed

/-- Without a free block the copy is refused. -/
theorem copyStringFromTask_refused (e : Entry) (task virt : Nat) (hmax : max < 4096)
    (hfull : s.kernel.freeBlocks = ∅) (h₁ : 1 ≤ max) :
    (copyStringFromTask e task virt max).run s = .ok (.ok (-ENOMEM, e.buffer), s) := by
  have hno : s.kernel.NoRoom max := by
    have hnone : ∀ b : Nat, b < 25600 → ¬ s.kernel.heap.table.IsFree b := by
      intro b hb hfree
      have hmem := Kernel.mem_freeBlocks.mpr ⟨hb, hfree⟩
      rw [hfull] at hmem
      exact absurd hmem (Finset.notMem_empty b)
    refine ⟨fun hlast => hnone 25599 (by omega) hlast.2, .inr ?_⟩
    rintro ⟨b, hin, hrun⟩
    have hblocks : heapTotalBlocks max = 1 := by
      rw [heapTotalBlocks_eq (by omega)]
      unfold blocksOf
      omega
    rw [hblocks] at hin hrun
    exact hnone b hin (hrun b le_rfl (by omega))
  have hok := kzalloc_of_noRoom hno
  unfold copyStringFromTask
  rw [if_neg (by simp only [PAGING_PAGE_SIZE]; omega)]
  rw [show (inKernel (kzalloc max) : HM Nat) = stays (onKernel (kzalloc max)) from rfl,
    run_stays_bind (onKernel_of_ok hok), if_pos rfl]
  rfl

/-- A copy that comes to its end has read pages that are present. -/
theorem copyStringFromTask_present (e : Entry) (hserves : s.kernel.ServesTask task t d)
    (h₁ : 1 ≤ max) (hmax : max < 4096) {Q : Int × List UInt8 → System → Prop}
    (h : Passes (copyStringFromTask e task virt max) s Q) {b : Nat}
    (hlow : s.kernel.heap.table.LowestRun 1 b) :
    s.kernel.readsPresent d (blockAddress b) virt max = true := by
  have hfree : b ∈ s.kernel.freeBlocks :=
    Kernel.mem_freeBlocks.mpr ⟨hlow.inside, hlow.free b le_rfl (by omega)⟩
  obtain ⟨c, old, s₂, hc, hrun, hmem, haddress, -⟩ :=
    copyStringFromTask_run e virt hserves h₁ hmax (Finset.card_pos.mpr ⟨b, hfree⟩)
  rw [hlow.unique hc]
  obtain ⟨r, s', hr, -⟩ := h
  rw [hrun] at hr
  have hends : Ends (strncpyLoop e (blockAddress c) virt (max - 1) 0 >>= fun _ =>
        inKernel (takeScratch d (blockAddress c) old max) >>= fun r =>
          pure (r.1, r.2.getD e.buffer)) s₂ Resumes fun _ _ =>
      s.kernel.readsPresent d (blockAddress c) virt max = true := by
    refine .bind (strncpyLoop_ends e _ _ _) fun _ _ hpresent => ?_
    refine .bind (R := fun _ _ => True) (.stays fun _ _ _ => trivial) fun _ _ _ => ?_
    rw [hmem, haddress] at hpresent
    exact .pure hpresent
  exact hends _ _ hr

/-- `copy_string_from_task` comes to its end, with the heap table and the page tables as they
were and the string copied, exactly when the pages that it reads are present. -/
theorem copyStringFromTask_restores_iff (e : Entry) (hserves : s.kernel.ServesTask task t d)
    (h₁ : 1 ≤ max) (hmax : max < 4096) :
    Passes (copyStringFromTask e task virt max) s (fun r s' =>
        SpacesKept s.kernel s'.kernel ∧
        (r.1 = 0 → ∀ b, s.kernel.heap.table.LowestRun 1 b →
          s.kernel.ApartFromPage d (blockAddress b) virt max →
          StringFrom (fun i => s.kernel.userByte d (u32 ((virt + i : Nat) : Int))) 0 (max - 1)
            r.2)) ↔
      ∀ b, s.kernel.heap.table.LowestRun 1 b →
        s.kernel.readsPresent d (blockAddress b) virt max = true := by
  rcases Finset.eq_empty_or_nonempty s.kernel.freeBlocks with hfull | hsome
  · -- nothing is copied, and nothing changes
    have hrefused := copyStringFromTask_refused e task virt hmax hfull h₁
    refine iff_of_true ⟨_, _, hrefused, .of_keeps rfl (Keeps.refl _ _) rfl, nofun⟩ ?_
    intro b hlow
    have hmem : b ∈ s.kernel.freeBlocks :=
      Kernel.mem_freeBlocks.mpr ⟨hlow.inside, hlow.free b le_rfl (by omega)⟩
    rw [hfull] at hmem
    exact absurd hmem (Finset.notMem_empty b)
  refine ⟨fun h b hlow => copyStringFromTask_present e hserves h₁ hmax h hlow, fun h => ?_⟩
  obtain ⟨b, old, s₂, hlow, hrun, hmem, haddress, htake⟩ :=
    copyStringFromTask_run e virt hserves h₁ hmax (Finset.card_pos.mpr hsome)
  have hpresent : s.kernel.readsPresent d (blockAddress b) virt max =
      bytesPresent (s₂.kernel.byteAddress s₂.kernel.current_directory virt) (blockAddress b)
        (max - 1) 0 s₂.kernel.mem := by
    rw [hmem, haddress]
    rfl
  have hloop := strncpyLoop_passes e _ _ _ (hpresent.symm.trans (h b hlow))
  have hpasses : Passes (strncpyLoop e (blockAddress b) virt (max - 1) 0 >>= fun _ =>
      inKernel (takeScratch d (blockAddress b) old max) >>= fun r =>
        pure (r.1, r.2.getD e.buffer)) s₂ fun r s' => SpacesKept s.kernel s'.kernel ∧
          ∃ str, r = (0, str) ∧ (s.kernel.ApartFromPage d (blockAddress b) virt max →
            StringFrom (fun i => s.kernel.userByte d (u32 ((virt + i : Nat) : Int))) 0 (max - 1)
              str) := by
    refine .bind hloop ?_
    rintro _ _ ⟨str, rfl, hlen, hstr, hat⟩
    refine .bind (inKernel_passes (htake _)) ?_
    rintro _ s₃ ⟨-, rfl, hkept⟩
    refine .pure ⟨hkept, str, ?_, fun hapart => ?_⟩
    · change (0, readString _ _ _) = _
      rw [Nat.add_zero, readString_writeBytes hlen hstr]
    · rw [haddress, hmem] at hat
      refine (hapart.string_iff (blockAddress_aligned b) hmax).mp (hat fun i phys hi hphys => ?_)
      rw [hapart.address (by omega)] at hphys
      have := hapart.clear (blockAddress_aligned b) (by omega) hphys
      omega
  obtain ⟨r, s', hr, hkept, str, rfl, hat⟩ := hpasses
  refine ⟨_, s', hrun.trans hr, hkept, fun _ c hc hapart => ?_⟩
  rw [hc.unique hlow] at hapart
  exact hat hapart

end Copy

/-! ### A task -/

/-- The structures of an address space in 1026 blocks from `first` on: the chunk, the page
directory and the page tables, with the entry `page n` for page `n`. -/
def spaceObj (first : Nat) (page : Nat → Nat) (block : Nat) : Obj :=
  if block = first then .chunk (blockAddress (first + 1))
  else if block = first + 1 then .words fun i => blockAddress (first + 2 + i) ||| userWriteable
  else .words fun j => page (1024 * (block - (first + 2)) + j)

theorem MapsSpace.of_blocks {k : Kernel} {first : Nat} {page : Nat → Nat} (hin : first ≤ 24574)
    (ha : ∀ b, first ≤ b → b < first + 1026 → k.Alive (blockAddress b) 1)
    (ho : ∀ b, first ≤ b → b < first + 1026 →
      k.objs (blockAddress b) = some (spaceObj first page b)) :
    MapsSpace k (blockAddress first) ((List.range' first 1026).map blockAddress) page := by
  have hmask : ∀ i < 1024, pageMask (blockAddress (first + 2 + i) ||| userWriteable) =
      blockAddress (first + 2 + i) := by
    intro i hi
    refine pageMask_or_flags (blockAddress_aligned _) ?_ (by decide)
    unfold blockAddress
    omega
  have hptrs : (List.range' first 1026).map blockAddress =
      blockAddress first :: blockAddress (first + 1) ::
        tablePtrs (fun i => blockAddress (first + 2 + i) ||| userWriteable) 0 1024 := by
    have htables : tablePtrs (fun i => blockAddress (first + 2 + i) ||| userWriteable) 0 1024 =
        (List.range' (first + 2) 1024).map blockAddress := by
      unfold tablePtrs
      rw [show List.range' (first + 2) 1024 = (List.range' 0 1024).map (first + 2 + ·) by
        rw [List.map_add_range', Nat.add_zero], List.map_map]
      refine List.map_congr_left fun i hi => ?_
      exact hmask i (by have := (List.mem_range'_1.mp hi).2; omega)
    rw [htables, List.range'_succ, List.range'_succ, List.map_cons, List.map_cons]
  refine ⟨blockAddress (first + 1), fun i => blockAddress (first + 2 + i) ||| userWriteable, ?_, ?_,
    hptrs, ?_, ?_, fun i hi => ?_⟩
  · rw [ho first le_rfl (by omega), spaceObj, if_pos rfl]
  · rw [ho (first + 1) (by omega) (by omega), spaceObj, if_neg (by omega), if_pos rfl]
  · exact (List.nodup_range' 1).map fun _ _ h => blockAddress_inj.mp h
  · intro p hp
    obtain ⟨b, hb, rfl⟩ := List.mem_map.mp hp
    have hrange := List.mem_range'_1.mp hb
    exact ha b hrange.1 hrange.2
  · dsimp only
    rw [hmask i hi, ho _ (by omega) (by omega), spaceObj, if_neg (by omega), if_neg (by omega),
      show first + 2 + i - (first + 2) = i by omega]
    exact ⟨_, rfl, fun _ _ => rfl⟩

/-- A process that runs the task in block 0. -/
def Process.ofFirst : Process := { Process.zero with task := blockAddress 0 }

/-- A kernel with one process: the structure of its task, the address spaces of the task and
of the kernel, and the process are in the first blocks of the heap. The task's page tables
have the entry `page n` for page `n`. -/
def Kernel.withTask (page : Nat → Nat) : Kernel :=
  { Kernel.boot Disk.blank with
    heap_entries := fun i =>
      if 0 ≤ i ∧ i < 2053 then 0x41
      else if 2053 ≤ i ∧ i < 2056 then runEntry 3 (i - 2053).toNat else 0
    objs := fun p =>
      let block := (p - PLUMOS_HEAP_ADDRESS) / PLUMOS_HEAP_BLOCK_SIZE
      if p ≠ blockAddress block then none
      else if block = 0 then
        some (.task ⟨blockAddress 1, Registers.zero, blockAddress 2053, 0, 0⟩)
      else if block < 1027 then some (spaceObj 1 page block)
      else if block < 2053 then
        some (spaceObj 1027 (fun n => n * PAGING_PAGE_SIZE ||| userWriteable) block)
      else if block = 2053 then some (.process Process.ofFirst)
      else none
    processes := fun slot => if slot = 0 then blockAddress 2053 else 0
    current_process := blockAddress 2053
    task_head := blockAddress 0
    task_tail := blockAddress 0
    current_task := blockAddress 0
    kernel_chunk := blockAddress 1027
    current_directory := blockAddress 1028 }

section WithTask

variable {page : Nat → Nat}

theorem withTask_objs (page : Nat → Nat) (b : Nat) : (Kernel.withTask page).objs (blockAddress b) =
    if b = 0 then some (.task ⟨blockAddress 1, Registers.zero, blockAddress 2053, 0, 0⟩)
    else if b < 1027 then some (spaceObj 1 page b)
    else if b < 2053 then
      some (spaceObj 1027 (fun n => n * PAGING_PAGE_SIZE ||| userWriteable) b)
    else if b = 2053 then some (.process Process.ofFirst)
    else none := by
  have hblock : (blockAddress b - PLUMOS_HEAP_ADDRESS) / PLUMOS_HEAP_BLOCK_SIZE = b := by
    unfold blockAddress PLUMOS_HEAP_ADDRESS PLUMOS_HEAP_BLOCK_SIZE
    omega
  simp only [Kernel.withTask, hblock]
  exact if_neg fun h => h rfl

theorem withTask_taken {i : Int} (h₀ : 0 ≤ i) (hi : i < 2053) :
    (Kernel.withTask page).heap_entries i = 0x41 := if_pos ⟨h₀, hi⟩

theorem withTask_process {i : Int} (h₀ : 2053 ≤ i) (hi : i < 2056) :
    (Kernel.withTask page).heap_entries i = runEntry 3 (i - 2053).toNat :=
  (if_neg (by omega)).trans (if_pos ⟨h₀, hi⟩)

theorem withTask_free {i : Int} (hi : 2056 ≤ i) : (Kernel.withTask page).heap_entries i = 0 :=
  (if_neg (by omega)).trans (if_neg (by omega))

theorem withTask_not_free {i : Int} (h₀ : 0 ≤ i) (hi : i < 2056) :
    ¬ (Kernel.withTask page).heap.table.IsFree i := by
  unfold HeapTable.IsFree
  rw [Kernel.heap_entries_eq]
  by_cases hlow : i < 2053
  · rw [withTask_taken h₀ hlow]
    decide
  · rw [withTask_process (by omega) hi]
    exact runEntry_taken _ _

theorem withTask_alive {b : Nat} (hb : b < 2053) :
    (Kernel.withTask page).Alive (blockAddress b) 1 := by
  refine ⟨b, rfl, Nat.zero_lt_one, by omega, fun j hj => ?_⟩
  obtain rfl : j = 0 := by omega
  rw [Kernel.heap_entries_eq, withTask_taken (by omega) (by omega)]
  decide

theorem withTask_space (page : Nat → Nat) : MapsSpace (Kernel.withTask page) (blockAddress 1)
    ((List.range' 1 1026).map blockAddress) page := by
  refine .of_blocks (by decide) (fun b _ hb => withTask_alive (by omega)) fun b h₀ hb => ?_
  rw [withTask_objs, if_neg (by omega), if_pos (by omega)]

theorem withTask_serves (page : Nat → Nat) : (Kernel.withTask page).ServesTask (blockAddress 0)
    ⟨blockAddress 1, Registers.zero, blockAddress 2053, 0, 0⟩ (blockAddress 2) where
  task_space := by
    refine ⟨by decide, ?_, by decide, ?_⟩
    · rw [withTask_objs, if_pos rfl]
    · change (Kernel.withTask page).objs (blockAddress 1) = _
      rw [withTask_objs, if_neg (by decide), if_pos (by decide)]
      rfl
  task_alive := ⟨1, withTask_alive (by decide)⟩
  space := ⟨_, page, withTask_space page⟩
  kernel_space := by
    refine ⟨show blockAddress 1027 ≠ 0 by decide, ?_⟩
    change (Kernel.withTask page).objs (blockAddress 1027) = some (.chunk (blockAddress 1028))
    rw [withTask_objs, if_neg (by decide), if_neg (by decide), if_pos (by decide), spaceObj,
      if_pos rfl]
  kernel_alive := ⟨1, withTask_alive (by decide)⟩
  heap := by
    intro i h₀ _ hfree
    by_cases hi : i < 2056
    · exact absurd hfree (withTask_not_free h₀ hi)
    · exact @withTask_free page i (by omega)

theorem withTask_lowest : (Kernel.withTask page).heap.table.LowestRun 1 2056 where
  inside := show 2056 + 1 ≤ 25600 by decide
  free := by
    intro j h₁ h₂
    obtain rfl : j = 2056 := by omega
    unfold HeapTable.IsFree
    rw [Kernel.heap_entries_eq, withTask_free (by omega)]
    decide
  lowest := by
    intro b hb hfree
    exact withTask_not_free (by omega) (by omega) (hfree b le_rfl (Nat.lt_succ_self b))

/-- A copy of one byte from 0x400000 on reads page 0x400. -/
theorem withTask_readsPresent (page : Nat → Nat) :
    (Kernel.withTask page).readsPresent (blockAddress 2) (blockAddress 2056) 0x400000 2 =
      isPresent (page 0x400) := by
  have hdir : (Kernel.withTask page).objs (blockAddress 2) =
      some (.words fun i => blockAddress (3 + i) ||| userWriteable) := by
    rw [withTask_objs, if_neg (by decide), if_pos (by decide)]
    rfl
  have hwalk : (Kernel.withTask page).walk (blockAddress 2) 0x400000 =
      some (blockAddress 4 ||| userWriteable, page 0x400) :=
    (withTask_space page).walk_eq (withTask_serves page).task_space.chunk hdir (by decide)
  have haddress : (Kernel.withTask page).scratchAddress (blockAddress 2) (blockAddress 2056)
      0x400000 0 = if isPresent (page 0x400) then some (pageMask (page 0x400)) else none := by
    unfold Kernel.scratchAddress
    rw [show u32 ((0x400000 + 0 : Nat) : Int) = 0x400000 by decide]
    dsimp only
    rw [scratchWalk_of_ne (by decide), hwalk]
    change (if isPresent (blockAddress 4 ||| userWriteable) && isPresent (page 0x400) then _ else _) = _
    rw [show isPresent (blockAddress 4 ||| userWriteable) = true by decide, Bool.true_and]
    rfl
  rw [Kernel.readsPresent, show 2 - 1 = 1 from rfl, bytesPresent, haddress]
  cases isPresent (page 0x400) with
  | true => simp [bytesPresent]
  | false => rfl

end WithTask

/-- The system with one task whose pages are mapped to themselves, but page 0x400 as `entry`
says. -/
def System.withTask (entry : Nat) : System :=
  ⟨Kernel.withTask (Function.update (fun n => n * 4096 ||| userWriteable) 0x400 entry), 0, 0, false⟩

/-- A byte in a page that is present. -/
theorem copyStringFromTask_restores_present : ∃ r s',
    (copyStringFromTask ⟨frameEcx, Cpu.zero, 0, frameEcx, []⟩ (blockAddress 0) 0x400000 2).run
        (System.withTask 0x400007) = .ok (.ok r, s') ∧
      SpacesKept (System.withTask 0x400007).kernel s'.kernel := by
  obtain ⟨r, s', hrun, hkept, -⟩ := (@copyStringFromTask_restores_iff (System.withTask 0x400007)
    (blockAddress 0) 0x400000 2 (blockAddress 2) _ ⟨frameEcx, Cpu.zero, 0, frameEcx, []⟩
    (withTask_serves _) (by decide) (by decide)).mpr fun b hlow => by
      rw [hlow.unique withTask_lowest]
      exact withTask_readsPresent _
  exact ⟨r, s', hrun, hkept⟩

/-- A byte in a page that is not present: the call does not come to its end. -/
theorem copyStringFromTask_not_present : ∃ t,
    (System.withTask 0x400000).kernel.ServesTask (blockAddress 0) t (blockAddress 2) ∧
      ¬ Passes (copyStringFromTask ⟨frameEcx, Cpu.zero, 0, frameEcx, []⟩ (blockAddress 0)
        0x400000 2) (System.withTask 0x400000) fun _ s' =>
          SpacesKept (System.withTask 0x400000).kernel s'.kernel := by
  refine ⟨_, withTask_serves _, fun h => ?_⟩
  have hpresent := copyStringFromTask_present _ (withTask_serves _) (by decide) (by decide) h
    withTask_lowest
  rw [System.withTask, withTask_readsPresent] at hpresent
  exact absurd hpresent (by decide)

end PlumOS
