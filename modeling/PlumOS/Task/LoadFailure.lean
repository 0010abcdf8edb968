import PlumOS.Fs.FopenLeak
import PlumOS.Task.ProcessOwnership

/-!
# Loads that fail

The error exit of `process_load_for_slot` removes the task, if there is one, and releases
neither the process nor anything else that was allocated on the way. A load that fails
therefore leaves the kernel as it was only when there was no memory for the process.

## Main definitions

- `LoadUndone` — what a load that fails is to leave as it was
- `FailsSafely` — a load that fails leaves it so, and follows no bad pointer

## Main results

- `processLoad_failsSafely_iff` — which loads fail safely
-/

namespace PlumOS

open StateExcept

/-- The tables of the heap, the files and the processes, the current process and the list of
tasks are the same. -/
structure LoadUndone (k k' : Kernel) : Prop where
  tables : SameTables k k'
  lists : SameLists k k'
  tasks : ∀ p t, k'.objs p = some (.task t) ↔ k.objs p = some (.task t)

/-- The load returns an error, or it follows a pointer that is NULL, an error code or not set. -/
def LoadFails (load : KM (Int × Nat)) (k : Kernel) : Prop :=
  (∃ r k', load k = .ok (r, k') ∧ r.1 < 0) ∨ load k = .error .badPointer ∨
    load k = .error .uninitialised

/-- A load that returns an error has changed nothing, and no bad pointer is followed. -/
structure FailsSafely (load : KM (Int × Nat)) (k : Kernel) : Prop where
  undone : ∀ r k', load k = .ok (r, k') → r.1 < 0 → LoadUndone k k'
  badPointer : load k ≠ .error .badPointer
  uninitialised : load k ≠ .error .uninitialised

/-- There is a free slot for a process. -/
def Kernel.HasSlot (k : Kernel) : Prop := ∃ slot < 12, k.processes slot = 0

section Slot

variable {k : Kernel}

theorem processGetFreeSlot_cases (k : Kernel) :
    (∃ slot : Nat, processGetFreeSlot k.processes = slot ∧ slot < 12 ∧ k.processes slot = 0) ∨
      processGetFreeSlot k.processes = 8 ∧ ¬ k.HasSlot := by
  unfold processGetFreeSlot
  cases hfind : (List.range PLUMOS_MAX_PROCESSES).find? fun i => k.processes i == 0 with
  | some slot =>
    have hmem := List.mem_of_find?_eq_some hfind
    have hzero := List.find?_some hfind
    rw [List.mem_range] at hmem
    exact Or.inl ⟨slot, rfl, hmem, by simpa using hzero⟩
  | none =>
    refine Or.inr ⟨rfl, ?_⟩
    rintro ⟨slot, hlt, hzero⟩
    rw [List.find?_eq_none] at hfind
    exact hfind slot (List.mem_range.mpr hlt) (by simpa using hzero)

/-- With a free slot `process_load` goes on with the first one. -/
theorem processLoad_eq (filename : List UInt8) {slot : Nat}
    (hslot : processGetFreeSlot k.processes = slot) :
    processLoad filename k = processLoadForSlot filename slot k := by
  unfold processLoad
  rw [bind_of_ok (m := reads Kernel.processes) (a := k.processes) (t := k) rfl, hslot, if_neg (by omega)]

/-- Without one it takes the positive error for a slot that is taken, and its error exit looks
at a process that is not set. -/
theorem processLoad_full (filename : List UInt8) (h : ¬ k.HasSlot) :
    processLoad filename k = .error .uninitialised := by
  obtain ⟨slot, -, hlt, hzero⟩ | ⟨hslot, -⟩ := processGetFreeSlot_cases k
  · exact absurd ⟨slot, hlt, hzero⟩ h
  have hslot : processGetFreeSlot k.processes = (8 : Nat) := hslot
  rw [processLoad_eq filename hslot]
  have htaken : k.processes 8 ≠ 0 := fun hzero => h ⟨8, by decide, hzero⟩
  unfold processLoadForSlot
  have hget : processGet ((8 : Nat) : Int) k = .ok (k.processes 8, k) := rfl
  rw [bind_of_ok hget, if_pos htaken]
  rfl

/-- Without memory for the process the load fails and changes nothing. -/
theorem processLoad_noRoom (filename : List UInt8) (h : k.HasSlot) (hno : k.NoRoom sizeofProcess) :
    processLoad filename k = .ok ((-ENOMEM, 0), k) := by
  obtain ⟨slot, hslot, hlt, hzero⟩ | ⟨-, hnone⟩ := processGetFreeSlot_cases k
  · rw [processLoad_eq filename hslot]
    unfold processLoadForSlot
    have hget : processGet (slot : Int) k = .ok (0, k) := by
      unfold processGet
      rw [if_neg (by simp only [PLUMOS_MAX_PROCESSES]; omega), Int.toNat_natCast, ← hzero]
      rfl
    have hnull : kzallocObj sizeofProcess (.process Process.zero) k = .ok (0, k) :=
      bind_of_ok (kzalloc_of_noRoom hno)
    rw [bind_of_ok hget, if_neg fun h0 => h0 rfl, bind_of_ok hnull, if_pos rfl]
    rfl
  · exact absurd h hnone

end Slot

section Failure

variable {k k' : Kernel} {filename : List UInt8} {r : Int × Nat}

theorem Kernel.Held.sameTables {p : Nat} (h : k'.Held p) (hs : SameTables k k') : k.Held p := by
  obtain ⟨b, hb, hp, hstart⟩ := h
  refine ⟨b, hb, hp, ?_⟩
  unfold HeapTable.IsStart HeapTable.IsFree at hstart ⊢
  rwa [Kernel.heap_entries_eq, ← hs.heap b (by omega) (by change (b : Int) < 25600; omega)]

/-- The process stays allocated when a load that had memory for it fails. -/
theorem processLoad_leaks (h : k.Tidy) (hload : processLoad filename k = .ok (r, k'))
    (hneg : r.1 < 0) (hroom : ¬ k.NoRoom sizeofProcess) : ¬ SameTables k k' := by
  intro hs
  obtain ⟨slot, hslot, hlt, -⟩ | ⟨-, hnone⟩ := processGetFreeSlot_cases k
  · rw [processLoad_eq filename hslot] at hload
    obtain ⟨-, ⟨hno, -⟩ | ⟨process, -, hfresh, hleaves⟩⟩ :=
      processLoadForSlot_leaves (.empty h) filename hlt _ _ hload
    · exact hroom hno
    · obtain ⟨-, -, hheld⟩ := hleaves.resolve_right fun hr => absurd hneg (not_lt.mpr hr.1)
      exact hfresh (hheld.sameTables hs)
  · rw [processLoad_full filename hnone] at hload
    cases hload

/-- `process_load_switch` does what `process_load` does where that does not return 0. -/
theorem processLoadSwitch_eq_error {e : Fault} :
    processLoadSwitch filename k = .error e ↔ processLoad filename k = .error e := by
  unfold processLoadSwitch
  cases hload : processLoad filename k with
  | error e' => rw [bind_of_error hload]
  | ok r =>
    rw [bind_of_ok hload]
    refine iff_of_false ?_ nofun
    unfold onlyIf
    split <;> nofun

theorem processLoadSwitch_eq_ok (hneg : r.1 < 0) :
    processLoadSwitch filename k = .ok (r, k') ↔ processLoad filename k = .ok (r, k') := by
  unfold processLoadSwitch
  cases hload : processLoad filename k with
  | error e => rw [bind_of_error hload]
  | ok r' =>
    obtain ⟨r', k₁⟩ := r'
    rw [bind_of_ok hload]
    by_cases h0 : r'.1 = 0
    · -- neither returns an error
      have hne : r' ≠ r := by
        rintro rfl
        exact absurd hneg (by omega)
      refine iff_of_false ?_ ?_
      · intro h
        obtain ⟨_, k₂, -, hpure⟩ := bind_eq_ok.mp h
        exact hne (pure_eq_ok.mp hpure).1
      · rintro ⟨⟩
        exact hne rfl
    · unfold onlyIf
      rw [if_neg h0]
      rfl

theorem processLoadSwitch_fails :
    LoadFails (processLoadSwitch filename) k ↔ LoadFails (processLoad filename) k := by
  unfold LoadFails
  rw [processLoadSwitch_eq_error, processLoadSwitch_eq_error]
  refine or_congr_left (exists_congr fun r => exists_congr fun k' => ?_)
  exact and_congr_left fun hneg => processLoadSwitch_eq_ok hneg

theorem processLoadSwitch_failsSafely :
    FailsSafely (processLoadSwitch filename) k ↔ FailsSafely (processLoad filename) k := by
  constructor
  · intro h
    exact
      { undone := fun r k' hload hneg => h.undone r k' ((processLoadSwitch_eq_ok hneg).mpr hload) hneg
        badPointer := fun he => h.badPointer (processLoadSwitch_eq_error.mpr he)
        uninitialised := fun he => h.uninitialised (processLoadSwitch_eq_error.mpr he) }
  · intro h
    exact
      { undone := fun r k' hload hneg => h.undone r k' ((processLoadSwitch_eq_ok hneg).mp hload) hneg
        badPointer := fun he => h.badPointer (processLoadSwitch_eq_error.mp he)
        uninitialised := fun he => h.uninitialised (processLoadSwitch_eq_error.mp he) }

/-- A load that fails is safe only for want of memory for the process. -/
theorem FailsSafely.noRoom (h : k.Tidy) (hsafe : FailsSafely (processLoad filename) k)
    (hfails : LoadFails (processLoad filename) k) : k.HasSlot ∧ k.NoRoom sizeofProcess := by
  have hslot : k.HasSlot := by
    by_contra hnone
    exact hsafe.uninitialised (processLoad_full filename hnone)
  refine ⟨hslot, ?_⟩
  by_contra hroom
  rcases hfails with ⟨r, k', hload, hneg⟩ | hbad | huninit
  · exact processLoad_leaks h hload hneg hroom (hsafe.undone r k' hload hneg).tables
  · exact hsafe.badPointer hbad
  · exact hsafe.uninitialised huninit

theorem failsSafely_of_noRoom (filename : List UInt8) (hslot : k.HasSlot)
    (hno : k.NoRoom sizeofProcess) : FailsSafely (processLoad filename) k := by
  have hrun := processLoad_noRoom filename hslot hno
  refine ⟨?_, ?_, ?_⟩
  · intro r k' hload _
    rw [hrun] at hload
    cases hload
    exact ⟨.refl k, .refl k, fun _ _ => Iff.rfl⟩
  · rw [hrun]
    nofun
  · rw [hrun]
    nofun

/-- A load that fails does so safely exactly when there is a slot for the process and no
memory for it. -/
theorem processLoad_failsSafely_iff (k : Kernel) (h : k.Tidy) (filename : List UInt8)
    (load : KM (Int × Nat))
    (hload : load = processLoad filename ∨ load = processLoadSwitch filename)
    (hfails : LoadFails load k) :
    FailsSafely load k ↔ k.HasSlot ∧ k.NoRoom sizeofProcess := by
  have hiff : LoadFails (processLoad filename) k →
      (FailsSafely (processLoad filename) k ↔ k.HasSlot ∧ k.NoRoom sizeofProcess) :=
    fun hfails => ⟨fun hsafe => hsafe.noRoom h hfails,
      fun hroom => failsSafely_of_noRoom filename hroom.1 hroom.2⟩
  rcases hload with rfl | rfl
  · exact hiff hfails
  · rw [processLoadSwitch_failsSafely]
    exact hiff (processLoadSwitch_fails.mp hfails)

/-- With memory for the process and a path that is not valid, the load returns an error. -/
theorem processLoad_invalid {m : Nat} (h : k.FreeFrom m) (hm : m + 4 ≤ 25600) (hslot : k.HasSlot)
    (hpath : ¬ ValidPath filename) : Returns (processLoad filename) k fun r _ => r.1 < 0 := by
  obtain ⟨slot, hslot, hlt, hzero⟩ | ⟨-, hnone⟩ := processGetFreeSlot_cases k
  · refine .of_eq (processLoad_eq filename hslot) ?_
    refine .bind (R := fun taken k' => taken = 0 ∧ k = k') ?_ ?_
    · unfold processGet
      rw [if_neg (by simp only [PLUMOS_MAX_PROCESSES]; omega), Int.toNat_natCast]
      exact .reads ⟨hzero, rfl⟩
    rintro _ _ ⟨rfl, rfl⟩
    rw [if_neg fun h0 => h0 rfl]
    refine .bind (kzallocObj_returns h (by decide) (show m + 3 ≤ 25600 by omega)) ?_
    rintro process k₁ ⟨hne, hobj, halive, hfree⟩
    rw [if_neg hne]
    refine .bind (R := fun res k' => res = - EIO ∧
      k'.objs process = some (.process Process.zero)) ?_ ?_
    · refine .bind (R := fun res k' => res = - EIO ∧
        k'.objs process = some (.process Process.zero)) ?_ ?_
      · refine .bind (R := fun r k' => r.1 = - EIO ∧
          k'.objs process = some (.process Process.zero)) ?_ ?_
        · refine .bind (kzallocObj_small_returns hfree (by decide) (by decide)
            (show m + 3 + 1 ≤ 25600 by omega)) ?_
          rintro elf_file k₂ ⟨-, -, -, -, hkeeps, -⟩
          have hobj₂ := (hkeeps process _ halive (by simp)).2.trans hobj
          refine .bind (R := fun fd k' => fd = 0 ∧ k₂ = k')
            ⟨0, k₂, fopen_invalid hpath _ k₂, rfl, rfl⟩ ?_
          rintro fd _ ⟨rfl, rfl⟩
          exact .bind (R := fun _ k' => k₂ = k') ⟨_, k₂, rfl, rfl⟩ fun _ _ hk =>
            .pure ⟨rfl, hk ▸ hobj₂⟩
        · rintro r k₂ ⟨hr, hobj₂⟩
          rw [if_pos (by rw [hr]; decide)]
          exact .pure ⟨hr, hobj₂⟩
      · rintro res k₂ ⟨rfl, hobj₂⟩
        exact .pure ⟨rfl, hobj₂⟩
    · rintro res k₂ ⟨rfl, hobj₂⟩
      rw [if_pos (by decide)]
      unfold processLoadFail
      rw [if_neg hne]
      refine .bind (deref_returns hne hobj₂ rfl) ?_
      rintro p _ ⟨rfl, rfl⟩
      exact .pure (by decide)
  · exact absurd hslot hnone

end Failure

/-- The path `a` names no drive, so no program is found. -/
theorem processLoad_noDrive :
    Returns (processLoad [0x61]) (Kernel.boot Disk.blank) fun r _ => r.1 < 0 :=
  processLoad_invalid (boot_freeFrom Disk.blank) (by decide) ⟨0, by decide, rfl⟩ (by decide)

theorem processLoad_failsSafely_iff_noDrive :
    FailsSafely (processLoad [0x61]) (Kernel.boot Disk.blank) ↔
      (Kernel.boot Disk.blank).HasSlot ∧ (Kernel.boot Disk.blank).NoRoom sizeofProcess := by
  obtain ⟨r, k', hload, hneg⟩ := processLoad_noDrive
  exact processLoad_failsSafely_iff _ (boot_tidy _) [0x61] _ (Or.inl rfl)
    (Or.inl ⟨r, k', hload, hneg⟩)

/-- The process that was allocated for it stays. -/
theorem processLoad_noDrive_leaks : ∃ r k',
    processLoad [0x61] (Kernel.boot Disk.blank) = .ok (r, k') ∧ r.1 < 0 ∧
      ¬ LoadUndone (Kernel.boot Disk.blank) k' := by
  obtain ⟨r, k', hload, hneg⟩ := processLoad_noDrive
  refine ⟨r, k', hload, hneg, fun hundone => ?_⟩
  refine processLoad_leaks (boot_tidy _) hload hneg (fun hno => ?_) hundone.tables
  exact hno.1 ⟨by decide, by decide⟩

end PlumOS
