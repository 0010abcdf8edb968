import PlumOS.Fs.FileFence

/-!
# What an open leaves behind

`fopen` parses its path into a list that nothing releases: no exit of it calls
`pathparser_free`. An open followed by a close, or an open that fails, therefore
restores the heap table exactly when the parser rejects the path before it allocates.

## Main results

- `fopen_leaves_root` — the block of the path's root stays taken
- `fopen_restores_iff` — which opens are undone by their close
-/

namespace PlumOS

open StateExcept

/-- The paths that `pathparser_parse` builds a list for. -/
def ValidPath (path : List UInt8) : Prop :=
  strlen path ≤ PLUMOS_MAX_PATH ∧ pathparserPathValidFormat path = true

instance (path : List UInt8) : Decidable (ValidPath path) := inferInstanceAs (Decidable (_ ∧ _))

/-- The table of the kernel heap and the table of file descriptors are the same. -/
structure SameTables (k k' : Kernel) : Prop where
  heap : ∀ i : Int, 0 ≤ i → i < kernelHeapBlocks → k'.heap_entries i = k.heap_entries i
  file_descriptors : ∀ i < PLUMOS_MAX_FILE_DESCRIPTORS,
    k'.file_descriptors i = k.file_descriptors i

theorem SameTables.refl (k : Kernel) : SameTables k k := ⟨fun _ _ _ => rfl, fun _ _ => rfl⟩

/-- An open from `k` that returned `fd` in `k'` is undone: at once if it failed, else
by `fclose(fd)`. -/
def OpenUndone (k : Kernel) (fd : Int) (k' : Kernel) : Prop :=
  (fd = 0 → SameTables k k') ∧
    (0 < fd → ∃ res k'', fclose fd k' = .ok (res, k'') ∧ SameTables k k'')

/-- A new fence stands only where the heap table has changed. -/
theorem NewFence.not_sameTables {F : Fence} {k k' : Kernel} (h : NewFence F k k') :
    ¬ SameTables k k' := by
  intro hsame
  obtain ⟨b, hb, hfree⟩ := h.fresh
  obtain ⟨h₀, hlt⟩ := h.stands.inside b hb
  refine h.stands.not_free hb ?_
  unfold HeapTable.IsFree at hfree ⊢
  rw [Kernel.heap_entries_eq, hsame.heap b h₀ hlt]
  exact hfree

theorem pathparserGetDriveByPath_nonneg {path : List UInt8}
    (h : pathparserPathValidFormat path = true) : 0 ≤ (pathparserGetDriveByPath path).1 := by
  unfold pathparserGetDriveByPath
  rw [h]
  have hdigit : isdigit (charAt path 0) = true := by
    simp only [pathparserPathValidFormat, Bool.and_eq_true] at h
    exact h.1.1.2
  simp only [isdigit, Bool.and_eq_true, decide_eq_true_eq, UInt8.le_iff_toNat_le] at hdigit
  have hlow : 48 ≤ (charAt path 0).toNat := hdigit.1
  simp only [Bool.not_true, Bool.false_eq_true, if_false, toenumericdigit]
  omega

/-- A path that is not valid costs nothing. -/
theorem pathparserParse_invalid {path : List UInt8} (h : ¬ ValidPath path) (k : Kernel) :
    pathparserParse path k = .ok (0, k) := by
  unfold pathparserParse
  split
  · rfl
  next hlen =>
  have hformat : pathparserPathValidFormat path = false := by
    cases hv : pathparserPathValidFormat path with
    | false => rfl
    | true => exact absurd ⟨by omega, hv⟩ h
  unfold pathparserGetDriveByPath
  rw [hformat]
  rfl

theorem fopen_invalid {filename : List UInt8} (h : ¬ ValidPath filename) (mode_str : List UInt8)
    (k : Kernel) : fopen filename mode_str k = .ok (0, k) := by
  unfold fopen fopenRes
  rw [bind_of_ok (bind_of_ok (pathparserParse_invalid h k))]
  rfl

/-- The root of a valid path gets a fence. -/
theorem pathparserParse_root {path : List UInt8} (h : ValidPath path) {k : Kernel}
    (hk : k.HeapSound) :
    Ensures (pathparserParse path) k fun root k' => root ≠ 0 ∧ ∃ F, NewFence F k k' := by
  have hdrive := pathparserGetDriveByPath_nonneg h.2
  unfold pathparserParse
  rw [if_neg (by have := h.1; omega)]
  dsimp only
  rw [if_neg (by omega)]
  refine Ensures.bind (R := fun root k' => root ≠ 0 ∧ ∃ F, NewFence F k k') ?_ ?_
  · refine Ensures.bind (kzallocObj_newFence hk (by decide) (by decide) _) ?_
    rintro path_r k₁ (⟨rfl, rfl⟩ | ⟨hne, F, hF⟩)
    · -- the NULL that `kzalloc` returned is written to
      refine Ensures.bind (R := fun _ _ => False) ?_ fun _ _ hf => hf.elim
      exact Ensures.bind (deref_spec _ _ _) fun _ _ hr => absurd rfl hr.2.1
    · refine Ensures.bind (modifyPathRoot_fenced hF.stands (hF.not_mem _) _
        fun _ _ => hF.stands.safe_zero) ?_
      rintro _ k₂ ⟨hk₂, -⟩
      exact Ensures.pure ⟨hne, F, hF.fenced hk₂⟩
  · rintro root k₁ ⟨hroot, F, hF⟩
    rw [if_neg hroot]
    refine (pathparserParse_rest_fenced hF.stands (hF.not_mem _) _ _).ensures ?_
    rintro _ k₂ hk₂ rfl
    exact ⟨hroot, F, hF.fenced hk₂⟩

/-- Whatever becomes of the open, a block that was free is taken for the path, and what
was opened is safe for it. -/
theorem fopen_leaves_root {filename : List UInt8} (h : ValidPath filename)
    (mode_str : List UInt8) {k : Kernel} (hk : k.HeapSound) :
    Ensures (fopen filename mode_str) k fun fd k' => ∃ F : Fence, NewFence F k k' ∧
      (fd ≠ 0 → ∃ i : Nat, i < 512 ∧ fd = i + 1 ∧ F.Safe k' (k'.file_descriptors i)) := by
  refine Ensures.bind (R := fun (res : Int) k' => ∃ F : Fence, NewFence F k k' ∧
    (0 < res → ∃ i : Nat, i < 512 ∧ res = i + 1 ∧ F.Safe k' (k'.file_descriptors i))) ?_ ?_
  · refine Ensures.bind (pathparserParse_root h hk) ?_
    rintro root k₁ ⟨hroot, F, hF⟩
    rw [if_neg hroot]
    refine (fopenRes_rest_fenced hF.stands (fun i hi => absurd hi (hF.not_slot i)) root
      mode_str).ensures ?_
    intro res k₂ hk₂ hres
    exact ⟨F, hF.fenced hk₂, hres⟩
  · rintro res k₁ ⟨F, hF, hres⟩
    refine Ensures.pure ⟨F, hF, fun hne => ?_⟩
    split at hne
    · exact absurd rfl hne
    · next hnonneg =>
      rw [if_neg hnonneg]
      exact hres (by omega)

/-- An open is undone exactly when its path is one that the parser rejects. -/
theorem fopen_restores_iff {filename mode_str : List UInt8} {k k' : Kernel} {fd : Int}
    (hk : k.HeapSound) (hopen : fopen filename mode_str k = .ok (fd, k')) :
    OpenUndone k fd k' ↔ ¬ ValidPath filename := by
  constructor
  · rintro ⟨hfailed, hclosed⟩ hvalid
    obtain ⟨F, hF, hfd⟩ := fopen_leaves_root hvalid mode_str hk _ _ hopen
    by_cases h0 : fd = 0
    · exact hF.not_sameTables (hfailed h0)
    · obtain ⟨i, -, rfl, hsafe⟩ := hfd h0
      obtain ⟨res, k'', hclose, hsame⟩ := hclosed (by omega)
      have hk'' := fclose_fenced hF.stands _ (fun _ _ => ?_) _ _ hclose
      · exact (hF.fenced hk''.1).not_sameTables hsame
      · rwa [show ((i : Int) + 1 - 1).toNat = i by omega]
  · intro hinvalid
    rw [fopen_invalid hinvalid] at hopen
    cases hopen
    exact ⟨fun _ => .refl k, fun h => absurd h (lt_irrefl 0)⟩

/-- The path is `a`, which names no drive. -/
theorem fopen_restores_no_drive :
    OpenUndone (Kernel.boot Disk.blank) 0 (Kernel.boot Disk.blank) ↔ ¬ ValidPath [0x61] :=
  fopen_restores_iff (boot_heapSound _) (fopen_invalid (by decide) [0x72] _)

/-- With two free blocks the path `0:/` is parsed, to a list without parts. -/
theorem pathparserParse_root_returns {k : Kernel} {m : Nat} (h : k.FreeFrom m)
    (hm : m + 2 ≤ 25600) :
    Returns (pathparserParse [0x30, 0x3A, 0x2F]) k fun root k' =>
      root ≠ 0 ∧ k'.objs root = some (.pathRoot ⟨0, 0⟩) := by
  have hdrive : pathparserGetDriveByPath [0x30, 0x3A, 0x2F] = (0, []) := by decide
  unfold pathparserParse
  rw [if_neg (by decide), hdrive]
  dsimp only
  rw [if_neg (by decide)]
  refine Returns.bind (R := fun root k' => k'.FreeFrom (m + 1) ∧ k'.Alive root 1 ∧
    k'.objs root = some (.pathRoot ⟨0, 0⟩)) ?_ ?_
  · refine Returns.bind (kzallocObj_small_returns h (by decide) (by decide) (by omega)) ?_
    rintro root k₁ ⟨hfree, hroot, -, hobj, -, -⟩
    refine Returns.bind (R := fun _ k₂ => Stored k₁ root (.pathRoot ⟨0, 0⟩) k₂) ?_ ?_
    · refine Returns.bind (deref_returns hroot.ne_zero hobj rfl) ?_
      rintro r _ ⟨rfl, rfl⟩
      exact storeObj_spec _ _ _
    · intro _ k₂ hst
      exact .pure ⟨hfree.congr hst.heap_entries, hst.alive hroot, hst.self⟩
  · rintro root k₁ ⟨hfree, hroot, hobj⟩
    rw [if_neg hroot.ne_zero]
    refine Returns.bind (R := fun first k₂ => first.1 = 0 ∧ k₂.objs root = k₁.objs root) ?_ ?_
    · refine Returns.bind (R := fun r k₂ => r.1 = 0 ∧ k₂.objs root = k₁.objs root) ?_ ?_
      · refine Returns.bind (kzalloc_returns hfree (by decide) (by
          change m + 1 + 1 ≤ 25600
          omega)) ?_
        rintro part k₂ ⟨hk₂, hpart, -⟩
        obtain ⟨hroot₂, hobj₂⟩ := hk₂.keeps (by decide) root 1 hroot (by simp)
        refine Returns.bind (kfree_spec hpart) ?_
        intro _ k₃ hk₃
        have hne : root ∉ [part] := by simpa using hk₂.ne_alive hroot
        exact .pure ⟨rfl, (hk₃.keeps root 1 hroot₂ hne).2.trans hobj₂⟩
      · rintro r k₂ ⟨hr, hobj₂⟩
        rw [if_pos hr]
        exact .pure ⟨rfl, hobj₂⟩
    · rintro first k₂ ⟨hfirst, hobj₂⟩
      rw [if_pos hfirst]
      exact .pure ⟨hroot.ne_zero, hobj₂.trans hobj⟩

/-- The open of the root directory fails. Its path stays. -/
theorem fopen_restores_root_directory : ∃ k',
    fopen [0x30, 0x3A, 0x2F] [0x72] (Kernel.boot Disk.blank) = .ok (0, k') ∧
      ¬ OpenUndone (Kernel.boot Disk.blank) 0 k' := by
  have hreturns : Returns (fopen [0x30, 0x3A, 0x2F] [0x72]) (Kernel.boot Disk.blank)
      fun fd _ => 0 = fd := by
    refine Returns.bind (R := fun res _ => res < 0) ?_ fun res k₁ hres => ?_
    · refine Returns.bind (pathparserParse_root_returns (boot_freeFrom _) (by decide)) ?_
      rintro root k₁ ⟨hroot, hobj⟩
      rw [if_neg hroot]
      refine Returns.bind (deref_returns hroot hobj rfl) ?_
      rintro r _ ⟨rfl, rfl⟩
      exact .pure (by decide)
    · rw [if_pos hres]
      exact .pure rfl
  obtain ⟨_, k', hopen, rfl⟩ := hreturns
  refine ⟨k', hopen, fun hundone => ?_⟩
  obtain ⟨F, hF, -⟩ := fopen_leaves_root (by decide) _ (boot_heapSound _) _ _ hopen
  exact hF.not_sameTables (hundone.1 rfl)

end PlumOS
