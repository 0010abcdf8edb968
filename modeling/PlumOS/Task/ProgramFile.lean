import PlumOS.Fs.WholeFile
import PlumOS.Task.LoadOwnership
import PlumOS.Task.ProcessMemory

/-!
# Reading a program from its file

A program is read as an ELF file first. A file without the signature is refused, and is then
read again as a flat binary.

## Main definitions

- `NoElf` — a file without the signature of ELF
- `LoadedBinary` — a process with a flat binary in memory of its own

## Main results

- `elfLoad_refuses`, `processLoadBinary_loads`
-/

namespace PlumOS

open StateExcept

/-- One of the first four bytes is not that of the signature. -/
def NoElf (size : Nat) (f : Nat → UInt8) : Prop :=
  ∃ j < 4, j < size ∧ f j ≠ [0x7f, 0x45, 0x4C, 0x46].getD j 0

theorem NoElf.validate {size p : Nat} {f : Nat → UInt8} {k : Kernel} (hf : NoElf size f)
    (hb : HoldsBytes k p size f) : elfValidateLoaded (readElfHeader k.mem p) = -EINVFORMAT := by
  obtain ⟨j, hj, hlt, hne⟩ := hf
  rw [← hb j hlt] at hne
  have hsignature : elfValidSignature (readElfHeader k.mem p) = false := by
    rw [← Bool.not_eq_true]
    intro hvalid
    unfold elfValidSignature at hvalid
    simp only [Bool.and_eq_true, beq_iff_eq] at hvalid
    obtain ⟨⟨⟨h₀, h₁⟩, h₂⟩, h₃⟩ := hvalid
    obtain rfl | rfl | rfl | rfl : j = 0 ∨ j = 1 ∨ j = 2 ∨ j = 3 := by omega
    · exact hne h₀
    · exact hne h₁
    · exact hne h₂
    · exact hne h₃
  unfold elfValidateLoaded
  rw [hsignature]
  rfl

section Program

variable {k₀ k₁ k k' : Kernel} {h : FatHeader} {es : List FatDirectoryItem}
  {cs : List (List UInt8)} {e : FatDirectoryItem} {chain : List Nat} {blocks i m : Nat}
  {path : List UInt8}

/-! ### As an ELF file -/

/-- The opened file is read into new memory, which the structure of the ELF file points to. -/
theorem elfLoadOpened_round {elf_file n : Nat} {f : ElfFile} (ho : OpenedAs k₀ k₁ i e)
    (hvol : FatVolume h k₁.disk) (hc : FileClusters h k₁.disk.image e chain)
    (hsize : 1 ≤ e.filesize) (hi : (i : Int) + 1 < PLUMOS_MAX_FILE_DESCRIPTORS)
    (helf : k₀.Alive elf_file n) (helf₁ : k₁.Alive elf_file n)
    (hobj : k₁.objs elf_file = some (.elfFile f)) (hfree : k₁.FreeFrom m)
    (hm : m + blocksOf e.filesize ≤ 25600) {Q : Int → Kernel → Prop}
    (hrest : ∀ memory k, Grown (k₁.put elf_file (.elfFile { f with elf_memory := memory }))
        (m + blocksOf e.filesize) k →
      Grown.Own k₁ k memory (blocksOf e.filesize) →
      HoldsBytes k memory e.filesize (h.contents k₁.disk.image chain) →
      k.file_descriptors = k₁.file_descriptors → Returns (elfProcessLoaded elf_file) k Q) :
    Returns (elfLoadOpened elf_file (i + 1)) k₁ Q := by
  have hblocks : e.filesize ≤ 4096 * blocksOf e.filesize := by
    unfold blocksOf
    omega
  refine .bind (ho.fstat (.refl hfree) rfl hi hvol hc) ?_
  rintro _ _ ⟨rfl, flags, rfl⟩
  rw [if_neg (show ¬ (0 : Int) < 0 by decide)]
  dsimp only
  refine .bind (((Grown.refl hfree).kzalloc hsize hm).and_ensures (kzalloc_spec _ _)) ?_
  rintro memory k₂ ⟨⟨hne, hg₂, -, hown₂, -, -⟩, halloc⟩
  have hfds₂ : k₂.file_descriptors = k₁.file_descriptors := by
    rcases halloc with ⟨rfl, rfl⟩ | ha
    · rfl
    · exact ha.globals.file_descriptors
  refine .bind (deref_returns helf.ne_zero ((hg₂.obj helf₁).trans hobj) rfl) ?_
  rintro _ _ ⟨rfl, rfl⟩
  refine .bind (storeObj_spec k₂ elf_file _) ?_
  intro _ k₃ hst₃
  -- as if the structure had been written before the memory was allocated
  have hg₃ := hg₂.put hst₃
  have hown₃ := hown₂.put hst₃
  have himage : k₃.disk.image = k₁.disk.image := hg₃.volume.image
  have hvol₃ : FatVolume h k₃.disk := FatVolume.congr hvol hg₃.volume
  have hc₃ : FileClusters h k₃.disk.image e chain := himage ▸ hc
  refine .bind ((ho.put helf _).fread hg₃ (hst₃.globals.file_descriptors.trans hfds₂) hi
    hvol₃ hc₃ hsize hown₃ hblocks) ?_
  rintro _ k₄ ⟨rfl, hg₄, hk₄, hbytes⟩
  rw [if_neg (by decide)]
  have hentries₄ : k₄.heap_entries = k₃.heap_entries := by rw [hk₄]
  have hfds₄ : k₄.file_descriptors = k₃.file_descriptors := by rw [hk₄]
  rw [himage] at hbytes
  exact hrest memory k₄ hg₄ ⟨hown₃.alive.congr hentries₄, hown₃.fresh⟩ hbytes
    (hfds₄.trans (hst₃.globals.file_descriptors.trans hfds₂))

/-- The file of an ELF structure after its headers were looked at: `R` says what became of the
structure. -/
def Processes (size : Nat) (bytes : Nat → UInt8) (res : Int) (R : Nat → ElfFile → Prop) : Prop :=
  ∀ elf_file memory k, elf_file ≠ 0 → k.Alive memory (blocksOf size) →
    k.objs elf_file = some (.elfFile { ElfFile.zero with elf_memory := memory }) →
    HoldsBytes k memory size bytes → Returns (elfProcessLoaded elf_file) k fun r k' => r = res ∧
      ∃ f, R memory f ∧ Stored k elf_file (.elfFile f) k'

/-- An ELF structure with the file's bytes, in memory that is new since `k₀`. -/
structure LoadedElf (k₀ k : Kernel) (elf_file size : Nat) (bytes : Nat → UInt8)
    (R : Nat → ElfFile → Prop) : Prop where
  own : Grown.Own k₀ k elf_file 1
  memory : ∃ f memory, k.objs elf_file = some (.elfFile f) ∧ R memory f ∧
    Grown.Own k₀ k memory (blocksOf size) ∧ HoldsBytes k memory size bytes

/-- The file of a path is opened, read and closed. -/
theorem elfLoad_reads (hf : FileAt h es cs e chain blocks path k) (ht : k.Tidy)
    (hfree : k.FreeFrom m) (hs : SlotFree k i)
    (hm : m + (2 * cs.length + blocks + 5) + blocksOf e.filesize ≤ 25600) {res : Int}
    {R : Nat → ElfFile → Prop}
    (hproc : Processes e.filesize (h.contents k.disk.image chain) res R) :
    Returns (elfLoad path) k fun r k' => r.1 = res ∧
      Grown k (m + (2 * cs.length + blocks + 5) + blocksOf e.filesize) k' ∧
      k'.file_descriptors = k.file_descriptors ∧
      (0 ≤ res → LoadedElf k k' r.2 e.filesize (h.contents k.disk.image chain) R) := by
  refine .bind (((Grown.refl hfree).kzallocObj (by decide) (by decide) (by omega)).and_ensures
    ((kzallocObj_made (.empty ht) (by decide) _).and
      (kzallocObj_small (by decide) (by decide)))) ?_
  rintro elf_file k₀ ⟨⟨hne, hg₀, -, helf, hobj₀⟩, ⟨hk₀, -⟩, hsmall⟩
  have hfds₀ : k₀.file_descriptors = k.file_descriptors :=
    (hsmall.resolve_left fun hbad => hne hbad.1).2.2.2.2.file_descriptors
  refine .bind ((hf.mono hg₀).opens (tableFence_stands hk₀.guards.tidy) hg₀.free (by omega)
    ⟨hfds₀ ▸ hs.first, hs.lt⟩) ?_
  rintro fd k₁ ⟨rfl, hg₁, hopen, desc, hfds₁⟩
  rw [if_neg (by omega)]
  have hf₁ := (hf.mono hg₀).mono hg₁
  have himage : k₁.disk.image = k.disk.image := (hg₀.trans hg₁).volume.image
  refine .bind (R := fun r k₅ => r = res ∧ ∃ f memory, R memory f ∧
    Grown (k₁.put elf_file (.elfFile f)) (m + (2 * cs.length + blocks + 5) + blocksOf e.filesize) k₅ ∧
    Grown.Own k₁ k₅ memory (blocksOf e.filesize) ∧
    HoldsBytes k₅ memory e.filesize (h.contents k.disk.image chain) ∧
    k₅.file_descriptors = k₁.file_descriptors) ?_ ?_
  · refine elfLoadOpened_round hopen hf₁.root.volume hf₁.file hf.size_pos hs.lt helf.alive
      (hg₁.alive _ _ helf.alive) ((hg₁.obj helf.alive).trans hobj₀) hg₁.free (by omega) ?_
    intro memory k₄ hg₄ hown hbytes hfds₄
    rw [himage] at hbytes
    refine (hproc elf_file memory k₄ hne hown.alive ?_ hbytes).mono ?_
    · exact (hg₄.obj (hg₁.alive _ _ helf.alive)).trans (k₁.put_stored _ _).self
    rintro _ k₅ ⟨rfl, f, hR, hst⟩
    have hg₅ := hg₄.put hst
    rw [Kernel.put_put] at hg₅
    refine ⟨rfl, f, memory, hR, hg₅.mono (by omega), ⟨hst.alive hown.alive, hown.fresh⟩,
      fun x hx => ?_, hst.globals.file_descriptors.trans hfds₄⟩
    rw [hst.mem]
    exact hbytes x hx
  rintro _ k₅ ⟨rfl, f, memory, hR, hg₅, hown, hbytes, hfds₅⟩
  -- as if the structure had been written before the file was opened
  have hst₁ := k₁.put_stored elf_file (.elfFile f)
  have hbefore := (hg₁.put hst₁).trans hg₅
  refine .bind ((hopen.put helf.alive _).fclose hg₅ hbefore hfds₅ hs.lt) ?_
  rintro _ k₆ ⟨-, hg₆, hkeep, hfds₆⟩
  have hst₀ := k₀.put_stored elf_file (.elfFile f)
  have hk₆ : Grown k (m + (2 * cs.length + blocks + 5) + blocksOf e.filesize) k₆ :=
    (hg₀.stored helf hst₀).trans hg₆
  refine .pure ⟨rfl, hk₆, ?_, fun hnonneg => ?_⟩
  · rw [hfds₆, hfds₅, hfds₁, Function.update_idem, hfds₀]
    exact Function.update_eq_self_iff.mpr hs.empty.symm
  · dsimp only
    rw [if_neg (not_lt.mpr hnonneg)]
    refine ⟨⟨hg₆.alive _ _ helf.alive, helf.fresh⟩, f, memory,
      (hg₆.obj helf.alive).trans hst₀.self, hR, ?_, ?_⟩
    · exact .before (hg₀.trans hg₁) ⟨hkeep.alive _ _ hown.alive hown.fresh, hown.fresh⟩
    · intro x hx
      rw [hkeep.mem]
      exact hbytes x hx

/-- The header is where the file was read to. -/
theorem elfHeader_returns {elf_file : Nat} {f : ElfFile} (hne : elf_file ≠ 0)
    (hobj : k.objs elf_file = some (.elfFile f)) (hmem : f.elf_memory ≠ 0) :
    Returns (elfHeader elf_file) k fun header k' =>
      k = k' ∧ header = readElfHeader k.mem f.elf_memory := by
  refine .bind (deref_returns hne hobj rfl) ?_
  rintro _ _ ⟨rfl, rfl⟩
  exact ⟨_, _, if_neg hmem, rfl, rfl⟩

/-- A file without the signature is refused. -/
theorem NoElf.processes {size : Nat} {bytes : Nat → UInt8} (hno : NoElf size bytes) :
    Processes size bytes (-EINVFORMAT) fun _ _ => True := by
  intro elf_file memory k hne hmem hobj hb
  refine .bind (elfHeader_returns hne hobj hmem.ne_zero) ?_
  rintro _ _ ⟨rfl, rfl⟩
  dsimp only
  rw [hno.validate hb, if_pos (by decide)]
  exact .pure ⟨rfl, _, trivial, hobj, fun _ _ => rfl, rfl, rfl, rfl, .refl k⟩

/-! ### As a flat binary -/

/-- The process with a flat binary as its program. -/
def Process.withBinary (p : Process) (ptr size : Nat) : Process :=
  { p with filetype := PROCESS_FILETYPE_BINARY, ptr := ptr, size := size }

/-- What reading a flat binary into the process `p` has made of `k₀`: only the structure of the
process changed, and the bytes are in new memory. -/
structure LoadedBinary (k₀ : Kernel) (m process : Nat) (p : Process) (size : Nat)
    (bytes : Nat → UInt8) (ptr : Nat) (k : Kernel) : Prop where
  grown : Grown (k₀.put process (.process (p.withBinary ptr size))) m k
  own : Grown.Own k₀ k ptr (blocksOf size)
  bytes : HoldsBytes k ptr size bytes

theorem processLoadBinaryOpened_loads {process n : Nat} {p : Process} (ho : OpenedAs k₀ k₁ i e)
    (hvol : FatVolume h k₁.disk) (hc : FileClusters h k₁.disk.image e chain)
    (hsize : 1 ≤ e.filesize) (hi : (i : Int) + 1 < PLUMOS_MAX_FILE_DESCRIPTORS)
    (hal : k₁.Alive process n) (hobj : k₁.objs process = some (.process p))
    (hfree : k₁.FreeFrom m) (hm : m + blocksOf e.filesize ≤ 25600) :
    Returns (processLoadBinaryOpened process (i + 1)) k₁ fun r k => r.1 = 0 ∧
      LoadedBinary k₁ (m + blocksOf e.filesize) process p e.filesize
        (h.contents k₁.disk.image chain) r.2 k ∧
      k.file_descriptors = k₁.file_descriptors := by
  have hblocks : e.filesize ≤ 4096 * blocksOf e.filesize := by
    unfold blocksOf
    omega
  refine .bind (ho.fstat (.refl hfree) rfl hi hvol hc) ?_
  rintro _ _ ⟨rfl, flags, rfl⟩
  rw [if_neg (show ¬ (0 : Int) ≠ PLUMOS_ALL_OK from not_not_intro rfl)]
  dsimp only
  refine .bind (((Grown.refl hfree).kzalloc hsize hm).and_ensures (kzalloc_spec _ _)) ?_
  rintro ptr k₂ ⟨⟨hne, hg₂, -, hown₂, -, -⟩, halloc⟩
  have hfds₂ : k₂.file_descriptors = k₁.file_descriptors := by
    rcases halloc with ⟨rfl, rfl⟩ | ha
    · rfl
    · exact ha.globals.file_descriptors
  rw [if_neg hne]
  have himage : k₂.disk.image = k₁.disk.image := hg₂.volume.image
  refine .bind (ho.fread hg₂ hfds₂ hi (hvol.congr hg₂.volume) (himage ▸ hc) hsize hown₂ hblocks) ?_
  rintro _ k₃ ⟨rfl, hg₃, hk₃, hbytes⟩
  rw [if_neg (not_not_intro rfl)]
  have hentries₃ : k₃.heap_entries = k₂.heap_entries := by rw [hk₃]
  have hfds₃ : k₃.file_descriptors = k₂.file_descriptors := by rw [hk₃]
  refine .bind (modifyProcess_returns _ hal.ne_zero ((hg₃.obj hal).trans hobj)) ?_
  intro _ k₄ hst₄
  refine .pure ⟨rfl, ⟨hg₃.put hst₄, ⟨hst₄.alive (hown₂.alive.congr hentries₃), hown₂.fresh⟩, ?_⟩,
    hst₄.globals.file_descriptors.trans (hfds₃.trans hfds₂)⟩
  intro x hx
  rw [hst₄.mem, ← himage]
  exact hbytes x hx

/-- The file of a path is opened, read into the process and closed. -/
theorem processLoadBinary_loads (hf : FileAt h es cs e chain blocks path k) (ht : k.Tidy)
    (hfree : k.FreeFrom m) (hs : SlotFree k i)
    (hm : m + (2 * cs.length + blocks + 4) + blocksOf e.filesize ≤ 25600) {process n : Nat}
    {p : Process} (hal : k.Alive process n) (hobj : k.objs process = some (.process p)) :
    Returns (processLoadBinary path process) k fun res k' => res = 0 ∧
      (∃ ptr, LoadedBinary k (m + (2 * cs.length + blocks + 4) + blocksOf e.filesize) process p
        e.filesize (h.contents k.disk.image chain) ptr k') ∧
      k'.file_descriptors = k.file_descriptors := by
  refine .bind (hf.opens (tableFence_stands ht) hfree (by omega) hs) ?_
  rintro fd k₁ ⟨rfl, hg₁, hopen, desc, hfds₁⟩
  rw [if_neg (by omega)]
  have hf₁ := hf.mono hg₁
  refine .bind (processLoadBinaryOpened_loads hopen hf₁.root.volume hf₁.file hf.size_pos hs.lt
    (hg₁.alive _ _ hal) ((hg₁.obj hal).trans hobj) hg₁.free (by omega)) ?_
  rintro ⟨_, ptr⟩ k₂ ⟨rfl, hl, hfds₂⟩
  refine .bind (R := fun _ k' => k₂ = k') (.onlyIf (fun hbad => absurd hbad.1 (lt_irrefl _))
    fun _ => rfl) ?_
  rintro _ _ rfl
  have hst₁ := k₁.put_stored process (.process (p.withBinary ptr e.filesize))
  refine .bind ((hopen.put hal _).fclose hl.grown ((hg₁.put hst₁).trans hl.grown) hfds₂ hs.lt) ?_
  rintro _ k₃ ⟨-, hg₃, hkeep, hfds₃⟩
  refine .pure ⟨rfl, ⟨ptr, hg₃, ?_, fun x hx => ?_⟩, ?_⟩
  · exact .before hg₁ ⟨hkeep.alive _ _ hl.own.alive hl.own.fresh, hl.own.fresh⟩
  · rw [hkeep.mem, ← hg₁.volume.image]
    exact hl.bytes x hx
  · rw [hfds₃, hfds₂, hfds₁, Function.update_idem]
    exact Function.update_eq_self_iff.mpr hs.empty.symm

theorem LoadedBinary.before {process size ptr M : Nat} {p : Process} {bytes : Nat → UInt8}
    (hg : Grown k₀ m k) (hl : LoadedBinary k M process p size bytes ptr k') :
    LoadedBinary k₀ M process p size bytes ptr k' where
  grown := (hg.put (k.put_stored process _)).trans hl.grown
  own := .before hg hl.own
  bytes := hl.bytes

/-- A file that is no ELF file is read as a flat binary. What the ELF loader took for it is
not given back. -/
theorem processLoadData_binary (hf : FileAt h es cs e chain blocks path k) (ht : k.Tidy)
    (hfree : k.FreeFrom m) (hs : SlotFree k i)
    (hno : NoElf e.filesize (h.contents k.disk.image chain))
    (hm : m + (4 * cs.length + 2 * blocks + 9) + 2 * blocksOf e.filesize ≤ 25600) {process n : Nat}
    {p : Process} (hal : k.Alive process n) (hobj : k.objs process = some (.process p)) :
    Returns (processLoadData path process) k fun res k' => res = 0 ∧
      (∃ ptr, LoadedBinary k (m + (4 * cs.length + 2 * blocks + 9) + 2 * blocksOf e.filesize) process
        p e.filesize (h.contents k.disk.image chain) ptr k') ∧
      k'.file_descriptors = k.file_descriptors := by
  refine .bind (R := fun res k₁ => res = -EINVFORMAT ∧
    Grown k (m + (2 * cs.length + blocks + 5) + blocksOf e.filesize) k₁ ∧
    k₁.file_descriptors = k.file_descriptors ∧ k₁.Tidy) ?_ ?_
  · refine .bind ((elfLoad_reads hf ht hfree hs (by omega) hno.processes).and_ensures
      (elfLoad_intact (.empty ht) path)) ?_
    rintro ⟨_, file⟩ k₁ ⟨⟨rfl, hg₁, hfds₁, -⟩, hk₁, -⟩
    dsimp only
    rw [if_pos (by decide)]
    exact .pure ⟨rfl, hg₁, hfds₁, hk₁.guards.tidy⟩
  rintro _ k₁ ⟨rfl, hg₁, hfds₁, ht₁⟩
  rw [if_pos rfl]
  have hobj₁ : k₁.objs process = some (.process p) := (hg₁.obj hal).trans hobj
  refine (processLoadBinary_loads (hf.mono hg₁) ht₁ hg₁.free ⟨hfds₁ ▸ hs.first, hs.lt⟩ (by omega)
    (hg₁.alive _ _ hal) hobj₁).mono ?_
  rintro res k₂ ⟨rfl, ⟨ptr, hl⟩, hfds₂⟩
  rw [hg₁.volume.image] at hl
  refine ⟨rfl, ⟨ptr, ?_⟩, hfds₂.trans hfds₁⟩
  have hl' := hl.before hg₁
  exact { hl' with grown := hl'.grown.mono (by omega) }

end Program

end PlumOS
