import PlumOS.Fs.FileFence
import PlumOS.Fs.OpenFile

/-!
# Descriptors do not disturb each other

All descriptors read through the three streams of the volume. Runs of file calls are
compared, for one open descriptor, with the run of its own calls alone: the calls on it
have the same results and store the same bytes.

## Main definitions

- `FileCall`, `FileStep` — runs of file calls
- `OwnFile` — an open descriptor whose structures are its own
- `SameView` — two states that agree on what a descriptor uses

## Main results

- `FileCall.run_alike` — a call on a descriptor depends on its view alone
- `file_run_isolated` — all runs
-/

namespace PlumOS

open StateExcept LabelledRun

/-! ### Calls -/

/-- A call of `fs/file.c`. -/
inductive FileCall
  | fopen (filename mode_str : List UInt8)
  | fread (ptr size nmemb : Nat) (fd : Int)
  | fseek (fd offset : Int) (whence : Nat)
  | fstat (fd : Int)
  | fclose (fd : Int)

/-- What a call returns: a status or descriptor, and what `fstat` stores. -/
structure FileAnswer where
  res : Int
  stat : Option FileStat

def FileCall.run : FileCall → KM FileAnswer
  | .fopen filename mode_str => do
    let fd ← PlumOS.fopen filename mode_str
    pure ⟨fd, none⟩
  | .fread ptr size nmemb fd => do
    let res ← PlumOS.fread ptr size nmemb fd
    pure ⟨res, none⟩
  | .fseek fd offset whence => do
    let res ← PlumOS.fseek fd offset whence
    pure ⟨res, none⟩
  | .fstat fd => do
    let r ← PlumOS.fstat fd
    pure ⟨r.1, r.2⟩
  | .fclose fd => do
    let res ← PlumOS.fclose fd
    pure ⟨res, none⟩

/-- The call reads, seeks or asks for the status of `fd`. -/
def FileCall.uses (fd : Int) : FileCall → Bool
  | .fread _ _ _ fd' => fd' == fd
  | .fseek fd' _ _ => fd' == fd
  | .fstat fd' => fd' == fd
  | _ => false

/-- A call that was made: what it returned, and memory before and after it. -/
structure FileEvent where
  call : FileCall
  answer : FileAnswer
  before : Nat → UInt8
  after : Nat → UInt8

inductive FileStep : Kernel → FileEvent → Kernel → Prop
  | mk {k k' : Kernel} {call : FileCall} {answer : FileAnswer} (h : call.run k = .ok (answer, k')) :
      FileStep k ⟨call, answer, k.mem, k'.mem⟩ k'

/-- Every byte of memory is the same afterwards, or both left it as it was. -/
def SameStores (before after before' after' : Nat → UInt8) : Prop :=
  ∀ a, after' a = after a ∨ after a = before a ∧ after' a = before' a

/-- The same call had the same results. -/
structure SameExchange (e e' : FileEvent) : Prop where
  call : e'.call = e.call
  answer : e'.answer = e.answer
  bytes : SameStores e.before e.after e'.before e'.after

theorem SameStores.refl (m m' : Nat → UInt8) : SameStores m m m' m' := fun _ => Or.inr ⟨rfl, rfl⟩

theorem SameStores.trans {m₁ m₂ m₃ m₁' m₂' m₃' : Nat → UInt8} (h : SameStores m₁ m₂ m₁' m₂')
    (h' : SameStores m₂ m₃ m₂' m₃') : SameStores m₁ m₃ m₁' m₃' := by
  intro a
  rcases h' a with heq | ⟨h₃, h₃'⟩
  · exact Or.inl heq
  · rw [h₃, h₃']
    exact h a

theorem sameStores_writeBytes (m m' : Nat → UInt8) (p : Nat) (bytes : List UInt8) :
    SameStores m (writeBytes m p bytes) m' (writeBytes m' p bytes) := by
  intro a
  unfold writeBytes
  by_cases h : p ≤ a ∧ a < p + bytes.length
  · rw [if_pos h, if_pos h]
    exact Or.inl rfl
  · rw [if_neg h, if_neg h]
    exact Or.inr ⟨rfl, rfl⟩

/-! ### Descriptors -/

/-- The fence `F` is around the structures of the open descriptor `fd`, and nothing that
another descriptor follows leads into it. -/
structure OwnFile (F : Fence) (k : Kernel) (fd : Int) (priv f_item : Nat) : Prop where
  opened : OpenDescriptor k fd priv
  slots_eq : F.slots = {(fd - 1).toNat}
  desc : k.file_descriptors (fd - 1).toNat ∈ F.objects
  private_mem : priv ∈ F.objects
  private_ne : priv ≠ 0
  private_eq : ∃ pos, k.objs priv = some (.fatFileDescriptor ⟨f_item, pos⟩)
  item_mem : f_item ∈ F.objects
  item_ne : f_item ≠ 0
  item_eq : ∃ i, k.objs f_item = some (.fatItem i) ∧ (i.item ≠ 0 → i.item ∈ F.objects ∧
    (k.objs i.item = none → ∀ a, i.item ≤ a → a < i.item + sizeofFatDirectoryItem → a ∈ F.bytes))
  stands : F.Stands k
  others : ∀ i, i ∉ F.slots → F.Safe k (k.file_descriptors i)

/-- Two states of one volume that agree on what the fence protects. -/
structure SameView (F : Fence) (d₀ : Disk) (k k' : Kernel) : Prop where
  slots : ∀ i ∈ F.slots, k'.file_descriptors i = k.file_descriptors i
  objs : ∀ p ∈ F.objects, k'.objs p = k.objs p
  mem : ∀ a ∈ F.bytes, k'.mem a = k.mem a
  volume : OnVolume d₀ k.disk k'.disk

section View

variable {F : Fence} {d₀ : Disk} {α : Type} {P : Kernel → Kernel → Prop}
  {Q : α → Kernel → Kernel → Prop}

/-- Following a structure that is the same in both states. -/
theorem deref_bind_alike {β : Type} {sel : Obj → Option β} {p : Nat} {k k' : Kernel} {b : β}
    {f : β → KM α} (hp : p ≠ 0) (hk : (k.objs p).bind sel = some b) (hk' : k'.objs p = k.objs p)
    (hf : Alike (fun x x' => x = k ∧ x' = k') (f b) (f b) Q) :
    Alike (fun x x' => x = k ∧ x' = k') (deref sel p >>= f) (deref sel p >>= f) Q := by
  rintro x x' ⟨hx, hx'⟩
  have h : deref sel p k = .ok (b, k) := deref_eq_ok.mpr ⟨hp, hk, rfl⟩
  have h' : deref sel p k' = .ok (b, k') := deref_eq_ok.mpr ⟨hp, by rw [hk', hk], rfl⟩
  rw [hx, hx', bind_of_ok h, bind_of_ok h']
  exact hf k k' ⟨rfl, rfl⟩

/-- A directory entry is read alike when both states have the same bytes there. -/
theorem derefItem_alike {p : Nat} (hP : ∀ k k', P k k' → p ≠ 0 → k'.objs p = k.objs p ∧
      (k.objs p = none → ∀ a, p ≤ a → a < p + 32 → k'.mem a = k.mem a)) :
    Alike P (derefItem p) (derefItem p) fun _ => P := by
  intro k k' hk
  unfold derefItem
  by_cases hp : p = 0
  · rw [if_pos (Or.inl hp), if_pos (Or.inl hp)]
  obtain ⟨hobj, hmem⟩ := hP k k' hk hp
  rw [hobj]
  by_cases ho : (k.objs p).isSome
  · rw [if_pos (Or.inr ho), if_pos (Or.inr ho)]
  · rw [if_neg (by simp [hp, ho]), if_neg (by simp [hp, ho])]
    refine ⟨(readFatDirectoryItem_congr fun a h₁ h₂ => ?_).symm, hk⟩
    exact hmem (by simpa using ho) a h₁ h₂

theorem onDisk_alike {m : DM α} (hm : Alike (OnVolume d₀) m m fun _ => OnVolume d₀)
    (hP : ∀ k k', P k k' → OnVolume d₀ k.disk k'.disk)
    (hQ : ∀ a k k' d d', P k k' → OnVolume d₀ d d' → Q a { k with disk := d } { k' with disk := d' }) :
    Alike P (onDisk m) (onDisk m) Q := by
  intro k k' hk
  have h := hm k.disk k'.disk (hP k k' hk)
  unfold onDisk
  cases hd : m k.disk with
  | error e =>
    cases hd' : m k'.disk with
    | error e' => simpa [hd, hd'] using h
    | ok r' => simp [hd, hd'] at h
  | ok r =>
    cases hd' : m k'.disk with
    | error e' => simp [hd, hd'] at h
    | ok r' =>
      simp only [hd, hd'] at h
      exact ⟨h.1, hQ _ _ _ _ _ hk h.2⟩

/-- Two views, and what has been stored since memory was `m` and `m'`. -/
def Stores (F : Fence) (d₀ : Disk) (m m' : Nat → UInt8) (k k' : Kernel) : Prop :=
  SameView F d₀ k k' ∧ SameStores m k.mem m' k'.mem

theorem storeBytes_alike {m m' : Nat → UInt8} {p : Nat} {bytes : List UInt8} :
    Alike (Stores F d₀ m m') (storeBytes p bytes) (storeBytes p bytes)
      fun _ => Stores F d₀ m m' := by
  refine .modifies fun k k' hk => ⟨⟨hk.1.slots, hk.1.objs, fun a ha => ?_, hk.1.volume⟩,
    hk.2.trans (sameStores_writeBytes _ _ _ _)⟩
  dsimp only
  unfold writeBytes
  rw [hk.1.mem a ha]

/-- The rounds of a read. -/
theorem fat16ReadLoop_alike {m m' : Nat → UInt8} {o : Option Obj} {item size : Nat}
    (hitem : item ≠ 0 → item ∈ F.objects ∧
      (o = none → ∀ a, item ≤ a → a < item + 32 → a ∈ F.bytes)) :
    ∀ (nmemb : Nat) (offset : Int) (out_ptr : Nat) (res : Int),
      Alike (fun k k' => Stores F d₀ m m' k k' ∧ k.objs item = o)
        (fat16ReadLoop item size nmemb offset out_ptr res)
        (fat16ReadLoop item size nmemb offset out_ptr res) fun _ => Stores F d₀ m m' := by
  intro nmemb
  induction nmemb with
  | zero => exact fun _ _ _ => .pure fun _ _ h => h.1
  | succ nmemb ih =>
    intro offset out_ptr res
    refine .bind (derefItem_alike fun k k' hk hne => ?_) fun i => ?_
    · obtain ⟨hmem, hbytes⟩ := hitem hne
      exact ⟨hk.1.1.objs item hmem, fun hnone a h₁ h₂ =>
        hk.1.1.mem a (hbytes (hk.2.symm.trans hnone) a h₁ h₂)⟩
    refine .bind (onDisk_alike (Q := fun _ k k' => Stores F d₀ m m' k k' ∧ k.objs item = o)
      (fat16ReadInternal_alike _ _ _) (fun k k' hk => hk.1.1.volume) ?_) fun r => ?_
    · intro _ k k' d d' hk hv
      exact ⟨⟨⟨hk.1.1.slots, hk.1.1.objs, hk.1.1.mem, hv⟩, hk.1.2⟩, hk.2⟩
    refine .bind (Q := fun _ k k' => Stores F d₀ m m' k k' ∧ k.objs item = o) ?_ fun _ => ?_
    · refine .modifies fun k k' hk => ⟨?_, hk.2⟩
      exact (storeBytes_alike k k' hk.1).2
    · exact .ite (fun _ => .pure fun _ _ h => h.1) fun _ => ih _ _ _

end View

section Calls

variable {F : Fence} {d₀ : Disk} {k k' : Kernel} {fd : Int} {priv f_item : Nat}

/-- The entry that an open file refers to, read in both states. -/
theorem OwnFile.entry_alike {i : FatItem}
    (hi : i.item ≠ 0 → i.item ∈ F.objects ∧ (k.objs i.item = none →
      ∀ a, i.item ≤ a → a < i.item + sizeofFatDirectoryItem → a ∈ F.bytes))
    (hv : SameView F d₀ k k') :
    Alike (fun x x' => x = k ∧ x' = k') (derefItem i.item) (derefItem i.item)
      fun _ x x' => x = k ∧ x' = k' := by
  refine derefItem_alike ?_
  rintro _ _ ⟨rfl, rfl⟩ hne
  obtain ⟨hmem, hbytes⟩ := hi hne
  exact ⟨hv.objs _ hmem, fun hnone a h₁ h₂ => hv.mem a (hbytes hnone a h₁ h₂)⟩

theorem fat16Read_alike (h : OwnFile F k fd priv f_item) (hv : SameView F d₀ k k')
    (size nmemb out_ptr : Nat) :
    Alike (fun x x' => x = k ∧ x' = k') (fat16Read priv size nmemb out_ptr)
      (fat16Read priv size nmemb out_ptr) fun _ => Stores F d₀ k.mem k'.mem := by
  obtain ⟨pos, hpriv⟩ := h.private_eq
  obtain ⟨i, hi, hentry⟩ := h.item_eq
  refine deref_bind_alike h.private_ne (Obj.fatFileDescriptor?_eq_some.mpr hpriv)
    (hv.objs _ h.private_mem) ?_
  refine deref_bind_alike h.item_ne (Obj.fatItem?_eq_some.mpr hi) (hv.objs _ h.item_mem) ?_
  refine .bind (Q := fun _ => Stores F d₀ k.mem k'.mem)
    ((fat16ReadLoop_alike hentry _ _ _ _).mono ?_ fun _ _ _ hs => hs) fun res => ?_
  · rintro _ _ ⟨rfl, rfl⟩
    exact ⟨⟨hv, .refl _ _⟩, rfl⟩
  · exact .ite (fun _ => .pure fun _ _ hs => hs) fun _ => .pure fun _ _ hs => hs

theorem fat16Stat_alike (h : OwnFile F k fd priv f_item) (hv : SameView F d₀ k k') :
    Alike (fun x x' => x = k ∧ x' = k') (fat16Stat priv) (fat16Stat priv)
      fun _ => Stores F d₀ k.mem k'.mem := by
  have hsame : ∀ x x', x = k ∧ x' = k' → Stores F d₀ k.mem k'.mem x x' := by
    rintro _ _ ⟨rfl, rfl⟩
    exact ⟨hv, .refl _ _⟩
  obtain ⟨pos, hpriv⟩ := h.private_eq
  obtain ⟨i, hi, hentry⟩ := h.item_eq
  refine deref_bind_alike h.private_ne (Obj.fatFileDescriptor?_eq_some.mpr hpriv)
    (hv.objs _ h.private_mem) ?_
  refine deref_bind_alike h.item_ne (Obj.fatItem?_eq_some.mpr hi) (hv.objs _ h.item_mem) ?_
  refine .ite (fun _ => .pure hsame) fun _ => ?_
  exact .bind (OwnFile.entry_alike hentry hv) fun ritem => .pure hsame

/-- Moving the position of a descriptor. -/
theorem modifyFatFileDescriptor_alike (h : OwnFile F k fd priv f_item) (hv : SameView F d₀ k k')
    (f : FatFileDescriptor → FatFileDescriptor) :
    Alike (fun x x' => x = k ∧ x' = k') (modifyFatFileDescriptor priv f)
      (modifyFatFileDescriptor priv f) fun _ => Stores F d₀ k.mem k'.mem := by
  obtain ⟨pos, hpriv⟩ := h.private_eq
  refine deref_bind_alike h.private_ne (Obj.fatFileDescriptor?_eq_some.mpr hpriv)
    (hv.objs _ h.private_mem) ?_
  refine .modifies ?_
  rintro _ _ ⟨rfl, rfl⟩
  refine ⟨⟨hv.slots, fun p hp => ?_, hv.mem, hv.volume⟩, .refl _ _⟩
  dsimp only
  by_cases hpp : p = priv
  · subst hpp
    rw [Function.update_self, Function.update_self]
  · rw [Function.update_of_ne hpp, Function.update_of_ne hpp]
    exact hv.objs p hp

theorem fat16Seek_alike (h : OwnFile F k fd priv f_item) (hv : SameView F d₀ k k')
    (offset seek_mode : Nat) :
    Alike (fun x x' => x = k ∧ x' = k') (fat16Seek priv offset seek_mode)
      (fat16Seek priv offset seek_mode) fun _ => Stores F d₀ k.mem k'.mem := by
  have hsame : ∀ x x', x = k ∧ x' = k' → Stores F d₀ k.mem k'.mem x x' := by
    rintro _ _ ⟨rfl, rfl⟩
    exact ⟨hv, .refl _ _⟩
  have hmodify : ∀ f, Alike (fun x x' => x = k ∧ x' = k')
      (do modifyFatFileDescriptor priv f; pure 0) (do modifyFatFileDescriptor priv f; pure 0)
      fun (_ : Int) => Stores F d₀ k.mem k'.mem := fun f =>
    .bind (modifyFatFileDescriptor_alike h hv f) fun _ => .pure fun _ _ hs => hs
  obtain ⟨pos, hpriv⟩ := h.private_eq
  obtain ⟨i, hi, hentry⟩ := h.item_eq
  refine deref_bind_alike h.private_ne (Obj.fatFileDescriptor?_eq_some.mpr hpriv)
    (hv.objs _ h.private_mem) ?_
  refine deref_bind_alike h.item_ne (Obj.fatItem?_eq_some.mpr hi) (hv.objs _ h.item_mem) ?_
  refine .ite (fun _ => .pure hsame) fun _ => ?_
  refine .bind (OwnFile.entry_alike hentry hv) fun ritem => ?_
  refine .ite (fun _ => .pure hsame) fun _ => ?_
  refine .ite (fun _ => hmodify _) fun _ => ?_
  refine .ite (fun _ => .pure hsame) fun _ => ?_
  exact .ite (fun _ => hmodify _) fun _ => .pure hsame

/-- The descriptor is open in the other state. -/
theorem OwnFile.opened_view (h : OwnFile F k fd priv f_item) (hv : SameView F d₀ k k') :
    OpenDescriptor k' fd priv :=
  h.opened.congr (hv.slots _ (h.slots_eq ▸ rfl)) (hv.objs _ h.desc)

/-- A call on a descriptor depends on its view alone. -/
theorem FileCall.run_alike (h : OwnFile F k fd priv f_item) (hv : SameView F d₀ k k')
    {call : FileCall} (huses : call.uses fd) :
    Alike (fun x x' => x = k ∧ x' = k') call.run call.run fun _ => Stores F d₀ k.mem k'.mem := by
  have hsame : ∀ x x', x = k ∧ x' = k' → Stores F d₀ k.mem k'.mem x x' := by
    rintro _ _ ⟨rfl, rfl⟩
    exact ⟨hv, .refl _ _⟩
  have hopened := h.opened_view hv
  cases call with
  | fopen filename mode_str => cases huses
  | fread ptr size nmemb fd' =>
    obtain rfl : fd' = fd := by simpa [FileCall.uses] using huses
    refine .bind (Q := fun _ => Stores F d₀ k.mem k'.mem) ?_ fun _ => .pure fun _ _ hs => hs
    by_cases h0 : size = 0 ∨ nmemb = 0
    · have hargs : size = 0 ∨ nmemb = 0 ∨ fd' < 1 := by omega
      unfold PlumOS.fread
      rw [if_pos hargs]
      exact .pure hsame
    · refine (fat16Read_alike h hv size nmemb ptr).of_eq ?_ ?_
      · exact h.opened.fread_eq (by omega) (by omega) ptr
      · exact hopened.fread_eq (by omega) (by omega) ptr
  | fseek fd' offset whence =>
    obtain rfl : fd' = fd := by simpa [FileCall.uses] using huses
    refine .bind (Q := fun _ => Stores F d₀ k.mem k'.mem) ?_ fun _ => .pure fun _ _ hs => hs
    exact (fat16Seek_alike h hv _ _).of_eq (h.opened.fseek_eq _ _) (hopened.fseek_eq _ _)
  | fstat fd' =>
    obtain rfl : fd' = fd := by simpa [FileCall.uses] using huses
    refine .bind (Q := fun _ => Stores F d₀ k.mem k'.mem) ?_ fun _ => .pure fun _ _ hs => hs
    exact (fat16Stat_alike h hv).of_eq h.opened.fstat_eq hopened.fstat_eq
  | fclose fd' => cases huses

/-! ### What calls do to an open file -/

/-- A change that leaves the heap table, the table of descriptors and all structures but
the private data of one descriptor, where it leaves the item. -/
structure OwnStep (priv : Nat) (k k' : Kernel) : Prop where
  heap_entries : k'.heap_entries = k.heap_entries
  file_descriptors : k'.file_descriptors = k.file_descriptors
  objs : ∀ p, p ≠ priv → k'.objs p = k.objs p
  item : ∀ f_item, (∃ pos, k.objs priv = some (.fatFileDescriptor ⟨f_item, pos⟩)) →
    ∃ pos, k'.objs priv = some (.fatFileDescriptor ⟨f_item, pos⟩)

theorem OwnStep.of_data (priv : Nat) {k k' : Kernel}
    (h : k' = { k with mem := k'.mem, disk := k'.disk }) : OwnStep priv k k' := by
  rw [h]
  exact ⟨rfl, rfl, fun _ _ => rfl, fun _ hi => hi⟩

/-- An open file stays open under calls on it. -/
theorem OwnFile.ownStep (h : OwnFile F k fd priv f_item) (hs : OwnStep priv k k')
    : OwnFile F k' fd priv f_item := by
  have hne : ∀ p, k.objs p ≠ k.objs priv → k'.objs p = k.objs p := fun p hp =>
    hs.objs p fun heq => hp (by rw [heq])
  obtain ⟨pos, hpriv⟩ := h.private_eq
  obtain ⟨d, hd, hd'⟩ := h.opened.desc
  obtain ⟨i, hi, hentry⟩ := h.item_eq
  refine
    { opened :=
        { fd_pos := h.opened.fd_pos
          fd_lt := h.opened.fd_lt
          ne_zero := hs.file_descriptors ▸ h.opened.ne_zero
          desc := ⟨d, ?_, hd'⟩ }
      slots_eq := h.slots_eq
      desc := hs.file_descriptors ▸ h.desc
      private_mem := h.private_mem
      private_ne := h.private_ne
      private_eq := hs.item f_item h.private_eq
      item_mem := h.item_mem
      item_ne := h.item_ne
      item_eq := ⟨i, ?_, fun hne0 => ⟨(hentry hne0).1, fun hnone => ?_⟩⟩
      stands := (@Fenced.of_same _ _ { k with heap_entries := k'.heap_entries } h.stands
        hs.heap_entries rfl (fun _ _ => rfl) (fun _ _ => rfl) (fun _ => Or.inl rfl) (.refl _)).stands
      others := fun j hj => ?_ }
  · rw [hs.file_descriptors, hne _ (by rw [hd, hpriv]; simp)]
    exact hd
  · rw [hne _ (by rw [hi, hpriv]; simp)]
    exact hi
  · refine (hentry hne0).2 ?_
    by_cases heq : i.item = priv
    · obtain ⟨pos', hpriv'⟩ := hs.item f_item h.private_eq
      rw [heq, hpriv'] at hnone
      cases hnone
    · rwa [hs.objs _ heq] at hnone
  · rw [hs.file_descriptors]
    refine (h.others j hj).step fun q hq _ o ho => Or.inl ?_
    rwa [hs.objs q fun heq => hq.not_mem (heq ▸ h.private_mem)] at ho

theorem modifyFatFileDescriptor_ownStep (h : OwnFile F k fd priv f_item)
    {f : FatFileDescriptor → FatFileDescriptor} (hf : ∀ d, (f d).item = d.item) :
    Ensures (modifyFatFileDescriptor priv f) k fun _ k' => OwnStep priv k k' := by
  obtain ⟨pos, hpriv⟩ := h.private_eq
  refine .bind (deref_spec _ _ _) ?_
  rintro d _ ⟨rfl, -, hd⟩
  rw [Obj.fatFileDescriptor?_eq_some, hpriv] at hd
  cases hd
  refine (storeObj_spec _ _ _).ensures.mono fun _ k' hst => ?_
  refine ⟨hst.heap_entries, hst.globals.file_descriptors, hst.other, fun f_item' hitem => ?_⟩
  obtain ⟨pos', hpos'⟩ := hitem
  rw [hpriv] at hpos'
  cases hpos'
  have hitem := hf ⟨f_item, pos⟩
  generalize f ⟨f_item, pos⟩ = d at hst hitem
  obtain ⟨item, pos'⟩ := d
  cases hitem
  exact ⟨pos', hst.self⟩

/-- A call on a descriptor moves its position at most. -/
theorem FileCall.run_ownStep (h : OwnFile F k fd priv f_item) {call : FileCall}
    (huses : call.uses fd) : Ensures call.run k fun _ k' => OwnStep priv k k' := by
  have hrefl : OwnStep priv k k := .of_data priv rfl
  obtain ⟨pos, hpriv⟩ := h.private_eq
  obtain ⟨i, hi, -⟩ := h.item_eq
  have hfind : ∀ {α : Type} {f : FatFileDescriptor → FatItem → KM α},
      Ensures (f ⟨f_item, pos⟩ i) k (fun _ k' => OwnStep priv k k') →
        Ensures (do
          let desc ← deref Obj.fatFileDescriptor? priv
          let desc_item ← deref Obj.fatItem? desc.item
          f desc desc_item) k fun _ k' => OwnStep priv k k' := by
    intro α f hf
    refine .bind (deref_spec _ _ _) ?_
    rintro d _ ⟨rfl, -, hd⟩
    rw [Obj.fatFileDescriptor?_eq_some, hpriv] at hd
    cases hd
    refine .bind (deref_spec _ _ _) ?_
    rintro i' _ ⟨rfl, -, hi'⟩
    rw [Obj.fatItem?_eq_some, hi] at hi'
    cases hi'
    exact hf
  have hentry : Ensures (derefItem i.item) k fun _ k' => k' = k := by
    intro ritem k' hr
    unfold derefItem at hr
    split at hr
    · cases hr
    · cases hr
      rfl
  cases call with
  | fopen filename mode_str => cases huses
  | fread ptr size nmemb fd' =>
    obtain rfl : fd' = fd := by simpa [FileCall.uses] using huses
    refine .bind ?_ fun _ _ hs => .pure hs
    exact (fread_data ptr size nmemb fd' k).mono fun _ _ hd => .of_data priv hd.1
  | fseek fd' offset whence =>
    obtain rfl : fd' = fd := by simpa [FileCall.uses] using huses
    refine .bind (Ensures.of_eq (h.opened.fseek_eq _ _) (hfind ?_)) fun _ _ hs => .pure hs
    split
    · exact .pure hrefl
    refine .bind hentry ?_
    rintro ritem _ rfl
    split
    · exact .pure hrefl
    split
    · exact .bind (modifyFatFileDescriptor_ownStep h fun _ => rfl) fun _ _ hs => .pure hs
    split
    · exact .pure hrefl
    split
    · exact .bind (modifyFatFileDescriptor_ownStep h fun _ => rfl) fun _ _ hs => .pure hs
    · exact .pure hrefl
  | fstat fd' =>
    obtain rfl : fd' = fd := by simpa [FileCall.uses] using huses
    refine .bind (Ensures.of_eq h.opened.fstat_eq (hfind ?_)) fun _ _ hs => .pure hs
    split
    · exact .pure hrefl
    refine .bind hentry ?_
    rintro ritem _ rfl
    exact .pure hrefl
  | fclose fd' => cases huses

/-- The call does not close `fd`, and a read stores outside of what `F` protects. -/
def FileCall.Spares (F : Fence) (fd : Int) : FileCall → Prop
  | .fread ptr size nmemb _ => size < 0x100000000 ∧ F.Clear ptr (size * nmemb)
  | .fclose fd' => fd' ≠ fd
  | _ => True

/-- Any other call stays outside the fence. -/
theorem FileCall.run_fenced (h : OwnFile F k fd priv f_item) {call : FileCall}
    (huses : ¬ call.uses fd) (hspares : call.Spares F fd) :
    Framed (Fenced F) call.run k fun _ _ => True := by
  have hslot : ∀ i ∈ F.slots, k.file_descriptors i ≠ 0 := by
    intro i hi
    rw [h.slots_eq] at hi
    rw [Set.mem_singleton_iff.mp hi]
    exact h.opened.ne_zero
  -- the descriptor of another number is safe
  have hsafe : ∀ fd' : Int, fd' ≠ fd → 0 < fd' → fd' < 512 →
      F.Safe k (k.file_descriptors (fd' - 1).toNat) := by
    intro fd' hne h₁ _
    refine h.others _ fun hmem => ?_
    rw [h.slots_eq] at hmem
    have := Set.mem_singleton_iff.mp hmem
    have := h.opened.fd_pos
    omega
  cases call with
  | fopen filename mode_str =>
    exact .bind (fopen_fenced h.stands hslot _ _) fun _ k₁ hk₁ _ => .pure (.refl hk₁.stands) trivial
  | fread ptr size nmemb fd' =>
    exact .bind (fread_fenced h.stands hspares.1 hspares.2 fd')
      fun _ k₁ hk₁ _ => .pure (.refl hk₁.stands) trivial
  | fseek fd' offset whence =>
    have hne : fd' ≠ fd := by simpa [FileCall.uses] using huses
    exact .bind (fseek_fenced h.stands _ _ _ (hsafe fd' hne))
      fun _ k₁ hk₁ _ => .pure (.refl hk₁.stands) trivial
  | fstat fd' =>
    exact .bind (fstat_fenced h.stands fd') fun _ k₁ hk₁ _ => .pure (.refl hk₁.stands) trivial
  | fclose fd' =>
    exact .bind (fclose_fenced h.stands _ (hsafe fd' hspares))
      fun _ k₁ hk₁ _ => .pure (.refl hk₁.stands) trivial

theorem OwnFile.fenced (h : OwnFile F k fd priv f_item) (hf : Fenced F k k') :
    OwnFile F k' fd priv f_item := by
  have hslot : k'.file_descriptors (fd - 1).toNat = k.file_descriptors (fd - 1).toNat :=
    hf.slots _ (h.slots_eq ▸ rfl)
  obtain ⟨pos, hpriv⟩ := h.private_eq
  obtain ⟨i, hi, hentry⟩ := h.item_eq
  refine
    { opened := h.opened.congr hslot (hf.objs _ h.desc)
      slots_eq := h.slots_eq
      desc := hslot ▸ h.desc
      private_mem := h.private_mem
      private_ne := h.private_ne
      private_eq := ⟨pos, (hf.objs _ h.private_mem).trans hpriv⟩
      item_mem := h.item_mem
      item_ne := h.item_ne
      item_eq := ⟨i, (hf.objs _ h.item_mem).trans hi, fun hne => ⟨(hentry hne).1, fun hnone => ?_⟩⟩
      stands := hf.stands
      others := fun j hj => hf.opened j (h.others j hj) }
  rw [hf.objs _ (hentry hne).1] at hnone
  exact (hentry hne).2 hnone

theorem SameView.refl (F : Fence) (k : Kernel) : SameView F k.disk k k :=
  ⟨fun _ _ => rfl, fun _ _ => rfl, fun _ _ => rfl, .refl _, .refl _⟩

theorem SameView.fenced {k₁ : Kernel} (hv : SameView F d₀ k k') (hf : Fenced F k k₁) :
    SameView F d₀ k₁ k' where
  slots := fun i hi => (hv.slots i hi).trans (hf.slots i hi).symm
  objs := fun p hp => (hv.objs p hp).trans (hf.objs p hp).symm
  mem := fun a ha => (hv.mem a ha).trans (hf.mem a ha).symm
  volume := ⟨hv.volume.1.trans hf.volume, hv.volume.2⟩

/-! ### Runs -/

/-- The calls on a descriptor in a run have the results they have when only they are made,
from any state with the same view. -/
theorem FileStep.run_view {tr : List (FileEvent × Kernel)} (hrun : Run FileStep k tr)
    (h : OwnFile F k fd priv f_item) (hv : SameView F d₀ k k')
    (hspares : ∀ x ∈ tr, x.1.call.Spares F fd) :
    ∃ tr', Run FileStep k' tr' ∧ List.Forall₂ SameExchange
      ((tr.map Prod.fst).filter fun e => e.call.uses fd) (tr'.map Prod.fst) := by
  induction hrun generalizing k' with
  | nil k => exact ⟨[], .nil k', .nil⟩
  | @cons k k₁ e tr hstep _ ih =>
    have hrest : ∀ x ∈ tr, x.1.call.Spares F fd := fun x hx => hspares x (List.mem_cons_of_mem _ hx)
    obtain ⟨hok⟩ := hstep
    next call answer =>
    by_cases huses : call.uses fd
    · -- the other run makes the call as well
      obtain ⟨k₁', hok', hv₁, hstores⟩ :=
        (FileCall.run_alike h hv huses).returns ⟨rfl, rfl⟩ hok
      have hown := h.ownStep (FileCall.run_ownStep h huses _ _ hok)
      obtain ⟨tr', hrun', hall⟩ := ih hown hv₁ hrest
      refine ⟨(⟨call, answer, k'.mem, k₁'.mem⟩, k₁') :: tr', .cons (.mk hok') hrun', ?_⟩
      rw [List.map_cons, List.map_cons, List.filter_cons_of_pos (by simpa using huses)]
      exact .cons ⟨rfl, rfl, hstores⟩ hall
    · have hf := (FileCall.run_fenced h huses (hspares _ (List.mem_cons_self ..)) _ _ hok).1
      obtain ⟨tr', hrun', hall⟩ := ih (h.fenced hf) (hv.fenced hf) hrest
      refine ⟨tr', hrun', ?_⟩
      rw [List.map_cons, List.filter_cons_of_neg (by simpa using huses)]
      exact hall

end Calls

theorem pointerBlock_descriptor {b p : Nat} (hb : b + 4 ≤ 25600)
    (hp : ∃ j < 4, p = blockAddress (b + j)) : (b : Int) ≤ pointerBlock p ∧ pointerBlock p < b + 4 := by
  obtain ⟨j, hj, rfl⟩ := hp
  rw [pointerBlock_blockAddress (by omega)]
  constructor
  · omega
  · omega

theorem pointerBlock_entry {b a : Nat} (hb : b + 4 ≤ 25600) (h₁ : blockAddress (b + 3) ≤ a)
    (h₂ : a < blockAddress (b + 3) + 32) :
    (b : Int) ≤ pointerBlock a ∧ pointerBlock a < b + 4 := by
  have hblock : pointerBlock a = b + 3 := by
    unfold blockAddress at h₁ h₂
    unfold pointerBlock
    simp only [PLUMOS_HEAP_ADDRESS, PLUMOS_HEAP_BLOCK_SIZE] at h₁ h₂ ⊢
    rw [i32_of_range (by omega) (by omega), Int.tdiv_eq_ediv_of_nonneg (by omega)]
    omega
  rw [hblock]
  constructor
  · omega
  · omega

/-- The fence around the structures of a descriptor in four blocks from block `b` on: the
descriptor, its private data, the item and the copy of the directory entry. -/
def fileFence (b i : Nat) (hb : b + 4 ≤ 25600) : Fence where
  blocks := { j | (b : Int) ≤ j ∧ j < b + 4 }
  objects := { p | ∃ j < 4, p = blockAddress (b + j) }
  bytes := { a | blockAddress (b + 3) ≤ a ∧ a < blockAddress (b + 3) + 32 }
  slots := {i}
  objects_in := fun _ => pointerBlock_descriptor hb
  bytes_in := fun _ ha => pointerBlock_entry hb ha.1 ha.2

theorem fileFence_outside {b i c : Nat} {hb : b + 4 ≤ 25600} (hc : c < 25600)
    (h : c < b ∨ b + 4 ≤ c) : (fileFence b i hb).Outside (blockAddress c) := by
  unfold Fence.Outside
  rw [pointerBlock_blockAddress hc]
  refine ⟨fun hmem => ?_, by omega⟩
  obtain ⟨h₁, h₂⟩ := hmem
  omega

/-- The structures of a descriptor in four blocks from `p` on. -/
def descriptorObjs (index : Int) (p q : Nat) : Option Obj :=
  if q = p then some (.fileDescriptor ⟨index, fat16Fs, p + 0x1000, diskAddress⟩)
  else if q = p + 0x1000 then some (.fatFileDescriptor ⟨p + 0x2000, 0⟩)
  else if q = p + 0x2000 then some (.fatItem ⟨p + 0x3000, FAT_ITEM_TYPE_FILE⟩)
  else none

/-- A kernel with two descriptors of the file of two bytes. -/
def Kernel.twoOpen : Kernel :=
  { Kernel.boot Disk.twoBytes with
    heap_entries := fun i => if 0 ≤ i ∧ i < 8 then 0x41 else 0
    mem := fun p => if p < 0x1004000 then twoBytesEntry p else twoBytesEntry (p - 0x4000)
    file_descriptors := fun i => if i = 0 then 0x1000000 else if i = 1 then 0x1004000 else 0
    objs := fun q => if q < 0x1004000 then descriptorObjs 1 0x1000000 q
      else descriptorObjs 2 0x1004000 q }

theorem twoOpen_stands {b i : Nat} (hb : b + 4 ≤ 8) :
    (fileFence b i (by omega)).Stands Kernel.twoOpen where
  inside := by
    rintro j ⟨h₁, h₂⟩
    rw [Kernel.heap_total]
    omega
  kept := fun _ _ => rfl
  taken := by
    rintro j ⟨h₁, h₂⟩
    change heapGetEntryType (if 0 ≤ j ∧ j < 8 then 0x41 else 0) ≠ _
    rw [if_pos (by omega)]
    decide
  sealed := by
    intro j _ _ hnext
    change HasNext (if 0 ≤ j ∧ j < 8 then 0x41 else 0) at hnext
    split at hnext
    · exact absurd hnext (by decide)
    · exact absurd hnext not_hasNext_free
  barrier := not_hasNext_free

/-- A descriptor whose structures are outside of a fence can be released. -/
theorem descriptor_safe {F : Fence} {k : Kernel} {n : Int} {p : Nat}
    (hobjs : ∀ q, p ≤ q → q ≤ p + 0x3000 → k.objs q = descriptorObjs n p q)
    (hout : ∀ j < 4, F.Outside (p + 4096 * j)) (hindex : ∀ i ∈ F.slots, n ≠ (i : Int) + 1) :
    F.Safe k p := by
  have hitem : F.Safe k (p + 0x2000) := by
    refine .intro (hout 2 (by decide)) fun _ o ho => ?_
    rw [hobjs _ (by omega) (by omega), descriptorObjs, if_neg (by omega), if_neg (by omega),
      if_pos rfl] at ho
    cases ho
    exact
      { held := fun q hq => List.mem_singleton.mp hq ▸ hout 3 (by decide)
        followed := fun q hq => by cases hq
        index := fun _ _ h => by cases h }
  have hprivate : F.Safe k (p + 0x1000) := by
    refine .intro (hout 1 (by decide)) fun _ o ho => ?_
    rw [hobjs _ (by omega) (by omega), descriptorObjs, if_neg (by omega), if_pos rfl] at ho
    cases ho
    exact
      { held := fun q hq => by cases hq
        followed := fun q hq => List.mem_singleton.mp hq ▸ hitem
        index := fun _ _ h => by cases h }
  refine .intro (hout 0 (by decide)) fun _ o ho => ?_
  rw [hobjs _ (by omega) (by omega), descriptorObjs, if_pos rfl] at ho
  cases ho
  exact
    { held := fun q hq => by cases hq
      followed := fun q hq => List.mem_singleton.mp hq ▸ hprivate
      index := fun i hi h => hindex i hi (Option.some.inj h) }

theorem twoOpen_ownFile₁ : OwnFile (fileFence 0 0 (by decide)) Kernel.twoOpen 1 0x1001000 0x1002000 where
  opened :=
    { fd_pos := by decide
      fd_lt := by decide
      ne_zero := by decide
      desc := ⟨_, rfl, by decide, rfl⟩ }
  slots_eq := rfl
  desc := ⟨0, by decide, rfl⟩
  private_mem := ⟨1, by decide, rfl⟩
  private_ne := by decide
  private_eq := ⟨0, rfl⟩
  item_mem := ⟨2, by decide, rfl⟩
  item_ne := by decide
  item_eq := ⟨⟨0x1003000, FAT_ITEM_TYPE_FILE⟩, rfl, fun _ => ⟨⟨3, by decide, rfl⟩,
    fun _ a h₁ h₂ => ⟨h₁, h₂⟩⟩⟩
  stands := twoOpen_stands (by decide)
  others := by
    intro i hi
    change (fileFence 0 0 _).Safe Kernel.twoOpen (if i = 0 then _ else _)
    rw [if_neg (show ¬ i = 0 from hi)]
    split
    · refine descriptor_safe (n := 2) (fun q h₁ h₂ => if_neg (by omega)) (fun j hj => ?_) ?_
      · rw [show 0x1004000 + 4096 * j = blockAddress (4 + j) by unfold blockAddress; omega]
        exact fileFence_outside (by omega) (by omega)
      · rintro _ rfl
        decide
    · exact (twoOpen_stands (by decide)).safe_zero

theorem twoOpen_ownFile₂ : OwnFile (fileFence 4 1 (by decide)) Kernel.twoOpen 2 0x1005000 0x1006000 where
  opened :=
    { fd_pos := by decide
      fd_lt := by decide
      ne_zero := by decide
      desc := ⟨_, rfl, by decide, rfl⟩ }
  slots_eq := rfl
  desc := ⟨0, by decide, rfl⟩
  private_mem := ⟨1, by decide, rfl⟩
  private_ne := by decide
  private_eq := ⟨0, rfl⟩
  item_mem := ⟨2, by decide, rfl⟩
  item_ne := by decide
  item_eq := ⟨⟨0x1007000, FAT_ITEM_TYPE_FILE⟩, rfl, fun _ => ⟨⟨3, by decide, rfl⟩,
    fun _ a h₁ h₂ => ⟨h₁, h₂⟩⟩⟩
  stands := twoOpen_stands (by decide)
  others := by
    intro i hi
    change (fileFence 4 1 _).Safe Kernel.twoOpen (if i = 0 then _ else if i = 1 then _ else _)
    rw [if_neg (show ¬ i = 1 from hi)]
    split
    · refine descriptor_safe (n := 1) (fun q h₁ h₂ => if_pos (by omega)) (fun j hj => ?_) ?_
      · exact fileFence_outside (by omega) (by omega)
      · rintro _ rfl
        decide
    · exact (twoOpen_stands (by decide)).safe_zero

theorem twoOpen_entry : readFatDirectoryItem Kernel.twoOpen.mem 0x1003000 =
    readFatDirectoryItem Kernel.twoBytes.mem 0x1003000 :=
  readFatDirectoryItem_congr fun _ _ _ => if_pos (by omega)

theorem twoOpen_openFile :
    OpenFile Kernel.twoOpen .oneSector [2] 1 0x1001000 0x1002000 0 0x1003000 := by
  have hf := twoBytes_openFile.file
  exact
    { opened := twoOpen_ownFile₁.opened
      file :=
        { volume := hf.volume
          clusters := hf.clusters
          descriptor_ne := hf.descriptor_ne
          desc := rfl
          f_item_ne := hf.f_item_ne
          item := rfl
          address_ne := hf.address_ne
          entry := rfl
          first := (congrArg fat16GetFirstCluster twoOpen_entry).trans hf.first
          long := (congrArg FatDirectoryItem.filesize twoOpen_entry).trans_le hf.long } }

end PlumOS
