import Mathlib.Data.List.TakeWhile
import PlumOS.Fs.PathParser

/-!
# The parts of a path

What `pathparser_parse` makes of a path: the list in the heap that it returns holds the
components of the path up to the first empty one. Joined with `/` they are the path
again, but for one `/` at its end, exactly when no two `/` stand side by side.

## Main definitions

- `PathParts` — the parts that the parser takes from a path
- `PartList` — the list of parts in the kernel's memory
- `joinParts` — parts with a `/` between each two
-/

namespace PlumOS

open StateExcept

/-! ### Parts as characters -/

/-- The characters of a string before its NUL. -/
def characters (path : List UInt8) : List UInt8 := path.takeWhile fun c => c ≠ 0

/-- The parts that the parser takes from `path`: it ends at the first empty one. -/
inductive PathParts : List UInt8 → List (List UInt8) → Prop
  | stop {path : List UInt8} : path.takeWhile isPartChar = [] → PathParts path []
  | part {path : List UInt8} {parts : List (List UInt8)} : path.takeWhile isPartChar ≠ [] →
      PathParts (pathRest path) parts → PathParts path (path.takeWhile isPartChar :: parts)

/-- The parts with a `/` between each two. -/
def joinParts : List (List UInt8) → List UInt8
  | [] => []
  | [part] => part
  | part :: parts => part ++ 0x2F :: joinParts parts

theorem isPartChar_iff {c : UInt8} : isPartChar c = true ↔ c ≠ 0x2F ∧ c ≠ 0 := by
  simp [isPartChar]

/-- A path is its first part alone, or its first part, a `/` and what the parser goes
on with. -/
theorem characters_split (path : List UInt8) :
    (characters path = path.takeWhile isPartChar ∧ characters (pathRest path) = []) ∨
      characters path = path.takeWhile isPartChar ++ 0x2F :: characters (pathRest path) := by
  induction path with
  | nil => exact Or.inl ⟨rfl, rfl⟩
  | cons c path ih =>
    unfold characters pathRest at ih ⊢
    by_cases hpart : isPartChar c = true
    · have hzero : c ≠ 0 := (isPartChar_iff.mp hpart).2
      simpa [hpart, hzero] using ih
    · rw [isPartChar_iff] at hpart
      by_cases hslash : c = 0x2F
      · subst hslash
        exact Or.inr (by simp [isPartChar])
      · have hnul : c = 0 := by tauto
        subst hnul
        exact Or.inl (by simp [isPartChar])

theorem slash_not_mem_takeWhile (path : List UInt8) : 0x2F ∉ path.takeWhile isPartChar :=
  fun hmem => (isPartChar_iff.mp (List.mem_takeWhile_imp hmem)).1 rfl

/-- The parser takes no part where the path is at its end. -/
theorem PathParts.eq_nil {path : List UInt8} {parts : List (List UInt8)} (h : PathParts path parts)
    (hend : characters path = []) : parts = [] := by
  cases h with
  | stop => rfl
  | part hne _ =>
    rcases characters_split path with ⟨hchars, -⟩ | hchars
    · exact absurd (hchars.symm.trans hend) hne
    · rw [hend] at hchars
      simp at hchars

/-- Two `/` in a row: after a part and its `/`, another `/` follows or they come later. -/
theorem doubleSlash_append {part rest : List UInt8} (hpart : 0x2F ∉ part) :
    [0x2F, 0x2F] <:+: part ++ 0x2F :: rest ↔
      [0x2F] <+: rest ∨ [0x2F, 0x2F] <:+: rest := by
  induction part with
  | nil => simp [List.infix_cons_iff, List.cons_prefix_cons]
  | cons c part ih =>
    simp only [List.mem_cons, not_or] at hpart
    rw [List.cons_append, List.infix_cons_iff, List.cons_prefix_cons, ih hpart.2]
    simp [hpart.1]

theorem doubleSlash_of_not_mem {part : List UInt8} (hpart : 0x2F ∉ part) :
    ¬ [0x2F, 0x2F] <:+: part := fun h => hpart (h.subset (by simp))

/-- The first character of a path that has a part is no `/`. -/
theorem PathParts.not_slash {path : List UInt8} {parts : List (List UInt8)}
    (h : PathParts path parts) (hne : parts ≠ []) : ¬ [0x2F] <+: characters path := by
  cases h with
  | stop => exact absurd rfl hne
  | part hpart _ =>
    cases path with
    | nil => simp at hpart
    | cons c path =>
      by_cases hc : isPartChar c = true
      · obtain ⟨hslash, hzero⟩ := isPartChar_iff.mp hc
        simp [characters, hzero, List.cons_prefix_cons, Ne.symm hslash]
      · simp [hc] at hpart

/-- The parts are all of the path, but for one `/` at its end, exactly when no two `/`
stand side by side. -/
theorem PathParts.joined_iff {path : List UInt8} {parts : List (List UInt8)}
    (h : PathParts path parts) (hne : parts ≠ []) :
    (joinParts parts = characters path ∨ joinParts parts ++ [0x2F] = characters path) ↔
      ¬ [0x2F, 0x2F] <:+: characters path := by
  induction h with
  | stop => exact absurd rfl hne
  | @part path parts hpart hrest ih =>
    have hno := slash_not_mem_takeWhile path
    rcases characters_split path with ⟨hchars, hend⟩ | hchars
    · -- the last part, with nothing behind it
      obtain rfl := hrest.eq_nil hend
      rw [hchars]
      exact iff_of_true (Or.inl rfl) (doubleSlash_of_not_mem hno)
    · rw [hchars, doubleSlash_append hno]
      by_cases hparts : parts = []
      · -- the part before an empty one: the path ends there or goes on with a `/`
        subst hparts
        have hstop : (pathRest path).takeWhile isPartChar = [] := by
          cases hrest with
          | stop hstop => exact hstop
        rcases characters_split (pathRest path) with ⟨hrest', -⟩ | hrest'
        · rw [hrest', hstop]
          exact iff_of_true (Or.inr rfl) (by simp)
        · rw [hrest', hstop]
          refine iff_of_false ?_ (by simp)
          simp [joinParts]
      · have hcons : joinParts (path.takeWhile isPartChar :: parts) =
            path.takeWhile isPartChar ++ 0x2F :: joinParts parts := by
          cases parts with
          | nil => exact absurd rfl hparts
          | cons _ _ => rfl
        rw [hcons, or_iff_right (hrest.not_slash hparts), ← ih hparts]
        simp

/-! ### The list in memory -/

/-- The list of parts that starts with the node at `ptr`. -/
def PartList (k : Kernel) : (ptr : Nat) → List (List UInt8) → Prop
  | ptr, [] => ptr = 0
  | ptr, part :: parts => ptr ≠ 0 ∧ ∃ str next, k.objs ptr = some (.pathPart ⟨str, next⟩) ∧
      StringAt k.mem str part ∧ PartList k next parts

/-- The list in memory is determined by its first node. -/
theorem PartList.unique {k : Kernel} : ∀ {parts parts' : List (List UInt8)} {ptr : Nat},
    PartList k ptr parts → PartList k ptr parts' → parts = parts' := by
  intro parts
  induction parts with
  | nil =>
    intro parts' ptr h h'
    cases parts' with
    | nil => rfl
    | cons part' parts' => exact absurd h h'.1
  | cons part parts ih =>
    intro parts' ptr h h'
    cases parts' with
    | nil => exact absurd h' h.1
    | cons part' parts' =>
      obtain ⟨-, str, next, hobj, hstr, hrest⟩ := h
      obtain ⟨-, str', next', hobj', hstr', hrest'⟩ := h'
      rw [hobj] at hobj'
      cases hobj'
      rw [hstr.unique hstr', ih hrest hrest']

/-- Live allocations keep their bytes, and outside `F` their structures. -/
def KeepsData (F : List Nat) (k k' : Kernel) : Prop :=
  ∀ p n, k.Alive p n → (p ∉ F → k'.objs p = k.objs p) ∧
    ∀ i, i < 4096 * n → k'.mem (p + i) = k.mem (p + i)

/-- Live allocations stay alive. -/
def KeepsAlive (k k' : Kernel) : Prop := ∀ p n, k.Alive p n → k'.Alive p n

/-- Two changes in a row, the second of them perhaps at a new allocation too. -/
theorem KeepsData.trans {F F' : List Nat} {k k₁ k₂ : Kernel} (h : KeepsData F k k₁)
    (halive : KeepsAlive k k₁) (h' : KeepsData F' k₁ k₂)
    (hF : ∀ p n, k.Alive p n → p ∉ F → p ∉ F') : KeepsData F k k₂ := by
  intro p n hp
  obtain ⟨hobj, hmem⟩ := h p n hp
  obtain ⟨hobj', hmem'⟩ := h' p n (halive p n hp)
  exact ⟨fun hout => (hobj' (hF p n hp hout)).trans (hobj hout),
    fun i hi => (hmem' i hi).trans (hmem i hi)⟩

theorem KeepsData.mono {F F' : List Nat} {k k' : Kernel} (h : KeepsData F k k')
    (hF : ∀ p ∈ F, p ∈ F') : KeepsData F' k k' :=
  fun p n hp => ⟨fun hout => (h p n hp).1 fun hmem => hout (hF p hmem), (h p n hp).2⟩

theorem KeepsData.stringAt {F : List Nat} {k k' : Kernel} {p : Nat} {s : List UInt8}
    (h : KeepsData F k k') (hp : k.Alive p 1) (hlen : s.length < 4096)
    (hs : StringAt k.mem p s) : StringAt k'.mem p s := by
  refine ⟨hs.1, ?_⟩
  rw [← hs.2]
  exact readBytes_congr fun i hi => (h p 1 hp).2 i (by omega)

/-- Two live allocations share no byte. -/
theorem Kernel.Alive.bytes_apart {k : Kernel} {p q n m : Nat} (hp : k.Alive p n) (hq : k.Alive q m)
    (hne : p ≠ q) : p + 4096 * n ≤ q ∨ q + 4096 * m ≤ p := by
  obtain ⟨b, rfl, hn, -, hb⟩ := hp
  obtain ⟨c, rfl, hm, -, hc⟩ := hq
  have hbc : b ≠ c := fun h => hne (by rw [h])
  unfold blockAddress
  rcases hb.disjoint hc hn hm hbc with h | h
  · exact Or.inl (by omega)
  · exact Or.inr (by omega)

/-- A new structure is stored in a live allocation. -/
theorem Stored.keepsData {k k' : Kernel} {p : Nat} {o : Obj} (h : Stored k p o k') :
    KeepsData [p] k k' :=
  fun q _ _ => ⟨fun hq => h.other q (by simpa using hq), fun _ _ => by rw [h.mem]⟩

/-- A small allocation: new memory, all zero, and no live byte is changed. -/
theorem Kzalloced.keepsData {k k' : Kernel} {size ptr : Nat} (h : Kzalloced k size ptr k')
    (hsize : size ≤ 4096) :
    KeepsData [] k k' ∧ KeepsAlive k k' ∧ ∀ i, i < size → k'.mem (ptr + i) = 0 := by
  refine ⟨fun p n hp => ⟨fun _ => h.objs_of_alive (by omega) hp, fun i hi => ?_⟩,
    fun p n hp => h.alive hp, fun i hi => ?_⟩
  · obtain ⟨b, rfl, hn, hin, hm⟩ := hp
    obtain ⟨c, rfl, ha⟩ := h.block
    rw [h.eq]
    refine if_neg ?_
    rintro ⟨h₁, h₂⟩
    unfold blockAddress at h₁ h₂
    exact hm.not_free (k := c) (by omega) (by omega) (ha.free c le_rfl (Or.inl rfl) ha.start_lt)
  · rw [h.eq]
    exact if_pos (by omega)

/-- What was allocated for a structure. -/
structure NewObj (k : Kernel) (ptr : Nat) (o : Obj) (k' : Kernel) : Prop where
  alive : k'.Alive ptr 1
  fresh : ∀ n, ¬ k.Alive ptr n
  obj : k'.objs ptr = some o
  keepsData : KeepsData [] k k'
  keepsAlive : KeepsAlive k k'

theorem kzallocObj_newObj {k : Kernel} {size : Nat} {zero : Obj} (h₁ : 1 ≤ size)
    (h₂ : size ≤ 4096) :
    Ensures (kzallocObj size zero) k fun ptr k' => ptr = 0 ∨ NewObj k ptr zero k' := by
  refine (kzallocObj_spec k size zero).mono ?_
  rintro ptr k' (⟨rfl, -⟩ | ⟨k₁, ha, rfl⟩)
  · exact Or.inl rfl
  · obtain ⟨hdata, halive, -⟩ := ha.keepsData h₂
    refine Or.inr ⟨(ha.alive_one h₁ h₂).congr rfl, fun n hn => ha.ne_alive hn rfl,
      Function.update_self .., fun p n hp => ⟨fun hout => ?_, (hdata p n hp).2⟩,
      fun p n hp => (halive p n hp).congr rfl⟩
    exact (Function.update_of_ne (ha.ne_alive hp) _ _).trans ((hdata p n hp).1 hout)

/-- A structure that was just allocated is overwritten. -/
theorem NewObj.stored {k k₁ k' : Kernel} {ptr : Nat} {o o' : Obj} (h : NewObj k ptr o k₁)
    (hst : Stored k₁ ptr o' k') : NewObj k ptr o' k' where
  alive := hst.alive h.alive
  fresh := h.fresh
  obj := hst.self
  keepsData := h.keepsData.trans h.keepsAlive hst.keepsData fun p n hp _ hmem => by
    rw [List.mem_singleton.mp hmem] at hp
    exact h.fresh n hp
  keepsAlive := fun p n hp => hst.alive (h.keepsAlive p n hp)

theorem modifyPathPart_spec (p : Nat) (f : PathPart → PathPart) (k : Kernel) :
    Ensures (modifyPathPart p f) k fun _ k' => p ≠ 0 ∧
      ∃ r, k.objs p = some (.pathPart r) ∧ Stored k p (.pathPart (f r)) k' := by
  refine Ensures.bind (deref_spec _ _ _) ?_
  rintro r _ ⟨rfl, hp, hr⟩
  rw [Obj.pathPart?_eq_some] at hr
  exact (storeObj_spec k p _).ensures.mono fun _ _ hst => ⟨hp, r, hr, hst⟩

/-! ### pathparser_get_path_part -/

/-- The part is copied into a buffer of its own; with no part nothing is left behind. -/
theorem pathparserGetPathPart_spec {path : List UInt8}
    (hlen : (path.takeWhile isPartChar).length < PLUMOS_MAX_PATH) (k : Kernel) :
    Ensures (pathparserGetPathPart path) k fun r k' => r.2 = pathRest path ∧ KeepsData [] k k' ∧
      ((r.1 = 0 ∧ path.takeWhile isPartChar = []) ∨
        (path.takeWhile isPartChar ≠ [] ∧ k'.Alive r.1 1 ∧ KeepsAlive k k' ∧
          StringAt k'.mem r.1 (path.takeWhile isPartChar))) := by
  refine Ensures.bind (kzalloc_spec k _) ?_
  intro buffer k₁ hbuffer
  dsimp only
  split
  · next hnil =>
    refine Ensures.bind (Ensures.modifies (Q := fun _ k₂ => KeepsData [] k k₂) ?_) ?_
    · rcases hbuffer with ⟨rfl, rfl⟩ | ha
      · intro p n hp
        exact ⟨fun _ => Function.update_of_ne hp.ne_zero _ _, fun _ _ => rfl⟩
      · intro p n hp
        obtain ⟨hobj, hmem⟩ := (ha.keepsData (by decide)).1 p n hp
        exact ⟨fun hout => (Function.update_of_ne (ha.ne_alive hp) _ _).trans (hobj hout), hmem⟩
    · intro _ k₂ hk₂
      exact Ensures.pure ⟨rfl, hk₂, Or.inl ⟨rfl, hnil⟩⟩
  next hchars =>
  split
  · exact Ensures.fails
  next hne =>
  split
  · exact Ensures.fails
  have ha := hbuffer.resolve_left fun h => hne h.1
  obtain ⟨hdata, halive, hzero⟩ := ha.keepsData (by decide)
  have hbuf : k₁.Alive buffer 1 := ha.alive_one (by decide) (by decide)
  simp only [PLUMOS_MAX_PATH] at hlen hzero
  generalize hs : path.takeWhile isPartChar = chars at hlen hchars ⊢
  refine Ensures.bind (Ensures.modifies (Q := fun _ k₂ =>
    k₂ = { k₁ with mem := writeBytes k₁.mem buffer chars }) rfl) ?_
  rintro _ _ rfl
  refine Ensures.pure ⟨rfl, fun p n hp => ⟨(hdata p n hp).1, fun i hi => ?_⟩, Or.inr
    ⟨hchars, hbuf.congr rfl, fun p n hp => (halive p n hp).congr rfl, ?_, ?_⟩⟩
  · have hapart := hbuf.bytes_apart (halive p n hp) (ha.ne_alive hp).symm
    refine (writeBytes_of_not_mem ?_).trans ((hdata p n hp).2 i hi)
    omega
  · rw [← hs]
    exact fun hmem => (isPartChar_iff.mp (List.mem_takeWhile_imp hmem)).2 rfl
  · -- behind the characters the buffer is still zero
    have hnul : writeBytes k₁.mem buffer chars (buffer + chars.length) = 0 := by
      rw [writeBytes_of_not_mem (Or.inr le_rfl)]
      exact hzero _ hlen
    rw [readBytes_append, readBytes_writeBytes]
    simp [readBytes, hnul]

/-! ### pathparser_parse -/

/-- The node of a part that was taken from `path`, and its string. -/
structure NewPart (k : Kernel) (path : List UInt8) (node str : Nat) (k' : Kernel) : Prop where
  chars : path.takeWhile isPartChar ≠ []
  alive : k'.Alive node 1
  fresh : ∀ n, ¬ k.Alive node n
  obj : k'.objs node = some (.pathPart ⟨str, 0⟩)
  str_alive : k'.Alive str 1
  string : StringAt k'.mem str (path.takeWhile isPartChar)
  keepsAlive : KeepsAlive k k'

/-- A part is allocated and put behind `last_part`, or the path has none. -/
theorem pathparserParsePathPart_spec {path : List UInt8}
    (hlen : (path.takeWhile isPartChar).length < PLUMOS_MAX_PATH) {last_part : Nat} {k : Kernel}
    (hlast : last_part = 0 ∨ k.Alive last_part 1) :
    Ensures (pathparserParsePathPart last_part path) k fun r k' => r.2 = pathRest path ∧
      ((r.1 = 0 ∧ path.takeWhile isPartChar = [] ∧ KeepsData [] k k') ∨
        ((∃ str, NewPart k path r.1 str k') ∧ KeepsData [last_part] k k' ∧
          ∀ p, last_part ≠ 0 → k.objs last_part = some (.pathPart p) →
            k'.objs last_part = some (.pathPart { p with next := r.1 }))) := by
  refine Ensures.bind (pathparserGetPathPart_spec hlen k) ?_
  rintro ⟨str, rest⟩ k₁ ⟨hrest, hdata₁, hres⟩
  dsimp only at hrest hres ⊢
  rcases hres with ⟨rfl, hnil⟩ | ⟨hchars, hstr₁, halive₁, hstring₁⟩
  · exact Ensures.pure ⟨hrest, Or.inl ⟨rfl, hnil, hdata₁⟩⟩
  rw [if_neg hstr₁.ne_zero]
  refine Ensures.bind (kzallocObj_newObj (by decide) (by decide)) ?_
  intro part k₂ hpart
  refine Ensures.bind (modifyPathPart_spec _ _ _) ?_
  rintro _ k₃ ⟨hne, -, -, hst₃⟩
  have hnew : NewObj k₁ part (.pathPart ⟨str, 0⟩) k₃ := (hpart.resolve_left hne).stored hst₃
  have halive₃ : KeepsAlive k k₃ := fun p n hp => hnew.keepsAlive p n (halive₁ p n hp)
  have hdata₃ : KeepsData [] k k₃ := hdata₁.trans halive₁ hnew.keepsData (by simp)
  have hstring₃ : StringAt k₃.mem str (path.takeWhile isPartChar) :=
    hnew.keepsData.stringAt hstr₁ (by simp only [PLUMOS_MAX_PATH] at hlen; omega) hstring₁
  have hpart₃ : NewPart k path part str k₃ :=
    ⟨hchars, hnew.alive, fun n hn => hnew.fresh n (halive₁ part n hn), hnew.obj,
      hnew.keepsAlive str 1 hstr₁, hstring₃, halive₃⟩
  by_cases h0 : last_part = 0
  · subst h0
    refine Ensures.bind (R := fun _ k₄ => k₃ = k₄) (Ensures.onlyIf (fun h => absurd rfl h)
      fun _ => rfl) ?_
    rintro _ _ rfl
    exact Ensures.pure ⟨hrest, Or.inr ⟨⟨str, hpart₃⟩, hdata₃.mono (by simp),
      fun _ h => absurd rfl h⟩⟩
  · have hla : k.Alive last_part 1 := hlast.resolve_left h0
    refine Ensures.bind (R := fun _ k₄ => ∃ r, k₃.objs last_part = some (.pathPart r) ∧
      Stored k₃ last_part (.pathPart { r with next := part }) k₄) (Ensures.onlyIf
        (fun _ => (modifyPathPart_spec _ _ _).mono fun _ _ h => h.2) fun h => absurd h0 h) ?_
    rintro _ k₄ ⟨r, hr, hst₄⟩
    have hneq : part ≠ last_part := fun h => hpart₃.fresh 1 (h ▸ hla)
    refine Ensures.pure ⟨hrest, Or.inr ⟨⟨str, hchars, hst₄.alive hpart₃.alive, hpart₃.fresh,
      (hst₄.other part hneq).trans hpart₃.obj, hst₄.alive hpart₃.str_alive, ?_,
      fun p n hp => hst₄.alive (halive₃ p n hp)⟩, ?_, fun p _ hp => ?_⟩⟩
    · rw [hst₄.mem]
      exact hstring₃
    · exact (hdata₃.mono (by simp)).trans halive₃ hst₄.keepsData fun p n _ hout => hout
    · have hsame := (hdata₃ last_part 1 hla).1 (by simp)
      rw [hr, hp] at hsame
      cases hsame
      exact hst₄.self

/-- No part is longer than its path. -/
theorem takeWhile_isPartChar_length (path : List UInt8) :
    (path.takeWhile isPartChar).length ≤ (characters path).length := by
  rcases characters_split path with ⟨h, -⟩ | h
  · rw [h]
  · rw [h]
    simp

theorem characters_pathRest_length (path : List UInt8) :
    (characters (pathRest path)).length ≤ (characters path).length := by
  rcases characters_split path with ⟨-, h⟩ | h
  · rw [h]
    simp
  · rw [h]
    simp only [List.length_append, List.length_cons]
    omega

/-- The loop hangs the parts of the path behind the node `part`. -/
theorem pathparserParseLoop_spec : ∀ (fuel part str : Nat) (path : List UInt8) (k : Kernel),
    (characters path).length < PLUMOS_MAX_PATH → k.Alive part 1 →
    k.objs part = some (.pathPart ⟨str, 0⟩) →
    Ensures (pathparserParseLoop fuel part path) k fun _ k' => ∃ next parts,
      PathParts path parts ∧ k'.objs part = some (.pathPart ⟨str, next⟩) ∧
        PartList k' next parts ∧ KeepsData [part] k k' := by
  intro fuel
  induction fuel with
  | zero =>
    intro part str path k _ _ _
    exact Ensures.fails
  | succ fuel ih =>
    intro part str path k hlen hpart hobj
    unfold pathparserParseLoop
    rw [if_neg hpart.ne_zero]
    refine Ensures.bind (pathparserParsePathPart_spec
      (lt_of_le_of_lt (takeWhile_isPartChar_length path) hlen) (Or.inr hpart)) ?_
    rintro ⟨node, rest⟩ k₁ ⟨hrest, hres⟩
    dsimp only at hrest hres ⊢
    subst hrest
    rcases hres with ⟨rfl, hnil, hdata⟩ | ⟨⟨s, hnew⟩, hdata₁, hnext⟩
    · have hend : Ensures (pathparserParseLoop fuel 0 (pathRest path)) k₁ fun _ k' => k₁ = k' := by
        cases fuel with
        | zero => exact Ensures.fails
        | succ fuel => exact Ensures.pure rfl
      refine hend.mono ?_
      rintro _ _ rfl
      refine ⟨0, [], .stop hnil, ?_, rfl, hdata.mono (by simp)⟩
      rw [(hdata part 1 hpart).1 (by simp), hobj]
    · have hobj₁ := hnext _ hpart.ne_zero hobj
      have hrest := lt_of_le_of_lt (characters_pathRest_length path) hlen
      refine (ih node s (pathRest path) k₁ hrest hnew.alive hnew.obj).mono ?_
      rintro _ k₂ ⟨next, parts, hparts, hnode, hlist, hdata₂⟩
      have hne : part ≠ node := fun h => hnew.fresh 1 (h ▸ hpart)
      refine ⟨node, _, .part hnew.chars hparts, ?_, ⟨hnew.alive.ne_zero, s, next, hnode, ?_, hlist⟩, ?_⟩
      · rw [(hdata₂ part 1 (hnew.keepsAlive part 1 hpart)).1 (by simpa using hne)]
        exact hobj₁
      · refine hdata₂.stringAt hnew.str_alive ?_ hnew.string
        have := takeWhile_isPartChar_length path
        simp only [PLUMOS_MAX_PATH] at hlen
        omega
      · refine hdata₁.trans hnew.keepsAlive hdata₂ fun p n hp _ hmem => ?_
        rw [List.mem_singleton.mp hmem] at hp
        exact hnew.fresh n hp

theorem modifyPathRoot_spec (p : Nat) (f : PathRoot → PathRoot) (k : Kernel) :
    Ensures (modifyPathRoot p f) k fun _ k' => p ≠ 0 ∧
      ∃ r, k.objs p = some (.pathRoot r) ∧ Stored k p (.pathRoot (f r)) k' := by
  refine Ensures.bind (deref_spec _ _ _) ?_
  rintro r _ ⟨rfl, hp, hr⟩
  rw [Obj.pathRoot?_eq_some] at hr
  exact (storeObj_spec k p _).ensures.mono fun _ _ hst => ⟨hp, r, hr, hst⟩

theorem pathparserPathValidFormat_length {path : List UInt8}
    (h : pathparserPathValidFormat path = true) : 3 ≤ strlen path := by
  simp only [pathparserPathValidFormat, Bool.and_eq_true] at h
  have hlen := of_decide_eq_true h.1.1.1
  unfold strnlen at hlen
  omega

/-- The characters behind the drive of a path with a valid format. -/
theorem characters_drop {path : List UInt8} (h : pathparserPathValidFormat path = true) :
    characters (path.drop 3) = (characters path).drop 3 := by
  have hlen := pathparserPathValidFormat_length h
  have key : ∀ (n : Nat) (l : List UInt8), n ≤ (characters l).length →
      characters (l.drop n) = (characters l).drop n := by
    intro n
    induction n with
    | zero => exact fun _ _ => rfl
    | succ n ih =>
      intro l hl
      cases l with
      | nil => simp [characters] at hl
      | cons c l =>
        have hc : c ≠ 0 := by
          rintro rfl
          simp [characters] at hl
        have hcons : characters (c :: l) = c :: characters l := by simp [characters, hc]
        rw [hcons] at hl ⊢
        exact ih l (Nat.le_of_succ_le_succ hl)
  exact key 3 path hlen

/-- What a parsed path looks like in memory. -/
structure ParsedPath (k : Kernel) (path : List UInt8) (root : Nat) (parts : List (List UInt8)) :
    Prop where
  valid : pathparserPathValidFormat path = true
  root : ∃ first, k.objs root = some (.pathRoot ⟨toenumericdigit (charAt path 0), first⟩) ∧
    PartList k first parts
  parts : PathParts (path.drop 3) parts

/-- A path of valid format that is not too long is parsed to the list of its parts. -/
theorem pathparserParse_parsed {path : List UInt8} (hshort : strlen path ≤ PLUMOS_MAX_PATH)
    (hvalid : pathparserPathValidFormat path = true) (k : Kernel) :
    Ensures (pathparserParse path) k fun root k' =>
      root ≠ 0 ∧ ∃ parts, ParsedPath k' path root parts := by
  have hget : pathparserGetDriveByPath path = (toenumericdigit (charAt path 0), path.drop 3) := by
    unfold pathparserGetDriveByPath
    rw [hvalid]
    rfl
  have hdigit : 48 ≤ (charAt path 0).toNat := by
    simp only [pathparserPathValidFormat, Bool.and_eq_true, isdigit, decide_eq_true_eq] at hvalid
    exact UInt8.le_iff_toNat_le.mp hvalid.1.1.2.1
  have hdrive : ¬ toenumericdigit (charAt path 0) < 0 := by
    unfold toenumericdigit
    omega
  unfold pathparserParse
  rw [if_neg (Nat.not_lt.mpr hshort), hget]
  dsimp only
  rw [if_neg hdrive]
  have hlen : (characters (path.drop 3)).length < PLUMOS_MAX_PATH := by
    have h3 := pathparserPathValidFormat_length hvalid
    rw [characters_drop hvalid, List.length_drop]
    unfold strlen at h3 hshort
    unfold characters
    simp only [PLUMOS_MAX_PATH] at hshort ⊢
    omega
  refine Ensures.bind (R := fun root k₁ => NewObj k root
    (.pathRoot ⟨toenumericdigit (charAt path 0), 0⟩) k₁) ?_ ?_
  · refine Ensures.bind (kzallocObj_newObj (by decide) (by decide)) ?_
    intro root k₁ hroot
    refine Ensures.bind (modifyPathRoot_spec _ _ _) ?_
    rintro _ k₂ ⟨hne, -, -, hst⟩
    exact Ensures.pure ((hroot.resolve_left hne).stored hst)
  intro root k₁ hroot
  rw [if_neg hroot.alive.ne_zero]
  refine Ensures.bind (pathparserParsePathPart_spec
    (lt_of_le_of_lt (takeWhile_isPartChar_length _) hlen) (Or.inl rfl)) ?_
  rintro ⟨node, rest⟩ k₂ ⟨hrest, hres⟩
  dsimp only at hrest hres ⊢
  subst hrest
  rcases hres with ⟨rfl, hnil, hdata⟩ | ⟨⟨str, hnew⟩, hdata₂, -⟩
  · -- no part at all
    refine Ensures.pure ⟨hroot.alive.ne_zero, [], hvalid, ⟨0, ?_, rfl⟩, .stop hnil⟩
    exact ((hdata root 1 hroot.alive).1 (by simp)).trans hroot.obj
  rw [if_neg hnew.alive.ne_zero]
  refine Ensures.bind (modifyPathRoot_spec _ _ _) ?_
  rintro _ k₃ ⟨-, r, hr, hst₃⟩
  have hroot₂ : k₂.objs root = some (.pathRoot ⟨toenumericdigit (charAt path 0), 0⟩) :=
    ((hdata₂ root 1 hroot.alive).1 (by simpa using hroot.alive.ne_zero)).trans hroot.obj
  rw [hroot₂] at hr
  cases hr
  have hne : node ≠ root := fun h => hnew.fresh 1 (h ▸ hroot.alive)
  have hroot₃ : k₃.Alive root 1 := hst₃.alive (hnew.keepsAlive root 1 hroot.alive)
  -- the rest is the loop, from the first node on
  have hloop := pathparserParseLoop_spec (path.length + 1 + 1) node str (pathRest (path.drop 3)) k₃
    (lt_of_le_of_lt (characters_pathRest_length _) hlen) (hst₃.alive hnew.alive)
    ((hst₃.other node hne).trans hnew.obj)
  unfold pathparserParseLoop at hloop
  rw [if_neg hnew.alive.ne_zero] at hloop
  rw [← bind_assoc]
  refine Ensures.bind hloop ?_
  rintro _ k₄ ⟨next, parts, hparts, hnode, hlist, hdata₄⟩
  refine Ensures.pure ⟨hroot.alive.ne_zero, (path.drop 3).takeWhile isPartChar :: parts, hvalid,
    ⟨node, ?_, hnew.alive.ne_zero, str, next, hnode, ?_, hlist⟩, .part hnew.chars hparts⟩
  · rw [(hdata₄ root 1 hroot₃).1 (by simpa using hne.symm)]
    exact hst₃.self
  · refine hdata₄.stringAt (hst₃.alive hnew.str_alive) ?_ (hst₃.mem ▸ hnew.string)
    have := takeWhile_isPartChar_length (path.drop 3)
    simp only [PLUMOS_MAX_PATH] at hlen
    omega

/-- `pathparser_parse` returns NULL or the list of the parts of its path. -/
theorem pathparserParse_spec (path : List UInt8) (k : Kernel) :
    Ensures (pathparserParse path) k fun root k' =>
      root = 0 ∨ ∃ parts, ParsedPath k' path root parts := by
  by_cases hshort : strlen path ≤ PLUMOS_MAX_PATH
  · cases hvalid : pathparserPathValidFormat path with
    | true => exact (pathparserParse_parsed hshort hvalid k).mono fun _ _ h => .inr h.2
    | false =>
      unfold pathparserParse pathparserGetDriveByPath
      rw [if_neg (Nat.not_lt.mpr hshort), hvalid]
      exact Ensures.pure (.inl rfl)
  · unfold pathparserParse
    rw [if_pos (Nat.lt_of_not_le hshort)]
    exact Ensures.pure (.inl rfl)

/-- The path `0:/a//b`. -/
def doubleSlashPath : List UInt8 := [0x30, 0x3A, 0x2F, 0x61, 0x2F, 0x2F, 0x62]

end PlumOS
