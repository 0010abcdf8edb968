import PlumOS.Fs.PathAccess
import PlumOS.Memory.SpaceRestore

/-!
# A path there and back

The components of a path, written with `/` between them behind a drive, are what the parser
finds in it. Its list takes a block for the root and two for each component, and
`pathparser_free` gives all of them back.

## Main definitions

- `drivePath`, `HoldsPath` — a path, and its list in memory
- `TookAllocs` — some single blocks were allocated
- `OwnsParts` — the nodes of a list, and their strings

## Main results

- `pathparserParse_takes`, `pathparserFree_restores`
- `pathparserParse_roundTrip`
-/

namespace PlumOS

open StateExcept

/-! ### Components -/

/-- Something that may stand between two `/`. -/
structure IsComponent (c : List UInt8) : Prop where
  ne_nil : c ≠ []
  no_slash : 0x2F ∉ c
  no_nul : 0 ∉ c

/-- The path `d:/c1/…/ck`. -/
def drivePath (d : Nat) (components : List (List UInt8)) : List UInt8 :=
  UInt8.ofNat (48 + d) :: 0x3A :: 0x2F :: joinParts components

/-- `root` is the list of the parser for a drive and some components. -/
def HoldsPath (k : Kernel) (root d : Nat) (components : List (List UInt8)) : Prop :=
  root ≠ 0 ∧ ∃ first, k.objs root = some (.pathRoot ⟨d, first⟩) ∧ PartList k first components

section Components

variable {c : List UInt8} {components : List (List UInt8)}

theorem IsComponent.all (h : IsComponent c) : ∀ x ∈ c, isPartChar x = true := by
  intro x hx
  exact isPartChar_iff.mpr ⟨fun h₀ => h.no_slash (h₀ ▸ hx), fun h₀ => h.no_nul (h₀ ▸ hx)⟩

/-- The parser takes a component up to the character behind it. -/
theorem IsComponent.split (h : IsComponent c) {x : UInt8} (hx : isPartChar x = false)
    (rest : List UInt8) : (c ++ x :: rest).takeWhile isPartChar = c ∧
      (c ++ x :: rest).dropWhile isPartChar = x :: rest := by
  rw [List.takeWhile_append_of_pos h.all, List.dropWhile_append_of_pos h.all]
  simp [hx]

/-- The parts of a path are its components. -/
theorem pathParts_joinParts : ∀ {components : List (List UInt8)},
    (∀ c ∈ components, IsComponent c) → PathParts (joinParts components ++ [0]) components
  | [], _ => .stop rfl
  | [c], h => by
    obtain ⟨htake, hdrop⟩ := (h c List.mem_cons_self).split (x := 0) (by decide) []
    have hrest : PathParts (pathRest (c ++ [0])) [] := by
      unfold pathRest
      rw [hdrop]
      exact .stop rfl
    have hparts := PathParts.part (by rw [htake]; exact (h c List.mem_cons_self).ne_nil) hrest
    rwa [htake] at hparts
  | c :: c' :: components, h => by
    obtain ⟨htake, hdrop⟩ := (h c List.mem_cons_self).split (x := 0x2F) (by decide)
      (joinParts (c' :: components) ++ [0])
    have hjoin : joinParts (c :: c' :: components) ++ [0] =
        c ++ 0x2F :: (joinParts (c' :: components) ++ [0]) := by
      simp [joinParts]
    have hrest : PathParts (pathRest (c ++ 0x2F :: (joinParts (c' :: components) ++ [0])))
        (c' :: components) := by
      unfold pathRest
      rw [hdrop]
      exact pathParts_joinParts fun x hx => h x (List.mem_cons_of_mem c hx)
    have hparts := PathParts.part (by rw [htake]; exact (h c List.mem_cons_self).ne_nil) hrest
    rw [hjoin]
    rwa [htake] at hparts

/-- The parser finds only one list of parts. -/
theorem PathParts.unique {path : List UInt8} {parts parts' : List (List UInt8)}
    (h : PathParts path parts) (h' : PathParts path parts') : parts = parts' := by
  induction h generalizing parts' with
  | stop hnil =>
    cases h' with
    | stop => rfl
    | part hne _ => exact absurd hnil hne
  | part hne _ ih =>
    cases h' with
    | stop hnil => exact absurd hnil hne
    | part _ hrest => rw [ih hrest]

/-- Every part takes a character. -/
theorem PathParts.length_le {path : List UInt8} {parts : List (List UInt8)}
    (h : PathParts path parts) : parts.length ≤ path.length := by
  induction h with
  | stop => exact Nat.zero_le _
  | @part path parts hne hrest ih =>
    have hsplit := congrArg List.length
      (List.takeWhile_append_dropWhile (p := isPartChar) (l := path))
    rw [List.length_append] at hsplit
    have hpos := List.length_pos_iff.mpr hne
    have hle : (pathRest path).length ≤ (path.dropWhile isPartChar).length := by
      unfold pathRest
      split
      · next heq =>
        rw [heq]
        exact Nat.le_succ _
      · exact le_rfl
    rw [List.length_cons]
    omega

theorem zero_not_mem_joinParts : ∀ {components : List (List UInt8)},
    (∀ c ∈ components, IsComponent c) → 0 ∉ joinParts components
  | [], _ => List.not_mem_nil
  | [c], h => (h c List.mem_cons_self).no_nul
  | c :: c' :: components, h => by
    have ih := zero_not_mem_joinParts fun x hx => h x (List.mem_cons_of_mem c hx)
    simp only [joinParts, List.mem_append, List.mem_cons, not_or]
    exact ⟨(h c List.mem_cons_self).no_nul, by decide, ih⟩

/-- A digit, as the code reads it. -/
theorem digit_spec : ∀ {d : Nat}, d < 10 → isdigit (UInt8.ofNat (48 + d)) = true ∧
    UInt8.ofNat (48 + d) ≠ 0 ∧ toenumericdigit (UInt8.ofNat (48 + d)) = d := by
  decide

section DrivePath

variable {d : Nat}

/-- The string of the path. -/
theorem characters_drivePath (hd : d < 10) (h : ∀ c ∈ components, IsComponent c) :
    characters (drivePath d components ++ [0]) = drivePath d components := by
  have hall : ∀ x ∈ drivePath d components, (decide (x ≠ 0)) = true := by
    intro x hx
    rw [decide_eq_true_eq]
    rintro rfl
    simp only [drivePath, List.mem_cons] at hx
    rcases hx with hx | hx | hx | hx
    · exact (digit_spec hd).2.1 hx.symm
    · exact absurd hx (by decide)
    · exact absurd hx (by decide)
    · exact zero_not_mem_joinParts h hx
  unfold characters
  rw [List.takeWhile_append_of_pos hall]
  simp

theorem drivePath_valid (hd : d < 10) (h : ∀ c ∈ components, IsComponent c) :
    pathparserPathValidFormat (drivePath d components ++ [0]) = true := by
  have hlen : 3 ≤ strnlen (drivePath d components ++ [0]) PLUMOS_MAX_PATH := by
    unfold strnlen
    rw [← characters_length, characters_drivePath hd h]
    simp [drivePath, PLUMOS_MAX_PATH]
  have hdigit : charAt (drivePath d components ++ [0]) 0 = UInt8.ofNat (48 + d) := rfl
  have hcolon : charAt (drivePath d components ++ [0]) 1 = 0x3A := rfl
  have hslash : charAt (drivePath d components ++ [0]) 2 = 0x2F := rfl
  unfold pathparserPathValidFormat
  simp only [hlen, hdigit, (digit_spec hd).1, hcolon, hslash, decide_true, beq_self_eq_true,
    Bool.and_self]

end DrivePath

end Components

/-! ### Allocations of one block -/

theorem TookBlocks.zeroFree {k k' : Kernel} {n : Nat} (h : TookBlocks k n k')
    (hzero : k.heap.table.ZeroFree) : k'.heap.table.ZeroFree := by
  obtain ⟨taken, -, -, he⟩ := h
  intro i h₀ hi hfree
  unfold HeapTable.IsFree at hfree
  rw [Kernel.heap_entries_eq, he] at hfree ⊢
  unfold takenEntries at hfree ⊢
  split at hfree
  · exact absurd hfree (runEntry_taken 1 0)
  · next hout =>
    rw [if_neg hout]
    exact hzero i h₀ hi hfree

/-- The single blocks `ptrs` were allocated, and what was alive is so still. -/
structure TookAllocs (k : Kernel) (ptrs : List Nat) (k' : Kernel) : Prop where
  took : TookBlocks k ptrs.length k'
  nodup : ptrs.Nodup
  alive : ∀ p ∈ ptrs, k'.Alive p 1
  fresh : ∀ p ∈ ptrs, ∀ n, ¬ k.Alive p n
  keepsAlive : KeepsAlive k k'

section TookAllocs

variable {k k₁ k₂ : Kernel} {ptrs ptrs' : List Nat}

theorem TookAllocs.nil (he : k₁.heap_entries = k.heap_entries) : TookAllocs k [] k₁ where
  took := (TookBlocks.refl k).congr he
  nodup := List.nodup_nil
  alive := by simp
  fresh := by simp
  keepsAlive := fun _ _ hp => hp.congr he

theorem TookAllocs.singleton {p : Nat} (htook : TookBlocks k 1 k₁) (halive : k₁.Alive p 1)
    (hfresh : ∀ n, ¬ k.Alive p n) (hkeeps : KeepsAlive k k₁) : TookAllocs k [p] k₁ where
  took := htook
  nodup := List.nodup_singleton p
  alive := by simpa using halive
  fresh := by simpa using hfresh
  keepsAlive := hkeeps

theorem TookAllocs.congr (h : TookAllocs k ptrs k₁) (he : k₂.heap_entries = k₁.heap_entries) :
    TookAllocs k ptrs k₂ where
  took := h.took.congr he
  nodup := h.nodup
  alive := fun p hp => (h.alive p hp).congr he
  fresh := h.fresh
  keepsAlive := fun p n hp => (h.keepsAlive p n hp).congr he

theorem TookAllocs.trans (h : TookAllocs k ptrs k₁) (h' : TookAllocs k₁ ptrs' k₂) :
    TookAllocs k (ptrs ++ ptrs') k₂ where
  took := by
    rw [List.length_append]
    exact h.took.trans h'.took
  nodup := List.nodup_append.mpr ⟨h.nodup, h'.nodup, fun p hp q hq heq =>
    h'.fresh q hq 1 (heq ▸ h.alive p hp)⟩
  alive := by
    intro p hp
    rcases List.mem_append.mp hp with hp | hp
    · exact h'.keepsAlive p 1 (h.alive p hp)
    · exact h'.alive p hp
  fresh := by
    intro p hp n hn
    rcases List.mem_append.mp hp with hp | hp
    · exact h.fresh p hp n hn
    · exact h'.fresh p hp n (h.keepsAlive p n hn)
  keepsAlive := fun p n hp => h'.keepsAlive p n (h.keepsAlive p n hp)

theorem TookAllocs.card (h : TookAllocs k ptrs k₁) :
    k₁.freeBlocks.card = k.freeBlocks.card - ptrs.length := h.took.card

/-- When they are released, the table is what it was. -/
theorem TookAllocs.restored (h : TookAllocs k ptrs k₁) (hzero : k.heap.table.ZeroFree) :
    releasedEntriesOf k₁.heap_entries ptrs = k.heap_entries :=
  h.took.restored hzero (h.took.mem_iff h.nodup h.alive h.fresh)

theorem Keeps.keepsAlive (h : Keeps [] k k₁) : KeepsAlive k k₁ := fun p n hp =>
  (h p n hp (List.not_mem_nil)).1

end TookAllocs

/-! ### The blocks of the parts -/

section Parts

variable {path : List UInt8} {k : Kernel}

/-- The buffer of a part is a block of its own. -/
theorem pathparserGetPathPart_takes (hchars : path.takeWhile isPartChar ≠ [])
    (hlen : (path.takeWhile isPartChar).length ≤ PLUMOS_MAX_PATH) (hcard : 0 < k.freeBlocks.card) :
    Returns (pathparserGetPathPart path) k fun r k' => r.2 = pathRest path ∧
      TookAllocs k [r.1] k' ∧ Keeps [] k k' := by
  refine .bind (kzalloc_takes hcard (by decide) (by decide)) ?_
  rintro _ k₁ ⟨b, rfl, hb, -, hz, he⟩
  dsimp only
  have hkeeps := hz.keeps (by decide)
  have htook : TookAllocs k [blockAddress b] k₁ :=
    .singleton ⟨{b}, Finset.card_singleton b, Finset.singleton_subset_iff.mpr hb, he⟩
      (hz.alive_one (by decide) (by decide)) (fun n hn => hz.ne_alive hn rfl) hkeeps.keepsAlive
  rw [if_neg hchars, if_neg hz.ne_zero, if_neg (Nat.not_lt.mpr hlen)]
  refine .bind (R := fun _ k₂ => k₂.heap_entries = k₁.heap_entries ∧ k₂.objs = k₁.objs)
    (.modifies ⟨rfl, rfl⟩) ?_
  rintro _ k₂ ⟨he₂, hobjs⟩
  refine .pure ⟨rfl, htook.congr he₂, fun p n hp hF => ?_⟩
  obtain ⟨halive, hobj⟩ := hkeeps p n hp hF
  exact ⟨halive.congr he₂, (congrFun hobjs p).trans hobj⟩

/-- Behind the last part the buffer is released at once. -/
theorem pathparserGetPathPart_none (hchars : path.takeWhile isPartChar = [])
    (hzero : k.heap.table.ZeroFree) (hcard : 0 < k.freeBlocks.card) :
    Returns (pathparserGetPathPart path) k fun r k' => r.1 = 0 ∧
      k'.heap_entries = k.heap_entries ∧ Keeps [] k k' := by
  refine .bind (kzalloc_takes hcard (by decide) (by decide)) ?_
  rintro _ k₁ ⟨b, rfl, hb, -, hz, he⟩
  have hkeeps := hz.keeps (by decide)
  have halive : k₁.Alive (blockAddress b) 1 := hz.alive_one (by decide) (by decide)
  have hfresh : ∀ n, ¬ k.Alive (blockAddress b) n := fun n hn => hz.ne_alive hn rfl
  have htook : TookAllocs k [blockAddress b] k₁ :=
    .singleton ⟨{b}, Finset.card_singleton b, Finset.singleton_subset_iff.mpr hb, he⟩ halive
      hfresh hkeeps.keepsAlive
  dsimp only
  rw [if_pos hchars]
  refine .bind (kfree_spec halive) ?_
  intro _ k₂ hfreed
  refine .pure ⟨rfl, (hfreed.released halive).trans (htook.restored hzero), ?_⟩
  intro p n hp hF
  obtain ⟨halive₁, hobj₁⟩ := hkeeps p n hp hF
  have hne : p ∉ [blockAddress b] := by
    rw [List.mem_singleton]
    rintro rfl
    exact hfresh n hp
  obtain ⟨halive₂, hobj₂⟩ := hfreed.keeps p n halive₁ hne
  exact ⟨halive₂, hobj₂.trans hobj₁⟩

/-- The node of a new part. -/
theorem pathparserParsePathPart_takes (hchars : path.takeWhile isPartChar ≠ [])
    (hlen : (path.takeWhile isPartChar).length ≤ PLUMOS_MAX_PATH) (hcard : 2 ≤ k.freeBlocks.card)
    {last_part : Nat} (hlast : last_part = 0 ∨ k.Alive last_part 1 ∧
      ∃ p, k.objs last_part = some (.pathPart p)) :
    Returns (pathparserParsePathPart last_part path) k fun r k' => r.2 = pathRest path ∧
      ∃ str, TookAllocs k [str, r.1] k' ∧ k'.objs r.1 = some (.pathPart ⟨str, 0⟩) ∧
        Keeps [last_part] k k' ∧ ∀ p, k.objs last_part = some (.pathPart p) →
          last_part ≠ 0 → k'.objs last_part = some (.pathPart { p with next := r.1 }) := by
  refine .bind (pathparserGetPathPart_takes hchars hlen (by omega)) ?_
  rintro ⟨str, rest⟩ k₁ ⟨rfl, htook₁, hkeeps₁⟩
  have hstr := htook₁.alive str (List.mem_singleton_self str)
  have hcard₁ := htook₁.card
  dsimp only at hstr ⊢
  rw [if_neg hstr.ne_zero]
  refine .bind (kzallocObj_takes (by simp only [List.length_singleton] at hcard₁; omega)
    (by decide) (by decide)) ?_
  rintro part k₂ ⟨htook₂, hpart, hfresh, hobj, hkeeps₂⟩
  have htook : TookAllocs k [str, part] k₂ :=
    htook₁.trans (.singleton htook₂ hpart hfresh hkeeps₂.keepsAlive)
  refine .bind (R := fun _ k₃ => Stored k₂ part (.pathPart ⟨str, 0⟩) k₃) ?_ ?_
  · refine .bind (deref_returns hpart.ne_zero hobj rfl) ?_
    rintro _ _ ⟨rfl, rfl⟩
    exact storeObj_spec _ _ _
  intro _ k₃ hst₃
  have htook₃ := htook.congr hst₃.heap_entries
  have hkeeps₃ : Keeps [] k k₃ := by
    intro p n hp hF
    obtain ⟨ha₁, ho₁⟩ := hkeeps₁ p n hp hF
    obtain ⟨ha₂, ho₂⟩ := hkeeps₂ p n ha₁ hF
    have hne : p ≠ part := by
      rintro rfl
      exact htook.fresh p (by simp) n hp
    exact ⟨hst₃.alive ha₂, ((hst₃.other p hne).trans ho₂).trans ho₁⟩
  by_cases h0 : last_part = 0
  · subst h0
    refine .bind (R := fun _ k₄ => k₃ = k₄) (Returns.onlyIf (fun h => absurd rfl h)
      fun _ => rfl) ?_
    rintro _ _ rfl
    exact .pure ⟨rfl, str, htook₃, hst₃.self, hkeeps₃.mono (by simp), fun _ _ h => absurd rfl h⟩
  · obtain ⟨hla, p, hp⟩ := hlast.resolve_left h0
    have hne : part ≠ last_part := by
      rintro rfl
      exact htook.fresh part (by simp) 1 hla
    have hp₃ := (hkeeps₃ last_part 1 hla (by simp)).2.trans hp
    refine .bind (R := fun _ k₄ => Stored k₃ last_part (.pathPart { p with next := part }) k₄)
      (Returns.onlyIf (fun _ => ?_) fun h => absurd h0 h) ?_
    · refine .bind (deref_returns h0 hp₃ rfl) ?_
      rintro _ _ ⟨rfl, rfl⟩
      exact storeObj_spec _ _ _
    intro _ k₄ hst₄
    refine .pure ⟨rfl, str, htook₃.congr hst₄.heap_entries, (hst₄.other part hne).trans hst₃.self,
      hkeeps₃.trans hst₄.keeps, fun p' hp' _ => ?_⟩
    cases hp.symm.trans hp'
    exact hst₄.self

theorem pathparserParsePathPart_none (hchars : path.takeWhile isPartChar = [])
    (hzero : k.heap.table.ZeroFree) (hcard : 0 < k.freeBlocks.card) (last_part : Nat) :
    Returns (pathparserParsePathPart last_part path) k fun r k' => r.1 = 0 ∧
      k'.heap_entries = k.heap_entries ∧ Keeps [] k k' := by
  refine .bind (pathparserGetPathPart_none hchars hzero hcard) ?_
  rintro r k₁ ⟨hr, he, hkeeps⟩
  rw [if_pos hr]
  exact .pure ⟨rfl, he, hkeeps⟩

/-- The list from `ptr` on has these nodes, with the string of each. -/
def OwnsParts (k : Kernel) : (ptr : Nat) → (nodes : List (Nat × Nat)) → Prop
  | ptr, [] => ptr = 0
  | ptr, n :: nodes => ptr = n.1 ∧ ∃ next, k.objs ptr = some (.pathPart ⟨n.2, next⟩) ∧
      OwnsParts k next nodes

/-- Their blocks, a string before its node. -/
def partBlocks (nodes : List (Nat × Nat)) : List Nat := nodes.flatMap fun n => [n.2, n.1]

theorem OwnsParts.congr {k k' : Kernel} {ptr : Nat} {nodes : List (Nat × Nat)}
    (h : OwnsParts k ptr nodes) (hobjs : ∀ p ∈ partBlocks nodes, k'.objs p = k.objs p) :
    OwnsParts k' ptr nodes := by
  induction nodes generalizing ptr with
  | nil => exact h
  | cons n nodes ih =>
    obtain ⟨rfl, next, hobj, howns⟩ := h
    have hblocks : partBlocks (n :: nodes) = [n.2] ++ ([n.1] ++ partBlocks nodes) := rfl
    rw [hblocks] at hobjs
    exact ⟨rfl, next, (hobjs n.1 (by simp)).trans hobj,
      ih howns fun p hp => hobjs p (by simp [hp])⟩

/-- The loop takes two blocks for each part, and needs one more at the end. -/
theorem pathparserParseLoop_takes {parts : List (List UInt8)} {fuel part str : Nat}
    (hparts : PathParts path parts) (hfuel : parts.length + 2 ≤ fuel)
    (hlen : (characters path).length ≤ PLUMOS_MAX_PATH) (hzero : k.heap.table.ZeroFree)
    (hcard : 2 * parts.length + 1 ≤ k.freeBlocks.card) (hpart : k.Alive part 1)
    (hobj : k.objs part = some (.pathPart ⟨str, 0⟩)) :
    Returns (pathparserParseLoop fuel part path) k fun _ k' => ∃ next nodes,
      k'.objs part = some (.pathPart ⟨str, next⟩) ∧ OwnsParts k' next nodes ∧
        nodes.length = parts.length ∧ TookAllocs k (partBlocks nodes) k' ∧ Keeps [part] k k' := by
  induction hparts generalizing fuel part str k with
  | @stop path hnil =>
    obtain ⟨fuel, rfl⟩ : ∃ n, fuel = n + 2 := Nat.exists_eq_add_of_le' hfuel
    unfold pathparserParseLoop
    rw [if_neg hpart.ne_zero]
    refine .bind (pathparserParsePathPart_none hnil hzero (by omega) part) ?_
    rintro r k₁ ⟨hr, he, hkeeps⟩
    rw [hr]
    refine .pure ⟨0, [], ?_, rfl, rfl, .nil he, hkeeps.mono (by simp)⟩
    exact (hkeeps part 1 hpart (by simp)).2.trans hobj
  | @part path parts hchars hrest ih =>
    rw [List.length_cons] at hfuel hcard
    obtain ⟨fuel, rfl⟩ : ∃ n, fuel = n + 1 := Nat.exists_eq_add_of_le' (by omega)
    unfold pathparserParseLoop
    rw [if_neg hpart.ne_zero]
    refine .bind (pathparserParsePathPart_takes hchars ((takeWhile_isPartChar_length path).trans hlen)
      (by omega) (.inr ⟨hpart, _, hobj⟩)) ?_
    rintro ⟨node, rest⟩ k₁ ⟨rfl, s, htook, hnode, hkeeps, hnext⟩
    dsimp only at htook hnode hnext ⊢
    have hcard₁ := htook.card
    have hpart₁ := hnext _ hobj hpart.ne_zero
    refine (ih (by omega) ((characters_pathRest_length path).trans hlen)
      (htook.took.zeroFree hzero) (by simp only [List.length_cons, List.length_nil] at hcard₁; omega)
      (htook.alive node (by simp)) hnode).mono ?_
    rintro _ k₂ ⟨next, nodes, hnode₂, howns, hlength, htook₂, hkeeps₂⟩
    have hne : part ∉ [node] := by
      rw [List.mem_singleton]
      rintro rfl
      exact htook.fresh part (by simp) 1 hpart
    refine ⟨node, (node, s) :: nodes, ?_, ⟨rfl, next, hnode₂, howns⟩, congrArg (· + 1) hlength,
      htook.trans htook₂, fun p n hp hF => ?_⟩
    · exact (hkeeps₂ part 1 (htook.keepsAlive part 1 hpart) hne).2.trans hpart₁
    · obtain ⟨ha₁, ho₁⟩ := hkeeps p n hp hF
      have hnot : p ∉ [node] := by
        rw [List.mem_singleton]
        rintro rfl
        exact htook.fresh p (by simp) n hp
      obtain ⟨ha₂, ho₂⟩ := hkeeps₂ p n ha₁ hnot
      exact ⟨ha₂, ho₂.trans ho₁⟩

end Parts

/-! ### pathparser_parse and pathparser_free -/

section Paths

variable {path : List UInt8} {k : Kernel}

theorem pathparserCreateRoot_takes (drive_number : Int) (hcard : 0 < k.freeBlocks.card) :
    Returns (pathparserCreateRoot drive_number) k fun root k' => TookAllocs k [root] k' ∧
      k'.objs root = some (.pathRoot ⟨drive_number, 0⟩) := by
  refine .bind (kzallocObj_takes hcard (by decide) (by decide)) ?_
  rintro root k₁ ⟨htook, halive, hfresh, hobj, hkeeps⟩
  refine .bind (R := fun _ k₂ => Stored k₁ root (.pathRoot ⟨drive_number, 0⟩) k₂) ?_ ?_
  · refine .bind (deref_returns halive.ne_zero hobj rfl) ?_
    rintro _ _ ⟨rfl, rfl⟩
    exact storeObj_spec _ _ _
  · intro _ k₂ hst
    have hroot : TookAllocs k [root] k₁ := .singleton htook halive hfresh hkeeps.keepsAlive
    exact .pure ⟨hroot.congr hst.heap_entries, hst.self⟩

/-- The list of a path with valid format, and the blocks it is in. -/
structure TookPath (k : Kernel) (path : List UInt8) (parts : List (List UInt8)) (root : Nat)
    (first : Nat) (nodes : List (Nat × Nat)) (k' : Kernel) : Prop where
  obj : k'.objs root = some (.pathRoot ⟨toenumericdigit (charAt path 0), first⟩)
  owns : OwnsParts k' first nodes
  length : nodes.length = parts.length
  took : TookAllocs k (root :: partBlocks nodes) k'

/-- With the blocks for it, a path of at most `PLUMOS_MAX_PATH` characters is parsed. -/
theorem pathparserParse_takes {parts : List (List UInt8)} (hshort : strlen path ≤ PLUMOS_MAX_PATH)
    (hvalid : pathparserPathValidFormat path = true) (hparts : PathParts (path.drop 3) parts)
    (hzero : k.heap.table.ZeroFree) (hcard : 2 * parts.length + 2 ≤ k.freeBlocks.card) :
    Returns (pathparserParse path) k fun root k' => ∃ first nodes,
      TookPath k path parts root first nodes k' := by
  have hdrive : pathparserGetDriveByPath path = (toenumericdigit (charAt path 0), path.drop 3) := by
    unfold pathparserGetDriveByPath
    rw [hvalid]
    rfl
  have hlen : (characters (path.drop 3)).length ≤ PLUMOS_MAX_PATH := by
    rw [characters_drop hvalid, List.length_drop, characters_length]
    omega
  have hdigit : 0 ≤ toenumericdigit (charAt path 0) := by
    simp only [pathparserPathValidFormat, Bool.and_eq_true, isdigit, decide_eq_true_eq] at hvalid
    have hle : 48 ≤ (charAt path 0).toNat := UInt8.le_iff_toNat_le.mp hvalid.1.1.2.1
    unfold toenumericdigit
    omega
  unfold pathparserParse
  rw [if_neg (Nat.not_lt.mpr hshort), hdrive]
  dsimp only
  rw [if_neg (Int.not_lt.mpr hdigit)]
  refine .bind (pathparserCreateRoot_takes _ (by omega)) ?_
  rintro root k₁ ⟨htook₁, hobj₁⟩
  have hroot := htook₁.alive root (List.mem_singleton_self root)
  have hcard₁ := htook₁.card
  have hzero₁ := htook₁.took.zeroFree hzero
  rw [List.length_singleton] at hcard₁
  rw [if_neg hroot.ne_zero]
  cases hparts with
  | stop hnil =>
    refine .bind (pathparserParsePathPart_none hnil hzero₁ (by omega) 0) ?_
    rintro first k₂ ⟨hfirst, he, hkeeps⟩
    rw [if_pos hfirst]
    exact .pure ⟨0, [], (hkeeps root 1 hroot (by simp)).2.trans hobj₁, rfl, rfl, htook₁.congr he⟩
  | @part _ parts hchars hrest =>
    rw [List.length_cons] at hcard
    refine .bind (pathparserParsePathPart_takes hchars ((takeWhile_isPartChar_length _).trans hlen)
      (by omega) (.inl rfl)) ?_
    rintro ⟨first, rest⟩ k₂ ⟨rfl, str, htook₂, hnode, hkeeps₂, -⟩
    dsimp only at htook₂ hnode ⊢
    have hfirst := htook₂.alive first (by simp)
    have hcard₂ := htook₂.card
    simp only [List.length_cons, List.length_nil] at hcard₂
    rw [if_neg hfirst.ne_zero]
    obtain ⟨hroot₂, hobj₂⟩ := hkeeps₂ root 1 hroot (by simpa using hroot.ne_zero)
    have hne : first ≠ root := by
      rintro rfl
      exact htook₂.fresh first (by simp) 1 hroot
    refine .bind (R := fun _ k₃ => Stored k₂ root
      (.pathRoot ⟨toenumericdigit (charAt path 0), first⟩) k₃) ?_ ?_
    · refine .bind (deref_returns hroot.ne_zero (hobj₂.trans hobj₁) rfl) ?_
      rintro _ _ ⟨rfl, rfl⟩
      exact storeObj_spec _ _ _
    intro _ k₃ hst₃
    have htook₃ := (htook₁.trans htook₂).congr hst₃.heap_entries
    -- the rest is the loop, from the first node on
    have hfuel := hrest.length_le
    have hle : (pathRest (path.drop 3)).length ≤ path.length := by
      have := List.length_drop (i := 3) (l := path)
      have := (List.dropWhile_suffix isPartChar (l := path.drop 3)).length_le
      unfold pathRest
      split
      · next heq =>
        rw [heq, List.length_cons] at this
        omega
      · omega
    have hloop := @pathparserParseLoop_takes _ k₃ _ (path.length + 1 + 1) _ _ hrest
      (by omega) ((characters_pathRest_length _).trans hlen) (htook₃.took.zeroFree hzero)
      (by rw [Kernel.freeBlocks_congr hst₃.heap_entries]; omega) (hst₃.alive hfirst)
      ((hst₃.other first hne).trans hnode)
    unfold pathparserParseLoop at hloop
    rw [if_neg hfirst.ne_zero] at hloop
    rw [← bind_assoc]
    refine .bind hloop ?_
    rintro _ k₄ ⟨next, nodes, hnode₄, howns, hlength, htook₄, hkeeps₄⟩
    refine .pure ⟨first, (first, str) :: nodes, ?_, ⟨rfl, next, hnode₄, howns⟩,
      congrArg (· + 1) hlength, htook₃.trans htook₄⟩
    exact (hkeeps₄ root 1 (hst₃.alive hroot₂) (by simpa using hne.symm)).2.trans hst₃.self

/-- The loop of `pathparser_free` releases each string and each node. -/
theorem pathparserFreeLoop_releases {nodes : List (Nat × Nat)} {fuel ptr : Nat}
    (hfuel : nodes.length < fuel) (howns : OwnsParts k ptr nodes)
    (hnodup : (partBlocks nodes).Nodup) (halive : ∀ p ∈ partBlocks nodes, k.Alive p 1) :
    Returns (pathparserFreeLoop fuel ptr) k fun _ k' =>
      k'.heap_entries = releasedEntriesOf k.heap_entries (partBlocks nodes) ∧
        Keeps (partBlocks nodes) k k' := by
  induction nodes generalizing fuel ptr k with
  | nil =>
    obtain ⟨fuel, rfl⟩ : ∃ n, fuel = n + 1 := Nat.exists_eq_add_of_le' hfuel
    obtain rfl : ptr = 0 := howns
    refine .pure ⟨?_, .refl [] k⟩
    funext i
    unfold releasedEntriesOf partBlocks
    simp
  | cons n nodes ih =>
    obtain ⟨fuel, rfl⟩ : ∃ n, fuel = n + 1 := Nat.exists_eq_add_of_le' (Nat.one_le_of_lt hfuel)
    obtain ⟨node, str⟩ := n
    obtain ⟨rfl, next, hobj, howns⟩ := howns
    dsimp only at hobj ⊢
    have hblocks : partBlocks ((ptr, str) :: nodes) = [str] ++ ([ptr] ++ partBlocks nodes) := rfl
    rw [hblocks] at hnodup halive ⊢
    have hstr := halive str (by simp)
    have hptr := halive ptr (by simp)
    unfold pathparserFreeLoop
    rw [if_neg hptr.ne_zero]
    refine .bind (deref_returns hptr.ne_zero hobj rfl) ?_
    rintro _ _ ⟨rfl, rfl⟩
    refine .bind (kfree_spec hstr) ?_
    intro _ k₁ hfreed₁
    rw [List.singleton_append, List.singleton_append, List.nodup_cons, List.nodup_cons] at hnodup
    obtain ⟨hstr_not, hptr_not, hnodup⟩ := hnodup
    have hptr₁ := (hfreed₁.keeps ptr 1 hptr (by
      rw [List.mem_singleton]
      rintro rfl
      exact hstr_not List.mem_cons_self)).1
    refine .bind (kfree_spec hptr₁) ?_
    intro _ k₂ hfreed₂
    have hkeeps := hfreed₁.keeps.trans hfreed₂.keeps
    have hout : ∀ p ∈ partBlocks nodes, p ∉ [str] ++ [ptr] := by
      intro p hp hmem
      rcases List.mem_pair.mp hmem with rfl | rfl
      · exact hstr_not (List.mem_cons_of_mem _ hp)
      · exact hptr_not hp
    refine (ih (Nat.lt_of_succ_lt_succ hfuel) ?_ hnodup fun p hp =>
      (hkeeps p 1 (halive p (by simp [hp])) (hout p hp)).1).mono ?_
    · exact howns.congr fun p hp => (hkeeps p 1 (halive p (by simp [hp])) (hout p hp)).2
    · rintro _ k₃ ⟨he, hkeeps₃⟩
      refine ⟨?_, by simpa using hkeeps.trans hkeeps₃⟩
      rw [he, hfreed₂.released hptr₁, hfreed₁.released hstr, releasedEntriesOf_append,
        releasedEntriesOf_append]

theorem freeBlocks_card_le (k : Kernel) : k.freeBlocks.card ≤ 25600 :=
  (Finset.card_filter_le _ _).trans (Finset.card_range 25600).le

/-- After `pathparser_free` the heap table is as it was before the parser. -/
theorem pathparserFree_restores {parts : List (List UInt8)} {root first : Nat}
    {nodes : List (Nat × Nat)} {k' : Kernel} (h : TookPath k path parts root first nodes k')
    (hzero : k.heap.table.ZeroFree) :
    Returns (pathparserFree root) k' fun _ k'' => k''.heap_entries = k.heap_entries := by
  have hroot := h.took.alive root List.mem_cons_self
  have hnodup := List.nodup_cons.mp h.took.nodup
  have hfuel : nodes.length < 0x100000 := by
    obtain ⟨taken, hn, hsub, -⟩ := h.took.took
    have hcard := (Finset.card_le_card hsub).trans (freeBlocks_card_le k)
    have hlength : (partBlocks nodes).length = 2 * nodes.length := by
      simp [partBlocks, Nat.mul_comm]
    rw [hn, List.length_cons] at hcard
    omega
  refine .bind (deref_returns hroot.ne_zero h.obj rfl) ?_
  rintro _ _ ⟨rfl, rfl⟩
  refine .bind (pathparserFreeLoop_releases hfuel h.owns hnodup.2 fun p hp =>
    h.took.alive p (List.mem_cons_of_mem _ hp)) ?_
  rintro _ k₁ ⟨he₁, hkeeps⟩
  have hroot₁ := (hkeeps root 1 hroot hnodup.1).1
  refine (kfree_spec hroot₁).mono ?_
  intro _ k₂ hfreed
  rw [hfreed.released hroot₁, he₁, releasedEntriesOf_append, ← h.took.restored hzero]
  unfold releasedEntriesOf
  simp only [List.mem_append, List.mem_singleton]
  simp only [List.mem_cons, or_comm]

end Paths

/-- For every digit and every list of components, also the empty one, with a path of at most
`PLUMOS_MAX_PATH` characters. The parser, with every access of a character or a buffer
looked at, is never out of bounds. What it returns is the drive and these components. With
a block for the root, two for each component and one more, wherever they are free, it
returns, and `pathparser_free` restores the heap table. -/
theorem pathparserParse_roundTrip {d : Nat} (hd : d < 10) {components : List (List UInt8)}
    (hcomponents : ∀ c ∈ components, IsComponent c)
    (hlen : (drivePath d components).length ≤ PLUMOS_MAX_PATH) (k : Kernel) :
    Avoids .outOfBounds (pathparserParseRead (drivePath d components ++ [0])) k ∧
      pathparserParseRead (drivePath d components ++ [0]) k =
        pathparserParse (drivePath d components ++ [0]) k ∧
      Ensures (pathparserParse (drivePath d components ++ [0])) k
        (fun root k' => HoldsPath k' root d components) ∧
      (k.heap.table.ZeroFree → 2 * components.length + 2 ≤ k.freeBlocks.card →
        Returns (pathparserParse (drivePath d components ++ [0])) k fun root k' =>
          HoldsPath k' root d components ∧
            Returns (pathparserFree root) k' fun _ k'' => k''.heap_entries = k.heap_entries) := by
  have hzero : (0 : UInt8) ∈ drivePath d components ++ [0] := by simp
  have hvalid := drivePath_valid hd hcomponents
  have hparts : PathParts ((drivePath d components ++ [0]).drop 3) components :=
    pathParts_joinParts hcomponents
  have hshort : strlen (drivePath d components ++ [0]) ≤ PLUMOS_MAX_PATH := by
    rw [← characters_length, characters_drivePath hd hcomponents]
    exact hlen
  have hdigit : toenumericdigit (charAt (drivePath d components ++ [0]) 0) = d :=
    (digit_spec hd).2.2
  have hparse : Ensures (pathparserParse (drivePath d components ++ [0])) k
      fun root k' => HoldsPath k' root d components := by
    refine (pathparserParse_parsed hshort hvalid k).mono ?_
    rintro root k' ⟨hroot, parts, hparsed⟩
    obtain ⟨first, hobj, hlist⟩ := hparsed.root
    rw [hdigit] at hobj
    rw [hparsed.parts.unique hparts] at hlist
    exact ⟨hroot, first, hobj, hlist⟩
  refine ⟨pathparserParseRead_inBounds hzero k, pathparserParseRead_eq hzero k, hparse, ?_⟩
  intro hfree hcard
  refine ((pathparserParse_takes hshort hvalid hparts hfree hcard).and_ensures hparse).mono ?_
  rintro root k' ⟨⟨first, nodes, htook⟩, hholds⟩
  exact ⟨hholds, pathparserFree_restores htook hfree⟩

/-- The path `0:/bin/sh` at boot. -/
theorem pathparserParse_roundTrip_two : ∃ (root : Nat) (k₁ k₂ : Kernel),
    pathparserParse (drivePath 0 [[0x62, 0x69, 0x6e], [0x73, 0x68]] ++ [0])
        (Kernel.boot Disk.blank) = .ok (root, k₁) ∧
      HoldsPath k₁ root 0 [[0x62, 0x69, 0x6e], [0x73, 0x68]] ∧
      pathparserFree root k₁ = .ok (⟨⟩, k₂) ∧
      k₂.heap_entries = (Kernel.boot Disk.blank).heap_entries := by
  have hcomponents : ∀ c ∈ [[0x62, 0x69, 0x6e], [0x73, 0x68]], IsComponent c := by
    intro c hc
    rcases List.mem_pair.mp hc with rfl | rfl
    · exact ⟨by decide, by decide, by decide⟩
    · exact ⟨by decide, by decide, by decide⟩
  have hcard : 6 ≤ (Kernel.boot Disk.blank).freeBlocks.card := by
    rw [boot_freeBlocks, Finset.card_range]
    decide
  obtain ⟨-, -, -, hreturns⟩ := pathparserParse_roundTrip (d := 0) (by decide) hcomponents
    (by decide) (Kernel.boot Disk.blank)
  obtain ⟨root, k₁, hparse, hholds, _, k₂, hfree, hentries⟩ :=
    hreturns (boot_zeroFree Disk.blank) hcard
  exact ⟨root, k₁, k₂, hparse, hholds, hfree, hentries⟩

end PlumOS
