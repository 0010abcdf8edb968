import PlumOS.Fs.DirectoryLookup
import PlumOS.Fs.PathRoundTrip

/-!
# The list of a path in new memory

With some free memory behind some block the parser makes the list of the parts of a path
out of new memory, and leaves all that was alive as it was.

## Main definitions

- `HoldsParts` — a list of parts in memory that was allocated since some state

## Main results

- `pathparserParse_grown` — the list of a path
-/

namespace PlumOS

open StateExcept

/-- The list at `ptr` has the parts `cs`, all of it in memory that was allocated since `k₀`. -/
def HoldsParts (k₀ k : Kernel) : (ptr : Nat) → (cs : List (List UInt8)) → Prop
  | ptr, [] => ptr = 0
  | ptr, c :: cs => ∃ str next, k.objs ptr = some (.pathPart ⟨str, next⟩) ∧
      Grown.Own k₀ k ptr 1 ∧ Grown.Own k₀ k str 1 ∧ HoldsString k str c ∧ c.length < 4096 ∧
      HoldsParts k₀ k next cs

section Parts

variable {k₀ k k' : Kernel} {m ptr : Nat} {path : List UInt8} {cs : List (List UInt8)}

theorem HoldsParts.mono (hg : Grown k m k') : ∀ {cs : List (List UInt8)} {ptr : Nat},
    HoldsParts k₀ k ptr cs → HoldsParts k₀ k' ptr cs
  | [], _, h => h
  | _ :: _, _, ⟨str, next, hobj, hown, hstr, hc, hlen, hrest⟩ =>
    ⟨str, next, (hg.obj hown.alive).trans hobj, hown.mono hg, hstr.mono hg,
      hg.holdsString hstr.alive (by omega) hc, hlen, hrest.mono hg⟩

theorem HoldsParts.before (hk : ∀ p n, k₀.Alive p n → k.Alive p n) :
    ∀ {cs : List (List UInt8)} {ptr : Nat}, HoldsParts k k' ptr cs → HoldsParts k₀ k' ptr cs
  | [], _, h => h
  | _ :: _, _, ⟨str, next, hobj, hown, hstr, hc, hlen, hrest⟩ =>
    ⟨str, next, hobj, ⟨hown.alive, fun n hn => hown.fresh n (hk _ _ hn)⟩,
      ⟨hstr.alive, fun n hn => hstr.fresh n (hk _ _ hn)⟩, hc, hlen, hrest.before hk⟩

theorem HoldsParts.head_ne_zero {c : List UInt8} (h : HoldsParts k₀ k ptr (c :: cs)) : ptr ≠ 0 := by
  obtain ⟨str, next, -, hown, -⟩ := h
  exact hown.alive.ne_zero

/-- A part of a path is copied to a buffer of its own. -/
theorem pathparserGetPathPart_grown (hfree : k.FreeFrom m) (hm : m + 1 ≤ 25600)
    (hchars : path.takeWhile isPartChar ≠ [])
    (hlen : (path.takeWhile isPartChar).length < PLUMOS_MAX_PATH) :
    Returns (pathparserGetPathPart path) k fun r k' => r.2 = pathRest path ∧ r.1 ≠ 0 ∧
      Grown k (m + 1) k' ∧ Grown.Own k k' r.1 1 ∧
      HoldsString k' r.1 (path.takeWhile isPartChar) := by
  have hone : blocksOf PLUMOS_MAX_PATH = 1 := by decide
  refine .bind (kzalloc_returns hfree (by decide) (by omega)) ?_
  rintro ptr k₁ ⟨ha, hal, hfree₁⟩
  rw [hone] at hal hfree₁
  have hg₁ : Grown k (m + 1) k₁ := ha.grown (hone.symm ▸ hal) hfree₁
  have hown : Grown.Own k k₁ ptr 1 := ⟨hal, fun n hn => ha.ne_alive hn rfl⟩
  dsimp only
  rw [if_neg hchars, if_neg ha.ne_zero, if_neg (by omega)]
  refine .bind (hg₁.storeBytes hown ?_) ?_
  · simp only [PLUMOS_MAX_PATH] at hlen
    omega
  rintro _ k₂ ⟨hg₂, rfl⟩
  refine .pure ⟨rfl, ha.ne_zero, hg₂, ⟨hal.congr rfl, hown.fresh⟩, ?_, fun j hj => ?_⟩
  · intro c hc
    exact (isPartChar_iff.mp (List.mem_takeWhile_imp hc)).2
  · have hlt : j < PLUMOS_MAX_PATH := by omega
    dsimp only
    rcases lt_or_eq_of_le hj with hin | rfl
    · unfold writeBytes
      rw [if_pos (by omega), Nat.add_sub_cancel_left]
    · -- the NUL is one of the zeros that `kzalloc` wrote
      rw [writeBytes_of_not_mem (Or.inr le_rfl), ha.eq, List.getD_eq_default _ _ le_rfl]
      exact if_pos (by omega)

/-- Behind the last part the buffer is released. -/
theorem pathparserParsePathPart_end (hfree : k.FreeFrom m) (hm : m + 1 ≤ 25600)
    (hchars : path.takeWhile isPartChar = []) (last_part : Nat) :
    Returns (pathparserParsePathPart last_part path) k fun r k' =>
      r.1 = 0 ∧ Grown k (m + 1) k' := by
  refine .bind (R := fun r k' => r.1 = 0 ∧ Grown k (m + 1) k') ?_ ?_
  · refine .bind ((Grown.refl hfree).kzalloc (by decide) hm) ?_
    rintro ptr k₁ ⟨-, hg₁, -, hown, -, -⟩
    dsimp only
    rw [if_pos hchars]
    exact .bind (hg₁.kfree hown) fun _ k₂ hk₂ => .pure ⟨rfl, hk₂.1⟩
  · rintro r k₁ ⟨hr, hg₁⟩
    rw [if_pos hr]
    exact .pure ⟨rfl, hg₁⟩

/-- The state in which `last`, a part with the string `s`, leads on to `next`. -/
def Kernel.linked (k : Kernel) (last s next : Nat) : Kernel :=
  if last = 0 then k
  else { k with objs := Function.update k.objs last (some (.pathPart ⟨s, next⟩)) }

theorem Kernel.linked_zero (k : Kernel) (s next : Nat) : k.linked 0 s next = k := if_pos rfl

theorem Kernel.linked_self {last s next : Nat} (h : k.objs last = some (.pathPart ⟨s, next⟩)) :
    k.linked last s next = k := by
  unfold Kernel.linked
  split
  · rfl
  · rw [← h, Function.update_eq_self]

theorem Kernel.linked_alive {last s next p n : Nat} :
    (k.linked last s next).Alive p n ↔ k.Alive p n := by
  unfold Kernel.linked
  split
  · exact Iff.rfl
  · exact ⟨fun h => h.congr rfl, fun h => h.congr rfl⟩

theorem Kernel.linked_stored {last : Nat} (hl : last ≠ 0) (s next : Nat) :
    Stored k last (.pathPart ⟨s, next⟩) (k.linked last s next) := by
  unfold Kernel.linked
  rw [if_neg hl]
  exact ⟨Function.update_self .., fun q hq => Function.update_of_ne hq _ _, rfl, rfl, rfl,
    ⟨rfl, rfl, rfl, rfl, rfl, rfl⟩⟩

/-- A new part in front of a list that was linked to it later. -/
theorem HoldsParts.cons {c : List UInt8} {node str next : Nat}
    (hl : HoldsParts k₀ k' next cs) (hk : ∀ p n, k.Alive p n → k₀.Alive p n)
    (hg : Grown (k₀.linked node str next) m k') (hown : Grown.Own k k₀ node 1)
    (hstr : Grown.Own k k₀ str 1) (hc : HoldsString k₀ str c) (hlen : c.length < PLUMOS_MAX_PATH) :
    HoldsParts k k' node (c :: cs) := by
  have hst := Kernel.linked_stored (k := k₀) hown.alive.ne_zero str next
  have hlt : c.length < 4096 * 1 := by
    simp only [PLUMOS_MAX_PATH] at hlen
    omega
  refine ⟨str, next, (hg.obj (hst.alive hown.alive)).trans hst.self,
    ⟨hg.alive _ _ (hst.alive hown.alive), hown.fresh⟩,
    ⟨hg.alive _ _ (hst.alive hstr.alive), hstr.fresh⟩, ?_, hlt, hl.before hk⟩
  exact hg.holdsString (hst.alive hstr.alive) hlt ⟨hc.chars, by rw [hst.mem]; exact hc.bytes⟩

/-- Linking a part of an earlier state. -/
theorem Grown.linked {last s next n : Nat} (hg : Grown k m k') (hl : k.Alive last n)
    (hst : Stored k' last (.pathPart ⟨s, next⟩) k₀) : Grown (k.linked last s next) m k₀ := by
  unfold Kernel.linked
  rw [if_neg hl.ne_zero]
  refine
    { free := hg.free.congr hst.heap_entries
      alive := fun p n hp => hst.alive (hg.alive p n (hp.congr rfl))
      mem := fun p n a hp h₁ h₂ => by
        rw [hst.mem]
        exact hg.mem p n a (hp.congr rfl) h₁ h₂
      objs := fun p n a hp h₁ h₂ => ?_
      volume := hst.disk ▸ hg.volume }
  dsimp only
  by_cases ha : a = last
  · rw [ha, hst.self, Function.update_self]
  · rw [hst.other a ha, Function.update_of_ne ha]
    exact hg.objs p n a (hp.congr rfl) h₁ h₂

/-- The next part of a path, linked to the one in front of it. -/
theorem pathparserParsePathPart_grown (hfree : k.FreeFrom m) (hm : m + 2 ≤ 25600)
    (hchars : path.takeWhile isPartChar ≠ [])
    (hlen : (path.takeWhile isPartChar).length < PLUMOS_MAX_PATH) {last s : Nat}
    (hlast : last ≠ 0 → k.Alive last 1 ∧ k.objs last = some (.pathPart ⟨s, 0⟩)) :
    Returns (pathparserParsePathPart last path) k fun r k' => r.2 = pathRest path ∧
      Grown (k.linked last s r.1) (m + 2) k' ∧ Grown.Own k k' r.1 1 ∧ ∃ str,
        k'.objs r.1 = some (.pathPart ⟨str, 0⟩) ∧ Grown.Own k k' str 1 ∧
        HoldsString k' str (path.takeWhile isPartChar) := by
  refine .bind (pathparserGetPathPart_grown hfree (by omega) hchars hlen) ?_
  rintro r k₁ ⟨hrest, hne, hg₁, hown₁, hstr⟩
  rw [if_neg hne]
  refine .bind ((Grown.refl hg₁.free).kzallocObj (by decide) (by decide) (by omega)) ?_
  rintro part k₂ ⟨hpart, hk₂, -, hown₂, hobj⟩
  refine .bind (R := fun _ k₃ => Stored k₂ part (.pathPart ⟨r.1, 0⟩) k₃) ?_ ?_
  · refine .bind (deref_returns hpart hobj rfl) ?_
    rintro _ _ ⟨rfl, rfl⟩
    exact storeObj_spec _ _ _
  intro _ k₃ hst
  have hk₃ := hk₂.stored hown₂ hst
  have hg₃ := hg₁.trans hk₃
  have hown₃ : Grown.Own k₁ k₃ part 1 := ⟨hst.alive hown₂.alive, hown₂.fresh⟩
  have hstr₃ : HoldsString k₃ r.1 (path.takeWhile isPartChar) := by
    refine hk₃.holdsString hown₁.alive ?_ hstr
    simp only [PLUMOS_MAX_PATH] at hlen
    omega
  refine .bind (R := fun _ k₄ => Grown (k.linked last s part) (m + 2) k₄ ∧
    k₄.heap_entries = k₃.heap_entries ∧ k₄.mem = k₃.mem ∧
      ∀ q, q ≠ last → k₄.objs q = k₃.objs q) (.onlyIf ?_ ?_) ?_
  · intro hl
    obtain ⟨hal, hobj_last⟩ := hlast hl
    refine .bind (deref_returns hl ((hg₃.obj hal).trans hobj_last) rfl) ?_
    rintro _ _ ⟨rfl, rfl⟩
    refine (storeObj_spec _ _ _).mono ?_
    intro _ k₄ hst₄
    exact ⟨hg₃.linked hal hst₄, hst₄.heap_entries, hst₄.mem, hst₄.other⟩
  · intro hl
    rw [not_not.mp hl, Kernel.linked_zero]
    exact ⟨hg₃, rfl, rfl, fun _ _ => rfl⟩
  rintro _ k₄ ⟨hg₄, he₄, hm₄, ho₄⟩
  have hpart_ne : part ≠ last := by
    rintro rfl
    exact hown₂.fresh 1 (hg₁.alive _ _ (hlast hpart).1)
  refine .pure ⟨hrest, hg₄, .before hg₁ ⟨hown₃.alive.congr he₄, hown₃.fresh⟩, r.1,
    (ho₄ part hpart_ne).trans hst.self, ⟨(hk₃.alive _ _ hown₁.alive).congr he₄, hown₁.fresh⟩,
    hstr₃.chars, ?_⟩
  rw [hm₄]
  exact hstr₃.bytes

/-- The loop of the parser appends the parts that are left to the part it starts from. -/
theorem pathparserParseLoop_grown (hparts : PathParts path cs) :
    ∀ {fuel m part s : Nat} {k : Kernel}, cs.length < fuel → k.FreeFrom m →
      m + 2 * cs.length + 1 ≤ 25600 → (∀ c ∈ cs, c.length < PLUMOS_MAX_PATH) → k.Alive part 1 →
      k.objs part = some (.pathPart ⟨s, 0⟩) →
      Returns (do let r ← pathparserParsePathPart part path; pathparserParseLoop fuel r.1 r.2) k
        fun _ k' => ∃ next, Grown (k.linked part s next) (m + 2 * cs.length + 1) k' ∧
          HoldsParts k k' next cs := by
  induction hparts with
  | stop hnil =>
    intro fuel m part s k hfuel hfree hm _ hpart hobj
    obtain ⟨fuel, rfl⟩ : ∃ n, fuel = n + 1 := Nat.exists_eq_add_of_le' hfuel
    refine .bind (pathparserParsePathPart_end hfree hm hnil part) ?_
    rintro r k₁ ⟨hr, hg₁⟩
    rw [hr]
    unfold pathparserParseLoop
    rw [if_pos rfl]
    exact .pure ⟨0, by rwa [Kernel.linked_self hobj], rfl⟩
  | @part path cs hchars hrest ih =>
    intro fuel m part s k hfuel hfree hm hshort hpart hobj
    obtain ⟨fuel, rfl⟩ : ∃ n, fuel = n + 1 := Nat.exists_eq_add_of_le' (Nat.one_le_of_lt hfuel)
    rw [List.length_cons] at hfuel hm
    have hlen := hshort _ List.mem_cons_self
    refine .bind (pathparserParsePathPart_grown hfree (by omega) hchars hlen
      fun _ => ⟨hpart, hobj⟩) ?_
    rintro ⟨node, rest⟩ k₁ ⟨rfl, hg₁, hown, str, hnode, hstr_own, hstr⟩
    dsimp only at hg₁ hown hnode
    unfold pathparserParseLoop
    rw [if_neg hown.alive.ne_zero]
    refine (ih (by omega) hg₁.free (by omega) (fun c hc => hshort c (List.mem_cons_of_mem _ hc))
      hown.alive hnode).mono ?_
    rintro _ k₂ ⟨next, hg₂, hlist⟩
    -- the node is new, so what was there before it is as it was
    have hlinked := hg₁.stored ⟨hown.alive, fun n hn => hown.fresh n (Kernel.linked_alive.mp hn)⟩
      (Kernel.linked_stored hown.alive.ne_zero str next)
    refine ⟨node, (hlinked.trans hg₂).mono (by rw [List.length_cons]; omega), ?_⟩
    exact hlist.cons (fun p n hp => hg₁.alive p n (Kernel.linked_alive.mpr hp)) hg₂ hown hstr_own
      hstr hlen

/-- No part is longer than the path. -/
theorem PathParts.part_length_le (h : PathParts path cs) :
    ∀ c ∈ cs, c.length ≤ (characters path).length := by
  induction h with
  | stop => exact fun c hc => absurd hc List.not_mem_nil
  | part hne hrest ih =>
    intro c hc
    rcases List.mem_cons.mp hc with rfl | hc
    · exact takeWhile_isPartChar_length _
    · exact (ih c hc).trans (characters_pathRest_length _)

/-- The parser makes the list of the parts of a path. -/
theorem pathparserParse_grown (hfree : k.FreeFrom m) (hshort : strlen path ≤ PLUMOS_MAX_PATH)
    (hvalid : pathparserPathValidFormat path = true) (hparts : PathParts (path.drop 3) cs)
    (hne : cs ≠ []) (hm : m + 2 * cs.length + 2 ≤ 25600) :
    Returns (pathparserParse path) k fun root k' => root ≠ 0 ∧
      Grown k (m + 2 * cs.length + 2) k' ∧ ∃ first,
        k'.objs root = some (.pathRoot ⟨toenumericdigit (charAt path 0), first⟩) ∧
        HoldsParts k k' first cs := by
  have hdrive : pathparserGetDriveByPath path = (toenumericdigit (charAt path 0), path.drop 3) := by
    unfold pathparserGetDriveByPath
    rw [hvalid]
    rfl
  have hdigit : ¬ toenumericdigit (charAt path 0) < 0 := by
    simp only [pathparserPathValidFormat, Bool.and_eq_true, isdigit, decide_eq_true_eq] at hvalid
    have hle : 48 ≤ (charAt path 0).toNat := UInt8.le_iff_toNat_le.mp hvalid.1.1.2.1
    unfold toenumericdigit
    omega
  have hlen : ∀ c ∈ cs, c.length < PLUMOS_MAX_PATH := by
    intro c hc
    have hle := hparts.part_length_le c hc
    have hthree := pathparserPathValidFormat_length hvalid
    rw [characters_drop hvalid, List.length_drop, characters_length] at hle
    omega
  unfold pathparserParse
  rw [if_neg (by omega), hdrive]
  dsimp only
  rw [if_neg hdigit]
  -- the root
  refine .bind (R := fun root k₁ => root ≠ 0 ∧ Grown k (m + 1) k₁ ∧ Grown.Own k k₁ root 1 ∧
    k₁.objs root = some (.pathRoot ⟨toenumericdigit (charAt path 0), 0⟩)) ?_ ?_
  · refine .bind ((Grown.refl hfree).kzallocObj (by decide) (by decide) (by omega)) ?_
    rintro root k₁ ⟨hne, hk₁, -, hown, hobj⟩
    refine .bind (R := fun _ k₂ =>
      Stored k₁ root (.pathRoot ⟨toenumericdigit (charAt path 0), 0⟩) k₂) ?_ ?_
    · refine .bind (deref_returns hne hobj rfl) ?_
      rintro _ _ ⟨rfl, rfl⟩
      exact storeObj_spec _ _ _
    intro _ k₂ hst
    exact .pure ⟨hne, hk₁.stored hown hst, ⟨hst.alive hown.alive, hown.fresh⟩, hst.self⟩
  rintro root k₁ ⟨hroot, hk₁, hown₁, hobj₁⟩
  rw [if_neg hroot]
  cases hparts with
  | stop => exact absurd rfl hne
  | @part _ cs hchars hrest =>
    rw [List.length_cons] at hm ⊢
    -- the first part
    refine .bind (pathparserParsePathPart_grown hk₁.free (by omega) hchars
      (hlen _ List.mem_cons_self) (s := 0) fun h => absurd rfl h) ?_
    rintro ⟨first, rest⟩ k₂ ⟨rfl, hk₂, hown₂, str, hpart, hownstr, hstr⟩
    rw [Kernel.linked_zero] at hk₂
    dsimp only at hown₂ hpart ⊢
    rw [if_neg hown₂.alive.ne_zero]
    refine .bind (R := fun _ k₃ => Stored k₂ root
      (.pathRoot ⟨toenumericdigit (charAt path 0), first⟩) k₃) ?_ ?_
    · refine .bind (deref_returns hroot ((hk₂.obj hown₁.alive).trans hobj₁) rfl) ?_
      rintro _ _ ⟨rfl, rfl⟩
      exact storeObj_spec _ _ _
    intro _ k₃ hst₃
    have hk₃ : Grown k (m + 3) k₃ := (hk₁.trans hk₂).stored (hown₁.mono hk₂) hst₃
    have hne : first ≠ root := by
      rintro rfl
      exact hown₂.fresh 1 hown₁.alive
    -- the other parts
    have hfuel : cs.length < path.length + 1 := by
      have hle := (PathParts.part hchars hrest).length_le
      rw [List.length_cons, List.length_drop] at hle
      omega
    rw [← bind_assoc]
    refine .bind (pathparserParseLoop_grown hrest hfuel hk₃.free (by omega)
      (fun c hc => hlen c (List.mem_cons_of_mem _ hc)) (hst₃.alive hown₂.alive)
      ((hst₃.other _ hne).trans hpart)) ?_
    rintro _ k₄ ⟨next, hg₄, hlist⟩
    have hown₃ : Grown.Own k₁ k₃ first 1 := ⟨hst₃.alive hown₂.alive, hown₂.fresh⟩
    have hlinked := hk₃.stored (.before hk₁ hown₃)
      (Kernel.linked_stored hown₃.alive.ne_zero str next)
    have hroot₃ : (k₃.linked first str next).Alive root 1 :=
      Kernel.linked_alive.mpr (hst₃.alive (hk₂.alive _ _ hown₁.alive))
    have hobj₃ : (k₃.linked first str next).objs root =
        some (.pathRoot ⟨toenumericdigit (charAt path 0), first⟩) :=
      ((Kernel.linked_stored hown₃.alive.ne_zero _ _).other _ hne.symm).trans hst₃.self
    refine .pure ⟨hroot, (hlinked.trans hg₄).mono (by omega), first,
      (hg₄.obj hroot₃).trans hobj₃, ?_⟩
    exact hlist.cons (fun p n hp => hk₃.alive p n hp) hg₄ (.before hk₁ hown₃)
      (.before hk₁ ⟨hst₃.alive hownstr.alive, hownstr.fresh⟩)
      ⟨hstr.chars, by rw [hst₃.mem]; exact hstr.bytes⟩ (hlen _ List.mem_cons_self)

end Parts

end PlumOS
