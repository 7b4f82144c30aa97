/-
  Joining bindings.

  A finite map can be listed in any order.  `merge?` runs through the list of one
  map, while the other map grows, until there is a clash.  What comes out depends
  neither on the lists nor on their roles: it is the union of the two maps as
  sets of pairs, unless that is not a map.

  * `graph` is the set of pairs of a map, and `Same` relates two lists of the same
    pairs;
  * `Yields r B`: the outcome `r` is a map with the pairs `B`, or there is none, as
    `B` is not a map;
  * `yields_merge?`: joining yields the union, and `Yields.bind` carries this
    through several steps of which each may fail.  So the laws of joining are
    those of `∪`: `merge_compatible_union`.
-/
import Deduction.Proofs.Matching
import Mathlib.Data.Set.Basic

namespace Deduction.Bindings

variable {s t u : Bindings} {B C : Set (String × Formula)} {r r' : Option Bindings}

/-! ## The pairs of a map -/

/-- The pairs of a metavariable and the formula bound to it. -/
def graph (s : Bindings) : Set (String × Formula) := {e | s.lookup e.1 = some e.2}

/-- The same pairs, perhaps in another order. -/
def Same (s t : Bindings) : Prop := s.entries.Perm t.entries

/-- The maps agree where both are defined. -/
def Compatible (s t : Bindings) : Prop :=
  ∀ x φ ψ, s.lookup x = some φ → t.lookup x = some ψ → φ = ψ

/-- The pairs are those of a map: none has the metavariable of another one. -/
def Functional (B : Set (String × Formula)) : Prop :=
  ∀ x φ ψ, (x, φ) ∈ B → (x, ψ) ∈ B → φ = ψ

theorem Functional.anti (h : B ⊆ C) (hC : Functional C) : Functional B :=
  fun x φ ψ hφ hψ => hC x φ ψ (h hφ) (h hψ)

theorem functional_graph (s : Bindings) : Functional s.graph := by
  intro x φ ψ hφ hψ
  exact Option.some.inj (hφ.symm.trans hψ)

theorem functional_union_iff : Functional (s.graph ∪ t.graph) ↔ s.Compatible t := by
  constructor
  · intro h x φ ψ hφ hψ
    exact h x φ ψ (.inl hφ) (.inr hψ)
  · rintro h x φ ψ (hφ | hφ) (hψ | hψ)
    · exact functional_graph s x φ ψ hφ hψ
    · exact h x φ ψ hφ hψ
    · exact (h x ψ φ hψ hφ).symm
    · exact functional_graph t x φ ψ hφ hψ

/-- What `s` binds, an extension of `s` binds in the same way only. -/
theorem Extends.mem_graph {e : String × Formula} (h : t.Extends s) (hx : e.1 ∈ s.names)
    (he : e ∈ t.graph) : e ∈ s.graph := by
  obtain ⟨ψ, hψ⟩ := Option.isSome_iff_exists.1 (mem_names.1 hx)
  have heq : ψ = e.2 := functional_graph t e.1 ψ e.2 (h e.1 ψ hψ) he
  rw [heq] at hψ
  exact hψ

/-- If each metavariable is bound once, every entry counts. -/
theorem mem_graph (hs : s.names.Nodup) {e : String × Formula} : e ∈ s.graph ↔ e ∈ s.entries := by
  refine ⟨mem_entries_of_lookup, fun he => ?_⟩
  obtain ⟨ψ, hψ⟩ := Option.isSome_iff_exists.1 (mem_names.1 (List.mem_map_of_mem he))
  have heq : e = (e.1, ψ) := List.inj_on_of_nodup_map hs he (mem_entries_of_lookup hψ) rfl
  rw [heq]
  exact hψ

theorem same_iff (hs : s.names.Nodup) (ht : t.names.Nodup) : s.Same t ↔ s.graph = t.graph := by
  constructor
  · intro h
    ext e
    rw [mem_graph hs, mem_graph ht, h.mem_iff]
  · intro h
    refine (List.perm_ext_iff_of_nodup hs.of_map ht.of_map).2 fun e => ?_
    rw [← mem_graph hs, ← mem_graph ht, h]

theorem Same.nodup (h : s.Same t) (hs : s.names.Nodup) : t.names.Nodup :=
  (h.map Prod.fst).nodup_iff.1 hs

theorem nodup_empty : (names .empty).Nodup := List.nodup_nil

theorem graph_empty : graph .empty = ∅ := by
  ext e
  simp [graph, lookup, empty]

/-! ## Outcomes -/

/-- The outcome `r` is a map with the pairs `B`, provided that they form one. -/
structure Yields (r : Option Bindings) (B : Set (String × Formula)) : Prop where
  isSome_iff : r.isSome = true ↔ Functional B
  nodup : ∀ u, r = some u → u.names.Nodup
  graph_eq : ∀ u, r = some u → u.graph = B

theorem yields_some (hs : s.names.Nodup) : Yields (some s) s.graph where
  isSome_iff := iff_of_true rfl (functional_graph s)
  nodup := by intro u hu; cases hu; exact hs
  graph_eq := by intro u hu; cases hu; rfl

/-- The pairs determine the outcome up to the order of a list. -/
theorem Yields.same (h : Yields r B) (h' : Yields r' B) : Option.Rel Same r r' := by
  have hiff : r.isSome = true ↔ r'.isSome = true := h.isSome_iff.trans h'.isSome_iff.symm
  cases r with
  | none =>
    cases r' with
    | none => exact .none
    | some v => simp at hiff
  | some u =>
    cases r' with
    | none => simp at hiff
    | some v =>
      refine .some ((same_iff (h.nodup u rfl) (h'.nodup v rfl)).2 ?_)
      rw [h.graph_eq u rfl, h'.graph_eq v rfl]

/-- After an outcome comes one that only adds pairs.  If the first one fails, its
    pairs are not those of a map, and neither are more pairs. -/
theorem Yields.bind {f : Bindings → Option Bindings}
    {F : Set (String × Formula) → Set (String × Formula)} (h : Yields r B)
    (hf : ∀ u, u.names.Nodup → Yields (f u) (F u.graph)) (hF : B ⊆ F B) :
    Yields (r.bind f) (F B) := by
  cases r with
  | none =>
    have hB : ¬ Functional B := fun hB => Bool.false_ne_true (h.isSome_iff.2 hB)
    refine ⟨iff_of_false Bool.false_ne_true (mt (.anti hF) hB), ?_, ?_⟩ <;> intro u hu <;> cases hu
  | some u =>
    rw [← h.graph_eq u rfl]
    exact hf u (h.nodup u rfl)

/-- Maps that agree where both are defined follow one assignment: that of the
    first one, and of the second one where the first has none. -/
theorem Compatible.exists_agrees (h : s.Compatible t) (hs : s.names.Nodup) (ht : t.names.Nodup) :
    ∃ σ : String → Formula, s.Agrees σ ∧ t.Agrees σ := by
  refine ⟨fun x => ((s.lookup x).or (t.lookup x)).getD (.metavar x), ?_, ?_⟩
  · intro e he
    have hlookup : s.lookup e.1 = some e.2 := (mem_graph hs).2 he
    simp [hlookup]
  · intro e he
    have hlookup : t.lookup e.1 = some e.2 := (mem_graph ht).2 he
    cases hx : s.lookup e.1 with
    | none => simp [hx, hlookup]
    | some φ => simp [hx, h e.1 φ e.2 hx hlookup]

/-- Joining does not clash iff the maps agree where both are defined. -/
theorem merge?_isSome_iff (hs : s.names.Nodup) (ht : t.names.Nodup) :
    (s.merge? t).isSome = true ↔ s.Compatible t := by
  constructor
  · intro h x φ ψ hφ hψ
    obtain ⟨v, hv⟩ := Option.isSome_iff_exists.1 h
    obtain ⟨hvs, hvt⟩ := merge?_spec hv
    exact functional_graph v x φ ψ (hvs x φ hφ) (hvt x ψ hψ)
  · intro h
    obtain ⟨σ, hsσ, htσ⟩ := h.exists_agrees hs ht
    obtain ⟨v, hv, -⟩ := merge?_of_agrees hsσ htσ
    rw [hv, Option.isSome_some]

/-- Joining yields the union. -/
theorem yields_merge? (hs : s.names.Nodup) (ht : t.names.Nodup) :
    Yields (s.merge? t) (s.graph ∪ t.graph) where
  isSome_iff := (merge?_isSome_iff hs ht).trans functional_union_iff.symm
  nodup v hv := (names_merge? hv).1 hs
  graph_eq v hv := by
    obtain ⟨hvs, hvt⟩ := merge?_spec hv
    refine Set.Subset.antisymm ?_ (Set.union_subset (fun e => hvs e.1 e.2) fun e => hvt e.1 e.2)
    intro e he
    have hx : e.1 ∈ v.names := mem_names.2 (Option.isSome_iff_exists.2 ⟨e.2, he⟩)
    rcases ((names_merge? hv).2 e.1).1 hx with hx | hx
    · exact .inl (hvs.mem_graph hx he)
    · exact .inr (hvt.mem_graph hx he)

/-! ## The laws of joining -/

/-- The order of the lists does not matter. -/
theorem merge?_congr {s' t' : Bindings} (hs : s.names.Nodup) (ht : t.names.Nodup)
    (hs' : s.Same s') (ht' : t.Same t') : Option.Rel Same (s.merge? t) (s'.merge? t') := by
  have h' := yields_merge? (hs'.nodup hs) (ht'.nodup ht)
  rw [← (same_iff hs (hs'.nodup hs)).1 hs', ← (same_iff ht (ht'.nodup ht)).1 ht'] at h'
  exact (yields_merge? hs ht).same h'

theorem merge?_comm (hs : s.names.Nodup) (ht : t.names.Nodup) :
    Option.Rel Same (s.merge? t) (t.merge? s) := by
  have h' := yields_merge? ht hs
  rw [Set.union_comm] at h'
  exact (yields_merge? hs ht).same h'

/-- A clash between any two of three maps comes to light in either grouping. -/
theorem merge?_assoc (hs : s.names.Nodup) (ht : t.names.Nodup) (hu : u.names.Nodup) :
    Option.Rel Same ((s.merge? t).bind (·.merge? u)) ((t.merge? u).bind s.merge?) := by
  have hleft : Yields ((s.merge? t).bind (·.merge? u)) (s.graph ∪ t.graph ∪ u.graph) :=
    (yields_merge? hs ht).bind (F := (· ∪ u.graph)) (fun v hv => yields_merge? hv hu)
      Set.subset_union_left
  have hright : Yields ((t.merge? u).bind s.merge?) (s.graph ∪ (t.graph ∪ u.graph)) :=
    (yields_merge? ht hu).bind (F := (s.graph ∪ ·)) (fun v hv => yields_merge? hs hv)
      Set.subset_union_right
  rw [Set.union_assoc] at hleft
  exact hleft.same hright

theorem merge?_self (hs : s.names.Nodup) : Option.Rel Same (s.merge? s) (some s) := by
  have h := yields_merge? hs hs
  rw [Set.union_self] at h
  exact h.same (yields_some hs)

theorem merge?_empty (hs : s.names.Nodup) : Option.Rel Same (s.merge? .empty) (some s) := by
  have h := yields_merge? hs nodup_empty
  rw [graph_empty, Set.union_empty] at h
  exact h.same (yields_some hs)

theorem empty_merge? (hs : s.names.Nodup) : Option.Rel Same (merge? .empty s) (some s) := by
  have h := yields_merge? nodup_empty hs
  rw [graph_empty, Set.empty_union] at h
  exact h.same (yields_some hs)

/-- **Joining is the union of compatible maps.**  A map binds each metavariable
    once, and its list may have any order.  Joining succeeds iff the two maps agree
    where both are defined; it then binds exactly what one of them does, and the
    order of the lists does not matter.  It is commutative, associative and
    idempotent, failures included, and the empty map changes nothing. -/
theorem merge_compatible_union (hs : s.names.Nodup) (ht : t.names.Nodup) (hu : u.names.Nodup) :
    (((s.merge? t).isSome = true ↔ s.Compatible t) ∧
      ∀ v, s.merge? t = some v → v.names.Nodup ∧ v.graph = s.graph ∪ t.graph) ∧
    (∀ s' t', s.Same s' → t.Same t' → Option.Rel Same (s.merge? t) (s'.merge? t')) ∧
    Option.Rel Same (s.merge? t) (t.merge? s) ∧
    Option.Rel Same ((s.merge? t).bind (·.merge? u)) ((t.merge? u).bind s.merge?) ∧
    Option.Rel Same (s.merge? s) (some s) ∧
    (Option.Rel Same (s.merge? .empty) (some s) ∧
      Option.Rel Same (merge? .empty s) (some s)) := by
  have hunion : Yields (s.merge? t) (s.graph ∪ t.graph) := yields_merge? hs ht
  refine ⟨⟨merge?_isSome_iff hs ht, fun v hv => ⟨hunion.nodup v hv, hunion.graph_eq v hv⟩⟩,
    ?_, merge?_comm hs ht, merge?_assoc hs ht hu, merge?_self hs, merge?_empty hs, empty_merge? hs⟩
  intro s' t' hs' ht'
  exact merge?_congr hs ht hs' ht'

/-- The first two maps can be joined, listed in either order.  The third one
    clashes with the second one only, and this shows in either grouping. -/
theorem merge_compatible_union_clash :
    let s : Bindings := ⟨[("X", .atom "p"), ("Y", .atom "q")]⟩
    let s' : Bindings := ⟨[("Y", .atom "q"), ("X", .atom "p")]⟩
    let t : Bindings := ⟨[("Y", .atom "q"), ("Z", .atom "p")]⟩
    let u : Bindings := .singleton "Z" (.atom "q")
    (s.names.Nodup ∧ t.names.Nodup ∧ u.names.Nodup) ∧
      (∃ v, s.merge? t = some v ∧ v.graph = s.graph ∪ t.graph) ∧ s.Compatible t ∧
      (s.Same s' ∧ t.Same t ∧ Option.Rel Same (s.merge? t) (s'.merge? t)) ∧
      (s.merge? t).bind (·.merge? u) = none ∧ (t.merge? u).bind s.merge? = none := by
  intro s s' t u
  have hs : s.names.Nodup := by decide
  have ht : t.names.Nodup := by decide
  have hu : u.names.Nodup := by decide
  have hsome : (s.merge? t).isSome = true := by decide
  have hsame : s.Same s' := List.Perm.swap _ _ _
  have hclash : (t.merge? u).bind s.merge? = none := by decide
  obtain ⟨⟨hiff, hunion⟩, hlisted, -, hassoc, -⟩ := merge_compatible_union hs ht hu
  obtain ⟨v, hv⟩ := Option.isSome_iff_exists.1 hsome
  rw [hclash] at hassoc
  have hclash' : (s.merge? t).bind (·.merge? u) = none := by
    cases h : (s.merge? t).bind (·.merge? u) with
    | none => rfl
    | some w => rw [h] at hassoc; cases hassoc
  exact ⟨⟨hs, ht, hu⟩, ⟨v, hv, (hunion v hv).2⟩, hiff.1 hsome,
    ⟨hsame, .refl _, hlisted s' t hsame (.refl _)⟩, hclash', hclash⟩

end Deduction.Bindings
