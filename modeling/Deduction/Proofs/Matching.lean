/-
  Matching finds instances, and all of them.

  The bindings that matching collects only grow while they are joined, so
  whatever assignment agrees with the final bindings also agrees with those of
  every subtree (`Bindings.Extends`).  By induction on the template, such an
  assignment turns the template into the target (`Formula.subst_of_unify?`).

  Conversely, on an instance all bindings follow the assignment
  (`Bindings.Agrees`), so they never clash when they are joined.  Together:
  `Formula.unifies_iff`.

  What is bound are the metavariables of the template, each of them once
  (`Formula.names_of_unify?`), so the bindings are the only assignment of them
  that leads to the target: `Formula.unify_sound_complete`.
-/
import Deduction.Matching
import Deduction.Proofs.Valuation

namespace Deduction

namespace Bindings

variable {s t u : Bindings} {x : String} {φ : Formula}

/-- Whatever is bound in `s` is bound to the same formula in `t`. -/
def Extends (t s : Bindings) : Prop := ∀ x φ, s.lookup x = some φ → t.lookup x = some φ

theorem Extends.refl (s : Bindings) : s.Extends s := fun _ _ h => h

theorem Extends.trans (h₁ : u.Extends t) (h₂ : t.Extends s) : u.Extends s :=
  fun x φ h => h₁ x φ (h₂ x φ h)

theorem mem_entries_of_lookup (h : s.lookup x = some φ) : (x, φ) ∈ s.entries := by
  obtain ⟨l₁, l₂, hl, -⟩ := List.lookup_eq_some_iff.1 h
  simp [hl]

/-- What binding one more metavariable does. -/
theorem bind?_spec (h : s.bind? x φ = some t) : t.Extends s ∧ t.lookup x = some φ := by
  unfold bind? at h
  split at h
  · rename_i hx
    obtain rfl := Option.some.inj h
    refine ⟨fun y ψ hy => ?_, ?_⟩
    · simp only [lookup, List.lookup_append] at hy ⊢
      rw [hy, Option.some_or]
    · simp only [lookup] at hx
      simp [lookup, List.lookup_append, hx]
  · rename_i ψ hx
    split at h
    · rename_i hψ
      obtain rfl := Option.some.inj h
      exact ⟨Extends.refl s, hψ ▸ hx⟩
    · cases h

/-- The union of two maps extends both. -/
theorem merge?_spec (h : s.merge? t = some u) : u.Extends s ∧ u.Extends t := by
  obtain ⟨entries⟩ := t
  simp only [merge?] at h
  have key : u.Extends s ∧ ∀ e ∈ entries, u.lookup e.1 = some e.2 := by
    induction entries generalizing s with
    | nil =>
      obtain rfl := Option.some.inj h
      exact ⟨Extends.refl s, by simp⟩
    | cons e entries ih =>
      rw [List.foldlM_cons] at h
      obtain ⟨s', hs', h⟩ := Option.bind_eq_some_iff.1 h
      obtain ⟨hext, hx⟩ := bind?_spec hs'
      obtain ⟨ih₁, ih₂⟩ := ih h
      refine ⟨ih₁.trans hext, fun e' he' => ?_⟩
      rcases List.mem_cons.1 he' with rfl | he'
      · exact ih₁ _ _ hx
      · exact ih₂ e' he'
  refine ⟨key.1, fun x φ hx => ?_⟩
  exact key.2 (x, φ) (mem_entries_of_lookup hx)

/-- The assignment that follows the bindings, and leaves the metavariables that
    are not bound as they are. -/
def assign (s : Bindings) (x : String) : Formula := (s.lookup x).getD (.metavar x)

/-- Every metavariable is bound to what is assigned to it. -/
def Agrees (s : Bindings) (σ : String → Formula) : Prop := ∀ e ∈ s.entries, e.2 = σ e.1

theorem Agrees.lookup {σ : String → Formula} (hs : s.Agrees σ) (h : s.lookup x = some φ) :
    φ = σ x :=
  hs (x, φ) (mem_entries_of_lookup h)

theorem bind?_of_agrees {σ : String → Formula} (hs : s.Agrees σ) (x : String) :
    ∃ t, s.bind? x (σ x) = some t ∧ t.Agrees σ := by
  unfold bind?
  cases hx : s.lookup x with
  | none =>
    refine ⟨_, rfl, fun e he => ?_⟩
    rcases List.mem_append.1 he with he | he
    · exact hs e he
    · rw [List.mem_singleton.1 he]
  | some ψ =>
    have hψ : ψ = σ x := hs.lookup hx
    exact ⟨s, by simp [hψ], hs⟩

/-- Two maps that follow the same assignment do not clash. -/
theorem merge?_of_agrees {σ : String → Formula} (hs : s.Agrees σ) (ht : t.Agrees σ) :
    ∃ u, s.merge? t = some u ∧ u.Agrees σ := by
  obtain ⟨entries⟩ := t
  simp only [merge?]
  induction entries generalizing s with
  | nil => exact ⟨s, rfl, hs⟩
  | cons e entries ih =>
    obtain ⟨he, hentries⟩ := List.forall_mem_cons.1 ht
    obtain ⟨s', hbind, hs'⟩ := bind?_of_agrees hs e.1
    rw [List.foldlM_cons, he, hbind]
    exact ih hs' hentries

/-! ## What is bound -/

/-- The metavariables that are bound. -/
def names (s : Bindings) : List String := s.entries.map (·.1)

theorem mem_names : x ∈ s.names ↔ (s.lookup x).isSome = true := by
  rw [names, lookup, List.lookup_isSome_iff, List.mem_map]
  constructor
  · rintro ⟨e, he, rfl⟩; exact ⟨e, he, beq_self_eq_true _⟩
  · rintro ⟨e, he, hx⟩; exact ⟨e, he, (beq_iff_eq.1 hx).symm⟩

theorem eq_empty_of_names (h : s.names = []) : s = .empty := by
  obtain ⟨entries⟩ := s
  obtain rfl : entries = [] := List.map_eq_nil_iff.1 h
  rfl

/-- Each metavariable is bound once. -/
theorem names_bind? (h : s.bind? x φ = some t) :
    (s.names.Nodup → t.names.Nodup) ∧ ∀ y, y ∈ t.names ↔ y ∈ s.names ∨ y = x := by
  unfold bind? at h
  split at h
  · rename_i hx
    obtain rfl := Option.some.inj h
    have hnew : x ∉ s.names := by simp [mem_names, hx]
    have hnames : names ⟨s.entries ++ [(x, φ)]⟩ = s.names ++ [x] := by simp [names]
    rw [hnames]
    refine ⟨fun hs => List.nodup_append.2 ⟨hs, List.nodup_singleton x, ?_⟩, fun y => by simp⟩
    rintro y hy z hz rfl
    exact hnew (List.mem_singleton.1 hz ▸ hy)
  · rename_i ψ hx
    split at h
    · obtain rfl := Option.some.inj h
      have hold : x ∈ s.names := by simp [mem_names, hx]
      refine ⟨id, fun y => ⟨.inl, ?_⟩⟩
      rintro (hy | rfl)
      · exact hy
      · exact hold
    · cases h

/-- The union of two maps binds what one of them does. -/
theorem names_merge? (h : s.merge? t = some u) :
    (s.names.Nodup → u.names.Nodup) ∧ ∀ y, y ∈ u.names ↔ y ∈ s.names ∨ y ∈ t.names := by
  obtain ⟨entries⟩ := t
  simp only [merge?] at h
  induction entries generalizing s with
  | nil =>
    obtain rfl := Option.some.inj h
    exact ⟨id, by simp [names]⟩
  | cons e entries ih =>
    rw [List.foldlM_cons] at h
    obtain ⟨s', hs', h⟩ := Option.bind_eq_some_iff.1 h
    obtain ⟨hnodup, hmem⟩ := names_bind? hs'
    obtain ⟨ihnodup, ihmem⟩ := ih h
    refine ⟨fun hs => ihnodup (hnodup hs), fun y => ?_⟩
    rw [ihmem, hmem, or_assoc]
    simp [names]

end Bindings

namespace Formula

/-- Every assignment that agrees with the collected bindings turns the template
    into the target. -/
theorem subst_of_unify? {σ : String → Formula} : ∀ {φ ψ : Formula} {s : Bindings},
    φ.unify? ψ = some s → (∀ x χ, s.lookup x = some χ → σ x = χ) → φ.subst σ = ψ := by
  intro φ
  induction φ with
  | verum | falsum => intro ψ s h _; cases ψ <;> first | rfl | cases h
  | atom a =>
    intro ψ s h _
    cases ψ with
    | atom b =>
      simp only [unify?] at h
      split at h
      · rename_i hab; rw [hab]; rfl
      · cases h
    | _ => cases h
  | metavar x =>
    intro ψ s h hσ
    simp only [unify?, Option.some.injEq] at h
    subst h
    exact hσ x ψ (by simp [Bindings.lookup, Bindings.singleton])
  | not φ ih =>
    intro ψ s h hσ
    cases ψ with
    | not ψ => rw [subst, ih h hσ]
    | _ => cases h
  | binary c φ₁ φ₂ ih₁ ih₂ =>
    intro ψ s h hσ
    cases ψ with
    | binary d ψ₁ ψ₂ =>
      simp only [unify?] at h
      split at h
      · rename_i hcd
        obtain ⟨s₁, h₁, h⟩ := Option.bind_eq_some_iff.1 h
        obtain ⟨s₂, h₂, h⟩ := Option.bind_eq_some_iff.1 h
        obtain ⟨he₁, he₂⟩ := Bindings.merge?_spec h
        rw [subst, ih₁ h₁ fun x χ hx => hσ x χ (he₁ x χ hx),
          ih₂ h₂ fun x χ hx => hσ x χ (he₂ x χ hx), hcd]
      · cases h
    | _ => cases h

/-- **A target that a template matches is an instance of it.** -/
theorem exists_subst_of_unifies {φ ψ : Formula} (h : φ.unifies ψ = true) :
    ∃ σ : String → Formula, φ.subst σ = ψ := by
  obtain ⟨s, hs⟩ := Option.isSome_iff_exists.1 h
  exact ⟨s.assign, subst_of_unify? hs fun x χ hx => by simp [Bindings.assign, hx]⟩

/-- The bindings that are collected on an instance follow the assignment. -/
theorem exists_unify?_subst (φ : Formula) (σ : String → Formula) :
    ∃ s, φ.unify? (φ.subst σ) = some s ∧ s.Agrees σ := by
  induction φ with
  | verum | falsum => exact ⟨.empty, rfl, by simp [Bindings.Agrees, Bindings.empty]⟩
  | atom a => exact ⟨.empty, if_pos rfl, by simp [Bindings.Agrees, Bindings.empty]⟩
  | metavar x => exact ⟨.singleton x (σ x), rfl, by simp [Bindings.Agrees, Bindings.singleton]⟩
  | not φ ih => exact ih
  | binary c φ ψ ih₁ ih₂ =>
    obtain ⟨s, hs, hsσ⟩ := ih₁
    obtain ⟨t, ht, htσ⟩ := ih₂
    obtain ⟨u, hu, huσ⟩ := Bindings.merge?_of_agrees hsσ htσ
    refine ⟨u, ?_, huσ⟩
    simp only [subst, unify?, if_true, hs, ht, Option.bind_eq_bind, Option.bind_some, hu]

/-- **A template matches exactly its instances.** -/
theorem unifies_iff {φ ψ : Formula} :
    φ.unifies ψ = true ↔ ∃ σ : String → Formula, φ.subst σ = ψ := by
  constructor
  · exact exists_subst_of_unifies
  · rintro ⟨σ, rfl⟩
    obtain ⟨s, hs, -⟩ := exists_unify?_subst φ σ
    exact Option.isSome_iff_exists.2 ⟨s, hs⟩

/-- Matching binds the metavariables of the template, each of them once. -/
theorem names_of_unify? {φ ψ : Formula} {s : Bindings} (h : φ.unify? ψ = some s) :
    s.names.Nodup ∧ ∀ x, x ∈ s.names ↔ .metavar x ∈ φ.vars := by
  fun_induction unify? φ ψ generalizing s with
  | case1 x ψ =>
    obtain rfl := Option.some.inj h
    simp [Bindings.names, Bindings.singleton, vars]
  | case2 | case3 | case4 =>
    obtain rfl := Option.some.inj h
    simp [Bindings.names, Bindings.empty, vars]
  | case6 φ ψ ih => exact ih h
  | case7 φ₁ ψ₁ c φ₂ ψ₂ ih₁ ih₂ =>
    obtain ⟨s₁, h₁, h⟩ := Option.bind_eq_some_iff.1 h
    obtain ⟨s₂, h₂, h⟩ := Option.bind_eq_some_iff.1 h
    obtain ⟨hnodup, hmem⟩ := Bindings.names_merge? h
    obtain ⟨ihnodup, ihmem₁⟩ := ih₁ h₁
    obtain ⟨-, ihmem₂⟩ := ih₂ h₂
    refine ⟨hnodup ihnodup, fun x => ?_⟩
    rw [hmem, ihmem₁, ihmem₂, vars, List.mem_append]
  | case5 | case8 | case9 => cases h

theorem subst_of_no_metavar {φ : Formula} (σ : String → Formula)
    (h : ∀ x, .metavar x ∉ φ.vars) : φ.subst σ = φ := by
  induction φ with
  | verum | falsum | atom => rfl
  | metavar x => exact absurd List.mem_cons_self (h x)
  | not φ ih => rw [subst, ih h]
  | binary c φ ψ ih₁ ih₂ =>
    rw [subst, ih₁ fun x hx => h x (List.mem_append_left _ hx),
      ih₂ fun x hx => h x (List.mem_append_right _ hx)]

/-- A template without metavariables matches itself only. -/
theorem unify?_of_no_metavar {φ : Formula} (h : ∀ x, .metavar x ∉ φ.vars) (ψ : Formula) :
    φ.unify? ψ = if φ = ψ then some .empty else none := by
  cases hs : φ.unify? ψ with
  | none =>
    rw [if_neg]
    rintro rfl
    obtain ⟨s, hs', -⟩ := exists_unify?_subst φ .metavar
    rw [subst_of_no_metavar _ h, hs] at hs'
    cases hs'
  | some s =>
    have hnames : s.names = [] := List.eq_nil_iff_forall_not_mem.2 fun x hx =>
      h x (((names_of_unify? hs).2 x).1 hx)
    obtain rfl := Bindings.eq_empty_of_names hnames
    have heq : φ.subst .metavar = ψ := subst_of_unify? hs (by simp [Bindings.lookup, Bindings.empty])
    rw [subst_of_no_metavar _ h] at heq
    rw [if_pos heq]

/-- **Matching is sound and complete.**  A template matches its instances; the
    bindings that are found have exactly its metavariables and turn it into the
    target, and no other assignment to them does.  Without metavariables, matching
    is equality. -/
theorem unify_sound_complete (φ ψ : Formula) :
    ((φ.unify? ψ).isSome = true ↔ ∃ σ : String → Formula, φ.subst σ = ψ) ∧
      (∀ s, φ.unify? ψ = some s →
        (s.names.Nodup ∧ ∀ x, (s.lookup x).isSome = true ↔ .metavar x ∈ φ.vars) ∧
          φ.subst s.assign = ψ ∧
            ∀ σ : String → Formula, φ.subst σ = ψ →
              ∀ x, .metavar x ∈ φ.vars → s.lookup x = some (σ x)) ∧
      ((∀ x, .metavar x ∉ φ.vars) → φ.unify? ψ = if φ = ψ then some .empty else none) := by
  refine ⟨unifies_iff, fun s hs => ?_, fun h => unify?_of_no_metavar h ψ⟩
  obtain ⟨hnodup, hmem⟩ := names_of_unify? hs
  have hbound : ∀ x, (s.lookup x).isSome = true ↔ .metavar x ∈ φ.vars := fun x => by
    rw [← Bindings.mem_names, hmem]
  refine ⟨⟨hnodup, hbound⟩, subst_of_unify? hs fun x χ hx => by simp [Bindings.assign, hx], ?_⟩
  rintro σ rfl x hx
  obtain ⟨s', hs', hagrees⟩ := exists_unify?_subst φ σ
  obtain rfl : s = s' := Option.some.inj (hs.symm.trans hs')
  obtain ⟨χ, hχ⟩ := Option.isSome_iff_exists.1 ((hbound x).2 hx)
  rw [hχ, hagrees.lookup hχ]

/-- The metavariables of a target are not those of the template: `X ∧ (Y ∨ X)`
    matches `Y ∧ (X ∨ Y)`. -/
theorem unify_sound_complete_exchanged :
    let template := and (metavar "X") (or (metavar "Y") (metavar "X"))
    let target := and (metavar "Y") (or (metavar "X") (metavar "Y"))
    let exchange := fun x => if x = "X" then metavar "Y" else metavar "X"
    (∃ s, template.unify? target = some s ∧ template.subst exchange = target ∧
        s.lookup "X" = some (metavar "Y") ∧ s.lookup "Y" = some (metavar "X") ∧
          s.lookup "Z" = none ∧ template.subst s.assign = target) ∧
      (∀ x, .metavar x ∉ (atom "X").vars) ∧ (atom "X").unify? (metavar "X") = none := by
  intro template target exchange
  have hinstance : template.subst exchange = target := rfl
  obtain ⟨hiff, hfound, -⟩ := unify_sound_complete template target
  obtain ⟨s, hs⟩ := Option.isSome_iff_exists.1 (hiff.2 ⟨exchange, hinstance⟩)
  obtain ⟨⟨-, hbound⟩, hsubst, hunique⟩ := hfound s hs
  have hunbound : s.lookup "Z" = none := by
    have hz := (hbound "Z").not.2 (by decide)
    simpa using hz
  have hfree : ∀ x, .metavar x ∉ (atom "X").vars := by simp [vars]
  exact ⟨⟨s, hs, hinstance, hunique exchange hinstance "X" (by decide),
    hunique exchange hinstance "Y" (by decide), hunbound, hsubst⟩, hfree,
    (unify_sound_complete (atom "X") (metavar "X")).2.2 hfree⟩

end Formula

end Deduction
