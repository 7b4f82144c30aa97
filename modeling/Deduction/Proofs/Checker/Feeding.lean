/-
  Feeding lines to the checker, rejected ones included.

  A rejected line may move the cursor, and a rejected closing line may take an
  assumption with it (`Rejects`).  So the open assumptions need not match the
  sub-proofs around the cursor any more, and little of `Wf` is left.  What
  remains is `Ordered`: the cursor is never behind an accepted step, and a
  number that the checker asks for lies ahead of the cursor.

  * `Ordered.of_feed`: each call keeps this up, whatever the answer is;
  * `feedEach_ascending`: so the accepted steps come in ascending order, each
    rests on earlier ones, and none takes the place of another.
-/
import Deduction.Proofs.Compaction.Reachability
import Deduction.Rule.Standard

namespace Deduction

namespace Checker.State

variable {Γ : Setting} {s s' : State} {l : Line} {step : Step} {cited : List Step} {e : CheckError}

/-! ## Rejected lines -/

/-- What a rejected line can leave behind. -/
inductive Rejects (s : State) (l : Line) : State → Prop
  /-- A line with an undeclared atom or a wrong number leaves no trace. -/
  | untouched : Rejects s l s
  | moved (hlt : s.cursor < l.number) : Rejects s l { s with cursor := l.number }
  /-- A closing line takes an assumption before its formula is looked at. -/
  | taken {a : Step} {outer : List Step} (hlt : s.cursor < l.number)
      (ha : s.assumptions = a :: outer) : Rejects s l ⟨l.number, s.accepted, outer⟩

theorem lt_of_checkNumber {n : LineNumber} (h : s.checkNumber l = .ok n) :
    s.cursor < l.number ∧ n = l.number := by
  obtain ⟨hexpected, rfl⟩ := checkNumber_eq_ok.1 h
  refine ⟨?_, rfl⟩
  cases hplace : Place.of s.cursor l.number with
  | opening => rw [hplace] at hexpected; exact LineNumber.lt_of_open? hexpected
  | inside => rw [hplace] at hexpected; exact LineNumber.lt_of_next? hexpected
  | closing =>
    rw [hplace] at hexpected
    exact LineNumber.lt_of_close
      (Place.enclosing_eq_of_closing hplace (Option.some.inj hexpected))

theorem openSubproof_error (h : s.openSubproof Γ l cited = (s', .error e)) : s' = s := by
  unfold openSubproof at h
  split at h
  · cases h; rfl
  split at h
  · cases h; rfl
  split at h
  · cases h; rfl
  · cases h

theorem extend_error (h : s.extend Γ l cited = (s', .error e)) : s' = s := by
  unfold extend at h
  split at h
  · cases h; rfl
  · cases h

theorem closeSubproof_error (h : s.closeSubproof Γ l cited = (s', .error e)) :
    s' = s ∨ ∃ a outer, s.assumptions = a :: outer ∧ s' = { s with assumptions := outer } := by
  unfold closeSubproof at h
  split at h
  · cases h; exact .inl rfl
  split at h
  · cases h; exact .inl rfl
  split at h
  · cases h; exact .inl rfl
  rename_i a outer ha
  -- from here on the assumption is gone
  refine .inr ⟨a, outer, ha, ?_⟩
  simp only at h
  split at h
  · cases h; rfl
  split at h
  · cases h; rfl
  split at h
  · cases h
  · cases h; rfl

theorem of_feed_error (h : s.feed Γ l = (s', .error e)) : Rejects s l s' := by
  unfold feed at h
  split at h
  · cases h; exact .untouched
  split at h
  · cases h; exact .untouched
  rename_i n hn
  obtain ⟨hlt, rfl⟩ := lt_of_checkNumber hn
  simp only at h
  split at h
  · cases h; exact .moved hlt
  split at h
  · rw [openSubproof_error h]; exact .moved hlt
  · rw [extend_error h]; exact .moved hlt
  · rcases closeSubproof_error h with rfl | ⟨a, outer, ha, rfl⟩
    · exact .moved hlt
    · exact .taken hlt ha

/-! ## What every call keeps -/

/-- A state that the checker can come to, whatever lines it has rejected. -/
structure Ordered (s : State) : Prop where
  le_cursor : ∀ t ∈ s.accepted, t.number ≤ s.cursor
  ascending : s.accepted.Pairwise fun t u => u.number < t.number
  opened : s.assumptions ⊆ s.accepted
  /-- A step depends on steps that were accepted before it. -/
  earlier : ∀ t before, t :: before <:+ s.accepted → ∀ d ∈ t.dependencies, ∃ u ∈ before, u.number = d

namespace Ordered

theorem initial : Ordered .initial where
  le_cursor := by simp [State.initial]
  ascending := .nil
  opened := List.nil_subset _
  earlier := by simp [State.initial]

theorem of_rejects (hs : Ordered s) (h : Rejects s l s') : Ordered s' := by
  cases h with
  | untouched => exact hs
  | moved hlt => exact { hs with le_cursor := fun t ht => (hs.le_cursor t ht).trans hlt.le }
  | taken hlt ha =>
    refine { hs with le_cursor := fun t ht => (hs.le_cursor t ht).trans hlt.le, opened := ?_ }
    intro t ht
    apply hs.opened
    rw [ha]
    exact List.mem_cons_of_mem _ ht

theorem lt_of_accepts (hs : Ordered s) (h : Accepts Γ s l s' step) {t : Step} (ht : t ∈ s.accepted) :
    t.number < step.number :=
  (hs.le_cursor t ht).trans_lt h.cursor_lt

theorem find?_eq_none (hs : Ordered s) (h : Accepts Γ s l s' step) :
    Step.find? s.accepted step.number = none := by
  refine List.find?_eq_none.2 fun t ht => ?_
  simpa using (hs.lt_of_accepts h ht).ne

theorem exists_of_mem_dependencies (hs : Ordered s) (h : Accepts Γ s l s' step) {d : LineNumber}
    (hd : d ∈ step.dependencies) : ∃ u ∈ s.accepted, u.number = d := by
  cases h with
  | opening => simp [assumptionStep] at hd
  | inside _ _ hcited =>
    obtain ⟨u, hu, rfl⟩ := List.mem_map.1 hd
    exact ⟨u, (hcited.of_mem hu).1, rfl⟩
  | closing _ _ _ _ _ hassumption hlast =>
    rcases List.mem_cons.1 hd with rfl | hd
    · exact ⟨_, hs.opened (hassumption ▸ List.mem_cons_self), rfl⟩
    · rw [List.mem_singleton.1 hd]
      exact ⟨_, List.mem_of_mem_head? hlast, rfl⟩

theorem of_accepts (hs : Ordered s) (h : Accepts Γ s l s' step) : Ordered s' where
  le_cursor t ht := by
    rw [h.cursor_eq]
    rw [h.accepted_eq] at ht
    rcases List.mem_cons.1 ht with rfl | ht
    · exact le_rfl
    · exact (hs.lt_of_accepts h ht).le
  ascending := by
    rw [h.accepted_eq]
    exact List.pairwise_cons.2 ⟨fun t ht => hs.lt_of_accepts h ht, hs.ascending⟩
  opened := by
    cases h with
    | opening => exact List.cons_subset_cons _ hs.opened
    | inside => exact List.subset_cons_of_subset _ hs.opened
    | closing _ _ _ _ _ hassumption =>
      refine List.subset_cons_of_subset _ fun t ht => hs.opened ?_
      rw [hassumption]; exact List.mem_cons_of_mem _ ht
  earlier t before hsuffix d hd := by
    rw [h.accepted_eq] at hsuffix
    rcases List.suffix_cons_iff.1 hsuffix with heq | hsuffix
    · obtain ⟨rfl, rfl⟩ := List.cons.inj heq
      exact hs.exists_of_mem_dependencies h hd
    · exact hs.earlier t before hsuffix d hd

/-- **One call.**  Whatever the answer is, the state stays ordered. -/
theorem of_feed (hs : Ordered s) (Γ : Setting) (l : Line) : Ordered (s.feed Γ l).1 := by
  rcases hfeed : s.feed Γ l with ⟨s', e | step⟩
  · exact hs.of_rejects (of_feed_error hfeed)
  · exact hs.of_accepts (feed_ok_iff.1 hfeed)

end Ordered

/-! ## Many calls -/

/-- Feeds all lines, also after a rejected one, and collects the answers. -/
def feedEach (Γ : Setting) : State → List Line → State × List (Except CheckError Step)
  | s, [] => (s, [])
  | s, l :: ls =>
    let fed := s.feed Γ l
    let rest := feedEach Γ fed.1 ls
    (rest.1, fed.2 :: rest.2)

/-- The steps among the answers, in the order of acceptance. -/
def acceptedSteps (answers : List (Except CheckError Step)) : List Step :=
  answers.filterMap Except.toOption

theorem Ordered.of_feedEach (hs : Ordered s) (Γ : Setting) (ls : List Line) :
    Ordered (s.feedEach Γ ls).1 := by
  induction ls generalizing s with
  | nil => exact hs
  | cons l ls ih => exact ih (hs.of_feed Γ l)

theorem accepted_feed (Γ : Setting) (s : State) (l : Line) :
    (s.feed Γ l).1.accepted = (acceptedSteps [(s.feed Γ l).2]).reverse ++ s.accepted := by
  rcases hfeed : s.feed Γ l with ⟨s', e | step⟩
  · cases of_feed_error hfeed <;> rfl
  · exact (feed_ok_iff.1 hfeed).accepted_eq

theorem accepted_feedEach (Γ : Setting) (s : State) (ls : List Line) :
    (s.feedEach Γ ls).1.accepted = (acceptedSteps (s.feedEach Γ ls).2).reverse ++ s.accepted := by
  induction ls generalizing s with
  | nil => rfl
  | cons l ls ih =>
    have hanswers : acceptedSteps (s.feedEach Γ (l :: ls)).2 =
        acceptedSteps [(s.feed Γ l).2] ++ acceptedSteps ((s.feed Γ l).1.feedEach Γ ls).2 := by
      rw [acceptedSteps, acceptedSteps, acceptedSteps, ← List.filterMap_append]; rfl
    rw [hanswers, List.reverse_append, List.append_assoc, ← accepted_feed]
    exact ih (s.feed Γ l).1

/-- **The steps that the checker accepts come in ascending order**, also among
    rejected lines.  The number of a newly accepted step has not been taken,
    what a step depends on was accepted before it and comes before it, and so
    no step rests on itself. -/
theorem feedEach_ascending {Γ : Setting} {ls : List Line} {s : State}
    {answers : List (Except CheckError Step)} (h : State.initial.feedEach Γ ls = (s, answers)) :
    s.accepted.reverse = acceptedSteps answers ∧
      (acceptedSteps answers).Pairwise (·.number < ·.number) ∧
      (∀ l s' step, s.feed Γ l = (s', .ok step) → Step.find? s.accepted step.number = none) ∧
      (∀ before t, before ++ [t] <+: acceptedSteps answers → ∀ d ∈ t.dependencies,
        d < t.number ∧ ∃ u ∈ before, u.number = d) ∧
      ∀ n, ¬ Relation.TransGen (Step.Depends (acceptedSteps answers)) n n := by
  have hordered : Ordered s := by
    have hlast := Ordered.initial.of_feedEach Γ ls
    rwa [h] at hlast
  have haccepted : s.accepted.reverse = acceptedSteps answers := by
    have hall : s.accepted = (acceptedSteps answers).reverse ++ [] := by
      have hall := accepted_feedEach Γ .initial ls
      rwa [h] at hall
    rw [hall, List.append_nil, List.reverse_reverse]
  have hascending : (acceptedSteps answers).Pairwise (·.number < ·.number) := by
    rw [← haccepted, List.pairwise_reverse]
    exact hordered.ascending
  have hdependencies : ∀ before t, before ++ [t] <+: acceptedSteps answers →
      ∀ d ∈ t.dependencies, d < t.number ∧ ∃ u ∈ before, u.number = d := by
    intro before t hprefix d hd
    have hsuffix : t :: before.reverse <:+ s.accepted := by
      rw [← haccepted] at hprefix
      simpa using List.reverse_suffix.2 hprefix
    obtain ⟨u, hu, rfl⟩ := hordered.earlier t before.reverse hsuffix d hd
    have hu := List.mem_reverse.1 hu
    have hlt := List.pairwise_append.1 (hascending.sublist hprefix.sublist)
    exact ⟨hlt.2.2 u hu t List.mem_cons_self, u, hu, rfl⟩
  refine ⟨haccepted, hascending, fun l s' step hfeed => ?_, hdependencies, fun n hcycle => ?_⟩
  · exact hordered.find?_eq_none (feed_ok_iff.1 hfeed)
  · have hlt : ∀ t ∈ acceptedSteps answers, ∀ d ∈ t.dependencies, d < t.number := by
      intro t ht d hd
      obtain ⟨before, after, hsplit⟩ := List.append_of_mem ht
      exact (hdependencies before t (by rw [hsplit]; simp) d hd).1
    exact lt_irrefl n (Step.lt_of_transGen_depends hlt hcycle)

/-- Lines of which two are rejected: `2.2.1` opens a sub-proof without an
    assumption, so that `2.2` closes one that was never opened and takes the
    assumption of another, and nothing is left for `2` to discharge. -/
def astray : List Line :=
  let p := .atom "p"
  let q := .atom "q"
  [⟨⟨1, []⟩, p, ⟨"Given", []⟩⟩,
    ⟨⟨1, [2]⟩, q, ⟨"Assumption", []⟩⟩,
    ⟨⟨1, [2, 2]⟩, .and p q, ⟨"Intro And", [⟨1, []⟩, ⟨1, [2]⟩]⟩⟩,
    ⟨⟨2, [2]⟩, .implies q q, ⟨"Direct Proof Rule", []⟩⟩,
    ⟨⟨2, []⟩, .implies q (.implies q q), ⟨"Direct Proof Rule", []⟩⟩]

theorem feedEach_ascending_astray :
    let Γ : Setting := ⟨.standard, ⟨["p", "q"], [.atom "p"]⟩, .ordinary⟩
    ∃ s answers, State.initial.feedEach Γ astray = (s, answers) ∧
      (acceptedSteps answers).map (fun t => (t.number, t.dependencies)) =
        [(⟨1, []⟩, []), (⟨1, [2]⟩, []), (⟨2, [2]⟩, [⟨1, [2]⟩, ⟨1, [2]⟩])] ∧
      (acceptedSteps answers).Pairwise (·.number < ·.number) ∧
      (∀ n, ¬ Relation.TransGen (Step.Depends (acceptedSteps answers)) n n) ∧
      ∃ s' step, s.feed Γ ⟨⟨3, []⟩, .atom "p", ⟨"Given", []⟩⟩ = (s', .ok step) ∧
        Step.find? s.accepted step.number = none := by
  intro Γ
  let l : Line := ⟨⟨3, []⟩, .atom "p", ⟨"Given", []⟩⟩
  let step : Step := ⟨⟨3, []⟩, .atom "p", .given, RuleName.given, []⟩
  have hnumbers : (acceptedSteps (State.initial.feedEach Γ astray).2).map
      (fun t => (t.number, t.dependencies)) =
        [(⟨1, []⟩, []), (⟨1, [2]⟩, []), (⟨2, [2]⟩, [⟨1, [2]⟩, ⟨1, [2]⟩])] := by decide +kernel
  have hanswer : ((State.initial.feedEach Γ astray).1.feed Γ l).2 = .ok step := by decide +kernel
  cases hrun : State.initial.feedEach Γ astray with
  | mk s answers =>
    rw [hrun] at hnumbers hanswer
    obtain ⟨-, hascending, hnew, -, hacyclic⟩ := feedEach_ascending hrun
    have hfeed : s.feed Γ l = ((s.feed Γ l).1, .ok step) := Prod.ext rfl hanswer
    exact ⟨s, answers, rfl, hnumbers, hascending, hacyclic, _, step, hfeed, hnew l _ step hfeed⟩

end Checker.State

end Deduction
