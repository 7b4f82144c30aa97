/-
  Numbers and the stack tell the same nesting.

  In a run without rejected lines the checker knows twice in which sub-proofs it
  is: from the components of the number it has come to, and from the stack of
  open assumptions.  `Wf.openings` keeps the two together; here this is read off
  entry by entry, with what it means for the line that closes a sub-proof and
  for the end of a proof.

  * `Wf.assumption_of_path`: an entry of the stack is the first line of the
    sub-proof that a beginning of the cursor's path leads to;
  * `Wf.exists_discharged`: a closing line finds the assumption and the last line
    of its own sub-proof;
  * `nested_of_feedAll`: all of this for the states of a run.
-/
import Deduction.Proofs.Checker.Invariant
import Deduction.Rule.Standard

namespace Deduction

namespace LineNumber

@[simp] theorem length_openings (e : List Nat) : (openings e).length = e.length := by
  induction e with
  | nil => rfl
  | cons slot e ih => simp [openings, ih]

theorem mem_openings {e : List Nat} {b : LineNumber} :
    ⟨1, b.inward⟩ ∈ openings e ↔ b.inward <:+ e := by
  induction e with
  | nil => simp [openings, inward]
  | cons slot e ih =>
    rw [openings, List.mem_cons, ih, List.suffix_cons_iff, mk.injEq]
    simp

/-- The enclosing blocks from the outermost one on: each opening continues a
    beginning of the path. -/
theorem openings_reverse_getElem? {e : List Nat} {i : Nat} (hi : i < e.length) :
    ∃ n, (openings e).reverse[i]? = some n ∧ n.path = e.reverse.take (i + 1) ++ [1] := by
  induction e with
  | nil => cases hi
  | cons slot e ih =>
    rw [openings, List.reverse_cons, List.reverse_cons]
    rcases Nat.lt_succ_iff_lt_or_eq.1 hi with hi | rfl
    · obtain ⟨n, hn, hpath⟩ := ih hi
      refine ⟨n, ?_, ?_⟩
      · rw [List.getElem?_append_left (by simpa using hi), hn]
      · rw [hpath, List.take_append_of_le_length (by rw [List.length_reverse]; exact hi)]
    · refine ⟨⟨1, slot :: e⟩, ?_, ?_⟩
      · rw [List.getElem?_append_right (by simp)]; simp
      · rw [List.take_of_length_le (by simp), path_eq, List.reverse_cons]

end LineNumber

namespace Checker.State

variable {Γ : Setting} {s s' : State} {l : Line} {n : LineNumber} {cited : List Step}

/-! ## The entries of the stack -/

namespace Wf

theorem length_assumptions (hs : Wf s) : s.assumptions.length = s.cursor.levels - 1 := by
  have hlength := congrArg List.length hs.openings
  rwa [List.length_map, LineNumber.length_openings] at hlength

/-- From the bottom of the stack on, the open assumptions are the first lines of
    the sub-proofs to which the beginnings of the cursor's path lead. -/
theorem assumption_of_path (hs : Wf s) {i : Nat} (hi : i < s.assumptions.length) :
    ∃ a, s.assumptions.reverse[i]? = some a ∧ Step.find? s.accepted a.number = some a ∧
      a.number.path = s.cursor.path.take (i + 1) ++ [1] := by
  have hdepth : i < s.cursor.enclosing.length := by
    rw [hs.length_assumptions] at hi; exact hi
  obtain ⟨n, hn, hpath⟩ := LineNumber.openings_reverse_getElem? hdepth
  rw [← hs.openings, ← List.map_reverse, List.getElem?_map, Option.map_eq_some_iff] at hn
  obtain ⟨a, ha, rfl⟩ := hn
  refine ⟨a, ha, hs.find?_eq_some (hs.opened ?_), ?_⟩
  · exact List.mem_reverse.1 (List.mem_of_getElem? ha)
  · rw [hpath, LineNumber.path_eq,
      List.take_append_of_le_length (by rw [List.length_reverse]; exact hdepth)]

/-- Where a sub-proof can be closed, its assumption is on top of the stack and
    one of its lines is the last step. -/
theorem exists_discharged (hs : Wf s) (hn : s.cursor.enclosing = n.inward) :
    ∃ a outer t, s.assumptions = a :: outer ∧ s.last? = some t ∧ a.number = ⟨1, n.inward⟩ ∧
      t.number.enclosing = n.inward := by
  have hlength := hs.length_assumptions
  rw [LineNumber.levels, hn, LineNumber.inward, List.length_cons] at hlength
  obtain ⟨a, outer, ha⟩ := List.exists_cons_of_length_eq_add_one hlength
  cases hlast : s.last? with
  | none =>
    -- at the beginning no sub-proof is open
    rw [hs.cursor, hlast] at hn
    cases hn
  | some t =>
    refine ⟨a, outer, t, ha, rfl, (hs.assumption_number hn ha).1, ?_⟩
    rw [← hs.cursor_of_last? hlast, hn]

end Wf

/-! ## Closing a sub-proof -/

theorem enclosing_of_checkNumber (hplace : Place.of s.cursor l.number = .closing)
    (h : s.checkNumber l = .ok n) : s.cursor.enclosing = l.number.inward := by
  obtain ⟨hexpected, -⟩ := checkNumber_eq_ok.1 h
  rw [hplace] at hexpected
  exact Place.enclosing_eq_of_closing hplace (Option.some.inj hexpected)

theorem checkNumber_ne_missingAssumption : s.checkNumber l ≠ .error .missingAssumption := by
  unfold checkNumber
  split
  · exact nofun
  · split <;> exact nofun

theorem cite_ne_missingAssumption {ref : LineNumber} :
    s.cite n ref ≠ .error .missingAssumption := by
  unfold cite
  split
  · exact nofun
  · split <;> exact nofun

theorem closeSubproof_ne_missingAssumption {a t : Step} {outer : List Step}
    (ha : s.assumptions = a :: outer) (ht : s.last? = some t) :
    (s.closeSubproof Γ l cited).2 ≠ .error (l.formatError .missingAssumption) := by
  have hlast : ({ s with assumptions := outer } : State).last? = some t := ht
  unfold closeSubproof
  split
  · exact nofun
  split
  · exact nofun
  simp only [ha, hlast]
  split
  · exact nofun
  split <;> exact nofun

/-- A closing line is never told that an assumption is missing. -/
theorem Wf.feed_ne_missingAssumption (hs : Wf s) (Γ : Setting)
    (hplace : Place.of s.cursor l.number = .closing) :
    (s.feed Γ l).2 ≠ .error (l.formatError .missingAssumption) := by
  unfold feed
  split
  · exact nofun
  split
  · rename_i f hf
    rintro ⟨⟩
    exact checkNumber_ne_missingAssumption hf
  rename_i m hm
  obtain ⟨a, outer, t, ha, ht, -⟩ := hs.exists_discharged (enclosing_of_checkNumber hplace hm)
  obtain ⟨-, rfl⟩ := checkNumber_eq_ok.1 hm
  rw [hplace]
  simp only
  split
  · rename_i f hf
    rintro ⟨⟩
    obtain ⟨ref, -, href⟩ := of_mapM_eq_error hf
    exact cite_ne_missingAssumption href
  · exact closeSubproof_ne_missingAssumption ha ht

/-! ## The last line and the end of a proof -/

theorem Run.last?_number {ls : List Line} (h : Run Γ s ls s') :
    s'.last?.map (·.number) = (ls.getLast?.map (·.number)).or (s.last?.map (·.number)) := by
  induction h with
  | nil => rfl
  | @cons s s₁ s₂ l ls step hstep _ ih =>
    rw [ih, hstep.last?_eq, List.getLast?_cons]
    cases ls.getLast? <;> simp [hstep.number_eq]

theorem finish_eq_unclosed : (∃ n φ, s.finish = .error ⟨n, φ, .format .unclosedSubproof⟩) ↔
    s.assumptions ≠ [] ∧ ∃ t, s.last? = some t := by
  unfold finish
  cases s.last? with
  | none => simp
  | some t => by_cases h : s.assumptions = [] <;> simp [h]

theorem Wf.finish_eq_unclosed_iff (hs : Wf s) :
    (∃ n φ, s.finish = .error ⟨n, φ, .format .unclosedSubproof⟩) ↔
      ∃ t, s.last? = some t ∧ 1 < t.number.levels := by
  have hlength := hs.length_assumptions
  rw [finish_eq_unclosed, ← List.length_pos_iff]
  constructor
  · rintro ⟨hopen, t, ht⟩
    rw [hs.cursor_of_last? ht] at hlength
    exact ⟨t, ht, by omega⟩
  · rintro ⟨t, ht, hlevels⟩
    rw [hs.cursor_of_last? ht] at hlength
    exact ⟨by omega, t, ht⟩

/-- **The stack of assumptions follows the numbers.**  After any lines that were
    all accepted, the cursor is on the last of them, and the stack holds, from the
    bottom on, the first lines of the sub-proofs on the path to it.  So a line
    that closes a sub-proof finds the assumption and the last line of this very
    sub-proof, and a proof ends inside a sub-proof iff the number of its last line
    says so. -/
theorem nested_of_feedAll {Γ : Setting} {ls : List Line} {s : State}
    (h : State.initial.feedAll Γ ls = (s, .ok ())) :
    s.last?.map (·.number) = ls.getLast?.map (·.number) ∧
      s.cursor = (s.last?.map (·.number)).getD .zero ∧
      s.assumptions.length = s.cursor.levels - 1 ∧
      (∀ i < s.assumptions.length, ∃ a, s.assumptions.reverse[i]? = some a ∧
        Step.find? s.accepted a.number = some a ∧
          a.number.path = s.cursor.path.take (i + 1) ++ [1]) ∧
      (∀ l, Place.of s.cursor l.number = .closing →
        (s.feed Γ l).2 ≠ .error (l.formatError .missingAssumption) ∧
          ∀ n, s.checkNumber l = .ok n → ∃ a outer t, s.assumptions = a :: outer ∧
            s.last? = some t ∧ a.number = ⟨1, l.number.inward⟩ ∧
              t.number.enclosing = l.number.inward) ∧
      ((∃ n φ, s.finish = .error ⟨n, φ, .format .unclosedSubproof⟩) ↔
        ∃ l, ls.getLast? = some l ∧ 1 < l.number.levels) := by
  have hrun := feedAll_ok_iff.1 h
  have hs := hrun.wf
  have hlast : s.last?.map (·.number) = ls.getLast?.map (·.number) :=
    hrun.last?_number.trans Option.or_none
  refine ⟨hlast, hs.cursor, hs.length_assumptions, fun i hi => hs.assumption_of_path hi,
    fun l hplace => ⟨hs.feed_ne_missingAssumption Γ hplace, fun n hn => ?_⟩, ?_⟩
  · exact hs.exists_discharged (enclosing_of_checkNumber hplace hn)
  · have hlevels : ∀ n : LineNumber, (∃ t, s.last? = some t ∧ t.number = n) ↔
        ∃ l, ls.getLast? = some l ∧ l.number = n := by
      intro n
      rw [← Option.map_eq_some_iff, ← Option.map_eq_some_iff, hlast]
    rw [hs.finish_eq_unclosed_iff]
    constructor
    · rintro ⟨t, ht, hdeep⟩
      obtain ⟨l, hl, heq⟩ := (hlevels t.number).1 ⟨t, ht, rfl⟩
      exact ⟨l, hl, heq ▸ hdeep⟩
    · rintro ⟨l, hl, hdeep⟩
      obtain ⟨t, ht, heq⟩ := (hlevels l.number).2 ⟨l, hl, rfl⟩
      exact ⟨t, ht, heq ▸ hdeep⟩

/-- The atoms and rules of `indented`. -/
def indentedSetting : Setting := ⟨.standard, ⟨["p", "q"], []⟩, .ordinary⟩

/-- The beginning of a proof, up to a sub-proof inside another one.  Before each of
    the two there is a sub-proof that has been closed. -/
def indented : List Line :=
  let p := .atom "p"
  let q := .atom "q"
  [⟨⟨1, [1]⟩, p, ⟨"Assumption", []⟩⟩,
    ⟨⟨1, []⟩, .implies p p, ⟨"Direct Proof Rule", []⟩⟩,
    ⟨⟨1, [2]⟩, q, ⟨"Assumption", []⟩⟩,
    ⟨⟨1, [2, 2]⟩, p, ⟨"Assumption", []⟩⟩,
    ⟨⟨2, [2]⟩, .implies p p, ⟨"Direct Proof Rule", []⟩⟩,
    ⟨⟨1, [3, 2]⟩, p, ⟨"Assumption", []⟩⟩,
    ⟨⟨2, [3, 2]⟩, .and q p, ⟨"Intro And", [⟨1, [2]⟩, ⟨1, [3, 2]⟩]⟩⟩]

theorem feedAll_indented : ∃ s, State.initial.feedAll indentedSetting indented = (s, .ok ()) ∧
    s.cursor = ⟨2, [3, 2]⟩ ∧ s.accepted.map (·.number) = (indented.map (·.number)).reverse := by
  have hok : (State.initial.feedAll indentedSetting indented).2 = .ok () := by decide +kernel
  exact ⟨_, Prod.ext rfl hok, by decide +kernel, by decide +kernel⟩

theorem nested_of_feedAll_indented :
    ∃ s, State.initial.feedAll indentedSetting indented = (s, .ok ()) ∧
      s.cursor.path = [2, 3, 2] ∧ s.assumptions.length = 2 ∧
      (∃ a, s.assumptions.reverse[1]? = some a ∧ a.number.path = [2, 3, 1]) ∧
      (∃ a outer t, s.assumptions = a :: outer ∧ s.last? = some t ∧
        a.number.path = [2, 3, 1] ∧ t.number.enclosing = [3, 2]) ∧
      ∃ n φ, s.finish = .error ⟨n, φ, .format .unclosedSubproof⟩ := by
  obtain ⟨s, h, hcursor, -⟩ := feedAll_indented
  obtain ⟨-, -, hlength, hentries, hclosing, hfinish⟩ := nested_of_feedAll h
  have hdepth : s.assumptions.length = 2 := by rw [hlength, hcursor]; rfl
  have hpath : s.cursor.path = [2, 3, 2] := by rw [hcursor]; rfl
  obtain ⟨a, ha, -, hnumber⟩ := hentries 1 (by omega)
  let closing : Line := ⟨⟨3, [2]⟩, .implies (.atom "p") (.and (.atom "q") (.atom "p")),
    ⟨"Direct Proof Rule", []⟩⟩
  obtain ⟨-, hdischarged⟩ := hclosing closing (by rw [hcursor]; rfl)
  obtain ⟨b, outer, t, hb, ht, hfirst, hlast⟩ :=
    hdischarged ⟨3, [2]⟩ (checkNumber_eq_ok.2 ⟨by rw [hcursor]; rfl, rfl⟩)
  refine ⟨s, h, hpath, hdepth, ⟨a, ha, ?_⟩, ⟨b, outer, t, hb, ht, ?_, hlast⟩, hfinish.2 ?_⟩
  · rw [hnumber, hpath]; rfl
  · rw [hfirst]; rfl
  · exact ⟨_, rfl, by decide⟩

end Checker.State

end Deduction
