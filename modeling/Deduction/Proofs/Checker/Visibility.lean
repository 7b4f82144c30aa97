/-
  A line may cite what is visible where it stands.

  `hasAccess` compares components of numbers and knows neither which lines there
  are nor which sub-proofs are closed.  In a run without rejected lines it is
  nevertheless visibility: a line may cite the accepted lines all of whose
  sub-proofs are still open.

  * `Complete`: the accepted lines leave no gap before the cursor, and each
    sub-proof is around the cursor or has been closed;
  * `Wf.ongoing_iff`: so the sub-proofs that are open are those around the cursor;
  * `hasAccess_iff_visible`: at each of the three numbers that may come next,
    `hasAccess` is visibility.
-/
import Deduction.Proofs.Checker.Nesting

namespace Deduction

namespace LineNumber

variable {c m r : LineNumber}

/-- The line `r` stands in the sub-proof in the slot `b`, or in one inside it. -/
def Within (r b : LineNumber) : Prop := b.inward <:+ r.enclosing

/-- The sub-proofs around `r` are among those around a block iff the innermost
    one is. -/
theorem forall_within_iff {e : List Nat} :
    (∀ b, r.Within b → b.inward <:+ e) ↔ r.enclosing <:+ e := by
  constructor
  · intro h
    cases he : r.enclosing with
    | nil => exact List.nil_suffix
    | cons slot f => exact h ⟨slot, f⟩ (by rw [Within, he, inward])
  · exact fun h b hb => hb.trans h

theorem not_within_of_suffix (h : r.enclosing <:+ m.enclosing) : ¬ r.Within m := by
  intro hw
  have hlength := (hw.trans h).length_le
  rw [inward, List.length_cons] at hlength
  omega

/-- What does not come after `c`, and stands in a block around it, is visible
    from the next line. -/
theorem hasAccess_of_le (hle : r ≤ c) (hsuffix : r.enclosing <:+ c.enclosing) :
    (⟨c.slot + 1, c.enclosing⟩ : LineNumber).hasAccess r = true := by
  obtain ⟨d, hd⟩ := hsuffix
  rw [hasAccess_iff]
  rcases List.eq_nil_or_concat' d with rfl | ⟨d, y, rfl⟩
  · rw [List.nil_append] at hd
    refine ⟨c.slot + 1, by rw [hd]; exact List.suffix_rfl, ?_⟩
    by_contra hslot
    have hlt : c < r := calc
      c < ⟨r.slot, c.enclosing⟩ := lt_of_slot_lt (by omega)
      _ = r := by rw [← hd]
    exact absurd hle hlt.not_ge
  · rw [List.append_assoc, List.singleton_append] at hd
    refine ⟨y, ?_, ?_⟩
    · rw [inward, ← hd]
      exact (List.suffix_append d _).trans (List.suffix_cons _ _)
    · by_contra hslot
      have hlt : c < r := lt_of_slot_le hd.symm (Nat.le_of_not_lt hslot)
      exact absurd hle hlt.not_ge

/-- The numbers that the line after `c` may have. -/
inductive Follows (c : LineNumber) : LineNumber → Prop
  | next {m : LineNumber} (h : c.next? = some m) : Follows c m
  | opening {m : LineNumber} (h : c.open? = some m) : Follows c m
  | closing {m : LineNumber} (hlevels : 2 ≤ c.levels) (h : c.close = m) : Follows c m

/-- Whatever number comes next, its line sees what a further line of the current
    block would see, apart from the lines of a sub-proof that it closes. -/
theorem Follows.hasAccess_iff (h : Follows c m) (hr : r.slot ≠ 0) : m.hasAccess r = true ↔
    (⟨c.slot + 1, c.enclosing⟩ : LineNumber).hasAccess r = true ∧ ¬ r.Within m := by
  have hbelow : m.hasAccess r = true → ¬ r.Within m :=
    fun h => not_within_of_suffix (enclosing_suffix_of_hasAccess h)
  cases h with
  | next h =>
    obtain ⟨-, rfl⟩ := next?_eq_some.1 h
    exact ⟨fun h => ⟨h, hbelow h⟩, fun h => h.1⟩
  | opening h =>
    obtain ⟨-, rfl⟩ := open?_eq_some.1 h
    refine ⟨fun h => ⟨?_, hbelow h⟩, fun h => hasAccess_cons.2 (.inr h.1)⟩
    -- there is nothing before the first slot of the new sub-proof
    exact (hasAccess_cons.1 h).resolve_left fun h => hr (Nat.lt_one_iff.1 h.2)
  | closing hlevels h =>
    rw [enclosing_of_close hlevels h, inward, hasAccess_cons]
    constructor
    · exact fun h => ⟨.inr h, hbelow h⟩
    · rintro ⟨h, hwithin⟩
      exact h.resolve_left fun h => hwithin (by rw [Within, h.1, inward])

end LineNumber

namespace Checker.State

variable {Γ : Setting} {s s' : State} {l : Line} {step : Step} {b m r : LineNumber}

/-! ## Open sub-proofs -/

/-- The sub-proof in the slot `b` has been opened, and no line has closed it. -/
structure Ongoing (s : State) (b : LineNumber) : Prop where
  opened : ∃ a ∈ s.accepted, a.kind = .assumption ∧ a.number = ⟨1, b.inward⟩
  unclosed : ∀ t ∈ s.accepted, t.kind = .directProof → t.number ≠ b

/-- The sub-proof in the slot `b` is open where the line `m` stands; if `m` closes
    it, it is not. -/
def OpenAt (s : State) (m b : LineNumber) : Prop := s.Ongoing b ∧ m ≠ b

/-- What the accepted lines of a run are. -/
structure Complete (s : State) : Prop where
  /-- Before the cursor no slot is left out. -/
  filled : ∀ r : LineNumber, r.slot ≠ 0 →
    (⟨s.cursor.slot + 1, s.cursor.enclosing⟩ : LineNumber).hasAccess r = true →
      ∃ t ∈ s.accepted, t.number = r
  /-- A sub-proof is around the cursor, or a line has closed it. -/
  settled : ∀ a ∈ s.accepted, a.kind = .assumption → a.number.enclosing <:+ s.cursor.enclosing ∨
    ∃ t ∈ s.accepted, t.kind = .directProof ∧ t.number.inward = a.number.enclosing
  stacked : ∀ a ∈ s.assumptions, a.kind = .assumption

namespace Complete

theorem initial : Complete .initial where
  filled r hr h := by
    rcases LineNumber.hasAccess_succ.1 h with rfl | h
    · exact absurd rfl hr
    · simp [State.initial, LineNumber.zero, LineNumber.hasAccess, LineNumber.inward,
        LineNumber.isEarlierOn] at h
  settled := by simp [State.initial]
  stacked := by simp [State.initial]

theorem filled_step (hs : Complete s) (h : Accepts Γ s l s' step) (hr : r.slot ≠ 0)
    (haccess : (⟨s'.cursor.slot + 1, s'.cursor.enclosing⟩ : LineNumber).hasAccess r = true) :
    ∃ t ∈ s'.accepted, t.number = r := by
  -- the new line is visible from the next one, and so is what was visible before
  have hvisible : r = step.number ∨
      (⟨s.cursor.slot + 1, s.cursor.enclosing⟩ : LineNumber).hasAccess r = true := by
    cases h with
    | opening _ hnumber =>
      obtain ⟨-, hn⟩ := LineNumber.open?_eq_some.1 hnumber
      rw [hn] at haccess
      exact ((LineNumber.hasAccess_two hr).1 haccess).imp (fun h => h.trans hn.symm) id
    | inside _ hnumber =>
      obtain ⟨-, hn⟩ := LineNumber.next?_eq_some.1 hnumber
      rw [hn] at haccess
      exact (LineNumber.hasAccess_succ.1 haccess).imp (fun h => h.trans hn.symm) id
    | closing _ hnumber =>
      rw [hnumber, LineNumber.inward]
      exact (LineNumber.hasAccess_succ.1 haccess).imp id
        fun h => LineNumber.hasAccess_cons.2 (.inr h)
  rw [h.accepted_eq]
  rcases hvisible with rfl | haccess
  · exact ⟨step, List.mem_cons_self, rfl⟩
  · obtain ⟨t, ht, rfl⟩ := hs.filled r hr haccess
    exact ⟨t, List.mem_cons_of_mem _ ht, rfl⟩

theorem settled_step (hs : Complete s) (h : Accepts Γ s l s' step) {a : Step}
    (ha : a ∈ s'.accepted) (hkind : a.kind = .assumption) :
    a.number.enclosing <:+ s'.cursor.enclosing ∨
      ∃ t ∈ s'.accepted, t.kind = .directProof ∧ t.number.inward = a.number.enclosing := by
  rw [h.accepted_eq] at ha ⊢
  rcases List.mem_cons.1 ha with rfl | ha
  · left; rw [h.cursor_eq]
  rcases hs.settled a ha hkind with hsuffix | ⟨t, ht, hclosed⟩
  · cases h with
    | opening _ hnumber =>
      obtain ⟨-, hn⟩ := LineNumber.open?_eq_some.1 hnumber
      left; rw [hn]
      exact hsuffix.trans (List.suffix_cons _ _)
    | inside _ hnumber =>
      obtain ⟨-, hn⟩ := LineNumber.next?_eq_some.1 hnumber
      left; rw [hn]
      exact hsuffix
    | closing _ hnumber =>
      -- the sub-proof of `a` is the one that is closed, or it goes on around it
      rw [hnumber, LineNumber.inward, List.suffix_cons_iff] at hsuffix
      rcases hsuffix with heq | hsuffix
      · exact .inr ⟨_, List.mem_cons_self, rfl, heq.symm⟩
      · exact .inl hsuffix
  · exact .inr ⟨t, List.mem_cons_of_mem _ ht, hclosed⟩

theorem stacked_step (hs : Complete s) (h : Accepts Γ s l s' step) {a : Step}
    (ha : a ∈ s'.assumptions) : a.kind = .assumption := by
  cases h with
  | opening =>
    rcases List.mem_cons.1 ha with rfl | ha
    · rfl
    · exact hs.stacked a ha
  | inside => exact hs.stacked a ha
  | closing _ _ _ _ _ hassumption =>
    exact hs.stacked a (hassumption ▸ List.mem_cons_of_mem _ ha)

/-- **An accepted line leaves no gap and no sub-proof unsettled.** -/
theorem of_accepts (hs : Complete s) (h : Accepts Γ s l s' step) : Complete s' where
  filled _ hr haccess := hs.filled_step h hr haccess
  settled _ ha hkind := hs.settled_step h ha hkind
  stacked _ ha := hs.stacked_step h ha

end Complete

theorem Run.complete {ls : List Line} (h : Run Γ .initial ls s) : Complete s :=
  h.preserves (fun _ _ _ _ _ hstep hs => hs.of_accepts hstep) .initial

namespace Wf

/-- No accepted line has the number of a sub-proof around the cursor. -/
theorem number_ne_of_around (hs : Wf s) (hb : b.inward <:+ s.cursor.enclosing) {t : Step}
    (ht : t ∈ s.accepted) : t.number ≠ b := by
  rintro rfl
  obtain ⟨d, hd⟩ := hb
  have hlt : s.cursor < t.number := LineNumber.lt_of_slot_le hd.symm le_rfl
  exact absurd (hs.le_cursor ht) hlt.not_ge

/-- **The sub-proofs that are open are those around the cursor.** -/
theorem ongoing_iff (hs : Wf s) (hcomplete : Complete s) :
    s.Ongoing b ↔ b.inward <:+ s.cursor.enclosing := by
  constructor
  · rintro ⟨⟨a, ha, hkind, hnumber⟩, hunclosed⟩
    rcases hcomplete.settled a ha hkind with hsuffix | ⟨t, ht, hclosing, heq⟩
    · rwa [hnumber] at hsuffix
    · rw [hnumber] at heq
      exact absurd (LineNumber.inward_injective heq) (hunclosed t ht hclosing)
  · intro hb
    refine ⟨?_, fun t ht _ => hs.number_ne_of_around hb ht⟩
    have hopening : (⟨1, b.inward⟩ : LineNumber) ∈ s.assumptions.map (·.number) := by
      rw [hs.openings]; exact LineNumber.mem_openings.2 hb
    obtain ⟨a, ha, hnumber⟩ := List.mem_map.1 hopening
    exact ⟨a, hs.opened ha, hcomplete.stacked a ha, hnumber⟩

/-- A further line of the current block would see the accepted lines of the blocks
    around it. -/
theorem hasAccess_next_iff (hs : Wf s) (hcomplete : Complete s) (hr : r.slot ≠ 0) :
    (⟨s.cursor.slot + 1, s.cursor.enclosing⟩ : LineNumber).hasAccess r = true ↔
      (∃ t ∈ s.accepted, t.number = r) ∧ r.enclosing <:+ s.cursor.enclosing := by
  constructor
  · intro h
    have hsuffix := LineNumber.enclosing_suffix_of_hasAccess h
    exact ⟨hcomplete.filled r hr h, hsuffix⟩
  · rintro ⟨⟨t, ht, rfl⟩, hsuffix⟩
    exact LineNumber.hasAccess_of_le (hs.le_cursor ht) hsuffix

theorem forall_openAt_iff (hs : Wf s) (hcomplete : Complete s) :
    (∀ b, r.Within b → s.OpenAt m b) ↔ r.enclosing <:+ s.cursor.enclosing ∧ ¬ r.Within m := by
  simp only [OpenAt, hs.ongoing_iff hcomplete]
  rw [← LineNumber.forall_within_iff]
  constructor
  · intro h
    exact ⟨fun b hb => (h b hb).1, fun hm => (h m hm).2 rfl⟩
  · rintro ⟨hsuffix, hm⟩ b hb
    exact ⟨hsuffix b hb, fun heq => hm (heq ▸ hb)⟩

end Wf

/-- **To have access is to see.**  After any lines that were all accepted, whatever
    number `m` the next line has, it may cite a number iff this is the number of an
    accepted line all of whose sub-proofs are open where `m` stands.  So a number
    that may be cited is always found, and the slot that waits for the end of an
    open sub-proof may not be cited. -/
theorem hasAccess_iff_visible {Γ : Setting} {ls : List Line} {s : State}
    (h : State.initial.feedAll Γ ls = (s, .ok ())) {m : LineNumber} (hm : s.cursor.Follows m) :
    (∀ r : LineNumber, (∀ k ∈ r.path, 1 ≤ k) → (m.hasAccess r = true ↔
        (∃ t ∈ s.accepted, t.number = r) ∧ ∀ b, r.Within b → s.OpenAt m b)) ∧
      (∀ r : LineNumber, (∀ k ∈ r.path, 1 ≤ k) → m.hasAccess r = true →
        ∃ t, Step.find? s.accepted r = some t) ∧
      ∀ b, s.Ongoing b → m.hasAccess b = false := by
  have hrun := feedAll_ok_iff.1 h
  have hs := hrun.wf
  have hcomplete := hrun.complete
  have hslot : ∀ r : LineNumber, (∀ k ∈ r.path, 1 ≤ k) → r.slot ≠ 0 := by
    intro r hr
    exact Nat.one_le_iff_ne_zero.1 (hr r.slot (by simp [LineNumber.path_eq]))
  have haccess : ∀ r : LineNumber, r.slot ≠ 0 → (m.hasAccess r = true ↔
      (∃ t ∈ s.accepted, t.number = r) ∧ ∀ b, r.Within b → s.OpenAt m b) := by
    intro r hr
    rw [hm.hasAccess_iff hr, hs.hasAccess_next_iff hcomplete hr, hs.forall_openAt_iff hcomplete,
      and_assoc]
  refine ⟨fun r hr => haccess r (hslot r hr), fun r hr hsees => ?_, fun b hb => ?_⟩
  · obtain ⟨⟨t, ht, rfl⟩, -⟩ := (haccess r (hslot r hr)).1 hsees
    exact ⟨t, hs.find?_eq_some ht⟩
  · have haround := (hs.ongoing_iff hcomplete).1 hb
    have hb0 : b.slot ≠ 0 := by
      intro h0
      exact hs.zero_notMem_enclosing (haround.subset (h0 ▸ List.mem_cons_self))
    rw [Bool.eq_false_iff]
    intro hsees
    obtain ⟨⟨t, ht, hnumber⟩, -⟩ := (haccess b hb0).1 hsees
    exact hs.number_ne_of_around haround ht hnumber

/-- At the line `2.3`, which closes the sub-proof of `indented`, the line `2.1` is
    visible, but neither the sub-proofs in `1` and `2.2` nor that in `2.3` are. -/
theorem hasAccess_iff_visible_indented :
    ∃ s, State.initial.feedAll indentedSetting indented = (s, .ok ()) ∧
      s.cursor.Follows ⟨3, [2]⟩ ∧
      ((∃ t ∈ s.accepted, t.number = ⟨1, [2]⟩) ∧
        ∀ b, LineNumber.Within ⟨1, [2]⟩ b → s.OpenAt ⟨3, [2]⟩ b) ∧
      (∀ r ∈ [⟨1, [1]⟩, ⟨1, [2, 2]⟩, ⟨1, [3, 2]⟩, ⟨2, [3, 2]⟩],
        ¬ ∀ b, LineNumber.Within r b → s.OpenAt ⟨3, [2]⟩ b) ∧
      s.Ongoing ⟨2, []⟩ ∧ (⟨3, [2]⟩ : LineNumber).hasAccess ⟨2, []⟩ = false := by
  obtain ⟨s, h, hcursor, hnumbers⟩ := feedAll_indented
  have hfollows : s.cursor.Follows ⟨3, [2]⟩ := by
    rw [hcursor]; exact .closing (by decide) rfl
  obtain ⟨hiff, -, hreserved⟩ := hasAccess_iff_visible h hfollows
  have hongoing : s.Ongoing ⟨2, []⟩ :=
    ((hiff ⟨1, [2]⟩ (by decide)).1 (by decide)).2 ⟨2, []⟩ List.suffix_rfl |>.1
  refine ⟨s, h, hfollows, (hiff ⟨1, [2]⟩ (by decide)).1 (by decide), fun r hr hopen => ?_, hongoing,
    hreserved _ hongoing⟩
  have hpositive : ∀ r ∈ ([⟨1, [1]⟩, ⟨1, [2, 2]⟩, ⟨1, [3, 2]⟩, ⟨2, [3, 2]⟩] : List LineNumber),
      (∀ k ∈ r.path, 1 ≤ k) ∧ r ∈ s.accepted.map (·.number) ∧
        (⟨3, [2]⟩ : LineNumber).hasAccess r = false := by
    rw [hnumbers]; decide
  obtain ⟨hpositive, haccepted, hno⟩ := hpositive r hr
  have hsees := (hiff r hpositive).2 ⟨List.mem_map.1 haccepted, hopen⟩
  rw [hno] at hsees
  cases hsees

end Checker.State

end Deduction
