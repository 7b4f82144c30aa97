/-
  A written proof is read back.

  * `Plain`: the text of a statement holds no line end and no comment, so the
    lines of a written proof are its statements (`textLines_flatMap`);
  * `Draft.Printable`: what has been read can be written and read again, which
    every line keeps (`Draft.Printable.of_read`);
  * `Proof.parse_text`: the source form of such a proof is read as the proof,
    but that the references of each line come in ascending order.
-/
import Deduction.Proofs.Source.Line
import Mathlib.Data.List.Forall2

namespace Deduction

open Source Text Text.Scanner

/-! ## Plain texts -/

namespace Source

/-- Neither a line end nor the start of a comment. -/
def isPlain (c : Char) : Bool := c ≠ '\n' && c ≠ '\r' && c ≠ '#' && c ≠ '/'

/-- A text on one line and without a comment. -/
def Plain (cs : List Char) : Prop := ∀ c ∈ cs, isPlain c = true

instance (cs : List Char) : Decidable (Plain cs) := List.decidableBAll _ cs

section
variable {k : Char → Bool} {c : Char} {w cs rest : List Char} {ts : List Token}

theorem plain_append : Plain (w ++ cs) ↔ Plain w ∧ Plain cs := List.forall_mem_append

/-- A kind of characters that are all plain. -/
theorem Plain.of_kind (hk : k '\n' = false ∧ k '\r' = false ∧ k '#' = false ∧ k '/' = false)
    (h : ∀ c ∈ cs, k c = true) : Plain cs := by
  intro c hc
  have hkc := h c hc
  obtain ⟨hfeed, hreturn, hhash, hslash⟩ := hk
  simp only [isPlain, Bool.and_eq_true, decide_eq_true_eq]
  refine ⟨⟨⟨?_, ?_⟩, ?_⟩, ?_⟩
  all_goals rintro rfl; simp_all

theorem plain_spellings : ∀ t ∈ signs, ∀ w ∈ t.spellings, Plain w.toList := by decide +kernel

theorem Lexed.plain (h : Lexed ts cs rest) (hrest : Plain rest) : Plain cs := by
  induction h with
  | nil => exact hrest
  | cons hblank hspelled _ _ ih =>
    refine plain_append.2 ⟨.of_kind (by decide) hblank, plain_append.2 ⟨?_, ih hrest⟩⟩
    cases hspelled with
    | sign hw => exact plain_spellings _ (mem_signs hw) _ hw
    | name hx => exact .of_kind (by decide) hx.all

theorem plain_formula {φ : Formula} (h : φ.Readable) : Plain φ.text.toList := by
  have hlexed := Formula.spells_text h.named [] (by simp [EndsRun])
  rw [List.append_nil] at hlexed
  exact hlexed.plain (List.forall_mem_nil _)

theorem plain_number (n : LineNumber) : Plain n.text.toList := by
  have hdigits : ∀ k : Nat, Plain (toString k).toList := by
    intro k
    rw [Nat.toString_eq_ofList_toDigits, String.toList_ofList]
    exact .of_kind (k := Char.isDigit) (by decide)
      fun c hc => Nat.isDigit_of_mem_toDigits (by decide) (by decide) hc
  obtain ⟨k, ks, -, htext⟩ := exists_text_eq n
  rw [htext]
  refine plain_append.2 ⟨hdigits k, fun c hc => ?_⟩
  obtain ⟨b, -, hc⟩ := List.mem_flatMap.1 hc
  exact plain_append.2 ⟨(by decide : Plain ".".toList), hdigits b⟩ c hc

theorem plain_intercalate {sep : String} {ss : List String} (hsep : Plain sep.toList)
    (hss : ∀ s ∈ ss, Plain s.toList) : Plain (sep.intercalate ss).toList := by
  rw [String.toList_intercalate]
  cases ss with
  | nil => exact List.forall_mem_nil _
  | cons s ss =>
    obtain ⟨hs, hss⟩ := List.forall_mem_cons.1 hss
    rw [List.map_cons, intercalate_cons, List.flatMap_map]
    refine plain_append.2 ⟨hs, fun c hc => ?_⟩
    obtain ⟨s', hs', hc⟩ := List.mem_flatMap.1 hc
    exact plain_append.2 ⟨hsep, hss s' hs'⟩ c hc

theorem plain_ruleName {name : String} (h : IsRuleName name) : Plain name.toList := by
  have hwords : ∀ {ws : List (List Char)}, (∀ w ∈ ws, IsRuleWord w) →
      ∀ s ∈ ws.map String.ofList, Plain s.toList := by
    intro ws hws s hs
    obtain ⟨w, hw, rfl⟩ := List.mem_map.1 hs
    rw [String.toList_ofList]
    exact .of_kind (by decide) (hws w hw).2
  cases h with
  | words hw => exact plain_intercalate (by decide) (hwords hw)
  | sign hw ht hv _ =>
    refine plain_intercalate (by decide) (List.forall_mem_append.2 ⟨hwords hw, ?_⟩)
    exact List.forall_mem_singleton.2 (plain_spellings _ (mem_signs hv) _ hv)

theorem plain_line {l : Line} (h : l.Printable) : Plain l.text.toList := by
  have hcitation : Plain l.citation.text.toList := by
    rw [Citation.text]
    split
    · exact plain_ruleName h.citation.rule
    · simp only [String.toList_append, plain_append]
      refine ⟨⟨plain_ruleName h.citation.rule, by decide⟩, plain_intercalate (by decide) ?_⟩
      intro s hs
      obtain ⟨n, -, rfl⟩ := List.mem_map.1 hs
      exact plain_number n
  simp only [Line.text, String.toList_append, plain_append]
  exact ⟨⟨⟨⟨⟨plain_number _, by decide⟩, plain_formula h.formula⟩, by decide⟩, hcitation⟩, by decide⟩

theorem plain_let {x : String} (hx : IsIdentifier x) :
    Plain ("Let " ++ x ++ " be a proposition").toList := by
  simp only [String.toList_append, plain_append]
  exact ⟨⟨by decide, .of_kind (by decide) hx.all⟩, by decide⟩

theorem plain_given {φ : Formula} (hφ : φ.Readable) : Plain ("Given " ++ φ.text).toList := by
  simp only [String.toList_append, plain_append]
  exact ⟨by decide, plain_formula hφ⟩

theorem plain_header (mode : Mode) : Plain mode.header.toList := by cases mode <;> decide

/-! ## Lines of a text -/

theorem stripComment_of_plain (h : Plain cs) : stripComment cs = cs := by
  induction cs with
  | nil => rfl
  | cons c cs ih =>
    obtain ⟨hc, hcs⟩ := List.forall_mem_cons.1 h
    simp only [isPlain, Bool.and_eq_true, decide_eq_true_eq] at hc
    rw [stripComment, ih hcs]
    · exact hc.1.2
    · rintro _ rfl _; exact hc.2 rfl

theorem linesFrom_append {line : List Char} (hline : Plain line) (h : Plain w) (cs : List Char) :
    linesFrom line (w ++ '\n' :: cs) = (line.reverse ++ w) :: linesFrom [] cs := by
  induction w generalizing line with
  | nil =>
    cases line with
    | nil => rfl
    | cons c line =>
      have hc : c ≠ '\r' := by
        rintro rfl
        exact absurd (hline '\r' List.mem_cons_self) (by decide)
      rw [List.nil_append, linesFrom, List.append_nil]
      exact fun _ heq => hc (List.cons.inj heq).1
  | cons c w ih =>
    obtain ⟨hc, hw⟩ := List.forall_mem_cons.1 h
    have hfeed : c ≠ '\n' := by rintro rfl; cases hc
    rw [List.cons_append, linesFrom, ih (List.forall_mem_cons.2 ⟨hc, hline⟩) hw, List.reverse_cons,
      List.append_assoc]
    · rfl
    · exact hfeed

theorem textLines_flatMap {ls : List (List Char)} (h : ∀ l ∈ ls, Plain l) :
    textLines (ls.flatMap (· ++ ['\n'])) = ls := by
  induction ls with
  | nil => rfl
  | cons l ls ih =>
    obtain ⟨hl, hls⟩ := List.forall_mem_cons.1 h
    rw [List.flatMap_cons, List.append_assoc, textLines, List.singleton_append,
      linesFrom_append (List.forall_mem_nil _) hl]
    exact congrArg (l :: ·) (ih hls)

end

end Source

/-! ## Declarations -/

section
variable {α : Type} [DecidableEq α] {xs : List α} {x y : α}

theorem mem_addNew : y ∈ addNew xs x ↔ y ∈ xs ∨ y = x := by
  rw [addNew]
  split
  · rename_i hx
    exact ⟨.inl, fun h => h.elim id fun hy => hy ▸ hx⟩
  · simp

theorem nodup_addNew (h : xs.Nodup) : (addNew xs x).Nodup := by
  rw [addNew]
  split
  · exact h
  · rename_i hx
    refine List.nodup_append.2 ⟨h, by simp, fun a ha b hb hab => hx ?_⟩
    rwa [← List.mem_singleton.1 hb, ← hab]

theorem addNew_of_nodup (h : (xs ++ [x]).Nodup) : addNew xs x = xs ++ [x] :=
  if_neg fun hx => (List.nodup_append.1 h).2.2 x hx x List.mem_cons_self rfl

end

namespace Declarations

/-- What can be written and read again. -/
structure Printable (d : Declarations) : Prop where
  atoms : ∀ x ∈ d.atoms, IsIdentifier x
  nodup_atoms : d.atoms.Nodup
  givens : ∀ φ ∈ d.givens, φ.Readable
  nodup_givens : d.givens.Nodup

theorem merge_atom (d : Declarations) (x : String) :
    d.merge (.ofLists [x] []) = ⟨addNew d.atoms x, d.givens⟩ := by
  simp [merge, ofLists, addNew]

theorem merge_given (d : Declarations) (φ : Formula) :
    d.merge (.ofLists [] [φ]) = ⟨d.atoms, addNew d.givens φ⟩ := by
  simp [merge, ofLists, addNew]

end Declarations

namespace Source.Draft

/-! ## What is read can be written -/

/-- What can be written and read again. -/
structure Printable (d : Draft) : Prop where
  declarations : d.declarations.Printable
  lines : ∀ l ∈ d.lines, l.Printable

variable {d d' : Draft} {line : Nat} {text : List Char}

theorem Printable.empty : Draft.empty.Printable :=
  ⟨⟨by simp [Draft.empty, Declarations.empty], .nil, by simp [Draft.empty, Declarations.empty], .nil⟩,
    by simp [Draft.empty]⟩

theorem isIdentifier_of_letDeclaration {x : String} {cs rest : List Char}
    (h : letDeclaration cs = .ok (x, rest)) : IsIdentifier x := by
  obtain ⟨_, _, -, h⟩ := bind_eq_ok.1 h
  obtain ⟨_, _, -, h⟩ := bind_eq_ok.1 h
  obtain ⟨name, _, hname, h⟩ := bind_eq_ok.1 h
  obtain ⟨_, _, -, h⟩ := bind_eq_ok.1 h
  obtain ⟨_, _, -, h⟩ := bind_eq_ok.1 h
  obtain ⟨_, _, -, h⟩ := bind_eq_ok.1 h
  obtain ⟨_, _, -, h⟩ := bind_eq_ok.1 h
  obtain ⟨_, _, -, h⟩ := bind_eq_ok.1 h
  obtain ⟨_, _, -, h⟩ := bind_eq_ok.1 h
  obtain ⟨rfl, -⟩ := pure_eq_ok.1 h
  exact (identifier_eq_ok.1 hname).1

theorem readable_of_givenDeclaration {φ : Formula} {cs rest : List Char}
    (h : givenDeclaration cs = .ok (φ, rest)) : φ.Readable := by
  obtain ⟨_, _, -, h⟩ := bind_eq_ok.1 h
  obtain ⟨_, _, -, h⟩ := bind_eq_ok.1 h
  exact Formula.readable_of_formula h

theorem Printable.of_readDeclaration (hd : d.Printable)
    (h : d.readDeclaration text = .ok d') : d'.Printable := by
  obtain ⟨⟨hatoms, hnodup, hgivens, hnodup'⟩, hlines⟩ := hd
  rw [readDeclaration] at h
  split at h
  · obtain rfl := Except.ok.inj h
    exact ⟨⟨hatoms, hnodup, hgivens, hnodup'⟩, hlines⟩
  split at h
  · split at h
    · rename_i x _ hlet
      obtain rfl := Except.ok.inj h
      obtain ⟨-, mid, hlet, -⟩ := toEnd_eq_ok.1 hlet
      refine ⟨?_, hlines⟩
      rw [Declarations.merge_atom]
      refine ⟨fun y hy => ?_, nodup_addNew hnodup, hgivens, hnodup'⟩
      rcases mem_addNew.1 hy with hy | rfl
      · exact hatoms y hy
      · exact isIdentifier_of_letDeclaration hlet
    · cases h
  split at h
  · split at h
    · rename_i φ _ hgiven
      obtain rfl := Except.ok.inj h
      obtain ⟨-, mid, hgiven, -⟩ := toEnd_eq_ok.1 hgiven
      refine ⟨?_, hlines⟩
      rw [Declarations.merge_given]
      refine ⟨hatoms, hnodup, fun ψ hψ => ?_, nodup_addNew hnodup'⟩
      rcases mem_addNew.1 hψ with hψ | rfl
      · exact hgivens ψ hψ
      · exact readable_of_givenDeclaration hgiven
    · cases h
  · cases h

theorem Printable.of_read (hd : d.Printable) (h : d.read text = .ok d') : d'.Printable := by
  rw [read] at h
  split at h
  · obtain rfl := Except.ok.inj h
    exact hd
  split at h
  · exact hd.of_readDeclaration h
  split at h
  · rename_i l hline
    obtain rfl := Except.ok.inj h
    exact ⟨hd.declarations, List.forall_mem_cons.2 ⟨printable_of_readLine hline, hd.lines⟩⟩
  · cases h

theorem Printable.of_readAll {texts : List (List Char)} (hd : d.Printable)
    (h : d.readAll line texts = .ok d') : d'.Printable := by
  induction texts generalizing d line with
  | nil =>
    obtain rfl := Except.ok.inj h
    exact hd
  | cons text texts ih =>
    rw [readAll] at h
    split at h
    · cases h
    · rename_i hread
      exact ih (hd.of_read hread) h

/-! ## What is written can be read -/

theorem isBlankText_eq_false {c : Char} (hc : c ∈ text) (h : isBlank c = false) :
    isBlankText text = false := by
  rw [isBlankText, List.all_eq_false]
  exact ⟨c, hc, by simp [h]⟩

theorem blanks1_cons {c : Char} (hc : isSpaceOrTab c = true) (cs : List Char) :
    blanks1 (c :: cs) = .ok ((), cs.dropWhile isSpaceOrTab) := by
  have htake : takeWhile1 isSpaceOrTab (c :: cs) =
      .ok (c :: cs.takeWhile isSpaceOrTab, cs.dropWhile isSpaceOrTab) := by
    simp [takeWhile1, takeWhile, hc]
  exact bind_of_ok _ htake

theorem letDeclaration_text {x : String} (hx : IsIdentifier x) :
    letDeclaration ("Let " ++ x ++ " be a proposition").toList = .ok (x, []) := by
  have htext : ("Let " ++ x ++ " be a proposition").toList =
      "Let".toList ++ ' ' :: (x.toList ++ " be a proposition".toList) := by simp
  have hstart : (x.toList ++ " be a proposition".toList).dropWhile isSpaceOrTab =
      x.toList ++ " be a proposition".toList :=
    dropWhile_eq_self ((Spelled.name hx).endsRun_append _)
  have hname : identifier (x.toList ++ " be a proposition".toList) =
      .ok (x, " be a proposition".toList) :=
    identifier_eq_ok.2 ⟨hx, rfl, endsRun_cons.2 (by decide)⟩
  rw [htext, letDeclaration, bind_of_ok _ (word_append "Let" _), bind_of_ok _ (blanks1_cons (by decide) _),
    hstart, bind_of_ok _ hname]
  rfl

theorem givenDeclaration_text {φ : Formula} (hφ : φ.Readable) :
    givenDeclaration ("Given " ++ φ.text).toList = .ok (φ, []) := by
  have htext : ("Given " ++ φ.text).toList = "Given".toList ++ ' ' :: φ.text.toList := by simp
  have hlexed : Lexed φ.tokens (φ.text.toList.dropWhile isSpaceOrTab) [] := by
    have hspells := Formula.spells_text hφ.named [] (by simp [EndsRun])
    rw [List.append_nil] at hspells
    obtain ⟨t, ts, htokens⟩ := List.exists_cons_of_ne_nil φ.tokens_ne_nil
    rw [htokens] at hspells ⊢
    exact hspells.dropWhile
  rw [htext, givenDeclaration, bind_of_ok _ (word_append "Given" _),
    bind_of_ok _ (blanks1_cons (by decide) _)]
  exact hφ.formula_of_lexed hlexed (.of_blank _ (List.forall_mem_nil _))

theorem read_let (hd : d.mode = none) {x : String} (hx : IsIdentifier x) :
    d.read ("Let " ++ x ++ " be a proposition").toList =
      .ok { d with declarations := ⟨addNew d.declarations.atoms x, d.declarations.givens⟩ } := by
  have hlet := toEnd_eq_ok.2 ⟨rfl, [], letDeclaration_text hx, List.forall_mem_nil _⟩
  obtain ⟨cs, hcs⟩ : ∃ cs, ("Let " ++ x ++ " be a proposition").toList = 'L' :: 'e' :: 't' :: cs :=
    ⟨' ' :: (x.toList ++ " be a proposition".toList), by simp⟩
  rw [hcs] at hlet ⊢
  have htrim : trimStart ('L' :: 'e' :: 't' :: cs) = 'L' :: 'e' :: 't' :: cs := rfl
  have hheader : toEnd header ('L' :: 'e' :: 't' :: cs) = .error ⟨.mismatch, _⟩ := rfl
  obtain ⟨declarations, mode, lines⟩ := d
  obtain rfl : mode = none := hd
  rw [read, isBlankText_eq_false List.mem_cons_self (by decide), ← Declarations.merge_atom]
  simp only [readDeclaration, htrim, hheader, hlet]
  rfl

theorem read_given (hd : d.mode = none) {φ : Formula} (hφ : φ.Readable) :
    d.read ("Given " ++ φ.text).toList =
      .ok { d with declarations := ⟨d.declarations.atoms, addNew d.declarations.givens φ⟩ } := by
  have hgiven := toEnd_eq_ok.2 ⟨rfl, [], givenDeclaration_text hφ, List.forall_mem_nil _⟩
  obtain ⟨cs, hcs⟩ : ∃ cs, ("Given " ++ φ.text).toList = 'G' :: 'i' :: 'v' :: 'e' :: 'n' :: cs :=
    ⟨' ' :: φ.text.toList, by simp⟩
  rw [hcs] at hgiven ⊢
  have htrim : trimStart ('G' :: 'i' :: 'v' :: 'e' :: 'n' :: cs) =
      'G' :: 'i' :: 'v' :: 'e' :: 'n' :: cs := rfl
  have hheader : toEnd header ('G' :: 'i' :: 'v' :: 'e' :: 'n' :: cs) = .error ⟨.mismatch, _⟩ := rfl
  obtain ⟨declarations, mode, lines⟩ := d
  obtain rfl : mode = none := hd
  rw [read, isBlankText_eq_false List.mem_cons_self (by decide), ← Declarations.merge_given]
  simp only [readDeclaration, htrim, hheader, hgiven]
  rfl

theorem read_header (hd : d.mode = none) (mode : Mode) :
    d.read mode.header.toList = .ok { d with mode := some mode } := by
  obtain ⟨declarations, _, lines⟩ := d
  cases hd
  cases mode <;> rfl

theorem read_line {mode : Mode} (hd : d.mode = some mode) {l : Line} (hl : l.Printable) :
    d.read l.text.toList = .ok { d with lines := l.sorted :: d.lines } := by
  obtain ⟨declarations, _, lines⟩ := d
  cases hd
  rw [read, isBlankText_eq_false (by simp [Line.text] : '[' ∈ l.text.toList) (by decide)]
  simp only [readLine_text hl]
  rfl

/-- Statements of one kind are read one after another, where `D` says what has
    been read after some of them. -/
theorem readAll_map {α : Type} {write : α → String} {D : List α → Draft} {items : List α}
    (hplain : ∀ a ∈ items, Plain (write a).toList)
    (hread : ∀ before a, before ++ [a] <+: items →
      (D before).read (write a).toList = .ok (D (before ++ [a])))
    (line : Nat) (texts : List (List Char)) :
    (D []).readAll line (items.map (fun a => (write a).toList) ++ texts) =
      (D items).readAll (line + items.length) texts := by
  suffices h : ∀ before after, before ++ after = items → ∀ line,
      (D before).readAll line (after.map (fun a => (write a).toList) ++ texts) =
        (D items).readAll (line + after.length) texts from h [] items rfl line
  intro before after hitems line
  induction after generalizing before line with
  | nil =>
    rw [List.append_nil] at hitems
    rw [hitems]
    rfl
  | cons a after ih =>
    have happend : before ++ [a] ++ after = items := by rw [List.append_assoc]; exact hitems
    have ha : a ∈ items := by simp [← hitems]
    rw [List.map_cons, List.cons_append, readAll, stripComment_of_plain (hplain a ha),
      hread before a ⟨after, happend⟩]
    simp only [ih _ happend, List.length_cons, Nat.add_assoc, Nat.add_comm 1]

theorem readAll_lets {atoms : List String} (hatoms : ∀ x ∈ atoms, IsIdentifier x)
    (hnodup : atoms.Nodup) (line : Nat) (texts : List (List Char)) :
    Draft.empty.readAll line
        (atoms.map (fun x => ("Let " ++ x ++ " be a proposition").toList) ++ texts) =
      Draft.readAll ⟨⟨atoms, []⟩, none, []⟩ (line + atoms.length) texts := by
  refine readAll_map (D := fun xs => ⟨⟨xs, []⟩, none, []⟩) (fun x hx => ?_)
    (fun before x hbegins => ?_) line texts
  · exact plain_let (hatoms x hx)
  · have hx := hatoms x (hbegins.subset (by simp))
    rw [read_let rfl hx, addNew_of_nodup (hnodup.sublist hbegins.sublist)]

theorem readAll_givens {atoms : List String} {givens : List Formula}
    (hgivens : ∀ φ ∈ givens, φ.Readable) (hnodup : givens.Nodup) (line : Nat)
    (texts : List (List Char)) :
    Draft.readAll ⟨⟨atoms, []⟩, none, []⟩ line
        (givens.map (fun φ => ("Given " ++ φ.text).toList) ++ texts) =
      Draft.readAll ⟨⟨atoms, givens⟩, none, []⟩ (line + givens.length) texts := by
  refine readAll_map (D := fun φs => ⟨⟨atoms, φs⟩, none, []⟩) (fun φ hφ => ?_)
    (fun before φ hbegins => ?_) line texts
  · exact plain_given (hgivens φ hφ)
  · have hφ := hgivens φ (hbegins.subset (by simp))
    rw [read_given rfl hφ, addNew_of_nodup (hnodup.sublist hbegins.sublist)]

theorem readAll_header (declarations : Declarations) (mode : Mode) (line : Nat)
    (texts : List (List Char)) :
    Draft.readAll ⟨declarations, none, []⟩ line (mode.header.toList :: texts) =
      Draft.readAll ⟨declarations, some mode, []⟩ (line + 1) texts := by
  rw [readAll, stripComment_of_plain (plain_header mode), read_header rfl]

theorem readAll_lines {declarations : Declarations} {mode : Mode} {lines : List Line}
    (hlines : ∀ l ∈ lines, l.Printable) (line : Nat) (texts : List (List Char)) :
    Draft.readAll ⟨declarations, some mode, []⟩ line (lines.map (fun l => l.text.toList) ++ texts) =
      Draft.readAll ⟨declarations, some mode, (lines.map Line.sorted).reverse⟩
        (line + lines.length) texts := by
  refine readAll_map (D := fun ls => ⟨declarations, some mode, (ls.map Line.sorted).reverse⟩)
    (fun l hl => plain_line (hlines l hl)) (fun before l hbegins => ?_) line texts
  rw [read_line rfl (hlines l (hbegins.subset (by simp)))]
  simp

end Source.Draft

/-! ## Proofs -/

namespace Proof

/-- What can be written and read again. -/
structure Printable (p : Proof) : Prop where
  declarations : p.declarations.Printable
  lines : ∀ l ∈ p.lines, l.Printable

/-- The proof with the references of each line in ascending order. -/
def sorted (p : Proof) : Proof := { p with lines := p.lines.map Line.sorted }

/-- The lines of the source form. -/
def statements (p : Proof) : List (List Char) :=
  p.declarations.atoms.map (fun x => ("Let " ++ x ++ " be a proposition").toList) ++
    (p.declarations.givens.map (fun φ => ("Given " ++ φ.text).toList) ++
      p.mode.header.toList :: p.lines.map (fun l => l.text.toList))

variable {p : Proof}

theorem toList_text (p : Proof) : p.text.toList = p.statements.flatMap (· ++ ['\n']) := by
  simp [text, statements, Declarations.text, String.toList_join, List.flatMap_map]

theorem Printable.plain_statements (h : p.Printable) : ∀ s ∈ p.statements, Plain s := by
  intro s hs
  simp only [statements, List.mem_append, List.mem_cons, List.mem_map] at hs
  rcases hs with ⟨x, hx, rfl⟩ | ⟨φ, hφ, rfl⟩ | rfl | ⟨l, hl, rfl⟩
  · exact plain_let (h.declarations.atoms x hx)
  · exact plain_given (h.declarations.givens φ hφ)
  · exact plain_header p.mode
  · exact plain_line (h.lines l hl)

/-- **The source form of a proof is read as the proof**, the references of each
    line in ascending order. -/
theorem parse_text (h : p.Printable) : Proof.parse p.text = .ok p.sorted := by
  have hread : Draft.empty.readAll 1 p.statements =
      .ok ⟨p.declarations, some p.mode, (p.lines.map Line.sorted).reverse⟩ := by
    rw [statements, Draft.readAll_lets h.declarations.atoms h.declarations.nodup_atoms,
      Draft.readAll_givens h.declarations.givens h.declarations.nodup_givens,
      Draft.readAll_header, ← List.append_nil (p.lines.map _), Draft.readAll_lines h.lines]
    rfl
  rw [parse, toList_text, textLines_flatMap h.plain_statements, hread]
  simp only [List.reverse_reverse]
  rfl

/-- What is read as a proof can be written and read again. -/
theorem printable_of_parse {source : String} (h : Proof.parse source = .ok p) : p.Printable := by
  rw [parse] at h
  split at h
  · cases h
  rename_i d hread
  split at h
  · cases h
  · obtain rfl := Except.ok.inj h
    have hd := Draft.Printable.empty.of_readAll hread
    exact ⟨hd.declarations, fun l hl => hd.lines l (List.mem_reverse.1 hl)⟩

theorem text_sorted (p : Proof) : p.sorted.text = p.text := by
  simp [text, sorted, Function.comp_def, Line.text_sorted]

/-- **Writing a proof that was read and reading it again loses nothing**: mode,
    declarations, and the number, formula and rule of each line are the same,
    and only the references of a line come in ascending order.  So the second
    source form is the first one. -/
theorem parse_text_of_parse {source : String} (h : Proof.parse source = .ok p) :
    ∃ p', Proof.parse p.text = .ok p' ∧ p'.mode = p.mode ∧ p'.declarations = p.declarations ∧
      List.Forall₂ (fun l l' : Line => l'.number = l.number ∧ l'.formula = l.formula ∧
        l'.citation.rule = l.citation.rule ∧ l'.citation.refs.Perm l.citation.refs ∧
          l'.citation.refs.Pairwise (· ≤ ·)) p.lines p'.lines ∧
      p'.text = p.text := by
  refine ⟨p.sorted, parse_text (printable_of_parse h), rfl, rfl, ?_, text_sorted p⟩
  rw [sorted, List.forall₂_map_right_iff, List.forall₂_same]
  exact fun l _ => ⟨rfl, rfl, rfl, LineNumber.sort_perm _, LineNumber.pairwise_sort _⟩

/-- One line that cites two others, the later one first. -/
def shuffled : Proof :=
  ⟨.ordinary, ⟨["p"], []⟩,
    [⟨⟨4, []⟩, .and (.atom "p") (.atom "p"), ⟨"Intro and", [⟨3, []⟩, ⟨1, [2]⟩]⟩⟩]⟩

theorem parse_text_of_parse_shuffled :
    Proof.parse "Let p be a proposition\nProof. # lines\n04. (p)&p [Intro &: 3, 2.1]" =
        .ok shuffled ∧
      ∃ p', Proof.parse shuffled.text = .ok p' ∧ p'.mode = shuffled.mode ∧
        p'.declarations = shuffled.declarations ∧
        List.Forall₂ (fun l l' : Line => l'.number = l.number ∧ l'.formula = l.formula ∧
          l'.citation.rule = l.citation.rule ∧ l'.citation.refs.Perm l.citation.refs ∧
            l'.citation.refs.Pairwise (· ≤ ·)) shuffled.lines p'.lines ∧
        p'.text = shuffled.text := by
  have h : Proof.parse "Let p be a proposition\nProof. # lines\n04. (p)&p [Intro &: 3, 2.1]" =
      .ok shuffled := by decide +kernel
  exact ⟨h, parse_text_of_parse h⟩

end Proof

end Deduction
