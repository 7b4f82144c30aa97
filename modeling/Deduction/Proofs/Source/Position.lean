/-
  Where a proof text goes wrong.

  * `Draft.suffix_of_read`: the rest at which a line goes wrong is an end of the
    line, for every scanner of the grammar goes onward;
  * `Draft.readAll_eq_error_iff`: reading fails at the first line that goes wrong
    behind lines that do not;
  * `IsByteColumn`: the column as it is counted in the bytes of a line, which
    needs a cut between two characters;
  * `Proof.parse_malformed_local`: a complaint about a line depends on the text
    up to this line only, and its column lies in the line.
-/
import Deduction.Proofs.Source.Document
import Deduction.Proofs.Text.Onward

namespace Deduction

open Source Text Text.Scanner

namespace Source

/-! ## The grammar -/

theorem onward_negation : Onward negation := onward_token (onward_oneOf _)

theorem onward_connective (c : Connective) : Onward (connective c) := onward_token (onward_oneOf _)

theorem onward_arrow : Onward arrow :=
  onward_orElse (onward_seqRight (onward_connective _) (onward_pure _))
    (onward_seqRight (onward_connective _) (onward_pure _))

theorem onward_identifier : Onward identifier := by
  intro cs
  rw [identifier]
  split
  · exact onward_stop .mismatch cs
  split
  · exact onward_stop .mismatch cs
  · exact List.dropWhile_suffix _

theorem onward_component : Onward component := by
  intro cs
  rw [component]
  split
  · exact onward_stop .mismatch cs
  · exact List.dropWhile_suffix _

theorem onward_reference : Onward reference := by
  have hcomponents : Onward (separated (word ".") component) :=
    onward_separated (onward_word ".") onward_component
  intro cs
  rw [reference]
  split
  · rename_i s h
    exact hcomponents.of_error h
  rename_i components rest h
  split
  · exact hcomponents.of_ok h
  · exact onward_stop .mismatch cs

theorem onward_label : Onward label :=
  onward_bind onward_reference fun n => onward_bind (onward_word ".") fun _ => onward_pure n

section
variable {operand : Scanner Formula}

theorem onward_chain (c : Connective) (h : Onward operand) : Onward (chain c operand) :=
  onward_bind h fun _ =>
    onward_bind (onward_many (onward_seqRight (onward_connective c) h)) fun _ => onward_pure _

theorem onward_disjunction (h : Onward operand) : Onward (disjunction operand) :=
  onward_chain .or (onward_chain .xor (onward_chain .and h))

theorem onward_formulaOver (h : Onward operand) : Onward (formulaOver operand) := by
  have hoperand : Onward (disjunction operand) := onward_disjunction h
  refine onward_bind hoperand fun φ => onward_bind (onward_optional ?_) fun tail => ?_
  · exact onward_bind onward_arrow fun c => onward_bind hoperand fun ψ => onward_pure (c, ψ)
  · cases tail with
    | none => exact onward_pure φ
    | some tail => exact onward_pure (Formula.binary tail.1 φ tail.2)

end

theorem onward_atom (room : Nat) : Onward (atom room) := by
  induction room with
  | zero => exact onward_stop .tooDeep
  | succ room ih =>
    refine onward_token (onward_orElse ?_ (onward_orElse ?_ ?_))
    · exact onward_bind onward_negation fun _ => onward_bind ih fun φ => onward_pure φ.not
    · exact onward_bind (onward_word "(") fun _ => onward_bind (onward_formulaOver ih) fun φ =>
        onward_bind (onward_token (onward_word ")")) fun _ => onward_pure φ
    · exact onward_map leaf onward_identifier

theorem onward_formula : Onward formula := onward_formulaOver (onward_atom _)

theorem onward_ruleConnective : Onward ruleConnective :=
  onward_orElse (onward_seqRight (onward_connective _) (onward_pure _)) <|
  onward_orElse (onward_seqRight (onward_connective _) (onward_pure _)) <|
  onward_orElse (onward_connective _) <|
  onward_orElse onward_negation <|
  onward_orElse (onward_connective _) <|
  onward_connective _

theorem onward_ruleName : Onward ruleName :=
  onward_bind (onward_many1 (onward_token (onward_takeWhile1 _))) fun _ =>
    onward_bind (onward_optional onward_ruleConnective) fun _ => onward_pure _

theorem onward_citation : Onward citation := by
  have hrefs : Onward (do
      token (word ":")
      separated (token (word ",")) (token reference)) :=
    onward_bind (onward_token (onward_word ":")) fun _ =>
      onward_separated (onward_token (onward_word ",")) (onward_token onward_reference)
  exact onward_bind (onward_token (onward_word "[")) fun _ => onward_bind onward_ruleName fun _ =>
    onward_bind (onward_optional hrefs) fun _ =>
    onward_bind (onward_token (onward_word "]")) fun _ => onward_pure _

theorem onward_letDeclaration : Onward letDeclaration :=
  onward_bind (onward_word "Let") fun _ => onward_bind onward_blanks1 fun _ =>
  onward_bind onward_identifier fun _ => onward_bind onward_blanks1 fun _ =>
  onward_bind (onward_word "be") fun _ => onward_bind onward_blanks1 fun _ =>
  onward_bind (onward_word "a") fun _ => onward_bind onward_blanks1 fun _ =>
  onward_bind (onward_word "proposition") fun _ => onward_pure _

theorem onward_givenDeclaration : Onward givenDeclaration :=
  onward_bind (onward_word "Given") fun _ => onward_bind onward_blanks1 fun _ => onward_formula

/-! ## A line -/

section
variable {d : Draft} {text : List Char} {f : Flaw}

theorem suffix_of_readLine (h : readLine text = .error f) : f.rest <:+ text := by
  rw [readLine] at h
  split at h
  · rename_i s hlabel
    obtain rfl := Except.error.inj h
    exact (onward_token onward_label).of_error hlabel
  rename_i number rest hlabel
  have hrest : rest <:+ text := (onward_token onward_label).of_ok hlabel
  split at h
  · rename_i s hformula
    obtain rfl := Except.error.inj h
    exact (onward_formula.of_error hformula).trans hrest
  rename_i φ rest' hformula
  have hrest' : rest' <:+ text := (onward_formula.of_ok hformula).trans hrest
  split at h
  · rename_i s hcitation
    have hstop : s.rest <:+ text := (onward_citation.of_error hcitation).trans hrest'
    -- A second arrow only changes the complaint.
    split at h
    · obtain rfl := Except.error.inj h
      exact hstop
    · obtain rfl := Except.error.inj h
      exact hstop
  rename_i c rest'' hcitation
  have hrest'' : rest'' <:+ text := (onward_citation.of_ok hcitation).trans hrest'
  split at h
  · cases h
  · obtain rfl := Except.error.inj h
    exact (trimStart_suffix rest'').trans hrest''

namespace Draft

theorem suffix_of_readDeclaration (h : d.readDeclaration text = .error f) : f.rest <:+ text := by
  refine List.IsSuffix.trans ?_ (trimStart_suffix text)
  rw [readDeclaration] at h
  split at h
  · cases h
  -- That it is no header does not show: only a declaration tells where it goes wrong.
  split at h
  · split at h
    · cases h
    · rename_i s hlet
      obtain rfl := Except.error.inj h
      exact (onward_toEnd onward_letDeclaration).of_error hlet
  split at h
  · split at h
    · cases h
    · rename_i s hgiven
      obtain rfl := Except.error.inj h
      exact (onward_toEnd onward_givenDeclaration).of_error hgiven
  · obtain rfl := Except.error.inj h
    exact List.suffix_rfl

theorem suffix_of_read (h : d.read text = .error f) : f.rest <:+ text := by
  rw [read] at h
  split at h
  · cases h
  split at h
  · exact suffix_of_readDeclaration h
  split at h
  · cases h
  · rename_i hline
    obtain rfl := Except.error.inj h
    exact suffix_of_readLine hline

end Draft

end

/-! ## Line after line -/

namespace Draft

variable {d d' : Draft} {line : Nat} {texts before after : List (List Char)} {text : List Char}
  {f : Flaw} {e : ParseError}

theorem readAll_append (h : d.readAll line before = .ok d') (after : List (List Char)) :
    d.readAll line (before ++ after) = d'.readAll (line + before.length) after := by
  induction before generalizing d line with
  | nil =>
    obtain rfl := Except.ok.inj h
    rfl
  | cons text before ih =>
    rw [readAll] at h
    rw [List.cons_append, readAll]
    cases hread : d.read (stripComment text) with
    | error f => rw [hread] at h; cases h
    | ok d₁ =>
      rw [hread] at h
      dsimp only at h ⊢
      rw [ih h, List.length_cons, Nat.add_assoc, Nat.add_comm 1]

/-- Reading fails at the first line that goes wrong. -/
theorem readAll_eq_error_iff : d.readAll line texts = .error e ↔ ∃ before text after d' f,
    texts = before ++ text :: after ∧ d.readAll line before = .ok d' ∧
      d'.read (stripComment text) = .error f ∧
        e = .at (line + before.length) (stripComment text) f := by
  constructor
  · intro h
    induction texts generalizing d line with
    | nil => cases h
    | cons text texts ih =>
      rw [readAll] at h
      cases hread : d.read (stripComment text) with
      | error f =>
        rw [hread] at h
        exact ⟨[], text, texts, d, f, rfl, rfl, hread, (Except.error.inj h).symm⟩
      | ok d₁ =>
        rw [hread] at h
        obtain ⟨before, text', after, d', f, rfl, hbefore, hfails, rfl⟩ := ih h
        refine ⟨text :: before, text', after, d', f, rfl, ?_, hfails, ?_⟩
        · rw [readAll, hread]
          exact hbefore
        · rw [List.length_cons, Nat.add_assoc, Nat.add_comm 1]
  · rintro ⟨before, text, after, d', f, rfl, hbefore, hfails, rfl⟩
    rw [readAll_append hbefore, readAll, hfails]

end Draft

/-! ## Columns -/

/-- The column `j` at which `rest` begins in `line`, as counted in bytes: cut off
    as many bytes as `rest` has, and count the characters before the cut.  There is
    no such column if the cut falls into a character. -/
def IsByteColumn (line rest : String) (j : Nat) : Prop :=
  ∃ cut : line.Pos, cut.offset.byteIdx = line.utf8ByteSize - rest.utf8ByteSize ∧
    j = (line.sliceTo cut).copy.length + 1

theorem isByteColumn_append (before rest : String) :
    IsByteColumn (before ++ rest) rest (before.length + 1) := by
  have hvalid : before.rawEndPos.IsValid (before ++ rest) :=
    String.Pos.Raw.isValid_iff_exists_append.2 ⟨before, rest, rfl, rfl⟩
  let cut : (before ++ rest).Pos := ⟨before.rawEndPos, hvalid⟩
  have hsplits : cut.Splits before rest := ⟨rfl, rfl⟩
  refine ⟨cut, ?_, ?_⟩
  · rw [String.utf8ByteSize_append, Nat.add_sub_cancel]
    rfl
  · rw [hsplits.copy_sliceTo_eq]

section
variable {text rest : List Char}

/-- Counted in bytes, the column is the same. -/
theorem isByteColumn_column (h : rest <:+ text) :
    IsByteColumn (String.ofList text) (String.ofList rest) (column text rest) := by
  obtain ⟨before, rfl⟩ := h
  have hbytes := isByteColumn_append (String.ofList before) (String.ofList rest)
  rw [String.length_ofList] at hbytes
  rw [String.ofList_append, column, List.length_append, Nat.add_sub_cancel]
  exact hbytes

theorem column_pos : 1 ≤ column text rest := Nat.le_add_left 1 _

theorem column_le : column text rest ≤ 1 + text.length := by
  rw [column]
  omega

end

end Source

/-! ## Proofs -/

namespace Proof

section
variable {source : String} {k j : Nat} {complaint : Complaint}

theorem parse_eq_malformed_iff : Proof.parse source = .error (.malformed k j complaint) ↔
    Draft.empty.readAll 1 (textLines source.toList) = .error (.malformed k j complaint) := by
  rw [Proof.parse]
  cases Draft.empty.readAll 1 (textLines source.toList) with
  | error e => simp
  | ok d => cases hmode : d.mode <;> simp [hmode]

theorem parse_of_readAll {d : Draft}
    (h : Draft.empty.readAll 1 (textLines source.toList) = .ok d) :
    (∃ p, Proof.parse source = .ok p) ∨ Proof.parse source = .error .missingHeader := by
  rw [Proof.parse, h]
  cases hmode : d.mode with
  | none => exact .inr (by simp [hmode])
  | some mode => exact .inl ⟨⟨mode, d.declarations, d.lines.reverse⟩, by simp [hmode]⟩

end

/-- **Complaints are local and well placed.**  Suppose a text goes wrong at line `k`
    and column `j`.  Then it has a line `k`; every text with the same first `k`
    lines goes wrong in the same way, and a text of the lines before is read or
    lacks a header only.  The column lies in the line, or right behind it, and the
    rest at which the line goes wrong is an end of it, so that the column can be
    counted in bytes. -/
theorem parse_malformed_local {source : String} {k j : Nat} {complaint : Complaint}
    (h : Proof.parse source = .error (.malformed k j complaint)) :
    (1 ≤ k ∧ k ≤ (textLines source.toList).length) ∧
    (∀ source' : String, (textLines source'.toList).take k = (textLines source.toList).take k →
      Proof.parse source' = .error (.malformed k j complaint)) ∧
    (∀ source' : String, textLines source'.toList = (textLines source.toList).take (k - 1) →
      (∃ p, Proof.parse source' = .ok p) ∨ Proof.parse source' = .error .missingHeader) ∧
    ∃ text d f, (textLines source.toList)[k - 1]? = some text ∧
      (1 ≤ j ∧ j ≤ 1 + (stripComment text).length) ∧
      Draft.empty.readAll 1 ((textLines source.toList).take (k - 1)) = .ok d ∧
      d.read (stripComment text) = .error f ∧ f.complaint = complaint ∧
      f.rest <:+ stripComment text ∧
      IsByteColumn (String.ofList (stripComment text)) (String.ofList f.rest) j := by
  obtain ⟨before, text, after, d, f, hlines, hbefore, hfails, herror⟩ :=
    Draft.readAll_eq_error_iff.1 (parse_eq_malformed_iff.1 h)
  obtain ⟨rfl, rfl, rfl⟩ := ParseError.malformed.inj herror
  have hrest : f.rest <:+ stripComment text := Draft.suffix_of_read hfails
  rw [hlines, Nat.add_sub_cancel_left, List.take_left]
  refine ⟨⟨Nat.le_add_right 1 _, by simp; omega⟩, fun source' hsame => ?_, fun source' hshort => ?_,
    text, d, f, by simp, ⟨column_pos, column_le⟩, hbefore, hfails, rfl, hrest,
    isByteColumn_column hrest⟩
  · have hlines' : textLines source'.toList =
        before ++ text :: (textLines source'.toList).drop (1 + before.length) := by
      conv_lhs => rw [← List.take_append_drop (1 + before.length) (textLines source'.toList), hsame]
      rw [Nat.add_comm 1, List.take_length_add_append]
      simp
    exact parse_eq_malformed_iff.2 (Draft.readAll_eq_error_iff.2
      ⟨before, text, _, d, f, hlines', hbefore, hfails, rfl⟩)
  · exact parse_of_readAll (hshort ▸ hbefore)

/-- A line that ends with a sign of three bytes, before the citation and a comment. -/
def unfinished : String :=
  "Let p be a proposition\nproof. // ¬\n1. ¬p∧ [Given] # ∧p\n2. p [Given]"

theorem parse_malformed_local_unfinished :
    Proof.parse unfinished = .error (.malformed 3 6 .citation) ∧
      Proof.parse "Let p be a proposition\r\nproof. // ¬\r\n1. ¬p∧ [Given] # ∧p" =
        .error (.malformed 3 6 .citation) ∧
      ((∃ p, Proof.parse "Let p be a proposition\nproof. // ¬" = .ok p) ∨
        Proof.parse "Let p be a proposition\nproof. // ¬" = .error .missingHeader) ∧
      ∃ text d f, (textLines unfinished.toList)[2]? = some text ∧
        (1 ≤ 6 ∧ 6 ≤ 1 + (stripComment text).length) ∧
        Draft.empty.readAll 1 ((textLines unfinished.toList).take 2) = .ok d ∧
        d.read (stripComment text) = .error f ∧ f.complaint = .citation ∧
        f.rest <:+ stripComment text ∧
        IsByteColumn (String.ofList (stripComment text)) (String.ofList f.rest) 6 := by
  have h : Proof.parse unfinished = .error (.malformed 3 6 .citation) := by decide +kernel
  obtain ⟨-, hsame, hbefore, hplace⟩ := parse_malformed_local h
  exact ⟨h, hsame _ (by decide +kernel), hbefore _ (by decide +kernel), hplace⟩

end Proof

end Deduction
