/-
  The tables of an accepted proof are well nested.

  The layout of an ordinary proof begins and ends tables by the rules that the
  lines cite, one line at a time; what is open is not written down anywhere.
  `nestAll` keeps account of it.  For a proof that the checker accepts it is known
  at each line from its number (`around`): the line stands in one table for each
  component, and each table but the outermost one stands in a cell.

  * `nestAll_of_accepts`: one line; `nestAll_of_run`: many lines;
  * `indentAfter_of_nestAll`: the indentation counts the environments that are
    open, and so it is never cut off at the margin;
  * `flatMap_linePieces`: the pieces of a sub-proof, from its cell to its closing
    line;
  * `proofPieces_nested`: all of this for an accepted proof.
-/
import Deduction.Proofs.Layout.Nesting
import Deduction.Proofs.Source.Line

namespace Deduction

namespace Layout.Latex

/-! ## The margin -/

/-- The indentation behind a piece. -/
def Piece.indent (n : Nat) : Piece → Nat
  | .enter _ _ => n + 1
  | .leave _ => n - 1
  | .text _ | .newLine => n

/-- The indentation behind the pieces. -/
def indentAfter (n : Nat) (ps : List Piece) : Nat := ps.foldl Piece.indent n

/-- What is written behind the end of a line starts from the margin. -/
theorem strings_newLine (n : Nat) (midLine : Bool) (ps qs : List Piece) :
    strings n midLine (ps ++ .newLine :: qs) =
      strings n midLine ps ++ "\n" :: strings (indentAfter n ps) false qs := by
  induction ps generalizing n midLine with
  | nil => rfl
  | cons p ps ih => cases p <;> simp [strings, indentAfter, Piece.indent, ih]

/-! ## What is open -/

/-- Something that has been begun: an environment, or a cell that spans the
    columns of a table. -/
inductive Opened where
  | environment (name : String)
  | cell
  deriving DecidableEq

/-- The beginning of the cell of a sub-proof. -/
def cellStart : String := "\\multicolumn\x7b3\x7d\x7bl\x7d\x7b\\quad"

/-- The end of the cell of a sub-proof. -/
def cellEnd : String := "\x7d \\\\"

/-- What is open behind a piece, innermost first; `none` if the piece ends
    something else than what was begun last. -/
def Piece.nest (opened : List Opened) : Piece → Option (List Opened)
  | .enter e _ => some (.environment e :: opened)
  | .leave e => if opened.head? = some (.environment e) then some opened.tail else none
  | .text s =>
    if s = cellStart then some (.cell :: opened)
    else if s = cellEnd then if opened.head? = some .cell then some opened.tail else none
    else some opened
  | .newLine => some opened

/-- What is open behind the pieces. -/
def nestAll (opened : List Opened) : List Piece → Option (List Opened)
  | [] => some opened
  | p :: ps => (p.nest opened).bind fun opened => nestAll opened ps

/-- How many environments are open. -/
def environments : List Opened → Nat
  | [] => 0
  | .environment _ :: opened => environments opened + 1
  | .cell :: opened => environments opened

/-- What is open around a line in `depth` sub-proofs. -/
def around : (depth : Nat) → List Opened
  | 0 => [.environment "tabular", .environment "proof"]
  | depth + 1 => .environment "tabular" :: .cell :: around depth

section
variable {o o₁ o₂ : List Opened} {p : Piece} {ps qs : List Piece} {l : Line} {ls : List Line}

theorem nestAll_append :
    nestAll o (ps ++ qs) = (nestAll o ps).bind fun o₁ => nestAll o₁ qs := by
  induction ps generalizing o with
  | nil => rfl
  | cons p ps ih =>
    rw [List.cons_append, nestAll, nestAll, Option.bind_assoc]
    exact congrArg _ (funext fun _ => ih)

theorem nestAll_append_of_eq (h : nestAll o ps = some o₁) :
    nestAll o (ps ++ qs) = nestAll o₁ qs := by
  rw [nestAll_append, h, Option.bind_some]

theorem environments_around (depth : Nat) : environments (around depth) = depth + 2 := by
  induction depth with
  | zero => rfl
  | succ depth ih => rw [around, environments, environments, ih]

theorem environments_of_leave {e : String} (h : o.head? = some (.environment e)) :
    environments o = environments o.tail + 1 := by
  obtain ⟨o₁, rfl⟩ := List.head?_eq_some_iff.1 h
  rfl

theorem indent_of_nest (h : p.nest o = some o₁) : p.indent (environments o) = environments o₁ := by
  cases p with
  | enter e columns =>
    obtain rfl := Option.some.inj h
    rfl
  | leave e =>
    rw [Piece.nest] at h
    split at h
    · rename_i hhead
      obtain rfl := Option.some.inj h
      rw [environments_of_leave hhead]
      rfl
    · cases h
  | text s =>
    rw [Piece.nest] at h
    split at h
    · obtain rfl := Option.some.inj h
      rfl
    split at h
    · split at h
      · rename_i hhead
        obtain rfl := Option.some.inj h
        obtain ⟨o₁, rfl⟩ := List.head?_eq_some_iff.1 hhead
        rfl
      · cases h
    · obtain rfl := Option.some.inj h
      rfl
  | newLine =>
    obtain rfl := Option.some.inj h
    rfl

/-- **The indentation counts the environments that are open**, as long as each end
    matches its beginning. -/
theorem indentAfter_of_nestAll (h : nestAll o ps = some o₁) :
    indentAfter (environments o) ps = environments o₁ := by
  induction ps generalizing o with
  | nil =>
    obtain rfl := Option.some.inj h
    rfl
  | cons p ps ih =>
    obtain ⟨o₂, hp, hps⟩ := Option.bind_eq_some_iff.1 h
    rw [indentAfter, List.foldl_cons, indent_of_nest hp]
    exact ih hps

/-- So the indentation is not at the margin where an environment ends. -/
theorem indentAfter_pos_of_nestAll {e : String} (h : nestAll o (ps ++ .leave e :: qs) = some o₁) :
    0 < indentAfter (environments o) ps := by
  rw [nestAll_append, Option.bind_eq_some_iff] at h
  obtain ⟨o₂, hps, h⟩ := h
  obtain ⟨o₃, hleave, -⟩ := Option.bind_eq_some_iff.1 h
  rw [Piece.nest] at hleave
  split at hleave
  · rename_i hhead
    rw [indentAfter_of_nestAll hps, environments_of_leave hhead]
    exact Nat.succ_pos _
  · cases hleave

/-! ## The pieces of a line -/

/-- A row begins with a number, so it is not the boundary of a cell. -/
theorem nest_row (l : Line) (o : List Opened) : (Piece.text (row l)).nest o = some o := by
  obtain ⟨c, cs, htext, hdigit⟩ := Source.exists_text_eq_cons l.number
  have hhead : (row l).toList.head? = some c := by simp [row, htext]
  have hne : ∀ s : String, Text.EndsRun Char.isDigit s.toList → row l ≠ s := by
    rintro _ hs rfl
    rw [hs c hhead] at hdigit
    cases hdigit
  rw [Piece.nest, if_neg (hne _ (by decide)), if_neg (hne _ (by decide))]

theorem nestAll_linePieces (h : nestAll o (boundaryPieces l.boundary) = some o₁) :
    nestAll o (linePieces l) = some o₁ := by
  rw [linePieces, nestAll_append_of_eq h, nestAll, nest_row]
  rfl

end

end Layout.Latex

/-! ## The lines of a run -/

namespace Checker.State

open Layout.Latex

variable {Γ : Setting} {s s' : State} {l : Line} {ls : List Line} {step : Step}
  (hassumption : Γ.catalog.get? RuleName.assumption = none)
  (hdirectProof : Γ.catalog.get? RuleName.directProof = none)
include hassumption hdirectProof

/-- **One line.**  An accepted line begins or ends a table where its number says
    so. -/
theorem nestAll_of_accepts (h : Accepts Γ s l s' step) :
    nestAll (around s.cursor.enclosing.length) (boundaryPieces l.boundary) =
      some (around l.number.enclosing.length) := by
  cases h with
  | opening _ hnumber _ hrule =>
    obtain ⟨-, hn⟩ := LineNumber.open?_eq_some.1 hnumber
    rw [Line.boundary_of_assumption hrule, hn]
    rfl
  | inside _ hnumber _ hjustify =>
    obtain ⟨-, hn⟩ := LineNumber.next?_eq_some.1 hnumber
    have hopens := ruleKey_ne_of_justify hjustify (by decide) hassumption
    have hcloses := ruleKey_ne_of_justify hjustify (by decide) hdirectProof
    rw [Line.boundary_of_ne ⟨hopens, hcloses⟩, hn]
    rfl
  | closing _ hnumber _ hrule =>
    rw [Line.boundary_of_directProof hrule, hnumber]
    rfl

/-- **Many lines.**  Behind the lines of a run just that is open what stands around
    the last of them. -/
theorem nestAll_of_run (h : Run Γ s ls s') :
    nestAll (around s.cursor.enclosing.length) (ls.flatMap linePieces) =
      some (around s'.cursor.enclosing.length) := by
  induction h with
  | nil => rfl
  | cons hstep _ ih =>
    have hline := nestAll_linePieces (nestAll_of_accepts hassumption hdirectProof hstep)
    rw [List.flatMap_cons, nestAll_append_of_eq hline, ← hstep.number_eq, ← hstep.cursor_eq]
    exact ih

end Checker.State

/-! ## The pieces of a block -/

namespace Block

open Layout.Latex

variable {b : Block} {e : List Nat} {slot : Nat}

/-- The pieces of a block, with the numbers of its listing.  A sub-proof is a table
    in a cell; the cell ends behind the table and before the closing line. -/
def pieces : (e : List Nat) → (slot : Nat) → Block → List Piece
  | _, _, nil => []
  | e, slot, line a rest =>
    .text (row (a.at ⟨slot, e⟩)) :: .newLine :: rest.pieces e (slot + 1)
  | e, slot, subproof assumption body closing rest =>
    [.text cellStart, .enter "tabular" (some "rll"), .newLine,
      .text (row (assumption.at ⟨1, slot :: e⟩)), .newLine] ++
    body.pieces (slot :: e) 2 ++
    [.leave "tabular", .text cellEnd, .newLine, .text (row (closing.at ⟨slot, e⟩)), .newLine] ++
    rest.pieces e (slot + 1)

/-- **The lines of a block are laid out sub-proof by sub-proof.** -/
theorem flatMap_linePieces (hb : b.Marked) :
    (b.listing e slot).flatMap linePieces = b.pieces e slot := by
  induction b generalizing e slot with
  | nil => rfl
  | line a rest ih =>
    obtain ⟨hkey, hrest⟩ := hb
    have hinside : (a.at ⟨slot, e⟩).boundary = .inside := Line.boundary_of_ne hkey
    rw [listing, List.flatMap_cons, ih hrest, linePieces, hinside]
    rfl
  | subproof assumption body closing rest ih₁ ih₂ =>
    obtain ⟨hopens, hbody, hcloses, hrest⟩ := hb
    have hopens : (assumption.at ⟨1, slot :: e⟩).boundary = .opens :=
      Line.boundary_of_assumption hopens
    have hcloses : (closing.at ⟨slot, e⟩).boundary = .closes :=
      Line.boundary_of_directProof hcloses
    rw [listing, List.flatMap_cons, List.flatMap_append, List.flatMap_cons, ih₁ hbody, ih₂ hrest,
      linePieces, linePieces, hopens, hcloses, pieces]
    simp [boundaryPieces, cellStart, cellEnd]

end Block

/-! ## Accepted proofs -/

namespace Layout.Latex

open Checker (State)

/-- The pieces before the first line of a proof. -/
def tableStart : List Piece :=
  [.enter "proof" none, .text "\\hfill\\par", .newLine, .enter "tabular" (some "rll"), .newLine]

/-- The pieces behind the last line of a proof. -/
def tableEnd : List Piece :=
  [.leave "tabular", .text "\\par", .newLine, .leave "proof", .newLine]

/-- Behind the start of the outermost table, what stands around a line that is in no
    sub-proof is open. -/
theorem nestAll_tableStart :
    nestAll [] tableStart = some (around State.initial.cursor.enclosing.length) := rfl

theorem proofPieces_eq (ls : List Line) :
    proofPieces ls = tableStart ++ ls.flatMap linePieces ++ tableEnd := rfl

/-- The pieces before the row of the line `l`, which follows the lines `before`. -/
def above (before : List Line) (l : Line) : List Piece :=
  tableStart ++ before.flatMap linePieces ++ boundaryPieces l.boundary

theorem proofPieces_append (before : List Line) (l : Line) (after : List Line) :
    proofPieces (before ++ l :: after) =
      above before l ++ .text (row l) :: .newLine :: (after.flatMap linePieces ++ tableEnd) := by
  simp [proofPieces_eq, above, linePieces]

theorem exists_above_eq (before : List Line) (l : Line) :
    ∃ ps, above before l = ps ++ [.newLine] := by
  rw [← List.getLast?_eq_some_iff, above]
  cases l.boundary with
  | opens => simp [boundaryPieces]
  | closes => simp [boundaryPieces]
  | inside =>
    rcases List.eq_nil_or_concat before with rfl | ⟨before, l', rfl⟩
    · rfl
    · simp [boundaryPieces, linePieces]

/-- A row stands on a line of its own, as far from the margin as the pieces before it
    leave it. -/
theorem write_row (before : List Line) (l : Line) (after : List Line) :
    ∃ text below, write (above before l) = text ++ "\n" ∧
      write (proofPieces (before ++ l :: after)) =
        text ++ "\n" ++ lead (indentAfter 0 (above before l)) false ++ row l ++ "\n" ++ below := by
  obtain ⟨ps, hps⟩ := exists_above_eq before l
  have hindent : indentAfter 0 (above before l) = indentAfter 0 ps := by
    rw [hps, indentAfter, List.foldl_append]; rfl
  refine ⟨String.join (strings 0 false ps), String.join (strings (indentAfter 0 ps) false
    (after.flatMap linePieces ++ tableEnd)), ?_, ?_⟩
  · rw [write, hps, strings_newLine, String.join_append]; rfl
  · rw [hindent, write, proofPieces_append, hps, List.append_assoc, List.singleton_append,
      strings_newLine, strings, strings, String.join_append]
    simp only [String.join_cons, String.append_assoc]

section
variable {Γ : Setting} {s : State} {before : List Line} {l : Line} {after ls : List Line}
  (hassumption : Γ.catalog.get? RuleName.assumption = none)
  (hdirectProof : Γ.catalog.get? RuleName.directProof = none)
include hassumption hdirectProof

/-- Before the row of an accepted line just that is open which stands around it. -/
theorem nestAll_above (h : State.Run Γ .initial (before ++ l :: after) s) :
    nestAll [] (above before l) = some (around l.number.enclosing.length) := by
  obtain ⟨s₁, hbefore, _ | ⟨hstep, -⟩⟩ := State.Run.append_iff.1 h
  have hlines := State.nestAll_of_run hassumption hdirectProof hbefore
  rw [above, List.append_assoc, nestAll_append_of_eq nestAll_tableStart,
    nestAll_append_of_eq hlines]
  exact State.nestAll_of_accepts hassumption hdirectProof hstep

/-- Behind the last line of an accepted proof just the outermost table is open. -/
theorem nestAll_proofPieces (h : State.Run Γ .initial ls s) (hend : s.assumptions = []) :
    nestAll [] (proofPieces ls) = some [] := by
  have hlines := State.nestAll_of_run hassumption hdirectProof h
  rw [h.wf.enclosing_eq_nil hend] at hlines
  rw [proofPieces_eq, List.append_assoc, nestAll_append_of_eq nestAll_tableStart,
    nestAll_append_of_eq hlines]
  rfl

end

/-- **The tables of an accepted proof are well nested.**  Each end matches the last
    beginning that is open, and at the end nothing is open.  The layout is that of a
    block: the cell of a sub-proof ends behind its table and before the line that closes
    the sub-proof.  The indentation is never cut off at the margin and returns to it.
    A line whose number has `k` components stands in the tables that its number tells,
    and its row is written `4 * (k + 1)` columns from the margin. -/
theorem proofPieces_nested {p : Proof} {r : Checked} (hmode : p.mode = .ordinary)
    (h : p.check .standard = .ok r) :
    nestAll [] (proofPieces p.lines) = some [] ∧
      (∃ b : Block, b.Marked ∧ p.lines = b.listing [] 1 ∧
        proofPieces p.lines = tableStart ++ b.pieces [] 1 ++ tableEnd) ∧
      (∀ ps e qs, proofPieces p.lines = ps ++ .leave e :: qs → 0 < indentAfter 0 ps) ∧
      indentAfter 0 (proofPieces p.lines) = 0 ∧
      ∀ before l after, p.lines = before ++ l :: after →
        nestAll [] (above before l) = some (around (l.number.levels - 1)) ∧
        ∃ text below, write (above before l) = text ++ "\n" ∧
          body p = text ++ "\n" ++
            String.ofList (List.replicate (4 * (l.number.levels + 1)) ' ') ++ row l ++ "\n" ++
            below := by
  have hassumption : Catalog.standard.get? RuleName.assumption = none := by decide +kernel
  have hdirectProof : Catalog.standard.get? RuleName.directProof = none := by decide +kernel
  obtain ⟨s, hrun, -, -, hend⟩ := Proof.check_ok_iff.1 h
  have hall : nestAll [] (proofPieces p.lines) = some [] :=
    nestAll_proofPieces hassumption hdirectProof hrun hend
  refine ⟨hall, ?_, ?_, indentAfter_of_nestAll hall, ?_⟩
  · obtain ⟨b, hb, hls⟩ := p.exists_marked_block hassumption hdirectProof h
    refine ⟨b, hb, hls, ?_⟩
    rw [hls, proofPieces_eq, Block.flatMap_linePieces hb]
  · intro ps e qs hsplit
    rw [hsplit] at hall
    exact indentAfter_pos_of_nestAll hall
  · intro before l after hsplit
    rw [hsplit] at hrun
    have habove := nestAll_above hassumption hdirectProof hrun
    have hindent : indentAfter 0 (above before l) = l.number.levels + 1 :=
      (indentAfter_of_nestAll habove).trans (environments_around _)
    obtain ⟨text, below, htext, hwrite⟩ := write_row before l after
    refine ⟨habove, text, below, htext, ?_⟩
    rw [body, hmode, hsplit]
    rw [hindent] at hwrite
    exact hwrite

/-- Two nested sub-proofs: the line `1.2.4` stands in three tables, and its row is
    sixteen columns from the margin. -/
theorem proofPieces_nested_exportation :
    (∃ r, Proof.exportation.check .standard = .ok r) ∧
      nestAll [] (proofPieces Proof.exportation.lines) = some [] ∧
      ∃ l ∈ Proof.exportation.lines, l.number = ⟨4, [2, 1]⟩ ∧
        ∃ text below, body Proof.exportation =
          text ++ "\n" ++ "                " ++ row l ++ "\n" ++ below := by
  obtain ⟨r, hr⟩ := Proof.check_exportation
  obtain ⟨hall, -, -, -, hrows⟩ := proofPieces_nested rfl hr
  obtain ⟨-, text, below, -, hbody⟩ := hrows (Proof.exportation.lines.take 4) _ _ rfl
  exact ⟨⟨r, hr⟩, hall, _, List.mem_of_getElem? (i := 4) rfl, rfl, text, below, hbody⟩

end Layout.Latex

end Deduction
