/-
  The math-mode form of a formula is unambiguous.

  It has the parentheses of the plain form, so it is made of the same tokens
  (`sets_latex`).  Each token has one math-mode form, blanks included, and no such
  form begins another one, so the text tells the tokens (`Typeset.unique`), and the
  tokens tell the formula (`tokens_injective`).

  The reader knows these forms, those of the literals excepted, and skips the
  blanks (`Typeset.exists_lexed`).  So just the formulas without literals are read
  back from their math-mode form.
-/
import Deduction.Proofs.Source.Printing

namespace Deduction

open Source Text Text.Scanner

/-! ## Tokens in math mode -/

namespace Source

/-- The math-mode form of a token. -/
def Token.typeset : Token → String
  | not => Spelling.latex.negation
  | connective c => Spelling.latex.connective c
  | opening => "("
  | closing => ")"
  | name x => (leaf x).latex

/-- The tokens that are not set as they are. -/
def commands : List Token := signs ++ [.name "T", .name "F"]

/-- The text `cs` is made of the math-mode forms of the tokens.  A name goes as far
    as the identifier characters do. -/
inductive Typeset : List Token → (cs : List Char) → Prop
  | nil : Typeset [] []
  | command {t : Token} {ts : List Token} {cs : List Char} (ht : t ∈ commands)
      (hrest : Typeset ts cs) : Typeset (t :: ts) (t.typeset.toList ++ cs)
  | name {x : String} {ts : List Token} {cs : List Char} (hx : IsIdentifier x) (hverum : x ≠ "T")
      (hfalsum : x ≠ "F") (hrun : EndsRun isIdentifierChar cs) (hrest : Typeset ts cs) :
      Typeset (.name x :: ts) (x.toList ++ cs)

section
variable {t u : Token} {ts us : List Token} {x : String} {cs cs' rest : List Char}

theorem commands_prefixFree : ∀ t ∈ commands, ∀ u ∈ commands,
    t.typeset.toList <+: u.typeset.toList → t = u := by decide +kernel

theorem commands_start : ∀ t ∈ commands,
    t.typeset.toList ≠ [] ∧ EndsRun isIdentifierChar t.typeset.toList := by decide +kernel

theorem eq_of_command_append (ht : t ∈ commands) (hu : u ∈ commands)
    (h : t.typeset.toList ++ cs = u.typeset.toList ++ cs') : t = u ∧ cs = cs' := by
  have htu : t = u := by
    rcases List.prefix_or_prefix_of_prefix ⟨cs, h⟩ (List.prefix_append _ cs') with hle | hle
    · exact commands_prefixFree t ht u hu hle
    · exact (commands_prefixFree u hu t ht hle).symm
  subst htu
  exact ⟨rfl, List.append_cancel_left h⟩

theorem endsRun_command (ht : t ∈ commands) (cs : List Char) :
    EndsRun isIdentifierChar (t.typeset.toList ++ cs) := by
  obtain ⟨hne, hstart⟩ := commands_start t ht
  intro c hc
  rw [List.head?_append_of_ne_nil _ hne] at hc
  exact hstart c hc

theorem IsIdentifier.not_endsRun (hx : IsIdentifier x) (cs : List Char) :
    ¬ EndsRun isIdentifierChar (x.toList ++ cs) := by
  obtain ⟨c, name, hname⟩ := List.exists_cons_of_ne_nil hx.ne_nil
  have hc : isIdentifierChar c = true := hx.all c (by rw [hname]; exact List.mem_cons_self)
  rw [hname, List.cons_append, endsRun_cons, hc]
  exact nofun

theorem eq_of_name_append {y : String} (hx : IsIdentifier x) (hy : IsIdentifier y)
    (hcs : EndsRun isIdentifierChar cs) (hcs' : EndsRun isIdentifierChar cs')
    (h : x.toList ++ cs = y.toList ++ cs') : x = y ∧ cs = cs' := by
  have hname := congrArg (List.takeWhile isIdentifierChar) h
  rw [takeWhile_append hx.all hcs, takeWhile_append hy.all hcs'] at hname
  obtain rfl := String.toList_inj.1 hname
  exact ⟨rfl, List.append_cancel_left h⟩

namespace Typeset

theorem eq_of_eq (h : Typeset ts cs) (h' : Typeset us cs') (heq : cs = cs') : ts = us := by
  induction h generalizing us cs' with
  | nil =>
    cases h' with
    | nil => rfl
    | command ht _ =>
      exact absurd (List.append_eq_nil_iff.1 heq.symm).1 (commands_start _ ht).1
    | name hx => exact absurd (List.append_eq_nil_iff.1 heq.symm).1 hx.ne_nil
  | command ht _ ih =>
    cases h' with
    | nil => exact absurd (List.append_eq_nil_iff.1 heq).1 (commands_start _ ht).1
    | command hu hrest =>
      obtain ⟨rfl, hcs⟩ := eq_of_command_append ht hu heq
      rw [ih hrest hcs]
    | name hx => exact absurd (heq ▸ endsRun_command ht _) (hx.not_endsRun _)
  | name hx _ _ hrun _ ih =>
    cases h' with
    | nil => exact absurd (List.append_eq_nil_iff.1 heq).1 hx.ne_nil
    | command hu => exact absurd (heq ▸ endsRun_command hu _) (hx.not_endsRun _)
    | name hy _ _ hrun' hrest =>
      obtain ⟨rfl, hcs⟩ := eq_of_name_append hx hy hrun hrun' heq
      rw [ih hrest hcs]

/-- **A text is made of the math-mode forms of at most one sequence of tokens.** -/
theorem unique (h : Typeset ts cs) (h' : Typeset us cs) : ts = us := h.eq_of_eq h' rfl

end Typeset

end

/-- The text is made of the math-mode forms of the tokens, whatever follows it but
    the rest of a name. -/
def Sets (s : String) (ts : List Token) : Prop :=
  ∀ us rest, EndsRun isIdentifierChar rest → Typeset us rest → Typeset (ts ++ us) (s.toList ++ rest)

namespace Sets

variable {s s' : String} {t : Token} {ts us : List Token}

theorem command (ht : t ∈ commands) (h : Sets s ts) : Sets (t.typeset ++ s) (t :: ts) := by
  intro us rest hrun hrest
  rw [String.toList_append, List.append_assoc]
  exact .command ht (h us rest hrun hrest)

theorem append_command (h : Sets s ts) (ht : t ∈ commands) (h' : Sets s' us) :
    Sets (s ++ t.typeset ++ s') (ts ++ t :: us) := by
  intro vs rest hrun hrest
  have hmore := h'.command ht vs rest hrun hrest
  rw [String.toList_append, List.append_assoc] at hmore
  rw [String.append_assoc, String.toList_append, String.toList_append, List.append_assoc,
    List.append_assoc, List.append_assoc]
  exact h _ _ (endsRun_command ht _) hmore

theorem wrap (parens : Bool) (h : Sets s ts) :
    Sets (Formula.wrap parens s) (Token.wrap parens ts) := by
  cases parens with
  | false => exact h
  | true =>
    intro us rest _ hrest
    have hclosing : Typeset (.closing :: us) (")".toList ++ rest) :=
      .command (t := .closing) (by decide) hrest
    have hinside := h _ _ (endsRun_command (t := .closing) (by decide) rest) hclosing
    have hopening := Typeset.command (t := .opening) (by decide) hinside
    rw [Formula.wrap, if_pos rfl, Token.wrap, if_pos rfl, String.toList_append,
      String.toList_append, List.append_assoc, List.append_assoc, List.append_assoc]
    exact hopening

end Sets

end Source

namespace Formula

variable {φ ψ : Formula} {x : String}

/-- The math-mode form is made of the tokens of the plain form. -/
theorem sets_latex (h : φ.WellNamed) : Sets φ.latex φ.tokens := by
  induction φ with
  | verum => exact fun us rest _ hrest => .command (t := .name "T") (by decide) hrest
  | falsum => exact fun us rest _ hrest => .command (t := .name "F") (by decide) hrest
  | atom name => exact fun us rest hrun hrest => .name h.1 h.2.1 h.2.2 hrun hrest
  | metavar name => exact h.elim
  | not φ ih => exact .command (t := .not) (by decide) ((ih h).wrap _)
  | binary c φ ψ ihφ ihψ =>
    refine ((ihφ h.1).wrap _).append_command (t := .connective c) ?_ ((ihψ h.2).wrap _)
    cases c <;> decide

theorem typeset_latex (h : φ.WellNamed) : Typeset φ.tokens φ.latex.toList := by
  have hsets := sets_latex h [] [] (by simp [EndsRun]) .nil
  rwa [List.append_nil, List.append_nil] at hsets

/-- **The tokens tell the formula**, since what they derive can be read from them. -/
theorem tokens_injective (hφ : φ.WellNamed) (hψ : ψ.WellNamed) (h : φ.tokens = ψ.tokens) :
    φ = ψ := by
  have hlexed : Lexed φ.tokens φ.text.toList [] := by
    have hspells := spells_text hφ [] (by simp [EndsRun])
    rwa [List.append_nil] at hspells
  have hstops : Stops .formula [] := .of_blank .formula (List.forall_mem_nil _)
  have hread : ∀ χ : Formula, χ.WellNamed → χ.tokens = φ.tokens →
      χ.nesting ≤ max φ.nesting ψ.nesting →
      Level.formula.scanner (Source.atom (max φ.nesting ψ.nesting + 1)) φ.text.toList =
        .ok (χ, []) := by
    intro χ hχ htokens hnesting
    have hderives := ((derives_tokens hχ).lift (Level.rank_le _)).mono hnesting
    rw [htokens] at hderives
    exact scanner_of_derives hderives hlexed hstops
  have heq := (hread φ hφ rfl (le_max_left _ _)).symm.trans (hread ψ hψ h.symm (le_max_right _ _))
  exact (Prod.mk.inj (Except.ok.inj heq)).1

end Formula

/-! ## Reading the math-mode form -/

namespace Source

variable {ts : List Token} {cs rest blank : List Char}

theorem typeset_spelled : ∀ t ∈ signs, ∃ w ∈ t.spellings, ∃ before ∈ ["", " "], ∃ after ∈ ["", " "],
    t.typeset = before ++ (w ++ after) := by decide +kernel

theorem mem_signs_of_commands {t : Token} (h : t ∈ commands)
    (ht : ∀ x, t = .name x → x ≠ "T" ∧ x ≠ "F") : t ∈ signs := by
  rcases List.mem_append.1 h with h | h
  · exact h
  · rcases List.mem_cons.1 h with rfl | h
    · exact absurd rfl (ht "T" rfl).1
    · obtain rfl := List.mem_singleton.1 h
      exact absurd rfl (ht "F" rfl).2

/-- Blanks before a text are those before its first token; without a token, they
    are left over. -/
theorem Lexed.exists_append_blank (h : Lexed ts cs rest)
    (hrest : ∀ c ∈ rest, isSpaceOrTab c = true) (hblank : ∀ c ∈ blank, isSpaceOrTab c = true) :
    ∃ rest', Lexed ts (blank ++ cs) rest' ∧ ∀ c ∈ rest', isSpaceOrTab c = true := by
  cases h with
  | nil => exact ⟨blank ++ cs, .nil, List.forall_mem_append.2 ⟨hblank, hrest⟩⟩
  | cons hblank' hspelled hrun hmore =>
    refine ⟨rest, ?_, hrest⟩
    rw [← List.append_assoc]
    exact .cons (List.forall_mem_append.2 ⟨hblank, hblank'⟩) hspelled hrun hmore

/-- **The reader takes math-mode forms for their tokens**, where there are no
    literals. -/
theorem Typeset.exists_lexed (h : Typeset ts cs) (hts : ∀ x, .name x ∈ ts → x ≠ "T" ∧ x ≠ "F") :
    ∃ rest, Lexed ts cs rest ∧ ∀ c ∈ rest, isSpaceOrTab c = true := by
  have hspaces : ∀ s ∈ ["", " "], ∀ c ∈ s.toList, isSpaceOrTab c = true := by simp [isSpaceOrTab]
  induction h with
  | nil => exact ⟨[], .nil, List.forall_mem_nil _⟩
  | @command t ts cs ht _ ih =>
    have hsign : t ∈ signs :=
      mem_signs_of_commands ht fun x hx => hts x (hx ▸ List.mem_cons_self)
    obtain ⟨w, hw, before, hbefore, after, hafter, htypeset⟩ := typeset_spelled t hsign
    obtain ⟨rest, hlexed, hrest⟩ := ih fun x hx => hts x (List.mem_cons_of_mem _ hx)
    obtain ⟨rest', hlexed', hrest'⟩ := hlexed.exists_append_blank hrest (hspaces after hafter)
    rw [htypeset, String.toList_append, String.toList_append, List.append_assoc, List.append_assoc]
    exact (hlexed'.sign hw).exists_append_blank hrest' (hspaces before hbefore)
  | name hx _ _ hrun _ ih =>
    obtain ⟨rest, hlexed, hrest⟩ := ih fun x hx => hts x (List.mem_cons_of_mem _ hx)
    refine ⟨rest, ?_, hrest⟩
    exact @Lexed.cons _ _ [] _ _ _ (List.forall_mem_nil _) (.name hx) (fun _ _ => hrun) hlexed

/-- The reader knows no brace. -/
theorem Lexed.brace_notMem (h : Lexed ts cs rest) (hrest : '\x7b' ∉ rest) : '\x7b' ∉ cs := by
  induction h with
  | nil => exact hrest
  | cons hblank hspelled _ _ ih =>
    rw [List.mem_append, List.mem_append, not_or, not_or]
    refine ⟨fun hmem => ?_, fun hmem => ?_, ih hrest⟩
    · cases hblank _ hmem
    · cases hspelled with
      | sign hw =>
        have hsigns : ∀ t ∈ signs, ∀ w ∈ t.spellings, '\x7b' ∉ w.toList := by decide +kernel
        exact hsigns _ (mem_signs hw) _ hw hmem
      | name hx => cases hx.all _ hmem

end Source

namespace Formula

variable {φ : Formula} {x : String}

/-- Neither of the literals occurs. -/
def LiteralFree : Formula → Prop
  | verum | falsum => False
  | atom _ | metavar _ => True
  | not φ => φ.LiteralFree
  | binary _ φ ψ => φ.LiteralFree ∧ ψ.LiteralFree

theorem mem_wrap_tokens {parens : Bool} {ts : List Token} :
    .name x ∈ Token.wrap parens ts ↔ .name x ∈ ts := by
  cases parens <;> simp [Token.wrap]

theorem LiteralFree.name_ne (h : φ.WellNamed) (hφ : φ.LiteralFree) (hx : .name x ∈ φ.tokens) :
    x ≠ "T" ∧ x ≠ "F" := by
  induction φ with
  | verum | falsum => exact hφ.elim
  | atom name =>
    obtain rfl := Token.name.inj (List.mem_singleton.1 hx)
    exact h.2
  | metavar name => exact h.elim
  | not φ ih =>
    exact ih h hφ (mem_wrap_tokens.1 ((List.mem_cons.1 hx).resolve_left nofun))
  | binary c φ ψ ihφ ihψ =>
    rcases List.mem_append.1 hx with hx | hx
    · exact ihφ h.1 hφ.1 (mem_wrap_tokens.1 hx)
    · exact ihψ h.2 hφ.2 (mem_wrap_tokens.1 ((List.mem_cons.1 hx).resolve_left nofun))

theorem mem_wrap {parens : Bool} {s : String} {c : Char} (h : c ∈ s.toList) :
    c ∈ (wrap parens s).toList := by
  cases parens <;> simp [wrap, h]

/-- The math-mode form of a literal has braces. -/
theorem brace_mem_latex (h : ¬ φ.LiteralFree) : '\x7b' ∈ φ.latex.toList := by
  induction φ with
  | verum | falsum => decide
  | atom name | metavar name => exact absurd trivial h
  | not φ ih =>
    rw [latex, write, String.toList_append]
    exact List.mem_append_right _ (mem_wrap (ih h))
  | binary c φ ψ ihφ ihψ =>
    rw [latex, write, String.toList_append, String.toList_append]
    rcases not_and_or.1 h with h | h
    · exact List.mem_append_left _ (List.mem_append_left _ (mem_wrap (ihφ h)))
    · exact List.mem_append_right _ (mem_wrap (ihψ h))

theorem parse_latex (h : φ.WellNamed) (hφ : φ.LiteralFree) (hnesting : φ.nesting ≤ 128) :
    Formula.parse φ.latex = .ok φ := by
  obtain ⟨rest, hlexed, hrest⟩ := (typeset_latex h).exists_lexed fun x hx => hφ.name_ne h hx
  have hformula := Readable.formula_of_lexed ⟨h, hnesting⟩ hlexed (.of_blank .formula hrest)
  rw [Formula.parse_eq_ok, toEnd_eq_ok]
  exact ⟨rfl, rest, hformula, hrest⟩

theorem of_parse_latex {ψ : Formula} (h : Formula.parse φ.latex = .ok ψ) :
    φ.LiteralFree ∧ ψ.nesting ≤ 128 := by
  rw [Formula.parse_eq_ok, toEnd_eq_ok] at h
  obtain ⟨-, rest, hformula, hrest⟩ := h
  refine ⟨?_, (readable_of_formula hformula).nesting_le⟩
  by_contra hliteral
  rw [formula_eq_scanner] at hformula
  obtain ⟨ts, hlexed, -⟩ := derives_of_scanner hformula
  refine hlexed.brace_notMem (fun hmem => ?_) (brace_mem_latex hliteral)
  cases hrest _ hmem

/-- **The math-mode form of a formula is unambiguous**: different formulas have
    different forms, and the form is read back as the formula iff it has no literals
    and not more than 128 negations and parentheses around an atom. -/
theorem latex_unambiguous :
    (∀ φ ψ : Formula, φ.WellNamed → ψ.WellNamed → φ.latex = ψ.latex → φ = ψ) ∧
      ∀ φ : Formula, φ.WellNamed →
        (Formula.parse φ.latex = .ok φ ↔ φ.LiteralFree ∧ φ.nesting ≤ 128) := by
  constructor
  · intro φ ψ hφ hψ h
    have htypeset := typeset_latex hφ
    rw [h] at htypeset
    exact tokens_injective hφ hψ (htypeset.unique (typeset_latex hψ))
  · intro φ hφ
    exact ⟨of_parse_latex, fun hread => parse_latex hφ hread.1 hread.2⟩

/-- Two formulas that differ in their parentheses only.  The first one is read back
    from its math-mode form, and its conjunction with `T` is not. -/
theorem latex_unambiguous_regrouped :
    let p := Formula.atom "p"
    let q := Formula.atom "q"
    let φ := Formula.and (.not (.and p q)) (.and p q)
    let ψ := Formula.and (.and (.not (.and p q)) p) q
    φ.WellNamed ∧ ψ.WellNamed ∧ φ.latex = "\\neg (p \\land q) \\land (p \\land q)" ∧
      φ.latex ≠ ψ.latex ∧ Formula.parse φ.latex = .ok φ ∧
      Formula.parse (Formula.and φ .verum).latex ≠ .ok (.and φ .verum) := by
  intro p q φ ψ
  have hp : p.WellNamed := ⟨isIdentifier_iff.2 (by decide), by decide, by decide⟩
  have hq : q.WellNamed := ⟨isIdentifier_iff.2 (by decide), by decide, by decide⟩
  have hφ : φ.WellNamed := ⟨⟨hp, hq⟩, hp, hq⟩
  have hψ : ψ.WellNamed := ⟨⟨⟨hp, hq⟩, hp⟩, hq⟩
  have hfree : φ.LiteralFree := ⟨⟨trivial, trivial⟩, trivial, trivial⟩
  obtain ⟨hinjective, hread⟩ := latex_unambiguous
  refine ⟨hφ, hψ, rfl, fun h => ?_, (hread φ hφ).2 ⟨hfree, by decide⟩, fun h => ?_⟩
  · have heq := hinjective φ ψ hφ hψ h
    simp [φ, ψ, Formula.and] at heq
  · exact ((hread (.and φ .verum) ⟨hφ, trivial⟩).1 h).1.2

end Formula

end Deduction
