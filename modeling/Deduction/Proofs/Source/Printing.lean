/-
  The plain form of a formula is read back.

  A formula is printed with the parentheses that the levels of the grammar ask
  for (`needsParens_eq`), so the tokens of its plain form derive it
  (`derives_tokens`).  They also nest no deeper than any text from which the
  formula was read (`Derives.nestingAt_le`): what could be read once stays
  within the limit, and what lies beyond the limit cannot be read.
-/
import Deduction.Proofs.Source.Formula

namespace Deduction

open Source Text Text.Scanner

/-! ## Levels and parentheses -/

namespace Source

/-- The place of a level, where the tightest one comes first. -/
def Level.rank : Level → Nat
  | atom => 0
  | conjunction => 1
  | exclusive => 2
  | disjunction => 3
  | formula => 4

theorem Level.rank_le (level : Level) : level.rank ≤ Level.formula.rank := by
  cases level <;> decide

/-- The level on which a connective stands. -/
def connectiveLevel : Connective → Level
  | .and => .conjunction
  | .xor => .exclusive
  | .or => .disjunction
  | .implies | .iff => .formula

/-- The loosest level of the operands of a connective. -/
def operandLevel : Connective → Formula.Side → Level
  | .and, .left => .conjunction
  | .and, .right => .atom
  | .xor, .left => .exclusive
  | .xor, .right => .conjunction
  | .or, .left => .disjunction
  | .or, .right => .exclusive
  | .implies, _ | .iff, _ => .disjunction

/-- The tokens, in parentheses if `parens` holds. -/
def Token.wrap (parens : Bool) (ts : List Token) : List Token :=
  if parens then .opening :: ts ++ [.closing] else ts

end Source

namespace Formula

/-- The tightest level on which the plain form of a formula stands. -/
def level : Formula → Level
  | binary c _ _ => connectiveLevel c
  | _ => .atom

/-- Whether the plain form needs parentheses on the given level. -/
def exceeds (φ : Formula) (level : Level) : Bool := level.rank < φ.level.rank

/-- The tokens of the plain form. -/
def tokens : Formula → List Token
  | verum => [.name "T"]
  | falsum => [.name "F"]
  | atom name | metavar name => [.name name]
  | not φ => .not :: Token.wrap φ.isBinary φ.tokens
  | binary c φ ψ =>
    Token.wrap (φ.needsParens c .left) φ.tokens ++
      .connective c :: Token.wrap (ψ.needsParens c .right) ψ.tokens

/-- How many negations and parentheses lie around an atom of the plain form, at
    most. -/
def nesting : Formula → Nat
  | not φ => φ.nesting + φ.isBinary.toNat + 1
  | binary c φ ψ =>
    max (φ.nesting + (φ.needsParens c .left).toNat) (ψ.nesting + (ψ.needsParens c .right).toNat)
  | _ => 0

/-- The nesting of the plain form on a level. -/
def nestingAt (φ : Formula) (level : Level) : Nat := φ.nesting + (φ.exceeds level).toNat

/-- The atoms are identifiers other than the two literals. -/
def WellNamed : Formula → Prop
  | verum | falsum => True
  | atom name => IsIdentifier name ∧ name ≠ "T" ∧ name ≠ "F"
  | metavar _ => False
  | not φ => φ.WellNamed
  | binary _ φ ψ => φ.WellNamed ∧ ψ.WellNamed

/-- What can be read from some text. -/
structure Readable (φ : Formula) : Prop where
  named : φ.WellNamed
  nesting_le : φ.nesting ≤ 128

variable {φ ψ : Formula} {c : Connective} {room : Nat} {level : Level}

theorem isBinary_eq (φ : Formula) : φ.isBinary = φ.exceeds .atom := by
  cases φ with
  | binary c φ ψ => cases c <;> rfl
  | _ => rfl

/-- **Parentheses are printed where the grammar asks for them.** -/
theorem needsParens_eq (c : Connective) (side : Side) (φ : Formula) :
    φ.needsParens c side = φ.exceeds (operandLevel c side) := by
  cases φ with
  | binary d φ ψ => cases c <;> cases d <;> cases side <;> rfl
  | _ => cases c <;> cases side <;> rfl

theorem nesting_not (φ : Formula) : φ.not.nesting = φ.nestingAt .atom + 1 := by
  rw [nesting, isBinary_eq, nestingAt]

theorem nesting_binary (c : Connective) (φ ψ : Formula) : (binary c φ ψ).nesting =
    max (φ.nestingAt (operandLevel c .left)) (ψ.nestingAt (operandLevel c .right)) := by
  rw [nesting, needsParens_eq, needsParens_eq, nestingAt, nestingAt]

theorem nestingAt_of_rank_le (h : φ.level.rank ≤ level.rank) : φ.nestingAt level = φ.nesting := by
  simp [nestingAt, exceeds, Nat.not_lt.2 h]

theorem nestingAt_le (φ : Formula) (level : Level) : φ.nestingAt level ≤ φ.nesting + 1 := by
  have h := Bool.toNat_le (φ.exceeds level)
  rw [nestingAt]
  omega

theorem nestingAt_anti {level' : Level} (h : level.rank ≤ level'.rank) :
    φ.nestingAt level' ≤ φ.nestingAt level := by
  by_cases hle : φ.level.rank ≤ level.rank
  · rw [nestingAt_of_rank_le hle, nestingAt_of_rank_le (hle.trans h)]
  · have hexceeds : φ.exceeds level = true := by simpa [exceeds] using hle
    have hbound := φ.nestingAt_le level'
    rwa [nestingAt.eq_def φ level, hexceeds]

end Formula

namespace Source.Derives

variable {room : Nat} {level level' operand : Level} {c : Connective}
variable {φ ψ : Formula} {ts us : List Token}

/-! ## Printing nests no deeper than the source -/

theorem operandLevel_of_link (hlink : level.link? = some (c, operand)) :
    operandLevel c .left = level ∧ operandLevel c .right = operand ∧ connectiveLevel c = level ∧
      operand.rank ≤ level.rank := by
  cases level <;> cases hlink <;> decide

theorem nestingAt_foldl (hlink : level.link? = some (c, operand)) (hφ : φ.nestingAt level ≤ room)
    {more : List (List Token × Formula)} (hmore : ∀ m ∈ more, m.2.nestingAt operand ≤ room) :
    (more.foldl (fun ψ m => .binary c ψ m.2) φ).nestingAt level ≤ room := by
  obtain ⟨hleft, hright, hlevel, -⟩ := operandLevel_of_link hlink
  refine List.foldlRecOn (motive := fun ψ => Formula.nestingAt ψ level ≤ room) more _ hφ
    fun ψ hψ m hm => ?_
  rw [Formula.nestingAt_of_rank_le (by rw [Formula.level, hlevel]), Formula.nesting_binary,
    hleft, hright]
  exact max_le hψ (hmore m hm)

/-- **The plain form nests no deeper than any text that derives the formula.** -/
theorem nestingAt_le (h : Derives room level ts φ) : φ.nestingAt level ≤ room := by
  induction h with
  | verum | falsum | name => exact Nat.zero_le _
  | not _ ih =>
    rw [Formula.nestingAt_of_rank_le (Nat.zero_le _), Formula.nesting_not]
    omega
  | @parens room ts φ _ ih =>
    have hbound := φ.nestingAt_le .atom
    rw [Formula.nestingAt_of_rank_le φ.level.rank_le] at ih
    omega
  | chain hlink _ _ ih ihmore =>
    obtain ⟨-, -, -, hrank⟩ := operandLevel_of_link hlink
    exact nestingAt_foldl hlink ((Formula.nestingAt_anti hrank).trans ih) ihmore
  | plain _ ih => exact le_trans (Formula.nestingAt_anti (by decide)) ih
  | @arrow room c hc ts us φ ψ _ _ ihleft ihright =>
    rw [Formula.nestingAt_of_rank_le (Level.rank_le _), Formula.nesting_binary]
    rcases hc with rfl | rfl
    all_goals exact max_le ihleft ihright

/-! ## The plain form is derived -/

theorem mono {room' : Nat} (h : Derives room level ts φ) (hle : room ≤ room') :
    Derives room' level ts φ := by
  induction h generalizing room' with
  | verum => exact .verum
  | falsum => exact .falsum
  | name hverum hfalsum => exact .name hverum hfalsum
  | not _ ih =>
    obtain ⟨r, rfl⟩ := Nat.exists_eq_add_of_le' (Nat.le_of_add_left_le hle)
    exact .not (ih (Nat.le_of_add_le_add_right hle))
  | parens _ ih =>
    obtain ⟨r, rfl⟩ := Nat.exists_eq_add_of_le' (Nat.le_of_add_left_le hle)
    exact .parens (ih (Nat.le_of_add_le_add_right hle))
  | chain hlink _ _ ih ihmore => exact .chain hlink (ih hle) fun m hm => ihmore m hm hle
  | plain _ ih => exact .plain (ih hle)
  | arrow hc _ _ ihleft ihright => exact .arrow hc (ihleft hle) (ihright hle)

theorem of_link (hlink : level.link? = some (c, operand)) (h : Derives room operand ts φ) :
    Derives room level ts φ := by
  have hchain := Derives.chain hlink h (List.forall_mem_nil _)
  rwa [List.flatMap_nil, List.append_nil] at hchain

/-- A phrase stands on the next looser level. -/
theorem loosen (h : Derives room level ts φ) (hrank : level'.rank = level.rank + 1) :
    Derives room level' ts φ := by
  cases level' with
  | atom => cases hrank
  | formula => cases level <;> cases hrank; exact .plain h
  | _ => cases level <;> cases hrank; exact of_link rfl h

theorem lift (h : Derives room level ts φ) (hrank : level.rank ≤ level'.rank) :
    Derives room level' ts φ := by
  obtain ⟨n, hn⟩ := Nat.exists_eq_add_of_le hrank
  induction n generalizing level' with
  | zero => cases level <;> cases level' <;> cases hn <;> exact h
  | succ n ih =>
    obtain ⟨level'', hrank'⟩ : ∃ level'' : Level, level'.rank = level''.rank + 1 := by
      cases level' with
      | atom => cases hn
      | conjunction => exact ⟨.atom, rfl⟩
      | exclusive => exact ⟨.conjunction, rfl⟩
      | disjunction => exact ⟨.exclusive, rfl⟩
      | formula => exact ⟨.disjunction, rfl⟩
    exact (ih (by omega) (by omega)).loosen hrank'

theorem snoc (hlink : level.link? = some (c, operand)) (h : Derives room level ts φ)
    (h' : Derives room operand us ψ) :
    Derives room level (ts ++ .connective c :: us) (.binary c φ ψ) := by
  cases h with
  | @chain _ _ _ _ hlink' ts φ h more hmore =>
    rw [hlink'] at hlink
    obtain ⟨rfl, rfl⟩ := Prod.mk.inj (Option.some.inj hlink)
    have hchain := Derives.chain hlink' h
      (List.forall_mem_append.2 ⟨hmore, List.forall_mem_singleton.2 (show Derives _ _ (us, ψ).1 (us, ψ).2 from h')⟩)
    simpa using hchain
  | _ => cases hlink

/-- A connective between two operands on the levels where they need no
    parentheses. -/
theorem binary (h : Derives room (operandLevel c .left) ts φ)
    (h' : Derives room (operandLevel c .right) us ψ) :
    Derives room (connectiveLevel c) (ts ++ .connective c :: us) (.binary c φ ψ) := by
  cases c with
  | implies => exact .arrow (.inl rfl) h h'
  | iff => exact .arrow (.inr rfl) h h'
  | _ => exact snoc rfl h h'

theorem wrap (h : Derives room φ.level ts φ) (level : Level) :
    Derives (room + (φ.exceeds level).toNat) level (Token.wrap (φ.exceeds level) ts) φ := by
  cases hexceeds : φ.exceeds level with
  | false => exact h.lift (by simpa [Formula.exceeds] using hexceeds)
  | true => exact (Derives.parens (h.lift φ.level.rank_le)).lift (Nat.zero_le _)

end Source.Derives

namespace Formula

variable {φ : Formula} {ts : List Token} {level : Level} {room : Nat}

/-- **The tokens of the plain form derive the formula.** -/
theorem derives_tokens (h : φ.WellNamed) : Derives φ.nesting φ.level φ.tokens φ := by
  induction φ with
  | verum => exact .verum
  | falsum => exact .falsum
  | atom name => exact .name h.2.1 h.2.2
  | metavar name => exact h.elim
  | not φ ih =>
    rw [nesting, tokens, isBinary_eq]
    exact .not ((ih h).wrap .atom)
  | binary c φ ψ ihφ ihψ =>
    rw [nesting_binary, tokens, needsParens_eq, needsParens_eq]
    exact .binary (((ihφ h.1).wrap _).mono (le_max_left _ _)) (((ihψ h.2).wrap _).mono (le_max_right _ _))

theorem tokens_ne_nil (φ : Formula) : φ.tokens ≠ [] := by
  cases φ with
  | binary c φ ψ => simp [tokens]
  | _ => simp [tokens]

theorem wellNamed_of_derives (h : Derives room level ts φ)
    (hts : ∀ x, .name x ∈ ts → IsIdentifier x) : φ.WellNamed := by
  induction h with
  | verum | falsum => trivial
  | name hverum hfalsum => exact ⟨hts _ List.mem_cons_self, hverum, hfalsum⟩
  | not _ ih => exact ih fun x hx => hts x (List.mem_cons_of_mem _ hx)
  | parens _ ih => exact ih fun x hx => hts x (by simp [hx])
  | @chain _ _ _ c _ ts φ _ more _ ih ihmore =>
    have hfirst := ih fun x hx => hts x (List.mem_append_left _ hx)
    have hmore : ∀ m ∈ more, m.2.WellNamed := fun m hm => ihmore m hm fun x hx =>
      hts x (List.mem_append_right _ (List.mem_flatMap.2 ⟨m, hm, List.mem_cons_of_mem _ hx⟩))
    exact List.foldlRecOn more _ hfirst fun ψ hψ m hm => ⟨hψ, hmore m hm⟩
  | plain _ ih => exact ih hts
  | arrow _ _ _ ihleft ihright =>
    exact ⟨ihleft fun x hx => hts x (by simp [hx]), ihright fun x hx => hts x (by simp [hx])⟩

end Formula

/-! ## The plain form is spelled by its tokens -/

namespace Source

variable {s s' : String} {w : String} {t : Token} {ts us : List Token} {cs rest : List Char}

theorem Lexed.sign (hw : w ∈ t.spellings) (h : Lexed ts cs rest) :
    Lexed (t :: ts) (w.toList ++ cs) rest := by
  refine @Lexed.cons t ts [] w cs rest (by simp) (.sign hw) ?_ h
  rintro x rfl
  cases hw

theorem Lexed.cons_blank {c : Char} (hc : isSpaceOrTab c = true) (hts : ts ≠ [])
    (h : Lexed ts cs rest) : Lexed ts (c :: cs) rest := by
  obtain _ | @⟨t, ts, blank, w, cs, rest, hblank, hspelled, hrun, hrest⟩ := h
  · exact absurd rfl hts
  · exact @Lexed.cons t ts (c :: blank) w cs rest (List.forall_mem_cons.2 ⟨hc, hblank⟩) hspelled hrun
      hrest

theorem Lexed.isIdentifier (h : Lexed ts cs rest) {x : String} (hx : .name x ∈ ts) :
    IsIdentifier x := by
  induction h with
  | nil => cases hx
  | cons _ hspelled _ _ ih =>
    rcases List.mem_cons.1 hx with rfl | hx
    · cases hspelled with
      | sign hw => cases hw
      | name h => exact h
    · exact ih hx

theorem endsRun_of_sign (hw : w ∈ t.spellings) (cs : List Char) :
    EndsRun isIdentifierChar (w.toList ++ cs) := by
  obtain ⟨hne, hstart, -⟩ := spellings_start t (mem_signs hw) w hw
  intro c hc
  rw [List.head?_append_of_ne_nil _ hne] at hc
  exact hstart c hc

/-- The text is made of the tokens, whatever follows it but the rest of a
    name. -/
def Spells (s : String) (ts : List Token) : Prop :=
  ∀ rest, EndsRun isIdentifierChar rest → Lexed ts (s.toList ++ rest) rest

namespace Spells

theorem name {x : String} (hx : IsIdentifier x) : Spells x [.name x] :=
  fun rest hrest => @Lexed.cons _ _ [] _ _ _ (by simp) (.name hx) (fun _ _ => hrest) .nil

theorem sign (hw : w ∈ t.spellings) (h : Spells s ts) : Spells (w ++ s) (t :: ts) := by
  intro rest hrest
  rw [String.toList_append, List.append_assoc]
  exact .sign hw (h rest hrest)

theorem append_sign (h : Spells s ts) (hw : w ∈ t.spellings) (h' : Spells s' us) :
    Spells (s ++ w ++ s') (ts ++ t :: us) := by
  intro rest hrest
  rw [String.append_assoc, String.toList_append, List.append_assoc]
  have hmore := h'.sign hw rest hrest
  refine (h _ ?_).append hmore
  rw [String.toList_append, List.append_assoc]
  exact endsRun_of_sign hw _

theorem wrap (parens : Bool) (h : Spells s ts) :
    Spells (Formula.wrap parens s) (Token.wrap parens ts) := by
  cases parens with
  | false => exact h
  | true =>
    intro rest _
    have hclosing : Lexed [.closing] (")".toList ++ rest) rest := .sign List.mem_cons_self .nil
    have hinside := (h _ (endsRun_of_sign (t := .closing) List.mem_cons_self rest)).append hclosing
    rw [Formula.wrap, if_pos rfl, String.toList_append, String.toList_append, List.append_assoc,
      List.append_assoc]
    exact .sign List.mem_cons_self hinside

end Spells

end Source

namespace Formula

variable {φ : Formula} {cs rest : List Char}

theorem spells_text (h : φ.WellNamed) : Spells φ.text φ.tokens := by
  induction φ with
  | verum => exact .name (isIdentifier_iff.2 (by decide))
  | falsum => exact .name (isIdentifier_iff.2 (by decide))
  | atom name => exact .name h.1
  | metavar name => exact h.elim
  | not φ ih => exact .sign List.mem_cons_self ((ih h).wrap _)
  | binary c φ ψ ihφ ihψ =>
    refine ((ihφ h.1).wrap _).append_sign ?_ ((ihψ h.2).wrap _)
    cases c <;> exact List.mem_cons_self

/-- What is read can be written and read again. -/
theorem readable_of_formula (h : formula cs = .ok (φ, rest)) : φ.Readable := by
  rw [formula_eq_scanner] at h
  obtain ⟨ts, hlexed, hderives⟩ := derives_of_scanner h
  have hnesting := hderives.nestingAt_le
  rw [nestingAt_of_rank_le (Level.rank_le _)] at hnesting
  exact ⟨wellNamed_of_derives hderives fun x hx => hlexed.isIdentifier hx, hnesting⟩

theorem Readable.formula_of_lexed (h : φ.Readable) (hlexed : Lexed φ.tokens cs rest)
    (hstops : Stops .formula rest) : formula cs = .ok (φ, rest) := by
  rw [formula_eq_scanner]
  exact scanner_of_derives (((derives_tokens h.named).lift (Level.rank_le _)).mono h.nesting_le)
    hlexed hstops

/-- **The plain form of a formula is read as the formula**, up to where neither
    a name nor the formula goes on. -/
theorem Readable.formula_text (h : φ.Readable) (hrun : EndsRun isIdentifierChar rest)
    (hstops : Stops .formula rest) {c : Char} (hc : isSpaceOrTab c = true) :
    formula (c :: (φ.text.toList ++ rest)) = .ok (φ, rest) :=
  h.formula_of_lexed ((spells_text h.named rest hrun).cons_blank hc φ.tokens_ne_nil) hstops

/-- **A formula is the one that its plain form is read as, up to the nesting
    limit.**  With more than 128 negations and parentheses around an atom, the plain
    form is rejected for this. -/
theorem parse_text_of_wellNamed (h : φ.WellNamed) :
    (φ.nesting ≤ 128 → Formula.parse φ.text = .ok φ) ∧
      (128 < φ.nesting → ∃ column, Formula.parse φ.text = .error (.malformed 1 column .tooDeep)) ∧
      Complaint.tooDeep.message = "proposition is nested too deeply" := by
  have hlexed : Lexed φ.tokens φ.text.toList [] := by
    have hspells := spells_text h [] (by simp [EndsRun])
    rwa [List.append_nil] at hspells
  have hread : ReadsWithin (φ.nesting ≤ 128) formula φ.text.toList φ [] := by
    have hderives := (derives_tokens h).lift (Level.rank_le _)
    rw [formula_eq_scanner]
    exact readsWithin_of_derives hderives 128 hlexed (.of_blank .formula (by simp))
  refine ⟨fun hfits => ?_, fun hdeep => ?_, rfl⟩
  · rw [Formula.parse_eq_ok, toEnd_eq_ok]
    exact ⟨rfl, [], hread.eq_ok hfits, by simp⟩
  · rcases hread with hok | ⟨-, hstop⟩
    · have hfits := (readable_of_formula hok).nesting_le
      omega
    · obtain ⟨rest, hrest⟩ := tooDeep_toEnd hstop
      exact ⟨_, Formula.parse_of_stop hrest⟩

/-- `¬(p∨¬(p∨…¬(p∨p)…))` with `n` negations. -/
def deep : (n : Nat) → Formula
  | 0 => .atom "p"
  | n + 1 => .not (.or (.atom "p") (deep n))

theorem wellNamed_deep (n : Nat) : (deep n).WellNamed := by
  have hp : (atom "p").WellNamed := ⟨isIdentifier_iff.2 (by decide), by decide, by decide⟩
  induction n with
  | zero => exact hp
  | succ n ih => exact ⟨hp, ih⟩

theorem parse_text_of_wellNamed_deep :
    (deep 64).nesting = 128 ∧ Formula.parse (deep 64).text = .ok (deep 64) ∧
      (deep 64).not.nesting = 129 ∧
        ∃ column, Formula.parse (deep 64).not.text = .error (.malformed 1 column .tooDeep) := by
  have hlimit : (deep 64).nesting = 128 := by decide +kernel
  have hbeyond : (deep 64).not.nesting = 129 := by decide +kernel
  refine ⟨hlimit, (parse_text_of_wellNamed (wellNamed_deep 64)).1 hlimit.le, hbeyond, ?_⟩
  have hnot : (deep 64).not.WellNamed := wellNamed_deep 64
  exact (parse_text_of_wellNamed hnot).2.1 (by omega)

end Formula

end Deduction
