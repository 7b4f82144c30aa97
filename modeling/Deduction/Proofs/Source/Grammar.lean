/-
  The grammar of formulas.

  A text is a sequence of tokens, with spaces and tabs before each of them
  (`Lexed`), and a sequence of tokens derives a formula (`Derives`).  Both say
  what is allowed, not how it is found.

  * `Spelled.eq_of_begins`: the spellings of tokens do not begin with each
    other, so a text begins with at most one token;
  * `sign_of_lexed`, `mismatches_sign`: a sign is read where its token stands,
    and nowhere else.
-/
import Deduction.Proofs.Text.Scanner
import Deduction.Source.Formula

namespace Deduction.Source

open Text Text.Scanner

/-! ## Tokens -/

/-- The tokens of a formula. -/
inductive Token where
  | not
  | connective (c : Connective)
  | opening
  | closing
  | name (x : String)
  deriving DecidableEq

/-- The spellings of a token that is not a name. -/
def Token.spellings : Token → List String
  | not => negationSpellings
  | connective c => connectiveSpellings c
  | opening => ["("]
  | closing => [")"]
  | name _ => []

/-- A non-empty run of identifier characters that does not start with an ASCII
    digit. -/
structure IsIdentifier (x : String) : Prop where
  ne_nil : x.toList ≠ []
  all : ∀ c ∈ x.toList, isIdentifierChar c = true
  head : ∀ c ∈ x.toList.head?, c.isDigit = false

theorem isIdentifier_iff {x : String} : IsIdentifier x ↔
    x.toList ≠ [] ∧ x.toList.all isIdentifierChar = true ∧ EndsRun Char.isDigit x.toList := by
  rw [List.all_eq_true]
  exact ⟨fun h => ⟨h.ne_nil, h.all, h.head⟩, fun ⟨hne, hall, hhead⟩ => ⟨hne, hall, hhead⟩⟩

/-- How a token may be written. -/
inductive Spelled : Token → String → Prop
  | sign {t : Token} {w : String} (h : w ∈ t.spellings) : Spelled t w
  | name {x : String} (h : IsIdentifier x) : Spelled (.name x) x

/-- The text `cs` begins with the given tokens, behind which it goes on with
    `rest`.  Before a token there may be spaces and tabs; a name goes as far as
    the identifier characters do. -/
inductive Lexed : List Token → (cs rest : List Char) → Prop
  | nil {cs : List Char} : Lexed [] cs cs
  | cons {t : Token} {ts : List Token} {blank : List Char} {w : String} {cs rest : List Char}
      (hblank : ∀ c ∈ blank, isSpaceOrTab c = true) (hspelled : Spelled t w)
      (hrun : ∀ x, t = .name x → EndsRun isIdentifierChar cs) (hrest : Lexed ts cs rest) :
      Lexed (t :: ts) (blank ++ (w.toList ++ cs)) rest

/-- The tokens that are not names. -/
def signs : List Token :=
  [.not, .opening, .closing, .connective .and, .connective .or, .connective .xor,
    .connective .implies, .connective .iff]

section
variable {t t' : Token} {v w : String} {cs mid rest : List Char} {ts ts' : List Token}

theorem mem_signs (h : w ∈ t.spellings) : t ∈ signs := by
  cases t with
  | connective c => cases c <;> decide
  | name x => cases h
  | _ => decide

/-- No spelling is the beginning of another one. -/
theorem spellings_prefixFree : ∀ t ∈ signs, ∀ v ∈ t.spellings, ∀ t' ∈ signs, ∀ w ∈ t'.spellings,
    v.toList <+: w.toList → t = t' ∧ v = w := by decide +kernel

theorem spellings_start : ∀ t ∈ signs, ∀ w ∈ t.spellings,
    w.toList ≠ [] ∧ EndsRun isIdentifierChar w.toList ∧ EndsRun isSpaceOrTab w.toList := by
  decide +kernel

namespace Spelled

theorem ne_nil (h : Spelled t w) : w.toList ≠ [] := by
  cases h with
  | sign h => exact (spellings_start t (mem_signs h) w h).1
  | name h => exact h.ne_nil

theorem endsRun_append (h : Spelled t w) (cs : List Char) :
    EndsRun isSpaceOrTab (w.toList ++ cs) := by
  intro c hc
  have hne := h.ne_nil
  rw [List.head?_append_of_ne_nil _ hne] at hc
  cases h with
  | sign h => exact (spellings_start t (mem_signs h) w h).2.2 c hc
  | name h => exact isSpaceOrTab_eq_false (by decide) (h.all c (List.mem_of_mem_head? hc))

/-- **A text begins with at most one token that is not a name.** -/
theorem eq_of_begins (hv : v ∈ t.spellings) (hw : Spelled t' w)
    (h : v.toList <+: w.toList ++ cs) : t = t' ∧ v = w := by
  obtain ⟨hne, hstart, -⟩ := spellings_start t (mem_signs hv) v hv
  cases hw with
  | sign hw =>
    rcases List.prefix_or_prefix_of_prefix h (List.prefix_append w.toList cs) with h | h
    · exact spellings_prefixFree t (mem_signs hv) v hv t' (mem_signs hw) w hw h
    · obtain ⟨ht, hvw⟩ := spellings_prefixFree t' (mem_signs hw) w hw t (mem_signs hv) v hv h
      exact ⟨ht.symm, hvw.symm⟩
  | name hw =>
    -- a name begins with an identifier character
    obtain ⟨c, hc⟩ := Option.ne_none_iff_exists'.1 (mt List.head?_eq_none_iff.1 hne)
    obtain ⟨more, hmore⟩ := h
    have hhead : (w.toList ++ cs).head? = some c := by
      rw [← hmore, List.head?_append_of_ne_nil _ hne, hc]
    rw [List.head?_append_of_ne_nil _ hw.ne_nil] at hhead
    have hname := hw.all c (List.mem_of_mem_head? hhead)
    rw [hstart c hc] at hname
    cases hname

end Spelled

namespace Lexed

theorem append (h : Lexed ts cs mid) (h' : Lexed ts' mid rest) : Lexed (ts ++ ts') cs rest := by
  induction h with
  | nil => exact h'
  | cons hblank hspelled hrun _ ih => exact .cons hblank hspelled hrun (ih h')

theorem append_iff : Lexed (ts ++ ts') cs rest ↔ ∃ mid, Lexed ts cs mid ∧ Lexed ts' mid rest := by
  constructor
  · intro h
    induction ts generalizing cs with
    | nil => exact ⟨cs, .nil, h⟩
    | cons t ts ih =>
      obtain _ | ⟨hblank, hspelled, hrun, hrest⟩ := h
      obtain ⟨mid, h₁, h₂⟩ := ih hrest
      exact ⟨mid, .cons hblank hspelled hrun h₁, h₂⟩
  · rintro ⟨mid, h₁, h₂⟩; exact h₁.append h₂

theorem suffix (h : Lexed ts cs rest) : rest <:+ cs := by
  induction h with
  | nil => exact List.suffix_rfl
  | cons _ _ _ _ ih =>
    exact ih.trans ((List.suffix_append _ _).trans (List.suffix_append _ _))

theorem length_lt (h : Lexed (t :: ts) cs rest) : rest.length < cs.length := by
  obtain _ | @⟨_, _, blank, w, mid, _, -, hspelled, -, hrest⟩ := h
  have hle := hrest.suffix.length_le
  have hpos := List.length_pos_iff.2 hspelled.ne_nil
  simp only [List.length_append]
  omega

/-- The first token behind the blanks. -/
theorem exists_first (h : Lexed (t :: ts) cs rest) : ∃ w mid, Spelled t w ∧
    cs.dropWhile isSpaceOrTab = w.toList ++ mid ∧
      (∀ x, t = .name x → EndsRun isIdentifierChar mid) ∧ Lexed ts mid rest := by
  obtain _ | @⟨_, _, blank, w, mid, _, hblank, hspelled, hrun, hrest⟩ := h
  exact ⟨w, mid, hspelled, dropWhile_append hblank (hspelled.endsRun_append mid), hrun, hrest⟩

theorem of_dropWhile (hspelled : Spelled t w) (hcs : cs.dropWhile isSpaceOrTab = w.toList ++ mid)
    (hrun : ∀ x, t = .name x → EndsRun isIdentifierChar mid) : Lexed [t] cs mid := by
  have hblank : ∀ c ∈ cs.takeWhile isSpaceOrTab, isSpaceOrTab c = true := fun c => List.mem_takeWhile_imp
  rw [← @List.takeWhile_append_dropWhile _ isSpaceOrTab cs, hcs]
  exact .cons hblank hspelled hrun .nil

/-- Blanks before the first token do not matter. -/
theorem dropWhile (h : Lexed (t :: ts) cs rest) :
    Lexed (t :: ts) (cs.dropWhile isSpaceOrTab) rest := by
  obtain ⟨w, mid, hspelled, hcs, hrun, hrest⟩ := h.exists_first
  rw [hcs]
  exact @Lexed.cons _ _ [] _ _ _ (by simp) hspelled hrun hrest

end Lexed

/-! ## Reading one token -/

theorem lexed_of_sign (h : token (oneOf t.spellings) cs = .ok (w, rest)) : Lexed [t] cs rest := by
  rw [token_apply] at h
  obtain ⟨hw, hcs⟩ := of_oneOf_eq_ok h
  refine .of_dropWhile (.sign hw) hcs ?_
  rintro x rfl
  cases hw

theorem sign_eq_ok (hw : w ∈ t.spellings) (hcs : cs.dropWhile isSpaceOrTab = w.toList ++ rest) :
    token (oneOf t.spellings) cs = .ok (w, rest) := by
  rw [token_apply, hcs]
  exact oneOf_eq_ok hw fun v hv hbegins => ((Spelled.sign hw).eq_of_begins hv hbegins).2

theorem sign_of_lexed (h : Lexed (t :: ts) cs rest) (ht : ∀ x, t ≠ .name x) :
    ∃ w mid, token (oneOf t.spellings) cs = .ok (w, mid) ∧ Lexed ts mid rest := by
  obtain ⟨w, mid, hspelled, hcs, -, hrest⟩ := h.exists_first
  cases hspelled with
  | sign hw => exact ⟨w, mid, sign_eq_ok hw hcs, hrest⟩
  | name => exact absurd rfl (ht _)

/-- No sign begins with `c`, and it is not skipped as a blank either. -/
def NoSignStart (c : Char) : Prop :=
  isSpaceOrTab c = false ∧ ∀ t ∈ signs, ∀ w ∈ t.spellings, w.toList.head? ≠ some c

instance (c : Char) : Decidable (NoSignStart c) := inferInstanceAs (Decidable (_ ∧ _))

theorem mismatches_sign_of_start {c : Char} (t : Token) (hc : NoSignStart c)
    (hcs : cs.dropWhile isSpaceOrTab = c :: mid) : Mismatches (token (oneOf t.spellings)) cs := by
  have hmismatches : Mismatches (oneOf t.spellings) (c :: mid) := by
    refine mismatches_oneOf fun w hw hbegins => hc.2 t (mem_signs hw) w hw ?_
    obtain ⟨d, w', hd⟩ := List.exists_cons_of_ne_nil (Spelled.sign hw).ne_nil
    rw [hd] at hbegins ⊢
    rw [(List.cons_prefix_cons.1 hbegins).1]
    rfl
  rwa [← hcs] at hmismatches

theorem mismatches_sign (h : Lexed (t' :: ts) cs rest) (hne : t ≠ t') :
    Mismatches (token (oneOf t.spellings)) cs := by
  obtain ⟨w, mid, hspelled, hcs, -, -⟩ := h.exists_first
  have hmismatches : Mismatches (oneOf t.spellings) (w.toList ++ mid) :=
    mismatches_oneOf fun v hv hbegins => hne (hspelled.eq_of_begins hv hbegins).1
  rwa [← hcs] at hmismatches

end

/-! ## Phrases -/

/-- The levels of the grammar, tightest first. -/
inductive Level where
  | atom
  | conjunction
  | exclusive
  | disjunction
  | formula
  deriving DecidableEq

/-- The connective that is repeated on a level, and the level of its operands. -/
def Level.link? : Level → Option (Connective × Level)
  | atom => none
  | conjunction => some (.and, .atom)
  | exclusive => some (.xor, .conjunction)
  | disjunction => some (.or, .exclusive)
  | formula => none

/-- The tokens derive the formula on the given level, and each name lies under
    at most `room` negations and parentheses:

        formula     := disjunction (("→" | "↔") disjunction)?
        disjunction := exclusive ("∨" exclusive)*
        exclusive   := conjunction ("⊕" conjunction)*
        conjunction := atom ("∧" atom)*
        atom        := "¬" atom | "(" formula ")" | "T" | "F" | name
-/
inductive Derives : (room : Nat) → Level → List Token → Formula → Prop
  | verum {room : Nat} : Derives room .atom [.name "T"] .verum
  | falsum {room : Nat} : Derives room .atom [.name "F"] .falsum
  | name {room : Nat} {x : String} (hverum : x ≠ "T") (hfalsum : x ≠ "F") :
      Derives room .atom [.name x] (.atom x)
  | not {room : Nat} {ts : List Token} {φ : Formula} (h : Derives room .atom ts φ) :
      Derives (room + 1) .atom (.not :: ts) (.not φ)
  | parens {room : Nat} {ts : List Token} {φ : Formula} (h : Derives room .formula ts φ) :
      Derives (room + 1) .atom (.opening :: ts ++ [.closing]) φ
  /-- A first operand and any number of further ones, leaning to the left. -/
  | chain {room : Nat} {level operand : Level} {c : Connective}
      (hlink : level.link? = some (c, operand)) {ts : List Token} {φ : Formula}
      (h : Derives room operand ts φ) {more : List (List Token × Formula)}
      (hmore : ∀ m ∈ more, Derives room operand m.1 m.2) :
      Derives room level (ts ++ more.flatMap fun m => .connective c :: m.1)
        (more.foldl (fun ψ m => .binary c ψ m.2) φ)
  | plain {room : Nat} {ts : List Token} {φ : Formula} (h : Derives room .disjunction ts φ) :
      Derives room .formula ts φ
  | arrow {room : Nat} {c : Connective} (hc : c = .implies ∨ c = .iff) {ts us : List Token}
      {φ ψ : Formula} (hleft : Derives room .disjunction ts φ)
      (hright : Derives room .disjunction us ψ) :
      Derives room .formula (ts ++ .connective c :: us) (.binary c φ ψ)

end Deduction.Source
