/-
  Reading a formula follows the grammar.

  * `derives_of_scanner`: what is read is derived by the tokens that were taken;
  * `readsWithin_of_derives`: a text whose tokens derive a formula is read as it,
    up to where no connective goes on, or the nesting limit stops the reader;
    with enough room for the derivation, it is read (`scanner_of_derives`).

  Together, a text is read as a formula exactly if its tokens derive it.
-/
import Deduction.Proofs.Source.Grammar
import Deduction.Source.Document

namespace Deduction.Source

open Text Text.Scanner

section
variable {p : Scanner Formula} {room : Nat} {level operand : Level} {c : Connective}
variable {x : String} {φ : Formula} {cs mid rest : List Char} {ts us : List Token}

/-! ## Names -/

theorem identifier_eq_ok : identifier cs = .ok (x, rest) ↔
    IsIdentifier x ∧ cs = x.toList ++ rest ∧ EndsRun isIdentifierChar rest := by
  constructor
  · intro h
    have hcs := @List.takeWhile_append_dropWhile _ isIdentifierChar cs
    have hall : ∀ d ∈ cs.takeWhile isIdentifierChar, isIdentifierChar d = true :=
      fun _ => List.mem_takeWhile_imp
    rw [identifier] at h
    split at h
    · cases h
    rename_i d name hname
    split at h
    · cases h
    rename_i hdigit
    obtain ⟨rfl, rfl⟩ := Prod.mk.inj (Except.ok.inj h)
    rw [hname] at hcs hall
    refine ⟨⟨?_, ?_, ?_⟩, ?_, endsRun_dropWhile _ _⟩
    · simp
    · simpa using hall
    · simpa using hdigit
    · rw [String.toList_ofList]; exact hcs.symm
  · rintro ⟨⟨hne, hall, hhead⟩, rfl, hrest⟩
    rw [identifier, takeWhile_append hall hrest, dropWhile_append hall hrest]
    obtain ⟨d, name, hx⟩ := List.exists_cons_of_ne_nil hne
    have hdigit : d.isDigit = false := hhead d (by simp [hx])
    simp only [hx, hdigit, Bool.false_eq_true, if_false]
    rw [← hx, String.ofList_toList]

theorem leaf_eq (hverum : x ≠ "T") (hfalsum : x ≠ "F") : leaf x = .atom x := by
  rw [leaf, if_neg hverum, if_neg hfalsum]

theorem derives_leaf (room : Nat) (x : String) : Derives room .atom [.name x] (leaf x) := by
  by_cases hverum : x = "T"
  · subst hverum; exact .verum
  by_cases hfalsum : x = "F"
  · subst hfalsum; exact .falsum
  rw [leaf_eq hverum hfalsum]
  exact .name hverum hfalsum

/-! ## Levels -/

/-- The scanner of a level over a given scanner of atoms. -/
def Level.scanner (p : Scanner Formula) : Level → Scanner Formula
  | atom => p
  | conjunction => chain .and p
  | exclusive => chain .xor (chain .and p)
  | disjunction => Source.disjunction p
  | formula => formulaOver p

theorem formula_eq_scanner : formula = Level.formula.scanner (atom (128 + 1)) := by
  rw [formula, maxNesting, Level.scanner]

theorem scanner_of_link (p : Scanner Formula) (h : level.link? = some (c, operand)) :
    level.scanner p = chain c (operand.scanner p) := by
  cases level <;> cases h <;> rfl

/-- What scanners of a level read over `p` is derived. -/
def Reads (room : Nat) (p : Scanner Formula) (level : Level) : Prop :=
  ∀ cs φ rest, level.scanner p cs = .ok (φ, rest) → ∃ ts, Lexed ts cs rest ∧ Derives room level ts φ

theorem Reads.repeats (h : Reads room p operand) {ψs : List Formula}
    (hψs : Repeats (connective c *> operand.scanner p) cs ψs rest) :
    ∃ more : List (List Token × Formula),
      Lexed (more.flatMap fun m => .connective c :: m.1) cs rest ∧
        (∀ m ∈ more, Derives room operand m.1 m.2) ∧ ψs = more.map (·.2) := by
  induction hψs with
  | stop => exact ⟨[], .nil, by simp, rfl⟩
  | @next cs mid rest ψ ψs hfirst _ ih =>
    obtain ⟨w, mid', hsign, hoperand⟩ := seqRight_eq_ok.1 hfirst
    obtain ⟨ts, hlexed, hderives⟩ := h _ _ _ hoperand
    obtain ⟨more, hrest, hmore, rfl⟩ := ih
    refine ⟨(ts, ψ) :: more, ?_, List.forall_mem_cons.2 ⟨hderives, hmore⟩, rfl⟩
    have hsign : Lexed [.connective c] cs mid' := lexed_of_sign hsign
    exact (hsign.append hlexed).append hrest

theorem Reads.chain (hlink : level.link? = some (c, operand)) (h : Reads room p operand) :
    Reads room p level := by
  intro cs φ rest hscan
  rw [scanner_of_link p hlink] at hscan
  obtain ⟨ψ, mid, hfirst, hscan⟩ := bind_eq_ok.1 hscan
  obtain ⟨ψs, mid', hmany, hpure⟩ := bind_eq_ok.1 hscan
  obtain ⟨rfl, rfl⟩ := pure_eq_ok.1 hpure
  obtain ⟨ts, hlexed, hderives⟩ := h _ _ _ hfirst
  obtain ⟨more, hrest, hmore, rfl⟩ := h.repeats (repeats_of_many hmany)
  refine ⟨_, hlexed.append hrest, ?_⟩
  rw [List.foldl_map]
  exact .chain hlink hderives hmore

theorem of_arrow_eq_ok (h : arrow cs = .ok (c, rest)) :
    (c = .implies ∨ c = .iff) ∧ Lexed [.connective c] cs rest := by
  rcases orElse_eq_ok.1 h with h | ⟨-, h⟩
  all_goals
    obtain ⟨w, mid, hsign, hpure⟩ := seqRight_eq_ok.1 h
    obtain ⟨rfl, rfl⟩ := pure_eq_ok.1 hpure
    exact ⟨by simp, lexed_of_sign hsign⟩

theorem Reads.formula (h : Reads room p .disjunction) : Reads room p .formula := by
  intro cs φ rest hscan
  obtain ⟨ψ, mid, hleft, hscan⟩ := bind_eq_ok.1 hscan
  obtain ⟨tail, mid', htail, hpure⟩ := bind_eq_ok.1 hscan
  obtain ⟨ts, hlexed, hderives⟩ := h _ _ _ hleft
  rcases optional_eq_ok.1 htail with ⟨⟨c, χ⟩, rfl, hsome⟩ | ⟨rfl, rfl, -⟩
  · obtain ⟨rfl, rfl⟩ := pure_eq_ok.1 hpure
    obtain ⟨_, _, harrow, hsome⟩ := bind_eq_ok.1 hsome
    obtain ⟨_, _, hright, hsome⟩ := bind_eq_ok.1 hsome
    obtain ⟨hpair, rfl⟩ := pure_eq_ok.1 hsome
    obtain ⟨rfl, rfl⟩ := Prod.mk.inj hpair
    obtain ⟨hc, hsign⟩ := of_arrow_eq_ok harrow
    obtain ⟨us, hlexed', hderives'⟩ := h _ _ _ hright
    exact ⟨_, hlexed.append (hsign.append hlexed'), .arrow hc hderives hderives'⟩
  · obtain ⟨rfl, rfl⟩ := pure_eq_ok.1 hpure
    exact ⟨ts, hlexed, .plain hderives⟩

theorem Reads.of_atom (h : Reads room p .atom) (level : Level) : Reads room p level := by
  have hconjunction : Reads room p .conjunction := h.chain rfl
  have hexclusive : Reads room p .exclusive := hconjunction.chain rfl
  have hdisjunction : Reads room p .disjunction := hexclusive.chain rfl
  cases level with
  | atom => exact h
  | conjunction => exact hconjunction
  | exclusive => exact hexclusive
  | disjunction => exact hdisjunction
  | formula => exact hdisjunction.formula

/-! ## What is read is derived -/

/-- The three forms of an atom. -/
theorem of_atom_eq_ok (h : atom (room + 1) cs = .ok (φ, rest)) :
    (∃ mid ψ, Lexed [.not] cs mid ∧ atom room mid = .ok (ψ, rest) ∧ φ = .not ψ) ∨
      (∃ mid mid', Lexed [.opening] cs mid ∧ formulaOver (atom room) mid = .ok (φ, mid') ∧
        Lexed [.closing] mid' rest) ∨
      ∃ x, Lexed [.name x] cs rest ∧ φ = leaf x := by
  rw [atom, token_apply] at h
  rcases orElse_eq_ok.1 h with h | ⟨-, h⟩
  · left
    obtain ⟨w, mid, hsign, h⟩ := bind_eq_ok.1 h
    obtain ⟨ψ, mid', hatom, hpure⟩ := bind_eq_ok.1 h
    obtain ⟨rfl, rfl⟩ := pure_eq_ok.1 hpure
    refine ⟨mid, ψ, @lexed_of_sign .not w cs mid ?_, hatom, rfl⟩
    -- the blanks before the sign are already taken
    rw [negation, token_apply, dropWhile_eq_self (endsRun_dropWhile _ cs)] at hsign
    exact hsign
  rcases orElse_eq_ok.1 h with h | ⟨-, h⟩
  · right; left
    obtain ⟨u, mid, hopening, h⟩ := bind_eq_ok.1 h
    obtain ⟨ψ, mid', hformula, h⟩ := bind_eq_ok.1 h
    obtain ⟨u', mid'', hclosing, hpure⟩ := bind_eq_ok.1 h
    obtain ⟨rfl, rfl⟩ := pure_eq_ok.1 hpure
    rw [token_apply] at hclosing
    refine ⟨mid, mid', ?_, hformula, ?_⟩
    · exact .of_dropWhile (.sign List.mem_cons_self) (word_eq_ok.1 hopening) (by simp)
    · exact .of_dropWhile (.sign List.mem_cons_self) (word_eq_ok.1 hclosing) (by simp)
  · right; right
    obtain ⟨x, hname, rfl⟩ := map_eq_ok.1 h
    obtain ⟨hx, hcs, hrest⟩ := identifier_eq_ok.1 hname
    exact ⟨x, .of_dropWhile (.name hx) hcs fun _ _ => hrest, rfl⟩

theorem exists_atom_of_formulaOver (h : formulaOver p cs = .ok (φ, rest)) :
    ∃ ψ mid, p cs = .ok (ψ, mid) := by
  obtain ⟨_, _, h, -⟩ := bind_eq_ok.1 h
  obtain ⟨_, _, h, -⟩ := bind_eq_ok.1 h
  obtain ⟨_, _, h, -⟩ := bind_eq_ok.1 h
  obtain ⟨ψ, mid, h, -⟩ := bind_eq_ok.1 h
  exact ⟨ψ, mid, h⟩

theorem exists_reads_atom (h : atom room cs = .ok (φ, rest)) :
    ∃ r, room = r + 1 ∧ ∃ ts, Lexed ts cs rest ∧ Derives r .atom ts φ := by
  induction room generalizing cs φ rest with
  | zero => cases h
  | succ room ih =>
    refine ⟨room, rfl, ?_⟩
    rcases of_atom_eq_ok h with
      ⟨mid, ψ, hsign, hatom, rfl⟩ | ⟨mid, mid', hopening, hformula, hclosing⟩ | ⟨x, hname, rfl⟩
    · obtain ⟨r, rfl, ts, hlexed, hderives⟩ := ih hatom
      exact ⟨_, hsign.append hlexed, .not hderives⟩
    · obtain ⟨ψ, mid'', hatom⟩ := exists_atom_of_formulaOver hformula
      obtain ⟨r, rfl, -⟩ := ih hatom
      have hreads : Reads r (atom (r + 1)) .atom := by
        intro cs φ rest h
        obtain ⟨r', hr, hread⟩ := ih h
        rwa [← Nat.succ.inj hr] at hread
      obtain ⟨ts, hlexed, hderives⟩ := hreads.of_atom .formula _ _ _ hformula
      exact ⟨_, (hopening.append hlexed).append hclosing, .parens hderives⟩
    · exact ⟨_, hname, derives_leaf room x⟩

/-- **What is read on a level is derived on it, by the tokens taken.** -/
theorem derives_of_scanner (h : level.scanner (atom (room + 1)) cs = .ok (φ, rest)) :
    ∃ ts, Lexed ts cs rest ∧ Derives room level ts φ := by
  have hreads : Reads room (atom (room + 1)) .atom := by
    intro cs φ rest h
    obtain ⟨r, hr, hread⟩ := exists_reads_atom h
    rwa [← Nat.succ.inj hr] at hread
  exact hreads.of_atom level cs φ rest h

/-! ## What is derived is read -/

/-- The connectives that go on a phrase of a level. -/
def Level.continuations : Level → List Connective
  | atom => []
  | conjunction => [.and]
  | exclusive => [.xor, .and]
  | disjunction => [.or, .xor, .and]
  | formula => [.implies, .iff, .or, .xor, .and]

/-- No phrase of the level goes on here. -/
def Stops (level : Level) (rest : List Char) : Prop :=
  ∀ c ∈ level.continuations, Mismatches (connective c) rest

theorem Stops.of_lexed {t : Token} (h : Lexed (t :: ts) cs rest)
    (ht : ∀ c ∈ level.continuations, Token.connective c ≠ t) : Stops level cs :=
  fun c hc => mismatches_sign h (ht c hc)

theorem Stops.of_subset (h : Stops level rest)
    (hsubset : operand.continuations ⊆ level.continuations) : Stops operand rest :=
  fun c hc => h c (hsubset hc)

/-- An operand of a chain ends where the chain goes on and where it ends. -/
theorem Stops.of_link (hlink : level.link? = some (c, operand)) (hstops : Stops level rest)
    {more : List (List Token × Formula)}
    (h : Lexed (more.flatMap fun m => .connective c :: m.1) cs rest) : Stops operand cs := by
  have htable : operand.continuations ⊆ level.continuations ∧ c ∉ operand.continuations := by
    cases level <;> cases hlink <;> decide
  cases more with
  | nil =>
    cases h
    exact hstops.of_subset htable.1
  | cons m more =>
    refine .of_lexed h fun c' hc' heq => htable.2 ?_
    rwa [← Token.connective.inj heq]

theorem mem_continuations (hlink : level.link? = some (c, operand)) : c ∈ level.continuations := by
  cases level <;> cases hlink <;> decide

theorem length_le_of_scanner (h : level.scanner (atom (room + 1)) cs = .ok (φ, rest)) :
    rest.length ≤ cs.length := by
  obtain ⟨ts, hlexed, -⟩ := derives_of_scanner h
  exact hlexed.suffix.length_le

theorem consumes_link (c : Connective) (operand : Level) (room : Nat) :
    Consumes (connective c *> operand.scanner (atom (room + 1))) := by
  intro cs φ rest h
  obtain ⟨w, mid, hsign, hoperand⟩ := seqRight_eq_ok.1 h
  have hle := length_le_of_scanner hoperand
  have hlexed : Lexed [.connective c] cs mid := lexed_of_sign hsign
  have hlt := hlexed.length_lt
  omega

theorem mismatches_connective_nil (c : Connective) : Mismatches (connective c) [] :=
  mismatches_oneOf fun _ hv hbegins =>
    (Spelled.sign (t := .connective c) hv).ne_nil (List.prefix_nil.1 hbegins)

theorem repeatsWithin_of_lexed {fits : Prop} (hlink : level.link? = some (c, operand))
    (hstops : Stops level rest) {more : List (List Token × Formula)}
    (hread : ∀ m ∈ more, ∀ cs rest, Lexed m.1 cs rest → Stops operand rest →
      ReadsWithin fits (operand.scanner p) cs m.2 rest)
    (h : Lexed (more.flatMap fun m => .connective c :: m.1) cs rest) :
    RepeatsWithin fits (connective c *> operand.scanner p) cs (more.map (·.2)) rest := by
  induction more generalizing cs with
  | nil => cases h; exact .inl .stop
  | cons m more ih =>
    obtain ⟨hm, hmore⟩ := List.forall_mem_cons.1 hread
    obtain ⟨w, mid, hsign, h⟩ := sign_of_lexed h (by simp)
    obtain ⟨mid', hoperand, hrest⟩ := Lexed.append_iff.1 h
    refine .next ?_ (ih hmore hrest)
    rw [seqRight_eq_bind]
    exact .bind (.of_ok hsign) (hm mid mid' hoperand (hstops.of_link hlink hrest))

theorem atom_of_not {fits : Prop} (h : Lexed (.not :: ts) cs rest)
    (hread : ∀ mid, Lexed ts mid rest → ReadsWithin fits (atom room) mid φ rest) :
    ReadsWithin fits (atom (room + 1)) cs (.not φ) rest := by
  obtain ⟨w, mid, hsign, hrest⟩ := sign_of_lexed h.dropWhile (by simp)
  rw [atom, readsWithin_token]
  exact .orElse _ (.bind (.of_ok hsign) (.bind (hread mid hrest) (.of_ok rfl)))

theorem mismatches_negation (f : String → Scanner Formula) {t : Token}
    (h : Lexed (t :: ts) cs rest) (ht : t ≠ .not) :
    Mismatches (negation >>= f) (cs.dropWhile isSpaceOrTab) :=
  mismatches_bind _ (mismatches_sign h.dropWhile ht.symm)

theorem atom_of_parens {fits : Prop} (h : Lexed (.opening :: ts ++ [.closing]) cs rest)
    (hread : ∀ mid mid', Lexed ts mid mid' → Stops .formula mid' →
      ReadsWithin fits (formulaOver (atom room)) mid φ mid') :
    ReadsWithin fits (atom (room + 1)) cs φ rest := by
  obtain ⟨w, mid, hopening, hcs, -, hrest⟩ := h.exists_first
  obtain ⟨mid', hformula, hclosing⟩ := Lexed.append_iff.1 hrest
  have hstops : Stops .formula mid' := .of_lexed hclosing (by simp)
  obtain ⟨w', rest', hclosing, hmid, -, hnil⟩ := hclosing.exists_first
  cases hnil
  obtain ⟨hw⟩ := hopening
  obtain ⟨hw'⟩ := hclosing
  rw [List.mem_singleton.1 hw] at hcs
  rw [List.mem_singleton.1 hw'] at hmid
  rw [atom, readsWithin_token]
  refine .orElse_of_mismatches (mismatches_negation _ h (by simp)) ?_
  rw [hcs]
  have hword : token (word ")") mid' = .ok ((), rest) := by
    rw [token_apply, hmid]
    exact word_append ")" rest
  exact .orElse _ (.bind (.of_ok (word_append "(" mid)) (.bind (hread mid mid' hformula hstops)
    (.bind (.of_ok hword) (.of_ok rfl))))

theorem atom_of_name (h : Lexed [.name x] cs rest) : atom (room + 1) cs = .ok (leaf x, rest) := by
  obtain ⟨w, mid, hspelled, hcs, hrun, hnil⟩ := h.exists_first
  cases hnil
  cases hspelled with
  | sign hw => cases hw
  | name hx =>
    have hopening : Mismatches (word "(") (x.toList ++ rest) := mismatches_word fun hbegins =>
      nomatch ((Spelled.name hx).eq_of_begins (t := .opening) List.mem_cons_self hbegins).1
    rw [atom, token_apply, orElse_of_mismatches _ (mismatches_negation _ h (by simp)), hcs,
      orElse_of_mismatches _ (mismatches_bind _ hopening)]
    exact map_of_ok leaf (identifier_eq_ok.2 ⟨hx, rfl, hrun x rfl⟩)

theorem arrow_of_lexed (hc : c = .implies ∨ c = .iff) (h : Lexed (.connective c :: ts) cs rest) :
    ∃ mid, arrow cs = .ok (c, mid) ∧ Lexed ts mid rest := by
  obtain ⟨w, mid, hsign, hrest⟩ := sign_of_lexed h (by simp)
  refine ⟨mid, ?_, hrest⟩
  rcases hc with rfl | rfl
  · exact orElse_of_ok _ (seqRight_of_ok _ hsign)
  · have hother : Mismatches (connective .implies) cs :=
      mismatches_sign h (t := .connective .implies) (by simp)
    rw [arrow, orElse_of_mismatches _ (mismatches_seqRight _ hother)]
    exact seqRight_of_ok _ hsign

/-- A phrase begins with an atom. -/
theorem tooDeep_scanner (h : TooDeep p cs) (level : Level) : TooDeep (level.scanner p) cs := by
  have hconjunction : TooDeep (chain .and p) cs := tooDeep_bind _ h
  have hexclusive : TooDeep (chain .xor (chain .and p)) cs := tooDeep_bind _ hconjunction
  have hdisjunction : TooDeep (disjunction p) cs := tooDeep_bind _ hexclusive
  cases level with
  | atom => exact h
  | conjunction => exact hconjunction
  | exclusive => exact hexclusive
  | disjunction => exact hdisjunction
  | formula => exact tooDeep_bind _ hdisjunction

/-- Under a negation or a parenthesis there is less room. -/
theorem readsWithin_inner (level : Level)
    (h : ∀ k, ReadsWithin (room ≤ k) (level.scanner (atom (k + 1))) cs φ rest) (k : Nat) :
    ReadsWithin (room + 1 ≤ k) (level.scanner (atom k)) cs φ rest := by
  cases k with
  | zero => exact .inr ⟨by omega, tooDeep_scanner ⟨cs, rfl⟩ level⟩
  | succ k =>
    rw [Nat.add_le_add_iff_right]
    exact h k

/-- **A text whose tokens derive a formula is read as it, unless it is nested too
    deeply.**  With as much room as the derivation has, it is read. -/
theorem readsWithin_of_derives (h : Derives room level ts φ) (k : Nat) {cs rest : List Char}
    (hlexed : Lexed ts cs rest) (hstops : Stops level rest) :
    ReadsWithin (room ≤ k) (level.scanner (atom (k + 1))) cs φ rest := by
  induction h generalizing k cs rest with
  | verum => exact .of_ok (atom_of_name hlexed)
  | falsum => exact .of_ok (atom_of_name hlexed)
  | name hverum hfalsum =>
    rw [← leaf_eq hverum hfalsum]
    exact .of_ok (atom_of_name hlexed)
  | not _ ih =>
    exact atom_of_not hlexed fun mid hrest =>
      readsWithin_inner .atom (fun k => ih k hrest hstops) k
  | parens _ ih =>
    exact atom_of_parens hlexed fun mid mid' hformula hend =>
      readsWithin_inner .formula (fun k => ih k hformula hend) k
  | @chain room level operand c hlink ts φ _ more _ ih ihmore =>
    obtain ⟨mid, hfirst, hmore⟩ := Lexed.append_iff.1 hlexed
    have hoperand := ih k hfirst (hstops.of_link hlink hmore)
    have hrepeats := repeatsWithin_of_lexed hlink hstops
      (fun m hm cs rest => @ihmore m hm k cs rest) hmore
    have hstop : ∀ cs, Mismatches (connective c) cs →
        Mismatches (connective c *> operand.scanner (atom (k + 1))) cs :=
      fun cs => mismatches_seqRight _
    have hmany := hrepeats.many (consumes_link c operand k) (hstop [] (mismatches_connective_nil c))
      (hstop rest (hstops c (mem_continuations hlink)))
    rw [scanner_of_link _ hlink, ← List.foldl_map]
    exact .bind hoperand (.bind hmany (.of_ok rfl))
  | plain _ ih =>
    have hleft := ih k hlexed (hstops.of_subset (by decide))
    have harrow : Mismatches arrow rest := mismatches_orElse
      (mismatches_seqRight _ (hstops .implies (by decide)))
      (mismatches_seqRight _ (hstops .iff (by decide)))
    exact .bind hleft (.bind (.of_ok (optional_of_mismatches (mismatches_bind _ harrow))) (.of_ok rfl))
  | arrow hc _ _ ihleft ihright =>
    obtain ⟨mid, hts, hmid⟩ := Lexed.append_iff.1 hlexed
    have hleft := ihleft k hts (.of_lexed hmid (by rcases hc with rfl | rfl <;> decide))
    obtain ⟨mid', harrow, hus⟩ := arrow_of_lexed hc hmid
    have hright := ihright k hus (hstops.of_subset (by decide))
    exact .bind hleft (.bind (.optional (.bind (.of_ok harrow) (.bind hright (.of_ok rfl)))) (.of_ok rfl))

/-- A text whose tokens derive a formula is read as it. -/
theorem scanner_of_derives (h : Derives room level ts φ) {cs rest : List Char}
    (hlexed : Lexed ts cs rest) (hstops : Stops level rest) :
    level.scanner (atom (room + 1)) cs = .ok (φ, rest) :=
  (readsWithin_of_derives h room hlexed hstops).eq_ok le_rfl

/-- Nothing goes on at the end of the text. -/
theorem Stops.of_blank (level : Level) (h : ∀ c ∈ rest, isSpaceOrTab c = true) :
    Stops level rest := by
  intro c _
  have hend : rest.dropWhile isSpaceOrTab = [] := List.dropWhile_eq_nil_iff.2 h
  have hmismatches := mismatches_connective_nil c
  rw [connective, Mismatches, token_apply] at hmismatches ⊢
  rwa [hend]

end

end Deduction.Source

namespace Deduction

open Source Text Text.Scanner

theorem Formula.parse_eq_ok {source : String} {φ : Formula} :
    Formula.parse source = .ok φ ↔ toEnd formula source.toList = .ok (φ, []) := by
  have hend : ∀ ψ rest, toEnd formula source.toList = .ok (ψ, rest) → rest = [] :=
    fun ψ rest h => (toEnd_eq_ok.1 h).1
  unfold Formula.parse
  dsimp only
  generalize toEnd formula source.toList = result at hend ⊢
  rcases result with e | ⟨ψ, rest⟩
  · simp
  · simp [hend ψ rest rfl]

theorem Formula.parse_of_stop {source : String} {s : Stop}
    (h : toEnd formula source.toList = .error s) :
    Formula.parse source = .error (.ofStop 1 source.toList .formula s) := by
  unfold Formula.parse
  dsimp only
  rw [h]

/-- **Reading a formula accepts exactly the grammar**: a text is read as `φ` iff
    it is a sequence of tokens, spaces and tabs before each of them and behind the
    last one, that derives `φ`, no name under more than 128 negations and
    parentheses. -/
theorem Formula.parse_eq_ok_iff_derives (source : String) (φ : Formula) :
    Formula.parse source = .ok φ ↔ ∃ ts rest, Lexed ts source.toList rest ∧
      (∀ c ∈ rest, isSpaceOrTab c = true) ∧ Derives 128 .formula ts φ := by
  rw [Formula.parse_eq_ok, toEnd_eq_ok, formula_eq_scanner]
  constructor
  · rintro ⟨-, rest, hformula, hrest⟩
    obtain ⟨ts, hlexed, hderives⟩ := derives_of_scanner hformula
    exact ⟨ts, rest, hlexed, hrest, hderives⟩
  · rintro ⟨ts, rest, hlexed, hrest, hderives⟩
    exact ⟨rfl, rest, scanner_of_derives hderives hlexed (.of_blank .formula hrest), hrest⟩

end Deduction
