/-
  A written line is read back.

  * `reference_text`: the dotted form of a line number is read as the number;
  * `IsRuleName`: the names that are read for rules, and `ruleName_append`: they
    are read back;
  * `readLine_text`: the written form of a line is read as the line, but that
    its references come in ascending order.  What makes a line `Printable` holds
    of every line that is read (`printable_of_readLine`).
-/
import Deduction.Proofs.LineNumber
import Deduction.Proofs.Source.Printing

namespace Deduction

open Source Text Text.Scanner

theorem Text.intercalate_cons (sep w : List Char) (ws : List (List Char)) :
    sep.intercalate (w :: ws) = w ++ ws.flatMap (sep ++ ·) := by
  induction ws generalizing w with
  | nil => simp
  | cons v ws ih => rw [List.intercalate_cons_cons, ih]; simp

section
variable {n : Nat} {cs rest : List Char} {number : LineNumber}

/-! ## Line numbers -/

/-- The components are slots. -/
def LineNumber.InRange (number : LineNumber) : Prop := ∀ k ∈ number.path, k ≤ LineNumber.maxSlot

namespace Source

theorem digitsValue_toDigits (n : Nat) : digitsValue (Nat.toDigits 10 n) = n := by
  have h := @Nat.ofDigitChars_ten_toDigits n
  simpa only [digitsValue, Nat.ofDigitChars, Nat.mul_comm] using h

theorem component_toString (hn : n ≤ LineNumber.maxSlot) (hrest : EndsRun Char.isDigit rest) :
    component ((toString n).toList ++ rest) = .ok (n, rest) := by
  have hdigits : ∀ c ∈ Nat.toDigits 10 n, c.isDigit = true :=
    fun c hc => Nat.isDigit_of_mem_toDigits (by decide) (by decide) hc
  rw [Nat.toString_eq_ofList_toDigits, String.toList_ofList, component,
    takeWhile_append hdigits hrest, dropWhile_append hdigits hrest, digitsValue_toDigits]
  refine if_neg ?_
  simp [Nat.toDigits_ne_nil, hn]

theorem mismatches_component (h : EndsRun Char.isDigit cs) : Mismatches component cs := by
  refine ⟨cs, ?_⟩
  rw [component, takeWhile_eq_nil h]
  rfl

theorem of_component_eq_ok (h : component cs = .ok (n, rest)) :
    n ≤ LineNumber.maxSlot ∧ rest.length < cs.length := by
  rw [component] at h
  split at h
  · cases h
  rename_i hdigits
  obtain ⟨rfl, rfl⟩ := Prod.mk.inj (Except.ok.inj h)
  simp only [Bool.or_eq_true, List.isEmpty_iff, decide_eq_true_eq, not_or, Nat.not_lt] at hdigits
  have hlength := congrArg List.length (@List.takeWhile_append_dropWhile _ Char.isDigit cs)
  have hpos := List.length_pos_iff.2 hdigits.1
  rw [List.length_append] at hlength
  exact ⟨hdigits.2, by omega⟩

theorem consumes_component : Consumes component := fun _ _ _ h => (of_component_eq_ok h).2

theorem consumes_dotted : Consumes (word "." *> component) :=
  consumes_seqRight (consumes_word (by decide)) consumes_component

/-- A line number does not go on here. -/
def EndsReference (rest : List Char) : Prop :=
  EndsRun Char.isDigit rest ∧ Mismatches (word "." *> component) rest

theorem endsReference_of_ne_dot {c : Char} (hdot : '.' ≠ c) (hdigit : c.isDigit = false) :
    EndsReference (c :: cs) := by
  refine ⟨endsRun_cons.2 hdigit, mismatches_seqRight _ (mismatches_word ?_)⟩
  simpa using hdot

theorem endsReference_dot (h : EndsRun Char.isDigit cs) : EndsReference ('.' :: cs) := by
  refine ⟨endsRun_cons.2 (by decide), ?_⟩
  obtain ⟨e, he⟩ := mismatches_component h
  exact ⟨e, (seqRight_of_ok _ (word_append "." cs)).trans he⟩

theorem ofPath?_path (number : LineNumber) : LineNumber.ofPath? number.path = some number := by
  rw [LineNumber.ofPath?, LineNumber.path, List.reverse_reverse]
  rfl

theorem path_of_ofPath? {components : List Nat} (h : LineNumber.ofPath? components = some number) :
    number.path = components := by
  rw [LineNumber.ofPath?] at h
  split at h
  · cases h
  rename_i slot enclosing hreverse
  obtain rfl := Option.some.inj h
  rw [LineNumber.path, LineNumber.inward, ← hreverse, List.reverse_reverse]

theorem exists_text_eq (number : LineNumber) : ∃ k ks, number.path = k :: ks ∧
    number.text.toList = (toString k).toList ++
      ks.flatMap (fun b => ".".toList ++ (toString b).toList) := by
  obtain ⟨k, ks, hpath⟩ : ∃ k ks, number.path = k :: ks :=
    List.exists_cons_of_ne_nil (by simp [LineNumber.path, LineNumber.inward])
  refine ⟨k, ks, hpath, ?_⟩
  rw [LineNumber.text, String.toList_intercalate, hpath, List.map_map, List.map_cons,
    intercalate_cons, List.flatMap_map]
  rfl

theorem exists_text_eq_cons (number : LineNumber) :
    ∃ c cs, number.text.toList = c :: cs ∧ c.isDigit = true := by
  obtain ⟨k, ks, -, htext⟩ := exists_text_eq number
  rw [Nat.toString_eq_ofList_toDigits, String.toList_ofList] at htext
  obtain ⟨c, cs, hc⟩ := List.exists_cons_of_ne_nil (@Nat.toDigits_ne_nil k 10)
  rw [hc] at htext
  have hdigit : c.isDigit = true :=
    Nat.isDigit_of_mem_toDigits (by decide) (by decide) (hc ▸ List.mem_cons_self)
  exact ⟨c, _, htext, hdigit⟩

theorem reference_text (h : number.InRange) (hrest : EndsReference rest) :
    reference (number.text.toList ++ rest) = .ok (number, rest) := by
  obtain ⟨k, ks, hpath, htext⟩ := exists_text_eq number
  rw [LineNumber.InRange, hpath] at h
  obtain ⟨hk, hks⟩ := List.forall_mem_cons.1 h
  have hread : ∀ b ∈ ks, ∀ rest, EndsRun Char.isDigit rest → (word "." *> component)
      ((".".toList ++ (toString b).toList) ++ rest) = .ok (b, rest) := by
    intro b hb rest hrest
    rw [List.append_assoc, seqRight_of_ok _ (word_append "." _)]
    exact component_toString (hks b hb) hrest
  obtain ⟨hrepeats, hends⟩ := repeats_flatMap hread
    (fun b _ rest => endsRun_cons.2 (by decide)) hrest.1
  rw [reference, htext, List.append_assoc, separated_eq_ok consumes_dotted
    (component_toString hk hends) hrepeats hrest.2, ← hpath]
  simp only [ofPath?_path]

theorem inRange_of_reference (h : reference cs = .ok (number, rest)) : number.InRange := by
  rw [reference] at h
  split at h
  · cases h
  rename_i components rest' hseparated
  split at h
  · rename_i m hpath
    obtain ⟨rfl, rfl⟩ := Prod.mk.inj (Except.ok.inj h)
    obtain ⟨k, ks, mid, rfl, hfirst, hmore⟩ := of_separated_eq_ok hseparated
    rw [LineNumber.InRange, path_of_ofPath? hpath]
    refine List.forall_mem_cons.2 ⟨(of_component_eq_ok hfirst).1, fun b hb => ?_⟩
    obtain ⟨cs', rest', hb⟩ := hmore.exists_read hb
    obtain ⟨_, _, -, hb⟩ := seqRight_eq_ok.1 hb
    exact (of_component_eq_ok hb).1
  · cases h

theorem consumes_reference : Consumes reference := by
  intro cs number rest h
  rw [reference] at h
  split at h
  · cases h
  rename_i components rest' hseparated
  split at h
  · obtain ⟨rfl, rfl⟩ := Prod.mk.inj (Except.ok.inj h)
    exact consumes_separated (consumes_word (by decide)) consumes_component _ _ _ hseparated
  · cases h

/-! ## Rule names -/

/-- A non-empty run of the characters of rule names. -/
def IsRuleWord (w : List Char) : Prop := w ≠ [] ∧ ∀ c ∈ w, isRuleNameChar c = true

instance (w : List Char) : Decidable (IsRuleWord w) :=
  @instDecidableAnd _ _ _ (List.decidableBAll _ w)

/-- The signs that stay as they are in the name of a rule. -/
def keptSigns : List Token := [.connective .xor, .not, .connective .implies, .connective .iff]

/-- The names that are read for rules: words, and possibly one of the kept signs
    in a spelling that does not look like a word. -/
inductive IsRuleName : String → Prop
  | words {w : List Char} {ws : List (List Char)} (hw : ∀ v ∈ w :: ws, IsRuleWord v) :
      IsRuleName (" ".intercalate ((w :: ws).map String.ofList))
  | sign {w : List Char} {ws : List (List Char)} (hw : ∀ v ∈ w :: ws, IsRuleWord v) {t : Token}
      (ht : t ∈ keptSigns) {v : String} (hv : v ∈ t.spellings)
      (hstart : EndsRun isRuleNameChar v.toList) :
      IsRuleName (" ".intercalate ((w :: ws).map String.ofList ++ [v]))

theorem token_ruleWord {w blank : List Char} (hw : IsRuleWord w)
    (hblank : ∀ c ∈ blank, isSpaceOrTab c = true) (hrest : EndsRun isRuleNameChar rest) :
    token (takeWhile1 isRuleNameChar) (blank ++ (w ++ rest)) = .ok (w, rest) := by
  obtain ⟨hne, hall⟩ := hw
  have hstart : EndsRun isSpaceOrTab (w ++ rest) := by
    intro c hc
    rw [List.head?_append_of_ne_nil _ hne] at hc
    exact isSpaceOrTab_eq_false (by decide) (hall c (List.mem_of_mem_head? hc))
  rw [token_apply, dropWhile_append hblank hstart]
  exact takeWhile1_of_append hall hne hrest

/-- Words are read up to where another one cannot begin, and then the sign. -/
theorem ruleName_words {w : List Char} {ws : List (List Char)} {mid : List Char}
    {sign : Option String} (hw : ∀ v ∈ w :: ws, IsRuleWord v) (hend : EndsRun isRuleNameChar mid)
    (hstop : EndsRun isRuleNameChar (mid.dropWhile isSpaceOrTab))
    (hsign : optional ruleConnective mid = .ok (sign, rest)) :
    ruleName (w ++ (ws.flatMap ([' '] ++ ·) ++ mid)) =
      .ok (" ".intercalate ((w :: ws).map String.ofList ++ sign.toList), rest) := by
  obtain ⟨hw, hws⟩ := List.forall_mem_cons.1 hw
  obtain ⟨hrepeats, hends⟩ := @repeats_flatMap _ (token (takeWhile1 isRuleNameChar)) mid
    ([' '] ++ ·) (EndsRun isRuleNameChar) ws
    (fun v hv rest hrest => by
      rw [List.append_assoc]
      exact token_ruleWord (hws v hv) (List.forall_mem_singleton.2 rfl) hrest)
    (fun v _ rest => endsRun_cons.2 (by decide)) hend
  have hmany := many_eq_ok (consumes_token (consumes_takeWhile1 isRuleNameChar)) hrepeats
    (mismatches_takeWhile1 hstop)
  have hmany1 : many1 (token (takeWhile1 isRuleNameChar)) (w ++ (ws.flatMap ([' '] ++ ·) ++ mid)) =
      .ok (w :: ws, mid) :=
    (bind_of_ok _ (token_ruleWord hw (List.forall_mem_nil _) hends)).trans (bind_of_ok _ hmany)
  exact (bind_of_ok _ hmany1).trans (bind_of_ok _ hsign)

theorem ruleConnective_of_kept {t : Token} {v : String} (ht : t ∈ keptSigns) (hv : v ∈ t.spellings)
    (hcs : cs.dropWhile isSpaceOrTab = v.toList ++ rest) : ruleConnective cs = .ok (v, rest) := by
  have hlexed : Lexed [t] cs rest := .of_dropWhile (.sign hv) hcs (by rintro x rfl; cases hv)
  have hmismatches : ∀ t', t' ≠ t → Mismatches (token (oneOf t'.spellings)) cs :=
    fun t' hne => mismatches_sign hlexed hne
  have hread := sign_eq_ok hv hcs
  have hskip : ∀ {p q : Scanner String}, Mismatches p cs → q cs = .ok (v, rest) →
      orElse p q cs = .ok (v, rest) := fun hp hq => (orElse_of_mismatches _ hp).trans hq
  have hand : Mismatches (connective .and *> pure "and") cs :=
    mismatches_seqRight _ (hmismatches (.connective .and) (by rintro rfl; revert ht; decide))
  have hor : Mismatches (connective .or *> pure "or") cs :=
    mismatches_seqRight _ (hmismatches (.connective .or) (by rintro rfl; revert ht; decide))
  refine hskip hand (hskip hor ?_)
  simp only [keptSigns, List.mem_cons, List.not_mem_nil, or_false] at ht
  rcases ht with rfl | rfl | rfl | rfl
  · exact orElse_of_ok _ hread
  · exact hskip (hmismatches (.connective .xor) (by decide)) (orElse_of_ok _ hread)
  · exact hskip (hmismatches (.connective .xor) (by decide))
      (hskip (hmismatches .not (by decide)) (orElse_of_ok _ hread))
  · exact hskip (hmismatches (.connective .xor) (by decide)) (hskip (hmismatches .not (by decide))
      (hskip (hmismatches (.connective .implies) (by decide)) hread))

theorem of_ruleConnective_eq_ok {v : String} (h : ruleConnective cs = .ok (v, rest)) :
    v = "and" ∨ v = "or" ∨
      ∃ t ∈ keptSigns, v ∈ t.spellings ∧ cs.dropWhile isSpaceOrTab = v.toList ++ rest := by
  rcases orElse_eq_ok.1 h with h | ⟨-, h⟩
  · obtain ⟨_, _, -, hpure⟩ := seqRight_eq_ok.1 h
    exact .inl (pure_eq_ok.1 hpure).1
  rcases orElse_eq_ok.1 h with h | ⟨-, h⟩
  · obtain ⟨_, _, -, hpure⟩ := seqRight_eq_ok.1 h
    exact .inr (.inl (pure_eq_ok.1 hpure).1)
  have hkept : ∃ t ∈ keptSigns, token (oneOf t.spellings) cs = .ok (v, rest) := by
    rcases orElse_eq_ok.1 h with h | ⟨-, h⟩
    · exact ⟨.connective .xor, by decide, h⟩
    rcases orElse_eq_ok.1 h with h | ⟨-, h⟩
    · exact ⟨.not, by decide, h⟩
    rcases orElse_eq_ok.1 h with h | ⟨-, h⟩
    · exact ⟨.connective .implies, by decide, h⟩
    · exact ⟨.connective .iff, by decide, h⟩
  obtain ⟨t, ht, h⟩ := hkept
  exact .inr (.inr ⟨t, ht, of_oneOf_eq_ok h⟩)

/-- What is read as the name of a rule can be written and read again. -/
theorem isRuleName_of_ruleName {name : String} (h : ruleName cs = .ok (name, rest)) :
    IsRuleName name := by
  obtain ⟨words, mid, hwords, h⟩ := bind_eq_ok.1 h
  obtain ⟨sign, mid', hsign, hpure⟩ := bind_eq_ok.1 h
  obtain ⟨rfl, rfl⟩ := pure_eq_ok.1 hpure
  obtain ⟨w, mid₀, hfirst, hmore⟩ := bind_eq_ok.1 hwords
  obtain ⟨ws, mid₁, hmany, hpure⟩ := bind_eq_ok.1 hmore
  obtain ⟨rfl, rfl⟩ := pure_eq_ok.1 hpure
  have hword : ∀ {cs v rest}, token (takeWhile1 isRuleNameChar) cs = .ok (v, rest) → IsRuleWord v := by
    intro cs v rest h
    rw [token_apply] at h
    obtain ⟨hne, hall, -, -⟩ := takeWhile1_eq_ok.1 h
    exact ⟨hne, hall⟩
  have hall : ∀ v ∈ w :: ws, IsRuleWord v := by
    refine List.forall_mem_cons.2 ⟨hword hfirst, fun v hv => ?_⟩
    obtain ⟨_, _, hv⟩ := (repeats_of_many hmany).exists_read hv
    exact hword hv
  -- conjunction and disjunction have become one more word
  have hspelled : ∀ v : String, IsRuleWord v.toList →
      IsRuleName (" ".intercalate ((w :: ws).map String.ofList ++ [v])) := by
    intro v hv
    have hname := @IsRuleName.words w (ws ++ [v.toList]) (by
      simpa [or_imp, forall_and] using ⟨hall w (by simp), fun u hu => hall u (by simp [hu]), hv⟩)
    simpa using hname
  cases sign with
  | none => simpa using IsRuleName.words hall
  | some v =>
    rcases of_ruleConnective_eq_ok (optional_eq_some.1 hsign) with rfl | rfl | ⟨t, ht, hv, hmid⟩
    · exact hspelled "and" (by decide)
    · exact hspelled "or" (by decide)
    · refine .sign hall ht hv fun c hc => ?_
      have hne := (Spelled.sign hv).ne_nil
      have hstop := mismatches_of_many (consumes_token (consumes_takeWhile1 isRuleNameChar)) hmany
      rcases hstop with rfl | hstop
      · exact absurd (List.append_eq_nil_iff.1 hmid.symm).1 hne
      · rw [← List.head?_append_of_ne_nil _ hne, ← hmid] at hc
        exact endsRun_of_mismatches hstop c hc

theorem mismatches_ruleConnective {c : Char} (hc : NoSignStart c) :
    Mismatches ruleConnective (c :: cs) := by
  have hsign : ∀ t : Token, Mismatches (token (oneOf t.spellings)) (c :: cs) :=
    fun t => mismatches_sign_of_start t hc (dropWhile_eq_self (endsRun_cons.2 hc.1))
  refine mismatches_orElse (mismatches_seqRight _ (hsign (.connective .and))) ?_
  refine mismatches_orElse (mismatches_seqRight _ (hsign (.connective .or))) ?_
  refine mismatches_orElse (hsign (.connective .xor)) (mismatches_orElse (hsign .not) ?_)
  exact mismatches_orElse (hsign (.connective .implies)) (hsign (.connective .iff))

/-- **The name of a rule is read back** before a character with which neither a
    word nor a sign begins. -/
theorem ruleName_append {name : String} {c : Char} (h : IsRuleName name)
    (hchar : isRuleNameChar c = false) (hc : NoSignStart c) :
    ruleName (name.toList ++ c :: cs) = .ok (name, c :: cs) := by
  have hspace : " ".toList = [' '] := rfl
  have hmap : ∀ ws : List (List Char), (ws.map String.ofList).map String.toList = ws := by
    intro ws; simp [Function.comp_def]
  cases h with
  | @words w ws hw =>
    have hstop : EndsRun isRuleNameChar ((c :: cs).dropWhile isSpaceOrTab) := by
      rw [dropWhile_eq_self (endsRun_cons.2 hc.1)]
      exact endsRun_cons.2 hchar
    have hname := ruleName_words hw (endsRun_cons.2 hchar) hstop
      (optional_of_mismatches (@mismatches_ruleConnective cs c hc))
    rw [Option.toList_none, List.append_nil] at hname
    rw [String.toList_intercalate, hmap, hspace, intercalate_cons, List.append_assoc]
    exact hname
  | @sign w ws hw t ht v hv hstart =>
    have hstop : (' ' :: (v.toList ++ c :: cs)).dropWhile isSpaceOrTab = v.toList ++ c :: cs :=
      @dropWhile_append _ [' '] _ (List.forall_mem_singleton.2 rfl) ((Spelled.sign hv).endsRun_append _)
    have hsign := optional_of_ok (ruleConnective_of_kept ht hv hstop)
    have hname := ruleName_words hw (endsRun_cons.2 (by decide)) (by
      rw [hstop]
      intro d hd
      rw [List.head?_append_of_ne_nil _ (Spelled.sign hv).ne_nil] at hd
      exact hstart d hd) hsign
    rw [Option.toList_some] at hname
    rw [String.toList_intercalate, List.map_append, hmap, hspace, List.cons_append,
      intercalate_cons, List.flatMap_append]
    simpa using hname

end Source

end

/-! ## Citations -/

/-- What can be written and read again. -/
structure Citation.Printable (c : Citation) : Prop where
  rule : IsRuleName c.rule
  refs : ∀ n ∈ c.refs, n.InRange

/-- The citation with its references in ascending order. -/
def Citation.sorted (c : Citation) : Citation := { c with refs := LineNumber.sort c.refs }

namespace Source

variable {cs rest : List Char} {c : Citation}

theorem consumes_nextReference : Consumes (token (word ",") *> token reference) :=
  consumes_seqRight (consumes_token (consumes_word (by decide))) (consumes_token consumes_reference)

theorem token_reference {n : LineNumber} (hn : n.InRange) {blank : List Char}
    (hblank : ∀ c ∈ blank, isSpaceOrTab c = true) (hrest : EndsReference rest) :
    token reference (blank ++ (n.text.toList ++ rest)) = .ok (n, rest) := by
  obtain ⟨c, cs, htext, hdigit⟩ := exists_text_eq_cons n
  have hstart : EndsRun isSpaceOrTab (n.text.toList ++ rest) := by
    rw [htext]
    exact endsRun_cons.2 (isSpaceOrTab_eq_false (by decide) hdigit)
  rw [token_apply, dropWhile_append hblank hstart]
  exact reference_text hn hrest

theorem nextReference_text {n : LineNumber} (hn : n.InRange) (hrest : EndsReference rest) :
    (token (word ",") *> token reference) ([',', ' '] ++ n.text.toList ++ rest) = .ok (n, rest) := by
  have hcomma : token (word ",") ([',', ' '] ++ (n.text.toList ++ rest)) =
      .ok ((), [' '] ++ (n.text.toList ++ rest)) := word_append "," _
  rw [List.append_assoc, seqRight_of_ok _ hcomma]
  exact token_reference hn (List.forall_mem_singleton.2 rfl) hrest

theorem separated_references {n : LineNumber} {ns : List LineNumber}
    (hns : ∀ m ∈ n :: ns, m.InRange) : separated (token (word ",")) (token reference)
      ([' '] ++ (n.text.toList ++ (ns.flatMap (fun m => [',', ' '] ++ m.text.toList) ++ ']' :: rest))) =
        .ok (n :: ns, ']' :: rest) := by
  obtain ⟨hn, hns⟩ := List.forall_mem_cons.1 hns
  obtain ⟨hrepeats, hends⟩ := @repeats_flatMap _ (token (word ",") *> token reference) (']' :: rest)
    (fun m => [',', ' '] ++ m.text.toList) EndsReference ns
    (fun m hm _ hrest => nextReference_text (hns m hm) hrest)
    (fun _ _ _ => endsReference_of_ne_dot (by decide) (by decide))
    (endsReference_of_ne_dot (by decide) (by decide))
  refine separated_eq_ok consumes_nextReference
    (token_reference hn (List.forall_mem_singleton.2 rfl) hends) hrepeats ?_
  exact mismatches_seqRight _ (mismatches_token (by decide) (mismatches_word (by simp)))

/-- **A written citation is read back**, its references in ascending order. -/
theorem citation_text (h : c.Printable) :
    citation ([' ', '['] ++ (c.text.toList ++ ']' :: rest)) = .ok (c.sorted, rest) := by
  have hopening : token (word "[") ([' ', '['] ++ (c.text.toList ++ ']' :: rest)) =
      .ok ((), c.text.toList ++ ']' :: rest) := word_append "[" _
  have hclosing : token (word "]") (']' :: rest) = .ok ((), rest) := word_append "]" rest
  rw [citation, bind_of_ok _ hopening]
  by_cases hrefs : c.refs = []
  · have htext : c.text = c.rule := by simp [Citation.text, hrefs]
    have hcolon : Mismatches (token (word ":")) (']' :: rest) :=
      mismatches_token (by decide) (mismatches_word (by simp))
    have hsorted : c.sorted = ⟨c.rule, []⟩ := by simp [Citation.sorted, hrefs, LineNumber.sort]
    rw [htext, hsorted, bind_of_ok _ (ruleName_append h.rule (by decide) (by decide)),
      bind_of_ok _ (optional_of_mismatches (mismatches_bind _ hcolon)), bind_of_ok _ hclosing]
    rfl
  · have hperm := LineNumber.sort_perm c.refs
    obtain ⟨n, ns, hsort⟩ := List.exists_cons_of_ne_nil
      (fun hnil : LineNumber.sort c.refs = [] => hrefs (hnil ▸ hperm).symm.eq_nil)
    have htext : c.text.toList = c.rule.toList ++ ':' :: ([' '] ++ (n.text.toList ++
        ns.flatMap (fun m => [',', ' '] ++ m.text.toList))) := by
      simp [Citation.text, hrefs, hsort, String.toList_intercalate, intercalate_cons,
        List.flatMap_map]
    have hsorted : c.sorted = ⟨c.rule, n :: ns⟩ := by rw [Citation.sorted, hsort]
    have hrange : ∀ m ∈ n :: ns, m.InRange := fun m hm => h.refs m (hperm.mem_iff.1 (hsort ▸ hm))
    have hcolon : token (word ":") (':' :: ([' '] ++ (n.text.toList ++
        (ns.flatMap (fun m => [',', ' '] ++ m.text.toList) ++ ']' :: rest)))) = .ok ((), _) :=
      word_append ":" _
    rw [htext, hsorted, List.append_assoc, List.cons_append, List.append_assoc, List.append_assoc,
      bind_of_ok _ (ruleName_append h.rule (by decide) (by decide)),
      bind_of_ok _ (optional_of_ok ((bind_of_ok _ hcolon).trans (separated_references hrange))),
      bind_of_ok _ hclosing]
    rfl

/-- What is read as a citation can be written and read again. -/
theorem printable_of_citation (h : citation cs = .ok (c, rest)) : c.Printable := by
  obtain ⟨_, _, -, h⟩ := bind_eq_ok.1 h
  obtain ⟨rule, _, hrule, h⟩ := bind_eq_ok.1 h
  obtain ⟨refs, _, hrefs, h⟩ := bind_eq_ok.1 h
  obtain ⟨_, _, -, hpure⟩ := bind_eq_ok.1 h
  obtain ⟨rfl, rfl⟩ := pure_eq_ok.1 hpure
  refine ⟨isRuleName_of_ruleName hrule, ?_⟩
  have hread : ∀ {cs n rest}, token reference cs = .ok (n, rest) → n.InRange := fun h =>
    inRange_of_reference h
  cases refs with
  | none => exact List.forall_mem_nil _
  | some refs =>
    obtain ⟨_, _, -, hrefs⟩ := bind_eq_ok.1 (optional_eq_some.1 hrefs)
    obtain ⟨n, ns, mid, rfl, hfirst, hmore⟩ := of_separated_eq_ok hrefs
    refine List.forall_mem_cons.2 ⟨hread hfirst, fun m hm => ?_⟩
    obtain ⟨_, _, hm⟩ := hmore.exists_read hm
    obtain ⟨_, _, -, hm⟩ := seqRight_eq_ok.1 hm
    exact hread hm

end Source

/-! ## Lines -/

/-- What can be written and read again. -/
structure Line.Printable (l : Line) : Prop where
  number : l.number.InRange
  formula : l.formula.Readable
  citation : l.citation.Printable

/-- The line with its references in ascending order. -/
def Line.sorted (l : Line) : Line := { l with citation := l.citation.sorted }

theorem Line.text_sorted (l : Line) : l.sorted.text = l.text := by
  have hnil : LineNumber.sort l.citation.refs = [] ↔ l.citation.refs = [] :=
    ⟨fun h => (h ▸ LineNumber.sort_perm l.citation.refs).symm.eq_nil, fun h => by simp [h, LineNumber.sort]⟩
  have hcitation : l.citation.sorted.text = l.citation.text := by
    simp only [Citation.text, Citation.sorted, List.isEmpty_iff, hnil, LineNumber.sort_sort]
  simp only [Line.text, Line.sorted, hcitation]

namespace Source

variable {cs rest : List Char} {l : Line}

theorem token_label {n : LineNumber} (hn : n.InRange) (hrest : EndsRun Char.isDigit rest) :
    token label (n.text.toList ++ '.' :: rest) = .ok (n, rest) := by
  have hreference := @token_reference _ n hn [] (by simp) (endsReference_dot hrest)
  rw [token_apply] at hreference ⊢
  exact (bind_of_ok _ hreference).trans (bind_of_ok _ (word_append "." rest))

theorem readLine_eq_ok : readLine cs = .ok l ↔ ∃ rest rest' rest'',
    token label cs = .ok (l.number, rest) ∧ formula rest = .ok (l.formula, rest') ∧
      citation rest' = .ok (l.citation, rest'') ∧ trimStart rest'' = [] := by
  constructor
  · intro h
    rw [readLine] at h
    split at h
    · cases h
    rename_i number rest hlabel
    split at h
    · cases h
    rename_i φ rest' hformula
    split at h
    · split at h <;> cases h
    rename_i c rest'' hcitation
    split at h
    · rename_i htrim
      obtain rfl := Except.ok.inj h
      exact ⟨rest, rest', rest'', hlabel, hformula, hcitation, htrim⟩
    · cases h
  · rintro ⟨rest, rest', rest'', hlabel, hformula, hcitation, htrim⟩
    simp only [readLine, hlabel, hformula, hcitation, htrim]

/-- **A written line is read back**, its references in ascending order. -/
theorem readLine_text (h : l.Printable) : readLine l.text.toList = .ok l.sorted := by
  have htext : l.text.toList = l.number.text.toList ++ '.' :: ([' '] ++ (l.formula.text.toList ++
      ([' ', '['] ++ (l.citation.text.toList ++ [']'])))) := by
    simp [Line.text]
  have hrun : EndsRun isIdentifierChar ([' ', '['] ++ (l.citation.text.toList ++ [']'])) :=
    endsRun_cons.2 (by decide)
  have hstops : Stops .formula ([' ', '['] ++ (l.citation.text.toList ++ [']'])) :=
    fun c _ => mismatches_sign_of_start (.connective c) (by decide : NoSignStart '[') rfl
  have hdigit : EndsRun Char.isDigit ([' '] ++ (l.formula.text.toList ++
      ([' ', '['] ++ (l.citation.text.toList ++ [']'])))) := endsRun_cons.2 (by decide)
  rw [readLine_eq_ok, htext]
  exact ⟨_, _, [], token_label h.number hdigit, h.formula.formula_text hrun hstops (by decide),
    citation_text h.citation, rfl⟩

/-- What is read as a line can be written and read again. -/
theorem printable_of_readLine (h : readLine cs = .ok l) : l.Printable := by
  obtain ⟨rest, rest', rest'', hlabel, hformula, hcitation, -⟩ := readLine_eq_ok.1 h
  rw [token_apply] at hlabel
  obtain ⟨n, _, hreference, hlabel⟩ := bind_eq_ok.1 hlabel
  obtain ⟨_, _, -, hpure⟩ := bind_eq_ok.1 hlabel
  obtain ⟨hn, -⟩ := pure_eq_ok.1 hpure
  exact ⟨hn ▸ inRange_of_reference hreference, Formula.readable_of_formula hformula,
    printable_of_citation hcitation⟩

end Source

end Deduction
