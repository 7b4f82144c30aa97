/-
  What scanners read.

  For each way to build a scanner: when it succeeds, with which value and which
  rest, and when it mismatches.

  * `EndsRun`: where a run of characters of one kind ends;
  * `Mismatches`: a scanner stops so that another alternative is tried;
  * `Repeats`: rounds of a scanner one after another.  By `repeats_of_many` and
    `many_eq_ok`, `many` makes as many rounds as there are;
  * `ReadsWithin`: a scanner reads a value, unless the nesting limit stops it.
-/
import Deduction.Text.Scanner
import Mathlib.Data.List.Infix
import Mathlib.Data.List.TakeWhile

namespace Deduction.Text

/-- A run of characters of the kind `k` ends before `cs`. -/
def EndsRun (k : Char → Bool) (cs : List Char) : Prop := ∀ c ∈ cs.head?, k c = false

section
variable {k : Char → Bool} {c : Char} {w cs : List Char}

theorem endsRun_cons : EndsRun k (c :: cs) ↔ k c = false := by simp [EndsRun]

instance (k : Char → Bool) : (cs : List Char) → Decidable (EndsRun k cs)
  | [] => isTrue fun _ h => nomatch h
  | _ :: _ => decidable_of_iff _ endsRun_cons.symm

theorem endsRun_dropWhile (k : Char → Bool) (cs : List Char) : EndsRun k (cs.dropWhile k) := by
  intro c hc
  have h := List.head?_dropWhile_not k cs
  rw [Option.mem_def.1 hc] at h
  exact h

theorem takeWhile_eq_nil (h : EndsRun k cs) : cs.takeWhile k = [] := by
  cases cs with
  | nil => rfl
  | cons c cs => simp [endsRun_cons.1 h]

theorem dropWhile_eq_self (h : EndsRun k cs) : cs.dropWhile k = cs := by
  cases cs with
  | nil => rfl
  | cons c cs => simp [endsRun_cons.1 h]

theorem takeWhile_append (hw : ∀ c ∈ w, k c = true) (h : EndsRun k cs) :
    (w ++ cs).takeWhile k = w := by
  rw [List.takeWhile_append_of_pos hw, takeWhile_eq_nil h, List.append_nil]

theorem dropWhile_append (hw : ∀ c ∈ w, k c = true) (h : EndsRun k cs) :
    (w ++ cs).dropWhile k = cs := by
  rw [List.dropWhile_append_of_pos hw, dropWhile_eq_self h]

/-- A kind without the two blanks. -/
theorem isSpaceOrTab_eq_false (hblank : k ' ' = false ∧ k '\t' = false) (h : k c = true) :
    isSpaceOrTab c = false := by
  by_contra hc
  rw [Bool.not_eq_false, isSpaceOrTab, Bool.or_eq_true, decide_eq_true_eq, decide_eq_true_eq] at hc
  rcases hc with rfl | rfl
  · rw [hblank.1] at h; cases h
  · rw [hblank.2] at h; cases h

end

namespace Scanner

variable {α β : Type} {p : Scanner α} {cs mid rest : List Char} {a : α} {s : Stop}

/-- The scanner stops here, and another alternative may be tried. -/
def Mismatches (p : Scanner α) (cs : List Char) : Prop :=
  ∃ rest, p cs = .error ⟨.mismatch, rest⟩

/-- The scanner takes at least one character. -/
def Consumes (p : Scanner α) : Prop :=
  ∀ cs a rest, p cs = .ok (a, rest) → rest.length < cs.length

/-! ## One after another -/

theorem bind_of_ok (f : α → Scanner β) (h : p cs = .ok (a, mid)) : (p >>= f) cs = f a mid := by
  change (p cs >>= fun r => f r.1 r.2) = _
  rw [h]; rfl

theorem bind_eq_ok {f : α → Scanner β} {b : β} : (p >>= f) cs = .ok (b, rest) ↔
    ∃ a mid, p cs = .ok (a, mid) ∧ f a mid = .ok (b, rest) := by
  change (p cs >>= fun r => f r.1 r.2) = _ ↔ _
  cases p cs with
  | error s => simp [bind, Except.bind]
  | ok r =>
    obtain ⟨a, mid⟩ := r
    simp [bind, Except.bind]

theorem mismatches_bind (f : α → Scanner β) (h : Mismatches p cs) : Mismatches (p >>= f) cs := by
  obtain ⟨rest, h⟩ := h
  refine ⟨rest, ?_⟩
  change (p cs >>= fun r => f r.1 r.2) = _
  rw [h]; rfl

theorem pure_eq_ok {b : α} : (pure a : Scanner α) cs = .ok (b, rest) ↔ b = a ∧ rest = cs := by
  change Except.ok (a, cs) = _ ↔ _
  simp [eq_comm]

theorem map_of_ok (f : α → β) (h : p cs = .ok (a, rest)) : (f <$> p) cs = .ok (f a, rest) := by
  rw [map_eq_pure_bind, bind_of_ok _ h]; rfl

theorem map_eq_ok {f : α → β} {b : β} :
    (f <$> p) cs = .ok (b, rest) ↔ ∃ a, p cs = .ok (a, rest) ∧ b = f a := by
  rw [map_eq_pure_bind, bind_eq_ok]
  simp only [pure_eq_ok]
  constructor
  · rintro ⟨a, mid, h, rfl, rfl⟩; exact ⟨a, h, rfl⟩
  · rintro ⟨a, h, rfl⟩; exact ⟨a, rest, h, rfl, rfl⟩

theorem seqRight_of_ok (q : Scanner β) (h : p cs = .ok (a, mid)) : (p *> q) cs = q mid := by
  rw [seqRight_eq_bind, bind_of_ok _ h]

theorem seqRight_eq_ok {q : Scanner β} {b : β} : (p *> q) cs = .ok (b, rest) ↔
    ∃ a mid, p cs = .ok (a, mid) ∧ q mid = .ok (b, rest) := by
  rw [seqRight_eq_bind, bind_eq_ok]

theorem mismatches_seqRight (q : Scanner β) (h : Mismatches p cs) : Mismatches (p *> q) cs := by
  rw [seqRight_eq_bind]; exact mismatches_bind _ h

/-! ## Alternatives -/

theorem orElse_of_ok {r : α × List Char} (q : Scanner α) (h : p cs = .ok r) :
    orElse p q cs = .ok r := by
  rw [orElse, h]

theorem orElse_of_mismatches (q : Scanner α) (h : Mismatches p cs) : orElse p q cs = q cs := by
  obtain ⟨rest, h⟩ := h
  rw [orElse, h]

theorem orElse_eq_ok {q : Scanner α} {r : α × List Char} : orElse p q cs = .ok r ↔
    p cs = .ok r ∨ Mismatches p cs ∧ q cs = .ok r := by
  rw [orElse]
  rcases hp : p cs with ⟨kind, e⟩ | r'
  · cases kind <;> simp [Mismatches, hp]
  · simp [Mismatches, hp]

theorem mismatches_orElse {q : Scanner α} (hp : Mismatches p cs) (hq : Mismatches q cs) :
    Mismatches (orElse p q) cs := by
  obtain ⟨rest, hq⟩ := hq
  exact ⟨rest, by rw [orElse_of_mismatches q hp, hq]⟩

theorem optional_of_ok (h : p cs = .ok (a, rest)) : optional p cs = .ok (some a, rest) := by
  rw [optional, h]

theorem optional_of_mismatches (h : Mismatches p cs) : optional p cs = .ok (none, cs) := by
  obtain ⟨rest, h⟩ := h
  rw [optional, h]

theorem optional_eq_ok {o : Option α} : optional p cs = .ok (o, rest) ↔
    (∃ a, o = some a ∧ p cs = .ok (a, rest)) ∨ o = none ∧ rest = cs ∧ Mismatches p cs := by
  rw [optional]
  rcases hp : p cs with ⟨kind, e⟩ | ⟨a, r⟩
  · cases kind <;> simp [Mismatches, hp, eq_comm]
  · simp [Mismatches, hp, eq_comm]

theorem optional_eq_some : optional p cs = .ok (some a, rest) ↔ p cs = .ok (a, rest) := by
  simp [optional_eq_ok]

/-! ## Repetition -/

/-- Rounds of `p` one after another, each of which succeeds. -/
inductive Repeats (p : Scanner α) : List Char → List α → List Char → Prop
  | stop {cs : List Char} : Repeats p cs [] cs
  | next {cs mid rest : List Char} {a : α} {as : List α} (hfirst : p cs = .ok (a, mid))
      (hrest : Repeats p mid as rest) : Repeats p cs (a :: as) rest

theorem repeats_of_manyUpTo {rounds : Nat} {as : List α}
    (h : manyUpTo p rounds cs = .ok (as, rest)) : Repeats p cs as rest := by
  induction rounds generalizing cs as with
  | zero =>
    obtain ⟨rfl, rfl⟩ := pure_eq_ok.1 h
    exact .stop
  | succ rounds ih =>
    obtain ⟨o, mid, ho, hrest⟩ := bind_eq_ok.1 h
    rcases optional_eq_ok.1 ho with ⟨a, rfl, ha⟩ | ⟨rfl, rfl, -⟩
    · obtain ⟨as', mid', has, hpure⟩ := bind_eq_ok.1 hrest
      obtain ⟨rfl, rfl⟩ := pure_eq_ok.1 hpure
      exact .next ha (ih has)
    · obtain ⟨rfl, rfl⟩ := pure_eq_ok.1 hrest
      exact .stop

theorem repeats_of_many {as : List α} (h : many p cs = .ok (as, rest)) : Repeats p cs as rest :=
  repeats_of_manyUpTo h

theorem mismatches_of_manyUpTo (hp : Consumes p) {rounds : Nat} (hrounds : cs.length ≤ rounds)
    {as : List α} (h : manyUpTo p rounds cs = .ok (as, rest)) : rest = [] ∨ Mismatches p rest := by
  induction rounds generalizing cs as with
  | zero =>
    obtain ⟨-, rfl⟩ := pure_eq_ok.1 h
    exact .inl (List.length_eq_zero_iff.1 (Nat.le_zero.1 hrounds))
  | succ rounds ih =>
    obtain ⟨o, mid, ho, hrest⟩ := bind_eq_ok.1 h
    rcases optional_eq_ok.1 ho with ⟨a, rfl, ha⟩ | ⟨rfl, rfl, hmismatches⟩
    · obtain ⟨as', mid', has, hpure⟩ := bind_eq_ok.1 hrest
      obtain ⟨-, rfl⟩ := pure_eq_ok.1 hpure
      have hlt := hp _ _ _ ha
      exact ih (by omega) has
    · obtain ⟨-, rfl⟩ := pure_eq_ok.1 hrest
      exact .inr hmismatches

theorem mismatches_of_many (hp : Consumes p) {as : List α} (h : many p cs = .ok (as, rest)) :
    rest = [] ∨ Mismatches p rest :=
  mismatches_of_manyUpTo hp le_rfl h

/-- The length of the text bounds the number of rounds. -/
theorem manyUpTo_eq_ok (hp : Consumes p) {rounds : Nat} (hrounds : cs.length ≤ rounds)
    {as : List α} (h : Repeats p cs as rest) (hstop : Mismatches p rest) :
    manyUpTo p rounds cs = .ok (as, rest) := by
  induction h generalizing rounds with
  | @stop cs =>
    cases rounds with
    | zero => rfl
    | succ rounds =>
      rw [manyUpTo, bind_of_ok _ (optional_of_mismatches hstop)]; rfl
  | @next cs mid rest a as hfirst _ ih =>
    have hlt := hp _ _ _ hfirst
    cases rounds with
    | zero => omega
    | succ rounds =>
      rw [manyUpTo, bind_of_ok _ (optional_of_ok hfirst)]
      exact bind_of_ok _ (ih (by omega) hstop)

theorem many_eq_ok (hp : Consumes p) {as : List α} (h : Repeats p cs as rest)
    (hstop : Mismatches p rest) : many p cs = .ok (as, rest) :=
  manyUpTo_eq_ok hp le_rfl h hstop

theorem Repeats.length_le (hp : Consumes p) {as : List α} (h : Repeats p cs as rest) :
    rest.length ≤ cs.length := by
  induction h with
  | stop => exact le_rfl
  | next hfirst _ ih => exact ih.trans (hp _ _ _ hfirst).le

theorem Repeats.exists_read {as : List α} (h : Repeats p cs as rest) (ha : a ∈ as) :
    ∃ cs' rest', p cs' = .ok (a, rest') := by
  induction h with
  | stop => cases ha
  | next hfirst _ ih =>
    rcases List.mem_cons.1 ha with rfl | ha
    · exact ⟨_, _, hfirst⟩
    · exact ih ha

/-- Items that are read from what is printed for each of them, whatever follows
    as long as it satisfies `F`, are read one after another. -/
theorem repeats_flatMap {print : α → List Char} {F : List Char → Prop} {as : List α}
    (hread : ∀ a ∈ as, ∀ rest, F rest → p (print a ++ rest) = .ok (a, rest))
    (hprint : ∀ a ∈ as, ∀ rest, F (print a ++ rest)) (hrest : F rest) :
    Repeats p (as.flatMap print ++ rest) as rest ∧ F (as.flatMap print ++ rest) := by
  induction as with
  | nil => exact ⟨.stop, hrest⟩
  | cons a as ih =>
    obtain ⟨hread, hreads⟩ := List.forall_mem_cons.1 hread
    obtain ⟨hprint, hprints⟩ := List.forall_mem_cons.1 hprint
    obtain ⟨hrepeats, hF⟩ := ih hreads hprints
    rw [List.flatMap_cons, List.append_assoc]
    exact ⟨.next (hread _ hF) hrepeats, hprint _⟩

theorem separated_eq_ok {sep : Scanner β} {as : List α} (hp : Consumes (sep *> p))
    (hfirst : p cs = .ok (a, mid)) (h : Repeats (sep *> p) mid as rest)
    (hstop : Mismatches (sep *> p) rest) : separated sep p cs = .ok (a :: as, rest) :=
  (bind_of_ok _ hfirst).trans (bind_of_ok _ (many_eq_ok hp h hstop))

theorem of_separated_eq_ok {sep : Scanner β} {as : List α}
    (h : separated sep p cs = .ok (as, rest)) :
    ∃ a more mid, as = a :: more ∧ p cs = .ok (a, mid) ∧ Repeats (sep *> p) mid more rest := by
  obtain ⟨a, mid, hfirst, h⟩ := bind_eq_ok.1 h
  obtain ⟨more, mid', hmany, hpure⟩ := bind_eq_ok.1 h
  obtain ⟨rfl, rfl⟩ := pure_eq_ok.1 hpure
  exact ⟨a, more, mid, rfl, hfirst, repeats_of_many hmany⟩

/-! ## The nesting limit -/

/-- The scanner stops for good, as the text is nested too deeply for it. -/
def TooDeep (p : Scanner α) (cs : List Char) : Prop := ∃ rest, p cs = .error ⟨.tooDeep, rest⟩

theorem tooDeep_bind (f : α → Scanner β) (h : TooDeep p cs) : TooDeep (p >>= f) cs := by
  obtain ⟨rest, h⟩ := h
  refine ⟨rest, ?_⟩
  change (p cs >>= fun r => f r.1 r.2) = _
  rw [h]; rfl

theorem tooDeep_optional (h : TooDeep p cs) : TooDeep (optional p) cs := by
  obtain ⟨rest, h⟩ := h
  exact ⟨rest, by rw [optional, h]⟩

theorem tooDeep_manyUpTo (hp : Consumes p) (hempty : Mismatches p []) {rounds : Nat}
    (hrounds : cs.length ≤ rounds) {as : List α} (h : Repeats p cs as mid) (hdeep : TooDeep p mid) :
    TooDeep (manyUpTo p rounds) cs := by
  induction h generalizing rounds with
  | @stop cs =>
    cases rounds with
    | zero =>
      obtain rfl := List.length_eq_zero_iff.1 (Nat.le_zero.1 hrounds)
      obtain ⟨rest, hmismatch⟩ := hempty
      obtain ⟨rest', hdeep⟩ := hdeep
      rw [hmismatch] at hdeep
      cases hdeep
    | succ rounds => exact tooDeep_bind _ (tooDeep_optional hdeep)
  | @next cs mid rest a as hfirst _ ih =>
    have hlt := hp _ _ _ hfirst
    cases rounds with
    | zero => omega
    | succ rounds =>
      have hrest : TooDeep (manyUpTo p rounds) mid := ih (by omega) hdeep
      obtain ⟨rest', hrest⟩ := tooDeep_bind (fun as => pure (a :: as)) hrest
      refine ⟨rest', ?_⟩
      rw [manyUpTo, bind_of_ok _ (optional_of_ok hfirst)]
      exact hrest

/-- The scanner reads `a` up to `rest`; unless the text fits, it may also find it
    nested too deeply. -/
def ReadsWithin (fits : Prop) (p : Scanner α) (cs : List Char) (a : α) (rest : List Char) : Prop :=
  p cs = .ok (a, rest) ∨ ¬ fits ∧ TooDeep p cs

/-- Rounds one after another, of which the last one may find the text nested too
    deeply, unless it fits. -/
def RepeatsWithin (fits : Prop) (p : Scanner α) (cs : List Char) (as : List α) (rest : List Char) :
    Prop :=
  Repeats p cs as rest ∨ ¬ fits ∧ ∃ as' mid, Repeats p cs as' mid ∧ TooDeep p mid

section
variable {fits : Prop} {b : β} {as : List α}

theorem ReadsWithin.eq_ok (h : ReadsWithin fits p cs a rest) (hfits : fits) :
    p cs = .ok (a, rest) :=
  h.resolve_right fun h => h.1 hfits

theorem ReadsWithin.of_ok (h : p cs = .ok (a, rest)) : ReadsWithin fits p cs a rest := .inl h

theorem ReadsWithin.bind {f : α → Scanner β} (h : ReadsWithin fits p cs a mid)
    (hf : ReadsWithin fits (f a) mid b rest) : ReadsWithin fits (p >>= f) cs b rest := by
  rcases h with h | ⟨hfits, h⟩
  · rw [ReadsWithin, TooDeep, bind_of_ok _ h]
    exact hf
  · exact .inr ⟨hfits, tooDeep_bind f h⟩

theorem ReadsWithin.orElse (q : Scanner α) (h : ReadsWithin fits p cs a rest) :
    ReadsWithin fits (orElse p q) cs a rest := by
  rcases h with h | ⟨hfits, rest', h⟩
  · exact .inl (orElse_of_ok q h)
  · exact .inr ⟨hfits, rest', by rw [Scanner.orElse, h]⟩

theorem ReadsWithin.orElse_of_mismatches {q : Scanner α} (hp : Mismatches p cs)
    (hq : ReadsWithin fits q cs a rest) : ReadsWithin fits (Scanner.orElse p q) cs a rest := by
  rw [ReadsWithin, TooDeep, Scanner.orElse_of_mismatches q hp]
  exact hq

theorem ReadsWithin.optional (h : ReadsWithin fits p cs a rest) :
    ReadsWithin fits (optional p) cs (some a) rest :=
  h.imp optional_of_ok fun h => ⟨h.1, tooDeep_optional h.2⟩

theorem RepeatsWithin.next (hfirst : ReadsWithin fits p cs a mid)
    (hrest : RepeatsWithin fits p mid as rest) : RepeatsWithin fits p cs (a :: as) rest := by
  rcases hfirst with hfirst | ⟨hfits, hdeep⟩
  · rcases hrest with hrest | ⟨hfits, as', mid', hrest, hdeep⟩
    · exact .inl (.next hfirst hrest)
    · exact .inr ⟨hfits, a :: as', mid', .next hfirst hrest, hdeep⟩
  · exact .inr ⟨hfits, [], cs, .stop, hdeep⟩

theorem RepeatsWithin.many (hp : Consumes p) (hempty : Mismatches p [])
    (h : RepeatsWithin fits p cs as rest) (hstop : Mismatches p rest) :
    ReadsWithin fits (many p) cs as rest := by
  rcases h with h | ⟨hfits, as', mid, h, hdeep⟩
  · exact .inl (many_eq_ok hp h hstop)
  · exact .inr ⟨hfits, tooDeep_manyUpTo hp hempty le_rfl h hdeep⟩

end

/-! ## Taking something -/

theorem consumes_seqRight {q : Scanner β} (hp : Consumes p) (hq : Consumes q) :
    Consumes (p *> q) := by
  intro cs b rest h
  obtain ⟨a, mid, hfirst, hsecond⟩ := seqRight_eq_ok.1 h
  exact (hq _ _ _ hsecond).trans (hp _ _ _ hfirst)

theorem consumes_separated {sep : Scanner β} (hsep : Consumes sep) (hp : Consumes p) :
    Consumes (separated sep p) := by
  intro cs as rest h
  obtain ⟨a, more, mid, -, hfirst, hmore⟩ := of_separated_eq_ok h
  exact (hmore.length_le (consumes_seqRight hsep hp)).trans_lt (hp _ _ _ hfirst)

/-! ## Words and blanks -/

theorem dropBeginning?_eq_some {w : List Char} :
    dropBeginning? (fun a c => a = c) w cs = some rest ↔ cs = w ++ rest := by
  induction w generalizing cs with
  | nil => simp [dropBeginning?, eq_comm]
  | cons a w ih =>
    cases cs with
    | nil => simp [dropBeginning?]
    | cons c cs =>
      by_cases h : a = c
      · simp [dropBeginning?, h, ih]
      · simp [dropBeginning?, h, Ne.symm h]

theorem word_eq_ok {w : String} {u : Unit} :
    word w cs = .ok (u, rest) ↔ cs = w.toList ++ rest := by
  rw [← dropBeginning?_eq_some, word]
  cases dropBeginning? (fun a c => decide (a = c)) w.toList cs <;> simp [stop]

theorem word_append (w : String) (rest : List Char) : word w (w.toList ++ rest) = .ok ((), rest) :=
  word_eq_ok.2 rfl

theorem mismatches_word {w : String} (h : ¬ w.toList <+: cs) : Mismatches (word w) cs := by
  rw [Mismatches, word]
  cases hd : dropBeginning? (fun a c => decide (a = c)) w.toList cs with
  | none => exact ⟨cs, rfl⟩
  | some rest => exact absurd ⟨rest, (dropBeginning?_eq_some.1 hd).symm⟩ h

section
variable {ws : List String} {w : String}

theorem of_oneOf_eq_ok (h : oneOf ws cs = .ok (w, rest)) : w ∈ ws ∧ cs = w.toList ++ rest := by
  induction ws with
  | nil => cases h
  | cons v ws ih =>
    rcases orElse_eq_ok.1 h with h | ⟨-, h⟩
    · obtain ⟨u, mid, hword, h⟩ := seqRight_eq_ok.1 h
      obtain ⟨rfl, rfl⟩ := pure_eq_ok.1 h
      exact ⟨List.mem_cons_self, word_eq_ok.1 hword⟩
    · obtain ⟨hw, hcs⟩ := ih h
      exact ⟨List.mem_cons_of_mem _ hw, hcs⟩

theorem mismatches_oneOf (h : ∀ v ∈ ws, ¬ v.toList <+: cs) : Mismatches (oneOf ws) cs := by
  induction ws with
  | nil => exact ⟨cs, rfl⟩
  | cons v ws ih =>
    obtain ⟨hv, hws⟩ := List.forall_mem_cons.1 h
    exact mismatches_orElse (mismatches_seqRight _ (mismatches_word hv)) (ih hws)

/-- A word that stands here is read, if no other one does. -/
theorem oneOf_eq_ok (hw : w ∈ ws) (h : ∀ v ∈ ws, v.toList <+: w.toList ++ rest → v = w) :
    oneOf ws (w.toList ++ rest) = .ok (w, rest) := by
  induction ws with
  | nil => cases hw
  | cons v ws ih =>
    obtain ⟨hv, hws⟩ := List.forall_mem_cons.1 h
    by_cases hvw : v = w
    · subst hvw
      exact orElse_of_ok _ (seqRight_of_ok _ (word_append v rest))
    · rw [oneOf, orElse_of_mismatches _ (mismatches_seqRight _ (mismatches_word fun h => hvw (hv h)))]
      exact ih ((List.mem_cons.1 hw).resolve_left (Ne.symm hvw)) hws

end

theorem token_apply (p : Scanner α) (cs : List Char) : token p cs = p (cs.dropWhile isSpaceOrTab) := rfl

theorem readsWithin_token {fits : Prop} : ReadsWithin fits (token p) cs a rest ↔
    ReadsWithin fits p (cs.dropWhile isSpaceOrTab) a rest := Iff.rfl

theorem mismatches_token {c : Char} (hc : isSpaceOrTab c = false) (h : Mismatches p (c :: cs)) :
    Mismatches (token p) (c :: cs) := by
  rw [Mismatches, token_apply, dropWhile_eq_self (endsRun_cons.2 hc)]
  exact h

theorem consumes_token (hp : Consumes p) : Consumes (token p) :=
  fun _ a rest h => (hp _ a rest h).trans_le (List.dropWhile_suffix _).length_le

theorem consumes_word {w : String} (hw : w.toList ≠ []) : Consumes (word w) := by
  intro cs u rest h
  have hpos := List.length_pos_iff.2 hw
  rw [word_eq_ok.1 h, List.length_append]
  omega

theorem takeWhile1_of_append {k : Char → Bool} {w : List Char} (hw : ∀ c ∈ w, k c = true)
    (hne : w ≠ []) (h : EndsRun k rest) : takeWhile1 k (w ++ rest) = .ok (w, rest) := by
  rw [takeWhile1, takeWhile_append hw h, if_neg (by simpa using hne), takeWhile,
    takeWhile_append hw h, dropWhile_append hw h]

theorem mismatches_takeWhile1 {k : Char → Bool} (h : EndsRun k cs) : Mismatches (takeWhile1 k) cs := by
  refine ⟨cs, ?_⟩
  rw [takeWhile1, takeWhile_eq_nil h]; rfl

theorem takeWhile1_eq_ok {k : Char → Bool} {w : List Char} : takeWhile1 k cs = .ok (w, rest) ↔
    w ≠ [] ∧ (∀ c ∈ w, k c = true) ∧ EndsRun k rest ∧ cs = w ++ rest := by
  constructor
  · intro h
    rw [takeWhile1] at h
    split at h
    · cases h
    rename_i hne
    obtain ⟨rfl, rfl⟩ := Prod.mk.inj (Except.ok.inj h)
    exact ⟨by simpa using hne, fun c hc => List.mem_takeWhile_imp hc, endsRun_dropWhile k cs,
      List.takeWhile_append_dropWhile.symm⟩
  · rintro ⟨hne, hw, hrest, rfl⟩
    exact takeWhile1_of_append hw hne hrest

theorem endsRun_of_mismatches {k : Char → Bool} (h : Mismatches (takeWhile1 k) cs) :
    EndsRun k cs := by
  obtain ⟨e, h⟩ := h
  rw [takeWhile1] at h
  split at h
  · rename_i hnil
    have hdrop := @List.takeWhile_append_dropWhile _ k cs
    rw [List.isEmpty_iff.1 hnil, List.nil_append] at hdrop
    rw [← hdrop]
    exact endsRun_dropWhile k cs
  · cases h

theorem consumes_takeWhile1 (k : Char → Bool) : Consumes (takeWhile1 k) := by
  intro cs w rest h
  obtain ⟨hne, -, -, rfl⟩ := takeWhile1_eq_ok.1 h
  have hpos := List.length_pos_iff.2 hne
  rw [List.length_append]
  omega

theorem toEnd_eq_ok : toEnd p cs = .ok (a, rest) ↔
    rest = [] ∧ ∃ mid, p cs = .ok (a, mid) ∧ ∀ c ∈ mid, isSpaceOrTab c = true := by
  constructor
  · intro h
    obtain ⟨b, mid, hp, hend⟩ := bind_eq_ok.1 h
    obtain ⟨u, mid', hblanks, hend⟩ := bind_eq_ok.1 hend
    obtain ⟨-, rfl⟩ := Prod.mk.inj (Except.ok.inj hblanks)
    cases hmid : mid.dropWhile isSpaceOrTab with
    | nil =>
      rw [hmid] at hend
      obtain ⟨rfl, rfl⟩ := Prod.mk.inj (Except.ok.inj hend)
      exact ⟨rfl, mid, hp, List.dropWhile_eq_nil_iff.1 hmid⟩
    | cons c mid' => rw [hmid] at hend; cases hend
  · rintro ⟨rfl, mid, hp, hmid⟩
    have hblanks : blanks mid = .ok ((), []) := by rw [blanks, List.dropWhile_eq_nil_iff.2 hmid]
    rw [toEnd, bind_of_ok _ hp]
    exact bind_of_ok _ hblanks

theorem tooDeep_toEnd (h : TooDeep p cs) : TooDeep (toEnd p) cs := tooDeep_bind _ h

end Scanner

end Deduction.Text
