/-
  Words and their casing.

  * `words_intercalate`: words joined by spaces are the words of the text;
  * `isWord_lower`, `isWord_capitalize`: no character becomes a blank in another
    case, so a word stays one word;
  * `IsSmall`: a character that is its own lower-case form.  Lower case consists
    of such characters (`isSmall_of_mem_lower`) and leaves them alone
    (`lower_of_isSmall`), so it is idempotent.

  Main statement: a word in lower case comes back from its capitalized form exactly
  if its first character does (`lower_capitalize_iff`).
-/
import Deduction.RuleName
import Mathlib

namespace Deduction.Text

/-! ## Words -/

/-- A non-empty run of characters that are not blank. -/
def IsWord (w : List Char) : Prop := w ≠ [] ∧ ∀ c ∈ w, isBlank c = false

instance (w : List Char) : Decidable (IsWord w) :=
  @instDecidableAnd _ _ _ (List.decidableBAll _ w)

section
variable {w word cs : List Char}

theorem wordsFrom_append (hw : ∀ c ∈ w, isBlank c = false) (word rest : List Char) :
    wordsFrom word (w ++ rest) = wordsFrom (w.reverse ++ word) rest := by
  induction w generalizing word with
  | nil => rfl
  | cons c w ih =>
    obtain ⟨hc, hw⟩ := List.forall_mem_cons.1 hw
    simp [wordsFrom, hc, ih hw]

theorem isWord_reverse (hne : ¬word.isEmpty = true) (hword : ∀ c ∈ word, isBlank c = false) :
    IsWord word.reverse :=
  ⟨by simpa using hne, fun c hc => hword c (List.mem_reverse.1 hc)⟩

theorem isWord_of_mem_wordsFrom (hword : ∀ c ∈ word, isBlank c = false)
    (h : w ∈ wordsFrom word cs) : IsWord w := by
  induction cs generalizing word with
  | nil =>
    rw [wordsFrom] at h
    split at h
    · cases h
    · rename_i hne
      exact List.mem_singleton.1 h ▸ isWord_reverse hne hword
  | cons c cs ih =>
    rw [wordsFrom] at h
    split at h
    · split at h
      · exact ih (List.forall_mem_nil _) h
      · rename_i hne
        rcases List.mem_cons.1 h with rfl | h
        · exact isWord_reverse hne hword
        · exact ih (List.forall_mem_nil _) h
    · rename_i hc
      exact ih (List.forall_mem_cons.2 ⟨eq_false_of_ne_true hc, hword⟩) h

theorem isWord_of_mem_words (h : w ∈ words cs) : IsWord w :=
  isWord_of_mem_wordsFrom (List.forall_mem_nil _) h

theorem words_of_isWord (hw : IsWord w) : words w = [w] := by
  have hread := wordsFrom_append hw.2 [] []
  rw [List.append_nil, List.append_nil] at hread
  rw [words, hread]
  simp [wordsFrom, hw.1]

theorem words_append_space (hw : IsWord w) (cs : List Char) :
    words (w ++ ' ' :: cs) = w :: words cs := by
  have hspace : isBlank ' ' = true := by decide
  rw [words, wordsFrom_append hw.2]
  simp [wordsFrom, words, hspace, hw.1]

/-- **Words joined by single spaces are the words of the text.** -/
theorem words_intercalate {ws : List (List Char)} (h : ∀ w ∈ ws, IsWord w) :
    words ([' '].intercalate ws) = ws := by
  induction ws with
  | nil => rfl
  | cons w ws ih =>
    obtain ⟨hw, hws⟩ := List.forall_mem_cons.1 h
    cases ws with
    | nil => rw [List.intercalate_singleton, words_of_isWord hw]
    | cons v ws =>
      rw [List.intercalate_cons_cons, List.append_assoc, List.singleton_append,
        words_append_space hw, ih hws]

end

/-! ## Case tables -/

section
variable {t : CaseTable} {r r' : CaseRun} {c : Char} {m n : Nat}

theorem of_image?_eq_some (h : r.image? n = some m) :
    r.first ≤ n ∧ n ≤ r.last ∧ (n - r.first) % r.step = 0 ∧ m = (n + r.shift).toNat := by
  rw [CaseRun.image?] at h
  split at h
  · rename_i hn
    simp only [Bool.and_eq_true, decide_eq_true_eq, beq_iff_eq] at hn
    exact ⟨hn.1.1, hn.1.2, hn.2, (Option.some.inj h).symm⟩
  · cases h

/-- A character has an entry of its own, lies on a run, or stays as it is. -/
theorem apply_cases (t : CaseTable) (c : Char) :
    (∃ e ∈ t.expanding, t.apply c = e.2.map Char.ofNat) ∨
      (∃ r ∈ t.runs, ∃ m, r.image? c.toNat = some m ∧ t.apply c = [Char.ofNat m]) ∨
      t.apply c = [c] := by
  rw [CaseTable.apply]
  split
  · rename_i ns hlookup
    obtain ⟨l₁, l₂, heq, -⟩ := List.lookup_eq_some_iff.1 hlookup
    exact .inl ⟨(c.toNat, ns), heq ▸ by simp, rfl⟩
  · split
    · rename_i m hm
      obtain ⟨r, hr, himage⟩ := List.exists_of_findSome?_eq_some hm
      exact .inr (.inl ⟨r, hr, m, himage, rfl⟩)
    · exact .inr (.inr rfl)

theorem apply_eq_self (hexpanding : ∀ e ∈ t.expanding, e.1 ≠ c.toNat)
    (hruns : ∀ r ∈ t.runs, r.image? c.toNat = none) : t.apply c = [c] := by
  have hlookup : t.expanding.lookup c.toNat = none :=
    List.lookup_eq_none_iff.2 fun e he => by simpa using (hexpanding e he).symm
  have hfind : t.runs.findSome? (·.image? c.toNat) = none := List.findSome?_eq_none_iff.2 hruns
  rw [CaseTable.apply, hlookup, hfind]

/-! ## Blanks -/

/-- The table maps nothing to a blank. -/
structure CaseTable.AvoidsBlanks (t : CaseTable) : Prop where
  expanding : ∀ e ∈ t.expanding, IsWord (e.2.map Char.ofNat)
  runs : ∀ r ∈ t.runs, ∀ b ∈ blankTable,
    0 < b.1 ∧ ((r.last : Int) + r.shift < b.1 ∨ (b.2 : Int) < r.first + r.shift)

theorem lowerTable_avoidsBlanks : lowerTable.AvoidsBlanks := ⟨by decide, by decide +kernel⟩

theorem upperTable_avoidsBlanks : upperTable.AvoidsBlanks := ⟨by decide +kernel, by decide +kernel⟩

theorem CaseTable.AvoidsBlanks.isWord_apply (ht : t.AvoidsBlanks) (hc : isBlank c = false) :
    IsWord (t.apply c) := by
  rcases apply_cases t c with ⟨e, he, heq⟩ | ⟨r, hr, m, himage, heq⟩ | heq
  · rw [heq]
    exact ht.expanding e he
  · obtain ⟨hfirst, hlast, -, rfl⟩ := of_image?_eq_some himage
    have hblank : isBlank (Char.ofNat (c.toNat + r.shift).toNat) = false := by
      rw [isBlank, CharClass.contains, List.any_eq_false]
      intro b hb
      obtain ⟨hpos, havoid⟩ := ht.runs r hr b hb
      simp only [Bool.and_eq_true, decide_eq_true_eq, Char.toNat_ofNat]
      split <;> omega
    rw [heq]
    exact ⟨by simp, by simpa using hblank⟩
  · rw [heq]
    exact ⟨by simp, by simpa using hc⟩

/-- What holds of the first code points holds of the first characters. -/
theorem forall_ascii (P : Char → Prop) (h : ∀ n < 0x80, P (Char.ofNat n)) (hc : c.toNat < 0x80) :
    P c := by
  have hP := h c.toNat hc
  rwa [Char.ofNat_toNat] at hP

theorem isWord_lowerChar (hc : isBlank c = false) : IsWord (lowerChar c) := by
  rw [lowerChar]
  split
  · rename_i hlt
    have hascii := forall_ascii (fun c => isBlank c = false → isBlank c.toLower = false)
      (by decide +kernel) hlt hc
    exact ⟨by simp, by simpa using hascii⟩
  · exact lowerTable_avoidsBlanks.isWord_apply hc

theorem isWord_upperChar (hc : isBlank c = false) : IsWord (upperChar c) := by
  rw [upperChar]
  split
  · rename_i hlt
    have hascii := forall_ascii (fun c => isBlank c = false → isBlank c.toUpper = false)
      (by decide +kernel) hlt hc
    exact ⟨by simp, by simpa using hascii⟩
  · exact upperTable_avoidsBlanks.isWord_apply hc

theorem isWord_lowerBetween (hc : isBlank c = false) (before after : List Char) :
    IsWord (lowerBetween before c after) := by
  rw [lowerBetween]
  split
  · split <;> decide
  · exact isWord_lowerChar hc

/-- **A word is a word in lower case.** -/
theorem isWord_lower {w : List Char} (hw : IsWord w) : IsWord (lower w) := by
  obtain ⟨hne, hw⟩ := hw
  have hall : ∀ before, ∀ c ∈ lowerFrom before w, isBlank c = false := by
    clear hne
    induction w with
    | nil => exact fun _ => List.forall_mem_nil _
    | cons c w ih =>
      intro before
      obtain ⟨hc, hw⟩ := List.forall_mem_cons.1 hw
      exact List.forall_mem_append.2 ⟨(isWord_lowerBetween hc before w).2, ih hw _⟩
  refine ⟨?_, hall []⟩
  obtain ⟨c, w, rfl⟩ := List.exists_cons_of_ne_nil hne
  have hc := isWord_lowerBetween (List.forall_mem_cons.1 hw).1 [] w
  exact List.append_ne_nil_of_left_ne_nil hc.1 _

/-- **A word is a word with its first character in upper case.** -/
theorem isWord_capitalize {w : List Char} (hw : IsWord w) : IsWord (capitalize w) := by
  obtain ⟨c, w, rfl⟩ := List.exists_cons_of_ne_nil hw.1
  obtain ⟨hc, hw⟩ := List.forall_mem_cons.1 hw.2
  obtain ⟨hne, hupper⟩ := isWord_upperChar hc
  exact ⟨List.append_ne_nil_of_left_ne_nil hne _, List.forall_mem_append.2 ⟨hupper, hw⟩⟩

end

/-! ## Small characters -/

/-- A character that is its own lower-case form. -/
def IsSmall (c : Char) : Prop := lowerChar c = [c]

instance (c : Char) : Decidable (IsSmall c) := inferInstanceAs (Decidable (_ = _))

/-- The first image of a run. -/
def CaseRun.low (r : CaseRun) : Nat := (r.first + r.shift).toNat

/-- The last image of a run. -/
def CaseRun.high (r : CaseRun) : Nat := (r.last + r.shift).toNat

/-- All code points of the run have the same parity. -/
def CaseRun.oneParity (r : CaseRun) : Bool := r.step == 2 || r.first == r.last

/-- The images of the run `r` lie before `r'`, behind it, or between its points. -/
def CaseRun.misses (r r' : CaseRun) : Bool :=
  r.high.blt r'.first || r'.last.blt r.low ||
    (Nat.blt 0 r.low && r.oneParity && r'.oneParity && ((r.low + r'.first) % 2).beq 1)

section
variable {r r' : CaseRun} {c d : Char} {m n : Nat}

theorem low_le_image (h : r.image? n = some m) : r.low ≤ m ∧ m ≤ r.high := by
  obtain ⟨hfirst, hlast, -, rfl⟩ := of_image?_eq_some h
  simp only [CaseRun.low, CaseRun.high]
  omega

theorem mod_two_of_oneParity (hr : r.oneParity = true) (h : r.image? n = some m) :
    (n - r.first) % 2 = 0 := by
  obtain ⟨hfirst, hlast, hstep, -⟩ := of_image?_eq_some h
  simp only [CaseRun.oneParity, Bool.or_eq_true, beq_iff_eq] at hr
  rcases hr with hr | hr
  · rwa [hr] at hstep
  · omega

theorem image?_eq_none_of_misses (hmisses : r.misses r' = true) (h : r.image? n = some m) :
    r'.image? m = none := by
  by_contra hne
  obtain ⟨k, hk⟩ := Option.ne_none_iff_exists'.1 hne
  obtain ⟨hfirst, hlast, -, -⟩ := of_image?_eq_some hk
  obtain ⟨hlow, hhigh⟩ := low_le_image h
  simp only [CaseRun.misses, Bool.or_eq_true, Bool.and_eq_true, Nat.blt_eq, Nat.beq_eq] at hmisses
  rcases hmisses with (hmisses | hmisses) | ⟨⟨⟨hpos, hr⟩, hr'⟩, hparity⟩
  · omega
  · omega
  · have hn := mod_two_of_oneParity hr h
    have hm := mod_two_of_oneParity hr' hk
    obtain ⟨hfirst', -, -, rfl⟩ := of_image?_eq_some h
    simp only [CaseRun.low] at hpos hparity
    omega

/-- No image of the lower-case table has another image. -/
theorem lowerTable_runs_miss :
    (lowerTable.runs.all fun r => lowerTable.runs.all r.misses) = true := by
  decide +kernel

/-- Nor does one have an entry of its own, or is it an ASCII character in upper
    case. -/
theorem lowerTable_runs_high : ∀ r ∈ lowerTable.runs,
    (∀ e ∈ lowerTable.expanding, e.1 < r.low ∨ r.high < e.1) ∧
      (0x80 ≤ r.low ∨ r.low = r.high ∧ (Char.ofNat r.low).toLower = Char.ofNat r.low) := by
  decide +kernel

theorem isSmall_of_toLower (hc : c.toNat < 0x80) (h : c.toLower = c) : IsSmall c := by
  rw [IsSmall, lowerChar, if_pos hc, h]

theorem isSmall_of_image? (hr : r ∈ lowerTable.runs) (h : r.image? n = some m) :
    IsSmall (Char.ofNat m) := by
  obtain ⟨hexpanding, hascii⟩ := lowerTable_runs_high r hr
  obtain ⟨hlow, hhigh⟩ := low_le_image h
  have hm := Char.toNat_ofNat m
  split at hm
  · by_cases hlt : m < 0x80
    · rcases hascii with hascii | ⟨heq, hlower⟩
      · omega
      · obtain rfl : m = r.low := by omega
        exact isSmall_of_toLower (by omega) hlower
    · rw [IsSmall, lowerChar, if_neg (by omega)]
      refine apply_eq_self (fun e he => ?_) fun r' hr' => ?_
      · have := hexpanding e he
        omega
      · rw [hm]
        have hmisses := List.all_eq_true.1 (List.all_eq_true.1 lowerTable_runs_miss r hr) r' hr'
        exact image?_eq_none_of_misses hmisses h
  · have hzero : Char.ofNat m = Char.ofNat 0 := by rw [← hm, Char.ofNat_toNat]
    rw [hzero]
    decide

/-- **Lower case consists of small characters.** -/
theorem isSmall_of_mem_lowerChar (h : d ∈ lowerChar c) : IsSmall d := by
  have hexpanding : ∀ e ∈ lowerTable.expanding, ∀ n ∈ e.2, IsSmall (Char.ofNat n) := by
    decide +kernel
  by_cases hc : c.toNat < 0x80
  · rw [lowerChar, if_pos hc] at h
    rw [List.mem_singleton.1 h]
    exact forall_ascii (fun c => IsSmall c.toLower) (by decide +kernel) hc
  · have hlower : lowerChar c = lowerTable.apply c := if_neg hc
    rw [hlower] at h
    rcases apply_cases lowerTable c with ⟨e, he, heq⟩ | ⟨r, hr, m, himage, heq⟩ | heq
    · rw [heq] at h
      obtain ⟨n, hn, rfl⟩ := List.mem_map.1 h
      exact hexpanding e he n hn
    · rw [heq] at h
      rw [List.mem_singleton.1 h]
      exact isSmall_of_image? hr himage
    · rw [heq] at h
      rw [List.mem_singleton.1 h]
      exact hlower.trans heq

/-- The final sigma is small too, and the capital one is not. -/
theorem isSmall_sigma : IsSmall 'σ' ∧ IsSmall 'ς' ∧ lowerChar 'Σ' = ['σ'] := by decide +kernel

theorem IsSmall.ne_sigma (h : IsSmall c) : c ≠ 'Σ' := by
  rintro rfl
  exact absurd (isSmall_sigma.2.2.symm.trans h) (by decide)

end

/-! ## Texts in lower case -/

section
variable {c d : Char} {before after cs u rest : List Char}

theorem lowerBetween_of_ne (h : c ≠ 'Σ') : lowerBetween before c after = lowerChar c := if_neg h

/-- At the beginning of a text no sigma is final. -/
theorem lowerBetween_nil : lowerBetween [] c after = lowerChar c := by
  by_cases h : c = 'Σ'
  · subst h
    exact isSmall_sigma.2.2.symm
  · exact lowerBetween_of_ne h

theorem isSmall_of_mem_lowerBetween (h : d ∈ lowerBetween before c after) : IsSmall d := by
  rw [lowerBetween] at h
  split at h
  · split at h
    · exact List.mem_singleton.1 h ▸ isSmall_sigma.2.1
    · exact List.mem_singleton.1 h ▸ isSmall_sigma.1
  · exact isSmall_of_mem_lowerChar h

theorem isSmall_of_mem_lowerFrom (h : d ∈ lowerFrom before cs) : IsSmall d := by
  induction cs generalizing before with
  | nil => cases h
  | cons c cs ih =>
    rcases List.mem_append.1 h with h | h
    · exact isSmall_of_mem_lowerBetween h
    · exact ih h

/-- **A text in lower case consists of small characters.** -/
theorem isSmall_of_mem_lower (h : d ∈ lower cs) : IsSmall d := isSmall_of_mem_lowerFrom h

/-- Apart from a capital sigma, whose lower case depends on what stands before and
    behind it, characters go to lower case one by one, and small ones stay. -/
theorem lowerFrom_append (hu : 'Σ' ∉ u) (hrest : ∀ c ∈ rest, IsSmall c) (before : List Char) :
    lowerFrom before (u ++ rest) = u.flatMap lowerChar ++ rest := by
  induction u generalizing before with
  | nil =>
    induction rest generalizing before with
    | nil => rfl
    | cons c rest ih =>
      obtain ⟨hc, hrest⟩ := List.forall_mem_cons.1 hrest
      have hih := ih hrest (c :: before)
      simp only [List.nil_append, List.flatMap_nil] at hih ⊢
      rw [lowerFrom, hih, lowerBetween_of_ne hc.ne_sigma, hc]
      rfl
  | cons c u ih =>
    rw [List.mem_cons, not_or] at hu
    rw [List.cons_append, lowerFrom, ih hu.2, lowerBetween_of_ne (Ne.symm hu.1), List.flatMap_cons,
      List.append_assoc]

theorem lower_append (hu : 'Σ' ∉ u.tail) (hrest : ∀ c ∈ rest, IsSmall c) :
    lower (u ++ rest) = u.flatMap lowerChar ++ rest := by
  cases u with
  | nil => exact lowerFrom_append List.not_mem_nil hrest []
  | cons c u =>
    rw [List.tail_cons] at hu
    rw [lower, List.cons_append, lowerFrom, lowerBetween_nil, lowerFrom_append hu hrest,
      List.flatMap_cons, List.append_assoc]

/-- **Small characters stay in lower case.** -/
theorem lower_of_isSmall (h : ∀ c ∈ cs, IsSmall c) : lower cs = cs :=
  lower_append (u := []) List.not_mem_nil h

/-! ## Capitalized words -/

/-- The character is the lower-case form of its upper-case form. -/
def Recases (c : Char) : Prop := (upperChar c).flatMap lowerChar = [c]

instance (c : Char) : Decidable (Recases c) := inferInstanceAs (Decidable (_ = _))

theorem sigma_notMem_tail_upperChar (c : Char) : 'Σ' ∉ (upperChar c).tail := by
  have hexpanding : ∀ e ∈ upperTable.expanding, 'Σ' ∉ (e.2.map Char.ofNat).tail := by decide +kernel
  rw [upperChar]
  split
  · exact List.not_mem_nil
  · rcases apply_cases upperTable c with ⟨e, he, heq⟩ | ⟨r, hr, m, himage, heq⟩ | heq
    · rw [heq]
      exact hexpanding e he
    · rw [heq]
      exact List.not_mem_nil
    · rw [heq]
      exact List.not_mem_nil

/-- **A word in lower case comes back from its capitalized form exactly if its first
    character does.** -/
theorem lower_capitalize_iff (h : ∀ d ∈ c :: cs, IsSmall d) :
    lower (capitalize (c :: cs)) = c :: cs ↔ Recases c := by
  rw [capitalize, lower_append (sigma_notMem_tail_upperChar c) (List.forall_mem_cons.1 h).2,
    ← List.singleton_append, List.append_cancel_right_eq]
  rfl

end

end Deduction.Text
