/-
  The normal form and the title of a rule name.

  * `RuleName.titleCase_congr`: the normal form of a name determines its title;
  * `RuleName.HasTitle`: the title of a name is read as the name of a rule, and
    it cites the same rule.  The names of the standard catalog have titles.

  Main statement: a name has the normal form of its title exactly if each of its
  words, in lower case, begins with a character that comes back from upper case
  (`RuleName.normalize_titleCase_iff`).
-/
import Deduction.Proofs.Source.Line
import Deduction.Proofs.Text.Casing
import Deduction.Rule.Standard

namespace Deduction

open Source

/-! ## Names -/

namespace RuleName

open Text

section
variable {name : String} {f : List Char → List Char}

theorem words_mapWords (h : ∀ w ∈ words name.toList, IsWord (f w)) :
    words (mapWords f name).toList = (words name.toList).map f := by
  rw [mapWords, String.toList_intercalate, List.map_map]
  simp only [Function.comp_def, String.toList_ofList]
  exact words_intercalate (List.forall_mem_map.2 h)

theorem mapWords_mapWords (h : ∀ w ∈ words name.toList, IsWord (f w))
    (g : List Char → List Char) : mapWords g (mapWords f name) = mapWords (g ∘ f) name := by
  rw [mapWords, words_mapWords h, List.map_map]
  rfl

/-- **The normal form of a name determines its title.** -/
theorem titleCase_congr {name' : String} (h : normalize name' = normalize name) :
    titleCase name' = titleCase name := by
  have htitle : ∀ name, titleCase name =
      mapWords (fun w => if w = ['o', 'f'] then w else capitalize w) (normalize name) := by
    intro name
    rw [normalize, mapWords_mapWords fun w hw => isWord_lower (isWord_of_mem_words hw)]
    rfl
  rw [htitle, htitle, h]

theorem isWord_titleWord {w : List Char} (hw : IsWord w) : IsWord (titleWord w) := by
  rw [titleWord]
  split
  · exact isWord_lower hw
  · exact isWord_capitalize (isWord_lower hw)

/-- The title of a word is a spelling of it exactly if its first character in lower
    case comes back from upper case. -/
theorem lower_titleWord_iff {w : List Char} (hw : IsWord w) :
    lower (titleWord w) = lower w ↔ ∀ c ∈ (lower w).head?, Recases c := by
  have hsmall : ∀ d ∈ lower w, IsSmall d := fun d hd => isSmall_of_mem_lower hd
  obtain ⟨c, cs, hlower⟩ := List.exists_cons_of_ne_nil (isWord_lower hw).1
  have hhead : (∀ d ∈ some c, Recases d) ↔ Recases c := by simp
  rw [hlower] at hsmall
  rw [titleWord, hlower, List.head?_cons, hhead]
  split
  · rename_i hof
    obtain ⟨rfl, rfl⟩ := List.cons.inj hof
    exact iff_of_true (lower_of_isSmall hsmall) (by decide +kernel)
  · exact lower_capitalize_iff hsmall

/-- **The title of a name is a spelling of it exactly if each of its words begins, in
    lower case, with a character that comes back from upper case.** -/
theorem normalize_titleCase_iff (name : String) : normalize (titleCase name) = normalize name ↔
    ∀ w ∈ words name.toList, ∀ c ∈ (lower w).head?, Recases c := by
  have hword : ∀ w ∈ words name.toList, IsWord w := fun w hw => isWord_of_mem_words hw
  have htitle : normalize (titleCase name) = mapWords (fun w => lower (titleWord w)) name :=
    mapWords_mapWords (fun w hw => isWord_titleWord (hword w hw)) lower
  rw [htitle, normalize]
  constructor
  · intro h w hw
    have hwords := congrArg (words ∘ String.toList) h
    simp only [Function.comp_apply] at hwords
    rw [words_mapWords fun w hw => isWord_lower (isWord_titleWord (hword w hw)),
      words_mapWords fun w hw => isWord_lower (hword w hw)] at hwords
    exact (lower_titleWord_iff (hword w hw)).1 (List.map_inj_left.1 hwords w hw)
  · intro h
    rw [mapWords, mapWords]
    exact congrArg _ (List.map_congr_left fun w hw =>
      congrArg String.ofList ((lower_titleWord_iff (hword w hw)).2 (h w hw)))

/-- The title of `ß` is `SS`, which cites another rule. -/
theorem normalize_titleCase_sharp_s :
    titleCase "ß" = "SS" ∧ normalize (titleCase "ß") ≠ normalize "ß" := by
  decide +kernel

/-- The title of the name can be read, and it is a spelling of the name. -/
def HasTitle (name : String) : Prop :=
  words name.toList ≠ [] ∧ ∀ w ∈ words name.toList,
    IsWord (titleWord w) ∧ IsRuleWord (titleWord w) ∧ lower (titleWord w) = lower w

instance (name : String) : Decidable (HasTitle name) :=
  inferInstanceAs (Decidable (words name.toList ≠ [] ∧ ∀ w ∈ words name.toList,
    IsWord (titleWord w) ∧ IsRuleWord (titleWord w) ∧ lower (titleWord w) = lower w))

theorem HasTitle.isRuleName (h : HasTitle name) : IsRuleName (titleCase name) := by
  obtain ⟨hne, hwords⟩ := h
  rw [titleCase, mapWords]
  obtain ⟨w, ws, hcons⟩ := List.exists_cons_of_ne_nil hne
  rw [hcons] at hwords ⊢
  have hrule : ∀ v ∈ (w :: ws).map titleWord, IsRuleWord v :=
    List.forall_mem_map.2 fun w hw => (hwords w hw).2.1
  have hname := IsRuleName.words hrule
  rwa [← List.map_cons, List.map_map] at hname

theorem HasTitle.normalize_titleCase (h : HasTitle name) :
    normalize (titleCase name) = normalize name := by
  rw [normalize, titleCase, mapWords_mapWords fun w hw => (h.2 w hw).1, mapWords, normalize,
    mapWords]
  exact congrArg _ (List.map_congr_left fun w hw => congrArg String.ofList (h.2 w hw).2.2)

theorem hasTitle_keyword : ∀ name ∈ [assumption, given, directProof], HasTitle name := by
  decide +kernel

end

end RuleName

/-- The rules have names with titles. -/
def Catalog.Titled (c : Catalog) : Prop := ∀ name ∈ c.names, RuleName.HasTitle name

theorem Catalog.titled_standard : Catalog.standard.Titled := by
  rw [Catalog.Titled]
  decide +kernel

end Deduction
