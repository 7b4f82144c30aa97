/-
  The order of line numbers and the visibility of lines.

  * Line numbers are linearly ordered: a number that continues another one comes
    before it, and otherwise their first difference decides
    (`comparePath_eq_lt_iff`).  Each of the three ways to go on from a line leads
    to a later one (`lt_of_next?`, `lt_of_open?`, `lt_of_close`).
  * `hasAccess_iff`: a line may cite what stands in an earlier slot of one of
    the blocks around it; hence whatever encloses a visible line encloses the
    citing line, too (`enclosing_suffix_of_hasAccess`).  Visibility is a strict
    partial order within that of the lines (`hasAccess_trans`,
    `lt_of_hasAccess`).
  * `text_injective`: different numbers are written differently.
-/
import Deduction.LineNumber
import Mathlib.Data.List.Infix
import Mathlib.Order.Lattice

namespace Deduction.LineNumber

open Std

/-! ## The order of lines -/

instance : LawfulEqCmp comparePath where
  compare_self {p} := by
    induction p with
    | nil => rfl
    | cons a p ih => simp [comparePath, ih]
  eq_of_compare {p q} h := by
    induction p generalizing q with
    | nil =>
      cases q with
      | nil => rfl
      | cons => cases h
    | cons a p ih =>
      cases q with
      | nil => cases h
      | cons b q =>
        simp only [comparePath, Ordering.then_eq_eq, LawfulEqOrd.compare_eq_iff_eq] at h
        rw [h.1, ih h.2]

instance : TransCmp comparePath where
  eq_swap {p q} := by
    induction p generalizing q with
    | nil => cases q <;> rfl
    | cons a p ih =>
      cases q with
      | nil => rfl
      | cons b q => rw [comparePath, comparePath, Ordering.swap_then, OrientedOrd.eq_swap, ih]
  isLE_trans {p q r} h₁ h₂ := by
    induction p generalizing q r with
    | nil =>
      cases q with
      | nil => exact h₂
      | cons => cases h₁
    | cons a p ih =>
      cases r with
      | nil => rfl
      | cons c r =>
        cases q with
        | nil => cases h₂
        | cons b q =>
          simp only [comparePath, Ordering.isLE_then_iff_and, Nat.isLE_compare,
            Nat.compare_eq_lt] at h₁ h₂ ⊢
          refine ⟨by omega, ?_⟩
          rcases h₁.2 with h | h
          · left; omega
          · rcases h₂.2 with h' | h'
            · left; omega
            · exact .inr (ih h h')

theorem comparePath_swap (p q : List Nat) : comparePath q p = (comparePath p q).swap :=
  OrientedCmp.eq_swap

/-- Equal beginnings do not matter. -/
theorem comparePath_append_left (p q r : List Nat) :
    comparePath (p ++ q) (p ++ r) = comparePath q r := by
  induction p with
  | nil => rfl
  | cons a p ih => simp [comparePath, ih]

/-- A path comes before another one iff it continues that one, or has the smaller
    slot where the two part. -/
theorem comparePath_eq_lt_iff {p q : List Nat} : comparePath p q = .lt ↔
    (q <+: p ∧ q ≠ p) ∨ ∃ e x y r r', p = e ++ x :: r ∧ q = e ++ y :: r' ∧ x < y := by
  constructor
  · intro h
    fun_induction comparePath p q with
    | case1 | case2 => cases h
    | case3 => simp
    | case4 a p b q ih =>
      rcases Ordering.then_eq_lt.1 h with hlt | ⟨heq, hlt⟩
      · exact .inr ⟨[], a, b, p, q, rfl, rfl, Nat.compare_eq_lt.1 hlt⟩
      · obtain rfl := Nat.compare_eq_eq.1 heq
        rcases ih hlt with ⟨hbegins, hne⟩ | ⟨e, x, y, r, r', rfl, rfl, hxy⟩
        · exact .inl ⟨List.cons_prefix_cons.2 ⟨rfl, hbegins⟩, by simpa using hne⟩
        · exact .inr ⟨a :: e, x, y, r, r', rfl, rfl, hxy⟩
  · rintro (⟨⟨t, rfl⟩, hne⟩ | ⟨e, x, y, r, r', rfl, rfl, hxy⟩)
    · cases t with
      | nil => simp at hne
      | cons c t => simpa [comparePath] using comparePath_append_left q (c :: t) []
    · rw [comparePath_append_left, comparePath, Nat.compare_eq_lt.2 hxy]
      rfl

theorem inward_injective {n m : LineNumber} (h : n.inward = m.inward) : n = m := by
  obtain ⟨hslot, henclosing⟩ := List.cons.inj h
  cases n; cases m
  simp_all

theorem path_injective {n m : LineNumber} (h : n.path = m.path) : n = m :=
  inward_injective (List.reverse_inj.1 h)

/-- The lines of a proof are linearly ordered. -/
instance : LinearOrder LineNumber where
  toOrd := inferInstance
  le n m := n.le m = true
  lt n m := compare n m = .lt
  le_refl n := by simp [LineNumber.le, compare, ReflCmp.compare_self]
  le_trans n m k := by
    simp only [LineNumber.le, compare]
    exact TransCmp.isLE_trans
  le_antisymm n m h₁ h₂ := path_injective <| by
    simp only [LineNumber.le, compare] at h₁ h₂
    exact LawfulEqCmp.eq_of_compare (OrientedCmp.isLE_antisymm h₁ h₂)
  le_total n m := by
    simp only [LineNumber.le, compare]
    rw [comparePath_swap n.path m.path]
    cases comparePath n.path m.path <;> simp
  lt_iff_le_not_ge n m := by
    simp only [LineNumber.le, compare]
    rw [comparePath_swap n.path m.path]
    cases comparePath n.path m.path <;> simp
  toDecidableLE n m := inferInstanceAs (Decidable (n.le m = true))
  toDecidableLT n m := inferInstanceAs (Decidable (compare n m = .lt))
  toDecidableEq := inferInstance
  compare_eq_compareOfLessAndEq n m := by
    change compare n m = if compare n m = .lt then .lt else if n = m then .eq else .gt
    cases h : compare n m with
    | lt => simp
    | eq => simp [path_injective (LawfulEqCmp.eq_of_compare h)]
    | gt =>
      have hne : n ≠ m := by
        rintro rfl; simp [compare, ReflCmp.compare_self] at h
      simp [hne]

/-! ## Sorting -/

theorem sort_perm (ns : List LineNumber) : (sort ns).Perm ns := List.mergeSort_perm ns _

theorem pairwise_sort (ns : List LineNumber) : (sort ns).Pairwise (· ≤ ·) := by
  have htrans : ∀ n m k : LineNumber, n ≤ m → m ≤ k → n ≤ k := fun _ _ _ h h' => h.trans h'
  have htotal : ∀ n m : LineNumber, n ≤ m ∨ m ≤ n := LinearOrder.le_total
  exact List.pairwise_mergeSort htrans (fun n m => Bool.or_eq_true_iff.2 (htotal n m)) ns

theorem sort_eq_of_perm {ns ms : List LineNumber} (h : ns.Perm ms) : sort ns = sort ms :=
  List.Perm.eq_of_pairwise (fun _ _ _ _ h h' => h.antisymm h') (pairwise_sort ns)
    (pairwise_sort ms) ((sort_perm ns).trans (h.trans (sort_perm ms).symm))

theorem sort_sort (ns : List LineNumber) : sort (sort ns) = sort ns :=
  sort_eq_of_perm (sort_perm ns)

/-! ## The dotted form -/

/-- Between the dots stand the components. -/
theorem splitOn_text (n : LineNumber) :
    n.text.toList.splitOn '.' = n.path.map fun k => (toString k).toList := by
  have hdot : ∀ w ∈ n.path.map fun k => (toString k).toList, '.' ∉ w := by
    intro w hw hmem
    obtain ⟨k, -, rfl⟩ := List.mem_map.1 hw
    rw [Nat.toString_eq_ofList_toDigits, String.toList_ofList] at hmem
    have hdigit : '.'.isDigit = true := Nat.isDigit_of_mem_toDigits (by decide) (by decide) hmem
    cases hdigit
  rw [text, String.toList_intercalate, List.map_map]
  exact List.splitOn_intercalate '.' hdot (by simp [path, inward])

/-- Different numbers are written differently. -/
theorem text_injective {n m : LineNumber} (h : n.text = m.text) : n = m := by
  have hwords := splitOn_text n
  rw [h, splitOn_text m] at hwords
  have hpath : m.path = n.path := by
    refine (List.map_injective_iff.2 fun k l hkl => ?_) hwords
    have hdigits : Nat.toDigits 10 k = Nat.toDigits 10 l := by
      simpa [Nat.toString_eq_ofList_toDigits] using hkl
    rw [← @Nat.ofDigitChars_ten_toDigits k, hdigits, Nat.ofDigitChars_ten_toDigits]
  exact (inward_injective (List.reverse_injective hpath)).symm

/-! ## Going on from a line -/

section
variable {n m k : LineNumber}

theorem isSome_next? : n.next?.isSome = true ↔ n.slot < maxSlot := by
  simp [next?]

theorem next?_eq_some : n.next? = some m ↔ n.slot < maxSlot ∧ m = ⟨n.slot + 1, n.enclosing⟩ := by
  simp only [next?]
  split
  · simp [*, eq_comm]
  · simp [*]

/-- A line follows at most one other line of its block. -/
theorem next?_injective {n' : LineNumber} (h : n.next? = some m) (h' : n'.next? = some m) :
    n = n' := by
  obtain ⟨-, hm⟩ := next?_eq_some.1 h
  obtain ⟨-, hm'⟩ := next?_eq_some.1 h'
  rw [hm, mk.injEq, Nat.succ_inj] at hm'
  exact congrArg₂ mk hm'.1 hm'.2

theorem open?_eq_some :
    n.open? = some m ↔ n.slot < maxSlot ∧ m = ⟨1, (n.slot + 1) :: n.enclosing⟩ := by
  simp only [open?, Option.map_eq_some_iff, next?_eq_some]
  constructor
  · rintro ⟨_, ⟨hslot, rfl⟩, rfl⟩; exact ⟨hslot, rfl⟩
  · rintro ⟨hslot, rfl⟩; exact ⟨_, ⟨hslot, rfl⟩, rfl⟩

theorem close_eq (h : n.enclosing = m.inward) : n.close = m := by
  simp [close, h, inward]

theorem one_lt_levels (h : n.enclosing = m.inward) : 1 < n.levels := by
  rw [levels, h, inward, List.length_cons]
  omega

theorem enclosing_of_close (hlevels : 2 ≤ n.levels) (h : n.close = m) : n.enclosing = m.inward := by
  obtain ⟨slot, _ | ⟨y, e⟩⟩ := n
  · simp [levels] at hlevels
  · rw [← h]; rfl

theorem path_eq (n : LineNumber) : n.path = n.enclosing.reverse ++ [n.slot] := by
  simp [path, inward]

/-- Two lines that go through a common block are compared by what comes after
    it. -/
theorem lt_of_comparePath {e p q : List Nat} (hn : n.path = e.reverse ++ p)
    (hm : m.path = e.reverse ++ q) (h : comparePath p q = .lt) : n < m := by
  change compare n m = .lt
  rw [compare, hn, hm, comparePath_append_left, h]

theorem lt_of_slot_lt {e : List Nat} {x y : Nat} (h : x < y) :
    (⟨x, e⟩ : LineNumber) < ⟨y, e⟩ :=
  lt_of_comparePath (path_eq _) (path_eq _) (by simp [comparePath, Nat.compare_eq_lt.2 h])

theorem lt_of_next? (h : n.next? = some m) : n < m := by
  obtain ⟨-, rfl⟩ := next?_eq_some.1 h
  exact lt_of_slot_lt (Nat.lt_succ_self n.slot)

/-- A line comes before all lines of the sub-proofs in later slots of its
    block. -/
theorem lt_of_enclosing {e d : List Nat} {x y : Nat} (hm : m.enclosing = d ++ y :: e) (h : x < y) :
    (⟨x, e⟩ : LineNumber) < m :=
  lt_of_comparePath (q := y :: (d.reverse ++ [m.slot])) (path_eq _)
    (by simp [path_eq, hm]) (by simp [comparePath, Nat.compare_eq_lt.2 h])

theorem lt_of_open? (h : n.open? = some m) : n < m := by
  obtain ⟨-, rfl⟩ := open?_eq_some.1 h
  exact lt_of_enclosing (d := []) rfl (Nat.lt_succ_self n.slot)

/-- The lines of a sub-proof, those of inner ones included, come before the line
    in its own slot and before those in later slots. -/
theorem lt_of_slot_le {e d : List Nat} {x y : Nat} (hn : n.enclosing = d ++ y :: e) (h : y ≤ x) :
    n < ⟨x, e⟩ := by
  refine lt_of_comparePath (p := y :: (d.reverse ++ [n.slot])) (by simp [path_eq, hn]) (path_eq _) ?_
  rcases h.lt_or_eq with h | rfl
  · simp [comparePath, Nat.compare_eq_lt.2 h]
  · cases d.reverse <;> simp [comparePath]

/-- The lines of a sub-proof come before the line that closes it. -/
theorem lt_of_close (h : n.enclosing = m.inward) : n < m :=
  lt_of_slot_le (d := []) h le_rfl

/-! ## Visibility -/

theorem isEarlierOn_iff {l : List Nat} :
    m.isEarlierOn l = true ↔ ∃ slot, slot :: m.enclosing <:+ l ∧ m.slot < slot := by
  induction l with
  | nil => simp [isEarlierOn]
  | cons a l ih =>
    simp only [isEarlierOn, Bool.or_eq_true, Bool.and_eq_true, decide_eq_true_eq, ih,
      List.suffix_cons_iff, List.cons.injEq]
    constructor
    · rintro (⟨rfl, h⟩ | ⟨slot, hslot, h⟩)
      · exact ⟨a, .inl ⟨rfl, rfl⟩, h⟩
      · exact ⟨slot, .inr hslot, h⟩
    · rintro ⟨slot, ⟨rfl, he⟩ | hslot, h⟩
      · exact .inl ⟨he.symm, h⟩
      · exact .inr ⟨slot, hslot, h⟩

/-- A line may cite what stands in an earlier slot of a block around it. -/
theorem hasAccess_iff :
    n.hasAccess m = true ↔ ∃ slot, slot :: m.enclosing <:+ n.inward ∧ m.slot < slot :=
  isEarlierOn_iff

/-- Inside a sub-proof its own earlier lines are visible, and what is visible from
    the slot where it stands. -/
theorem hasAccess_cons {x y : Nat} {e : List Nat} :
    (⟨x, y :: e⟩ : LineNumber).hasAccess m = true ↔
      (m.enclosing = y :: e ∧ m.slot < x) ∨ (⟨y, e⟩ : LineNumber).hasAccess m = true := by
  rw [hasAccess, inward, isEarlierOn, Bool.or_eq_true, Bool.and_eq_true, decide_eq_true_eq,
    decide_eq_true_eq, eq_comm]
  rfl

/-- The next line of a block sees one line more. -/
theorem hasAccess_succ {x : Nat} {e : List Nat} : (⟨x + 1, e⟩ : LineNumber).hasAccess m = true ↔
    m = ⟨x, e⟩ ∨ (⟨x, e⟩ : LineNumber).hasAccess m = true := by
  obtain ⟨y, f⟩ := m
  simp only [hasAccess, inward, isEarlierOn, Bool.or_eq_true, Bool.and_eq_true, decide_eq_true_eq,
    mk.injEq, eq_comm (a := e), ← or_assoc, ← and_or_left, and_comm (a := y = x)]
  rw [show y < x + 1 ↔ y = x ∨ y < x by omega]

/-- After the assumption of a sub-proof, that assumption is visible and what
    was visible before it. -/
theorem hasAccess_two {x : Nat} {e : List Nat} (hm : m.slot ≠ 0) :
    (⟨2, x :: e⟩ : LineNumber).hasAccess m = true ↔
      m = ⟨1, x :: e⟩ ∨ (⟨x, e⟩ : LineNumber).hasAccess m = true := by
  obtain ⟨y, f⟩ := m
  rw [hasAccess_cons]
  refine or_congr ?_ Iff.rfl
  simp only [mk.injEq, and_comm (a := y = 1)]
  refine and_congr_right fun _ => ?_
  simp only at hm; omega

/-- The blocks around a visible line are also around the line that sees it. -/
theorem enclosing_suffix_of_hasAccess (h : n.hasAccess m = true) : m.enclosing <:+ n.enclosing := by
  obtain ⟨slot, hslot, -⟩ := hasAccess_iff.1 h
  rcases List.suffix_cons_iff.1 hslot with heq | hsuffix
  · rw [(List.cons.inj heq).2]
  · exact (List.suffix_cons slot m.enclosing).trans hsuffix

/-- What is visible comes earlier. -/
theorem lt_of_hasAccess (h : n.hasAccess m = true) : m < n := by
  obtain ⟨slot, ⟨d, hd⟩, hslot⟩ := hasAccess_iff.1 h
  have hn : n.path = m.enclosing.reverse ++ slot :: d.reverse := by simp [path, ← hd]
  exact lt_of_comparePath (path_eq m) hn (by simp [comparePath, Nat.compare_eq_lt.2 hslot])

theorem hasAccess_irrefl (n : LineNumber) : n.hasAccess n = false :=
  Bool.eq_false_iff.2 fun h => (lt_of_hasAccess h).ne rfl

/-- What is visible from a visible line is visible. -/
theorem hasAccess_trans (h : n.hasAccess m = true) (h' : m.hasAccess k = true) :
    n.hasAccess k = true := by
  obtain ⟨x, hx, hmx⟩ := hasAccess_iff.1 h
  obtain ⟨y, hy, hky⟩ := hasAccess_iff.1 h'
  rw [hasAccess_iff]
  -- the line `k` stands in the block of `m` itself, or in one around it
  rcases List.suffix_cons_iff.1 hy with heq | hsuffix
  · obtain ⟨rfl, henclosing⟩ := List.cons.inj heq
    exact ⟨x, henclosing ▸ hx, hky.trans hmx⟩
  · exact ⟨y, (hsuffix.trans (List.suffix_cons x _)).trans hx, hky⟩

end

/-- **Lines are totally ordered, and visibility is a strict part of their order.**
    Numbers compare as equal iff they are written alike; a number comes before
    another one iff it continues that one or has the smaller slot where the two
    part.  Unless the slots run out, the next line and a new sub-proof come later,
    and so does the line that closes the current one.  No line sees itself, what a
    visible line sees is visible, and what is visible comes earlier. -/
theorem compare_total_hasAccess_strict (n m k : LineNumber) :
    (compare m n = (compare n m).swap ∧
      ((compare n m).isLE = true → (compare m k).isLE = true → (compare n k).isLE = true) ∧
      (compare n m = .eq ↔ n.path = m.path) ∧
      (compare n m = .lt ↔ (m.path <+: n.path ∧ m.path ≠ n.path) ∨
        ∃ e x y r r', n.path = e ++ x :: r ∧ m.path = e ++ y :: r' ∧ x < y)) ∧
    (((n.next?.isSome = true ↔ n.slot < maxSlot) ∧ ∀ n', n.next? = some n' → n < n') ∧
      ((n.open?.isSome = true ↔ n.slot < maxSlot) ∧ ∀ n', n.open? = some n' → n < n') ∧
      (2 ≤ n.levels → n < n.close)) ∧
    (n.hasAccess n = false ∧
      (n.hasAccess m = true → m.hasAccess k = true → n.hasAccess k = true) ∧
      (n.hasAccess m = true → m < n)) := by
  have htrans : (compare n m).isLE = true → (compare m k).isLE = true →
      (compare n k).isLE = true := Preorder.le_trans n m k
  have heq : compare n m = .eq ↔ n.path = m.path := by
    rw [compare]
    exact LawfulEqCmp.compare_eq_iff_eq
  have hopen : n.open?.isSome = true ↔ n.slot < maxSlot := by
    rw [open?, Option.isSome_map, isSome_next?]
  have hclose : 2 ≤ n.levels → n < n.close := fun h => lt_of_close (enclosing_of_close h rfl)
  refine ⟨⟨comparePath_swap n.path m.path, htrans, heq, comparePath_eq_lt_iff⟩,
    ⟨⟨isSome_next?, ?_⟩, ⟨hopen, ?_⟩, hclose⟩, hasAccess_irrefl n, hasAccess_trans, lt_of_hasAccess⟩
  · intro n' h; exact lt_of_next? h
  · intro n' h; exact lt_of_open? h

/-- The line `2.3.1` sees `2.1`, which sees `1`; it may be followed by `2.3.2`, by
    `2.3.2.1` and by `2.3`, which it continues. -/
theorem compare_total_hasAccess_strict_nested :
    let k : LineNumber := ⟨1, []⟩
    let m : LineNumber := ⟨1, [2]⟩
    let n : LineNumber := ⟨1, [3, 2]⟩
    ((compare k m).isLE = true ∧ (compare m n).isLE = true ∧ (compare k n).isLE = true) ∧
      (n.close.path <+: n.path ∧ n.close.path ≠ n.path ∧ compare n n.close = .lt) ∧
      (n.next? = some ⟨2, [3, 2]⟩ ∧ n < ⟨2, [3, 2]⟩) ∧
      (n.open? = some ⟨1, [2, 3, 2]⟩ ∧ n < ⟨1, [2, 3, 2]⟩) ∧
      (2 ≤ n.levels ∧ n < n.close) ∧
      (n.hasAccess m = true ∧ m.hasAccess k = true ∧ n.hasAccess k = true ∧ m < n) := by
  intro k m n
  have hkm : (compare k m).isLE = true := rfl
  have hmn : (compare m n).isLE = true := rfl
  have hcontinues : n.close.path <+: n.path ∧ n.close.path ≠ n.path := by decide
  have hnext : n.next? = some ⟨2, [3, 2]⟩ := rfl
  have hopen : n.open? = some ⟨1, [2, 3, 2]⟩ := rfl
  have hlevels : 2 ≤ n.levels := by decide
  have hnm : n.hasAccess m = true := rfl
  have hmk : m.hasAccess k = true := rfl
  obtain ⟨⟨-, htrans, -⟩, -⟩ := compare_total_hasAccess_strict k m n
  obtain ⟨⟨-, -, -, hlt⟩, -⟩ := compare_total_hasAccess_strict n n.close k
  obtain ⟨-, ⟨⟨-, hafter⟩, ⟨-, hinside⟩, hclose⟩, -, hsees, hearlier⟩ :=
    compare_total_hasAccess_strict n m k
  exact ⟨⟨hkm, hmn, htrans hkm hmn⟩, ⟨hcontinues.1, hcontinues.2, hlt.2 (.inl hcontinues)⟩,
    ⟨hnext, hafter _ hnext⟩, ⟨hopen, hinside _ hopen⟩, ⟨hlevels, hclose hlevels⟩,
    hnm, hmk, hsees hnm hmk, hearlier hnm⟩

/-- The numbers of the assumptions of the sub-proofs around a block, innermost
    first. -/
def openings : List Nat → List LineNumber
  | [] => []
  | slot :: enclosing => ⟨1, slot :: enclosing⟩ :: openings enclosing

end Deduction.LineNumber
