/-
  The search asks about each ordering of the positions once.

  * `orders`: the permutations of the positions that move only the last ones, in
    the order of the search.  Each of them occurs once (`nodup_orders`,
    `mem_orders`), also where they order equal entries;
  * `noting`: a test that notes what it is asked and what it answers.

  Main statement: the search asks about the orderings of the free positions one
  after another, about all of them unless one passes, and puts every entry back
  (`searchArrangements_exhaustive`).
-/
import Deduction.Proofs.Arrangement
import Mathlib.Data.Nat.Factorial.Basic
import Mathlib.GroupTheory.Perm.Basic

namespace Deduction

open Equiv Nat

variable {α σ : Type} {n free : Nat}

/-! ## Orders of the positions -/

/-- The array that has, at each position `i`, the entry of `xs` at `π i`. -/
def arrange (xs : Array α) (π : Perm (Fin xs.size)) : Array α := Array.ofFn fun i => xs[(π i).val]

/-- The permutations of `n` positions that move only the last `free` ones, in the
    order of the search. -/
def orders (n : Nat) : (free : Nat) → free ≤ n → List (Perm (Fin n))
  | 0, _ => [1]
  | free + 1, h =>
    (List.finRange (free + 1)).flatMap fun k =>
      (orders n free (by omega)).map
        (swap ⟨n - (free + 1), by omega⟩ ⟨n - (free + 1) + k, by omega⟩ * ·)

theorem length_orders (hfree : free ≤ n) : (orders n free hfree).length = free ! := by
  induction free with
  | zero => rfl
  | succ free ih =>
    simp [orders, List.length_flatMap, ih, Nat.factorial_succ]

/-- A permutation that leaves the positions before `first` alone is, after the
    exchange of `first` with its image, one that leaves `first` alone too. -/
theorem fixes_swap_mul {π : Perm (Fin n)} (first : Fin n) (hπ : ∀ i < first, π i = i) :
    first ≤ π first ∧ ∀ i ≤ first, (swap first (π first) * π) i = i := by
  constructor
  · by_contra hlt
    have himage := hπ _ (not_le.1 hlt)
    exact hlt (π.injective himage).ge
  · intro i hi
    rw [Perm.mul_apply]
    rcases hi.lt_or_eq with hi | rfl
    · have hne : i ≠ π first := fun h => hi.ne (π.injective ((hπ i hi).trans h))
      rw [hπ i hi, swap_apply_of_ne_of_ne hi.ne hne]
    · exact swap_apply_right i (π i)

theorem mem_orders (hfree : free ≤ n) {π : Perm (Fin n)} :
    π ∈ orders n free hfree ↔ ∀ i : Fin n, i.val < n - free → π i = i := by
  induction free generalizing π with
  | zero =>
    rw [orders, List.mem_singleton, Perm.ext_iff]
    exact forall_congr' fun i => ⟨fun h _ => h, fun h => h i.isLt⟩
  | succ free ih =>
    have hnext : n - free = n - (free + 1) + 1 := by omega
    simp only [orders, List.mem_flatMap, List.mem_finRange, true_and, List.mem_map, ih, hnext]
    constructor
    · rintro ⟨k, π', hπ', rfl⟩ i hi
      rw [Perm.mul_apply, hπ' i (by omega), swap_apply_of_ne_of_ne]
      all_goals exact Fin.ne_of_val_ne (by simp only; omega)
    · intro hπ
      obtain ⟨hle, hfixes⟩ := fixes_swap_mul ⟨n - (free + 1), by omega⟩ hπ
      have himage := (π ⟨n - (free + 1), by omega⟩).isLt
      rw [Fin.le_def] at hle
      refine ⟨⟨π ⟨n - (free + 1), by omega⟩ - (n - (free + 1)), by omega⟩, _,
        fun i hi => hfixes i (by rw [Fin.le_def]; simp only; omega), ?_⟩
      simp only [Nat.add_sub_cancel' hle, Fin.eta, swap_mul_self_mul]

/-- The first free position of an order is the one it was exchanged with, so no
    order comes from two rounds. -/
theorem nodup_orders (hfree : free ≤ n) : (orders n free hfree).Nodup := by
  induction free with
  | zero => exact List.nodup_singleton 1
  | succ free ih =>
    rw [orders, List.nodup_flatMap]
    refine ⟨fun k _ => (ih _).map (mul_right_injective _), ?_⟩
    refine (List.nodup_finRange _).imp fun {k l} hne π hk hl => hne ?_
    obtain ⟨π₁, h₁, rfl⟩ := List.mem_map.1 hk
    obtain ⟨π₂, h₂, heq⟩ := List.mem_map.1 hl
    have hfirst := congrArg (fun π => (π ⟨n - (free + 1), by omega⟩).val) heq
    simp only [Perm.mul_apply, (mem_orders _).1 h₁ ⟨n - (free + 1), by omega⟩ (by simp only; omega),
      (mem_orders _).1 h₂ ⟨n - (free + 1), by omega⟩ (by simp only; omega),
      swap_apply_left] at hfirst
    exact Fin.ext (by omega)

theorem swapIfInBounds_ofFn (f : Fin n → α) (i j : Fin n) :
    (Array.ofFn f).swapIfInBounds i j = Array.ofFn (f ∘ swap i j) := by
  have hi : i.val < (Array.ofFn f).size := by simp
  have hj : j.val < (Array.ofFn f).size := by simp
  rw [Array.swapIfInBounds_def, dif_pos hi, dif_pos hj]
  refine Array.ext (by simp) fun k hk hk' => ?_
  simp only [Array.getElem_swap, Array.getElem_ofFn, Function.comp_apply, swap_apply_def,
    Fin.ext_iff]
  split
  · rfl
  · split <;> rfl

theorem arrangements_ofFn (hfree : free ≤ n) (f : Fin n → α) :
    arrangements free (Array.ofFn f) =
      (orders n free hfree).map fun π : Perm (Fin n) => Array.ofFn (f ∘ π) := by
  induction free generalizing f with
  | zero => rfl
  | succ free ih =>
    rw [arrangements, orders, ← List.map_coe_finRange_eq_range, List.flatMap_map, List.map_flatMap]
    refine List.flatMap_congr fun k _ => ?_
    have hswap := swapIfInBounds_ofFn f ⟨n - (free + 1), by omega⟩ ⟨n - (free + 1) + k, by omega⟩
    rw [Array.size_ofFn, hswap, ih (by omega), List.map_map]
    rfl

/-- **The search goes through the orders of the free positions.** -/
theorem arrangements_eq_map {xs : Array α} (hfree : free ≤ xs.size) :
    arrangements free xs = (orders xs.size free hfree).map (arrange xs) := by
  have h := arrangements_ofFn hfree fun i => xs[i.val]
  rwa [Array.ofFn_getElem] at h

/-! ## What the test is asked -/

/-- The test, which also notes what it is asked and what it answers. -/
def noting (test : Array α → StateM σ Bool) (ys : Array α) :
    StateM (σ × List (Array α × Bool)) Bool := do
  let (s, notes) ← get
  let (passed, s) := (test ys).run s
  set (s, notes ++ [(ys, passed)])
  return passed

theorem anyM_noting (test : Array α → StateM σ Bool) (as : List (Array α)) (s : σ)
    (notes : List (Array α × Bool)) :
    ∃ s' asked, (as.anyM (noting test)).run (s, notes) =
        (asked.any Prod.snd, s', notes ++ asked) ∧
      asked.map Prod.fst <+: as ∧ (asked.any Prod.snd = false → asked.map Prod.fst = as) := by
  induction as generalizing s notes with
  | nil => exact ⟨s, [], by simp; rfl, List.nil_prefix, fun _ => rfl⟩
  | cons a as ih =>
    rcases htest : (test a).run s with ⟨passed, s₁⟩
    have hnoting : (noting test a).run (s, notes) = (passed, s₁, notes ++ [(a, passed)]) := by
      simp [noting, htest]; rfl
    rw [List.anyM_cons, StateT.run_bind, hnoting]
    cases passed with
    | true => exact ⟨s₁, [(a, true)], rfl, by simp, by simp⟩
    | false =>
      obtain ⟨s', asked, hrun, hbegins, hall⟩ := ih s₁ (notes ++ [(a, false)])
      refine ⟨s', (a, false) :: asked, hrun.trans ?_, by simpa using hbegins, by simpa using hall⟩
      simp

/-- **The search is exhaustive and puts every entry back.**  The orderings `πs` are
    the permutations of the positions that leave those before `start` alone, each of
    them once.  A test with a state of its own is asked about them one after another,
    about all of them unless it once says yes, and this is what the search returns.
    For a test without a state, this is whether one of the orderings passes. -/
theorem searchArrangements_exhaustive (xs : Array α) (start : Nat) (hstart : start ≤ xs.size) :
    ∃ πs : List (Perm (Fin xs.size)), πs.Nodup ∧ πs.length = (xs.size - start)! ∧
      (∀ π, π ∈ πs ↔ ∀ i : Fin xs.size, i.val < start → π i = i) ∧
      (∀ (test : Array α → StateM σ Bool) (s : σ), ∃ s' asked,
        (searchArrangements (noting test) (xs.size - start) xs).run (s, []) =
            ((asked.any Prod.snd, xs), s', asked) ∧
          asked.map Prod.fst <+: πs.map (arrange xs) ∧
          (asked.any Prod.snd = false → asked.map Prod.fst = πs.map (arrange xs))) ∧
      ∀ accept : Array α → Bool,
        Id.run (searchArrangements (fun ys => pure (accept ys)) (xs.size - start) xs) =
          (πs.any fun π => accept (arrange xs π), xs) := by
  have hfree : xs.size - start ≤ xs.size := Nat.sub_le _ _
  refine ⟨orders xs.size _ hfree, nodup_orders hfree, length_orders hfree, fun π => ?_,
    fun test s => ?_, fun accept => ?_⟩
  · rw [mem_orders, Nat.sub_sub_self hstart]
  · obtain ⟨s', asked, hrun, hasked⟩ := anyM_noting test (arrangements (xs.size - start) xs) s []
    rw [arrangements_eq_map hfree] at hasked
    refine ⟨s', asked, ?_, hasked⟩
    rw [searchArrangements_eq_anyM, StateT.run_map, hrun]
    rfl
  · rw [searchArrangements_eq_anyM, Id.run_map, anyM_id, arrangements_eq_map hfree, List.any_map]
    rfl

/-- The last two of three entries are equal, and there are two orderings of them all
    the same. -/
theorem searchArrangements_exhaustive_twins :
    1 ≤ #['a', 'b', 'b'].size ∧
      ∃ πs : List (Perm (Fin 3)), πs.Nodup ∧ πs.length = 2 ! ∧
        (∀ π, π ∈ πs ↔ ∀ i : Fin 3, i.val < 1 → π i = i) ∧
        (∀ (test : Array Char → StateM Nat Bool) (s : Nat), ∃ s' asked,
          (searchArrangements (noting test) 2 #['a', 'b', 'b']).run (s, []) =
              ((asked.any Prod.snd, #['a', 'b', 'b']), s', asked) ∧
            asked.map Prod.fst <+: πs.map (arrange #['a', 'b', 'b']) ∧
            (asked.any Prod.snd = false → asked.map Prod.fst = πs.map (arrange #['a', 'b', 'b']))) ∧
        ∀ accept : Array Char → Bool,
          Id.run (searchArrangements (fun ys => pure (accept ys)) 2 #['a', 'b', 'b']) =
            (πs.any fun π => accept (arrange #['a', 'b', 'b'] π), #['a', 'b', 'b']) :=
  ⟨by decide, searchArrangements_exhaustive #['a', 'b', 'b'] 1 (by decide)⟩

end Deduction
