/-
  The search through arrangements is exact.

  The search puts each of the free entries in front of the others, one after
  another, and goes on behind it.  Every arrangement of the free entries begins
  with one of them (`arranges_iff`), so the list of the arrangements in the order
  of the search holds all of them (`mem_arrangements`).  Each exchange is undone,
  so the search leaves the array as it was and goes through this list up to the
  first arrangement that passes the test (`searchArrangements_eq_anyM`).

  An arrangement of a list is also a permutation of its positions
  (`perm_iff_exists_positions`); where entries are equal, there are several of
  them.
-/
import Deduction.Rule.Arrangement
import Mathlib.Data.List.FinRange
import Mathlib.Data.List.NodupEquivFin
import Mathlib.Data.List.Perm.Basic

namespace Deduction

variable {α : Type} {xs ys : Array α}

/-- The array `ys` has the entries of `xs`, and the first `fixed` ones stand where
    they stood. -/
def Arranges (fixed : Nat) (xs ys : Array α) : Prop :=
  ys.Perm xs ∧ ys.toList.take fixed = xs.toList.take fixed

/-! ## Exchanging two entries -/

theorem swapIfInBounds_perm (xs : Array α) (i j : Nat) : (xs.swapIfInBounds i j).Perm xs := by
  rw [Array.swapIfInBounds_def]
  by_cases hi : i < xs.size <;> by_cases hj : j < xs.size
  · rw [dif_pos hi, dif_pos hj]; exact Array.swap_perm hi hj
  all_goals simp [hi, hj]

theorem swapIfInBounds_undo (xs : Array α) (i j : Nat) :
    (xs.swapIfInBounds i j).swapIfInBounds i j = xs := by
  simp only [Array.swapIfInBounds_def]
  by_cases hi : i < xs.size <;> by_cases hj : j < xs.size <;> simp [hi, hj]

theorem take_swapIfInBounds {first k : Nat} (hk : first + k < xs.size) :
    (xs.swapIfInBounds first (first + k)).toList.take (first + 1) =
      xs.toList.take first ++ [xs[first + k]] := by
  have hfirst : first < xs.size := by omega
  rw [Array.swapIfInBounds_def, dif_pos hfirst, dif_pos hk, List.take_add_one,
    Array.getElem?_toList, Array.getElem?_swap, Array.toList_swap, List.take_set_of_le (by omega),
    List.take_set_of_le (by omega)]
  by_cases hk0 : k = 0
  · simp [hk0]
  · simp [hk0]

/-- **An arrangement begins with one of the free entries**, and goes on with an
    arrangement of the others. -/
theorem arranges_iff {first : Nat} (hfirst : first < xs.size) : Arranges first xs ys ↔
    ∃ k < xs.size - first, Arranges (first + 1) (xs.swapIfInBounds first (first + k)) ys := by
  constructor
  · rintro ⟨hperm, htake⟩
    have hsize : ys.size = xs.size := hperm.size_eq
    have hdrop : (ys.toList.drop first).Perm (xs.toList.drop first) := by
      have hlist := hperm.toList
      rw [← List.take_append_drop first ys.toList, ← List.take_append_drop first xs.toList,
        htake] at hlist
      exact (List.perm_append_left_iff _).1 hlist
    have hmem : ys[first] ∈ xs.toList.drop first :=
      hdrop.mem_iff.1 (List.mem_drop_iff_getElem.2 ⟨0, by simpa [hsize] using hfirst, by simp⟩)
    obtain ⟨k, hk, hget⟩ := List.mem_drop_iff_getElem.1 hmem
    have hk' : first + k < xs.size := by simpa [Nat.add_comm] using hk
    refine ⟨k, by omega, hperm.trans (swapIfInBounds_perm _ _ _).symm, ?_⟩
    rw [take_swapIfInBounds hk', List.take_add_one, htake]
    simp_all
  · rintro ⟨k, hk, hperm, htake⟩
    refine ⟨hperm.trans (swapIfInBounds_perm _ _ _), ?_⟩
    have htake' := congrArg (List.take first) htake
    rw [take_swapIfInBounds (by omega), List.take_take] at htake'
    have hlength : (xs.toList.take first).length = first := by
      rw [List.length_take, Array.length_toList, Nat.min_eq_left (Nat.le_of_lt hfirst)]
    rwa [Nat.min_eq_left (Nat.le_succ first), List.take_left' hlength] at htake'

/-! ## The search -/

/-- The arrangements of the last `free` entries, in the order of the search. -/
def arrangements : (free : Nat) → Array α → List (Array α)
  | 0, xs => [xs]
  | free + 1, xs =>
    let first := xs.size - (free + 1)
    (List.range (free + 1)).flatMap fun k =>
      arrangements free (xs.swapIfInBounds first (first + k))

theorem mem_arrangements {free : Nat} (hfree : free ≤ xs.size) :
    ys ∈ arrangements free xs ↔ Arranges (xs.size - free) xs ys := by
  induction free generalizing xs with
  | zero =>
    refine List.mem_singleton.trans ⟨?_, ?_⟩
    · rintro rfl
      exact ⟨.refl _, rfl⟩
    · rintro ⟨hperm, htake⟩
      have hsize : ys.size = xs.size := hperm.size_eq
      rw [Nat.sub_zero, ← Array.length_toList, List.take_length, Array.length_toList, ← hsize,
        ← Array.length_toList, List.take_length] at htake
      exact Array.toList_inj.1 htake
  | succ free ih =>
    have hfirst : xs.size - (free + 1) < xs.size := by omega
    have hnext : xs.size - free = xs.size - (free + 1) + 1 := by omega
    rw [arrangements, List.mem_flatMap, arranges_iff hfirst, Nat.sub_sub_self hfree]
    refine exists_congr fun k => and_congr List.mem_range ?_
    rw [ih (by rw [Array.size_swapIfInBounds]; omega), Array.size_swapIfInBounds, hnext]

section
variable {m : Type → Type} [Monad m] [LawfulMonad m] {test : Array α → m Bool}

theorem anyM_append (as bs : List (Array α)) :
    (as ++ bs).anyM test =
      as.anyM test >>= fun passed => if passed then pure true else bs.anyM test := by
  induction as with
  | nil => simp
  | cons a as ih =>
    simp only [List.cons_append, List.anyM_cons, ih, bind_assoc]
    refine bind_congr fun passed => ?_
    cases passed <;> simp

/-- The rounds of the loop, each of which undoes its exchange.  A round `k` asks the
    test about the arrays `asked k`. -/
theorem foldlM_searchRound {search : Array α → m (Bool × Array α)} {first : Nat}
    {asked : Nat → List (Array α)} {ks : List Nat}
    (hsearch : ∀ k ∈ ks, search (xs.swapIfInBounds first (first + k)) =
      (·, xs.swapIfInBounds first (first + k)) <$> (asked k).anyM test) (found : Bool) :
    ks.foldlM (fun (found, xs) k =>
        if found then return (found, xs)
        else do
          let (hit, ys) ← search (xs.swapIfInBounds first (first + k))
          return (hit, ys.swapIfInBounds first (first + k))) (found, xs) =
      (·, xs) <$> if found then pure true else (ks.flatMap asked).anyM test := by
  induction ks generalizing found with
  | nil => cases found <;> simp
  | cons k ks ih =>
    obtain ⟨hk, hks⟩ := List.forall_mem_cons.1 hsearch
    rw [List.foldlM_cons]
    cases found with
    | true => simpa using ih hks true
    | false =>
      simp only [Bool.false_eq_true, if_false, hk, bind_map_left, pure_bind, bind_assoc,
        swapIfInBounds_undo, ih hks, List.flatMap_cons, anyM_append, map_bind]

/-- **The search asks the test about one arrangement after the other, up to the
    first that passes, and leaves the array as it was.** -/
theorem searchArrangements_eq_anyM (free : Nat) (xs : Array α) :
    searchArrangements test free xs = (·, xs) <$> (arrangements free xs).anyM test := by
  induction free generalizing xs with
  | zero =>
    simp only [searchArrangements, arrangements, List.anyM_cons, List.anyM_nil, map_eq_pure_bind,
      bind_assoc]
    refine bind_congr fun passed => ?_
    cases passed <;> simp
  | succ free ih =>
    rw [searchArrangements, foldlM_searchRound fun k _ => ih _]
    rfl

end

theorem anyM_id (accept : Array α → Bool) (as : List (Array α)) :
    Id.run (as.anyM fun ys => pure (accept ys)) = as.any accept := by
  induction as with
  | nil => rfl
  | cons a as ih =>
    simp only [List.anyM_cons, List.any_cons, Id.run_bind, Id.run_pure]
    cases accept a with
    | true => rfl
    | false => exact ih

/-- **The search is successful iff some arrangement passes the test.** -/
theorem someArrangement_eq_true {accept : List α → Bool} {xs : List α} :
    someArrangement accept xs = true ↔ ∃ ys : List α, ys.Perm xs ∧ accept ys = true := by
  have hsize : xs.toArray.size - xs.length = 0 := by simp
  rw [someArrangement, searchArrangements_eq_anyM, Id.run_map, anyM_id, List.any_eq_true]
  simp only [mem_arrangements (by simp : xs.length ≤ xs.toArray.size), hsize]
  constructor
  · rintro ⟨ys, ⟨hperm, -⟩, h⟩
    exact ⟨ys.toList, hperm.toList, h⟩
  · rintro ⟨ys, hperm, h⟩
    exact ⟨ys.toArray, ⟨Array.perm_iff_toList_perm.2 hperm, rfl⟩, h⟩

/-! ## Positions -/

/-- **An arrangement of a list is a permutation of its positions.** -/
theorem perm_iff_exists_positions {xs ys : List α} :
    ys.Perm xs ↔ ∃ π : Equiv.Perm (Fin xs.length), ys = List.ofFn fun i => xs.get (π i) := by
  constructor
  · intro h
    -- `ys` takes the entries of `xs` at the positions `is`, in which each position occurs once
    have hcomp : Relation.Comp (· = List.map xs.get ·) List.Perm ys (List.finRange xs.length) := by
      rw [List.eq_map_comp_perm]
      change ys.Perm (List.map xs.get (List.finRange xs.length))
      rwa [List.map_get_finRange]
    obtain ⟨is, hys, his⟩ := hcomp
    have hlength : xs.length = is.length := by rw [his.length_eq, List.length_finRange]
    have hnodup : is.Nodup := his.nodup_iff.2 (List.nodup_finRange _)
    have hall : ∀ i, i ∈ is := fun i => his.mem_iff.2 (List.mem_finRange i)
    refine ⟨(finCongr hlength).trans (hnodup.getEquivOfForallMemList is hall), ?_⟩
    rw [hys]
    exact List.ext_get (by simp [hlength]) fun n _ _ => by simp
  · rintro ⟨π, rfl⟩
    have hperm := π.ofFn_comp_perm xs.get
    rwa [List.ofFn_get] at hperm

end Deduction
