/-
  Search through the arrangements of an array.

  `searchArrangements` tries a test on the arrangements of the entries behind a
  fixed initial part.  It works by exchanging entries and undoes each exchange,
  so that the array comes back in its first order, and it stops at the first
  arrangement that passes.  The test may have effects, such as to note what it
  was asked.
-/

namespace Deduction

variable {α : Type} {m : Type → Type} [Monad m]

/-- Tries `accept` on the arrangements of the last `free` entries of `xs`, and
    returns whether one of them passed, together with the array. -/
def searchArrangements (accept : Array α → m Bool) : (free : Nat) → Array α → m (Bool × Array α)
  | 0, xs => return (← accept xs, xs)
  | free + 1, xs =>
    let first := xs.size - (free + 1)
    (List.range (free + 1)).foldlM
      (fun (found, xs) k =>
        if found then return (found, xs)
        else do
          let (hit, ys) ← searchArrangements accept free (xs.swapIfInBounds first (first + k))
          return (hit, ys.swapIfInBounds first (first + k)))
      (false, xs)

/-- Whether some arrangement of the entries passes the test. -/
def someArrangement (accept : List α → Bool) (xs : List α) : Bool :=
  (Id.run (searchArrangements (fun ys => pure (accept ys.toList)) xs.length xs.toArray)).1

end Deduction
