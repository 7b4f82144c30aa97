/-
  Scanners.

  A scanner reads from the front of a text and returns a value with the rest of
  the text, or stops and tells where.  A stop is a mismatch, after which another
  alternative may be tried, or it is final because the nesting limit has been
  reached.

  * `optional` and `many` try a scanner and, on a mismatch, go back to where it
    started; `orElse` then tries another one;
  * `separated`: one or more items with separators between them.
-/
import Deduction.Text.Blank

namespace Deduction.Text

/-- Why a scanner stopped. -/
inductive StopKind where
  /-- The text is not of the expected form. -/
  | mismatch
  /-- The text is nested too deeply. -/
  | tooDeep
  deriving DecidableEq

/-- The rest of the text at which a scanner stopped. -/
structure Stop where
  kind : StopKind
  rest : List Char
  deriving DecidableEq

/-- A scanner takes a text to a value and the rest of the text. -/
abbrev Scanner := StateT (List Char) (Except Stop)

namespace Scanner

variable {α β : Type}

/-- Stops here. -/
def stop (kind : StopKind) : Scanner α := fun cs => .error ⟨kind, cs⟩

/-- Tries `p` and, on a mismatch, `q` from the same place. -/
def orElse (p q : Scanner α) : Scanner α := fun cs =>
  match p cs with
  | .error ⟨.mismatch, _⟩ => q cs
  | r => r

/-- Tries `p`; a mismatch takes nothing. -/
def optional (p : Scanner α) : Scanner (Option α) := fun cs =>
  match p cs with
  | .ok (a, rest) => .ok (some a, rest)
  | .error ⟨.mismatch, _⟩ => .ok (none, cs)
  | .error s => .error s

/-- Repeats `p` until it mismatches, at most `rounds` times. -/
def manyUpTo (p : Scanner α) : (rounds : Nat) → Scanner (List α)
  | 0 => pure []
  | rounds + 1 => do
    match ← optional p with
    | none => pure []
    | some a => return a :: (← manyUpTo p rounds)

/-- Repeats `p` until it mismatches.  As `p` takes at least one character each
    time, the length of the text bounds the number of rounds. -/
def many (p : Scanner α) : Scanner (List α) := fun cs => manyUpTo p cs.length cs

/-- One or more times `p`. -/
def many1 (p : Scanner α) : Scanner (List α) := do
  let a ← p
  return a :: (← many p)

/-- One or more times `p`, with `sep` in between. -/
def separated (sep : Scanner β) (p : Scanner α) : Scanner (List α) := do
  let a ← p
  return a :: (← many (sep *> p))

/-- The longest beginning whose characters satisfy `p`. -/
def takeWhile (p : Char → Bool) : Scanner (List Char) := fun cs =>
  .ok (cs.takeWhile p, cs.dropWhile p)

/-- Like `takeWhile`, but at least one character. -/
def takeWhile1 (p : Char → Bool) : Scanner (List Char) := fun cs =>
  if (cs.takeWhile p).isEmpty then stop .mismatch cs else takeWhile p cs

/-- Any number of spaces and tabs. -/
def blanks : Scanner Unit := fun cs => .ok ((), cs.dropWhile isSpaceOrTab)

/-- At least one space or tab. -/
def blanks1 : Scanner Unit := do
  let _ ← takeWhile1 isSpaceOrTab

/-- `p` after any number of spaces and tabs. -/
def token (p : Scanner α) : Scanner α := do
  blanks
  p

/-- The rest of `cs` behind the beginning `w`, if it begins so. -/
def dropBeginning? (same : Char → Char → Bool) : (w cs : List Char) → Option (List Char)
  | [], cs => some cs
  | _ :: _, [] => none
  | a :: w, c :: cs => if same a c then dropBeginning? same w cs else none

/-- Exactly the given word. -/
def word (w : String) : Scanner Unit := fun cs =>
  match dropBeginning? (fun a c => a = c) w.toList cs with
  | some rest => .ok ((), rest)
  | none => stop .mismatch cs

/-- The given word, its Latin letters in any casing. -/
def wordAnyCase (w : String) : Scanner Unit := fun cs =>
  match dropBeginning? (fun a c => a.toLower = c.toLower) w.toList cs with
  | some rest => .ok ((), rest)
  | none => stop .mismatch cs

/-- The first of the given words that stands here. -/
def oneOf : (words : List String) → Scanner String
  | [] => stop .mismatch
  | w :: ws => orElse (word w *> pure w) (oneOf ws)

/-- `p`, then spaces and tabs up to the end of the text. -/
def toEnd (p : Scanner α) : Scanner α := do
  let a ← p
  blanks
  fun
    | [] => .ok (a, [])
    | cs => stop .mismatch cs

end Scanner

end Deduction.Text
