/-
  Blank characters, trimming, and the words of a text.

  A blank is a character with the Unicode property `White_Space`.  This is the
  class that separates words and that is trimmed; inside a line of a proof only
  spaces and tabs may stand between tokens (`isSpaceOrTab`).
-/
import Deduction.Text.CharClass

namespace Deduction.Text

/-- The characters with the property `White_Space`. -/
def blankTable : CharClass := [
    (0x9, 0xD), (0x20, 0x20), (0x85, 0x85), (0xA0, 0xA0), (0x1680, 0x1680), (0x2000, 0x200A),
    (0x2028, 0x2029), (0x202F, 0x202F), (0x205F, 0x205F), (0x3000, 0x3000)]

/-- Blanks of any kind, line ends included. -/
def isBlank (c : Char) : Bool := blankTable.contains c

/-- The two blanks that may stand between tokens. -/
def isSpaceOrTab (c : Char) : Bool := c = ' ' || c = '\t'

/-- Drops the leading blanks. -/
def trimStart (cs : List Char) : List Char := cs.dropWhile isBlank

/-- Whether a text has nothing but blanks. -/
def isBlankText (cs : List Char) : Bool := cs.all isBlank

/-- The maximal runs of non-blank characters, where `word` holds, reversed,
    what has been read of the current run. -/
def wordsFrom (word : List Char) : List Char → List (List Char)
  | [] => if word.isEmpty then [] else [word.reverse]
  | c :: cs =>
    if isBlank c then
      if word.isEmpty then wordsFrom [] cs else word.reverse :: wordsFrom [] cs
    else wordsFrom (c :: word) cs

/-- The words of a text: its maximal runs of non-blank characters. -/
def words (cs : List Char) : List (List Char) := wordsFrom [] cs

end Deduction.Text
