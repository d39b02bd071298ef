import Mathlib.Data.List.DropRight
import Mathlib.Data.String.Basic

/-! # Words of a text

What Python takes for white space, and the words that stand between it. -/

namespace JobAgg

/-- `str.isspace`, of one letter -/
def isSpace (letter : Char) : Bool :=
  letter.toNat ∈ [9, 10, 11, 12, 13, 28, 29, 30, 31, 32, 133, 160, 5760, 8232, 8233, 8239, 8287,
    12288] || (decide (8192 ≤ letter.toNat) && decide (letter.toNat ≤ 8202))

/-- `str.strip` -/
def stripSpace (text : List Char) : List Char :=
  (text.dropWhile isSpace).rdropWhile isSpace

/-- `str.split`, at runs of white space -/
def words (text : List Char) : List (List Char) :=
  (text.splitOnP isSpace).filter (· ≠ [])

/-- `" ".join` -/
def unwords (parts : List (List Char)) : List Char :=
  [' '].intercalate parts

end JobAgg
