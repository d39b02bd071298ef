import JobAgg.Foundation.CharacterReferences

/-! # Percent-encoded text

`%` and two hexadecimal digits stand for a byte, and the bytes for letters in UTF-8. What is
not UTF-8 is replaced by U+FFFD. -/

namespace JobAgg

def isAscii (letter : Char) : Bool := decide (letter.toNat < 128)

end JobAgg
