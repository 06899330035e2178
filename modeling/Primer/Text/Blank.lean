/-
White space: the characters a reader of numbers and words skips at both ends of a
line of input.  The table is the Unicode property White_Space.
-/
import Primer.Text.Ranges

namespace Primer.Text

/-- Ascending ranges of the white space code points. -/
def Blank.ranges : Array (Nat × Nat) := #[
  (0x9, 0xD), (0x20, 0x20), (0x85, 0x85), (0xA0, 0xA0), (0x1680, 0x1680),
  (0x2000, 0x200A), (0x2028, 0x2029), (0x202F, 0x202F), (0x205F, 0x205F), (0x3000, 0x3000)]

/-- White space of any script. -/
def isBlank (c : Char) : Bool := Ranges.covers Blank.ranges c

/-- `s` without the white space at its two ends. -/
def trim (s : String) : String :=
  let front := s.toList.dropWhile isBlank
  String.ofList (front.reverse.dropWhile isBlank).reverse

end Primer.Text
