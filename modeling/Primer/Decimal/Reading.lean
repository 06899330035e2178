/-
Numbers written by a person.

A whole number is an optional sign and at least one digit, and must fit in 64 bits.
A real may also have a decimal point with digits on either side of it and a power of
ten, or be one of the words for infinity and for no number, in any letter case.
Nothing may stand before or after the number.
-/
import Primer.Binary64
import Primer.Text.Letter

namespace Primer.Decimal

/-- A sign, if there is one, and what follows it. -/
def readSign : List Char → Bool × List Char
  | '-' :: rest => (true, rest)
  | '+' :: rest => (false, rest)
  | cs => (false, cs)

/-- The number that a row of digits denotes. -/
def readDigits (cs : List Char) : Nat := Nat.ofDigitChars 10 cs 0

/-- A row of one or more digits. -/
def readNat? (cs : List Char) : Option Nat :=
  if cs ≠ [] && cs.all Text.isDigit then some (readDigits cs) else none

/-- The integers that fit in 64 bits. -/
def fits (n : Int) : Bool := -9223372036854775808 ≤ n && n ≤ 9223372036854775807

/-- A whole number in the range of 64 bits. -/
def readInteger? (s : String) : Option Int64 := do
  let (negative, cs) := readSign s.toList
  let size ← readNat? cs
  let n : Int := if negative then -size else size
  if fits n then some (Int64.ofInt n) else none

/-- The power of ten after an `e`, absent when the text ends here. -/
def readExponent? : List Char → Option Int
  | [] => some 0
  | e :: rest =>
    if e = 'e' || e = 'E' then do
      let (negative, cs) := readSign rest
      let size ← readNat? cs
      some (if negative then -size else size)
    else none

/-- The double nearest to `digits * 10 ^ power`.  Far outside the range of doubles the power is
not worked out. -/
def nearest (digits : Nat) (power : Int) : Float :=
  let magnitude := ((Nat.repr digits).length : Int) + power
  if digits = 0 then 0.0
  else if magnitude > 400 then 1.0 / 0.0
  else if magnitude < -400 then 0.0
  else if 0 ≤ power then Float.ofScientific digits false power.toNat
  else Float.ofScientific digits true (-power).toNat

/-- An unsigned real in digits. -/
def readSize? (cs : List Char) : Option Float := do
  let whole := cs.takeWhile Text.isDigit
  let rest := cs.drop whole.length
  let (fraction, rest) := match rest with
    | '.' :: more =>
      let fraction := more.takeWhile Text.isDigit
      (fraction, more.drop fraction.length)
    | _ => ([], rest)
  let power ← readExponent? rest
  if whole.isEmpty && fraction.isEmpty then none
  else some (nearest (readDigits (whole ++ fraction)) (power - fraction.length))

/-- The words that stand for a real, in lower case. -/
def readWord? (cs : List Char) : Option Float :=
  match String.ofList (cs.map Char.toLower) with
  | "inf" | "infinity" => some (1.0 / 0.0)
  | "nan" => some Binary64.nan
  | _ => none

def readReal? (s : String) : Option Float := do
  let (negative, cs) := readSign s.toList
  let size ← readWord? cs <|> readSize? cs
  some (if negative then -size else size)

end Primer.Decimal
