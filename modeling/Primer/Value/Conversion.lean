/-
Conversions between kinds of values.

Numbers convert into each other, a text converts into whatever it spells, and every
scalar has a text.  Arrays and objects are only themselves, and the null value is a
valid array or object.
-/
import Primer.Decimal.Reading
import Primer.Decimal.Shortest
import Primer.Text.Blank
import Primer.Value

namespace Primer.Value

/-- The text of a scalar.  Arrays and objects have none of their own. -/
def scalarText? : Value → Option String
  | .null => some "Null"
  | .integer n => some (toString n.toInt)
  | .real x => some (Binary64.text x)
  | .text s => some s
  | .boolean true => some "True"
  | .boolean false => some "False"
  | .character c => some (String.singleton c)
  | .array _ | .object _ => none

/-- Truth values and nothing else. -/
def toBoolean : Value → Except ValueError Bool
  | .boolean b => .ok b
  | v => .error (.conversion v.kind .boolean)

/-- The integer that a value spells, rounds toward zero to, or numbers as a character. -/
def toInteger? : Value → Option Int64
  | .integer n => some n
  | .real x => some x.toInt64
  | .character c => some (Int64.ofNat c.toNat)
  | .text s => Decimal.readInteger? (Text.trim s)
  | _ => none

def toReal? : Value → Option Float
  | .integer n => some n.toFloat
  | .real x => some x
  | .text s => Decimal.readReal? (Text.trim s)
  | _ => none

def toBoolean? : Value → Option Bool
  | .boolean b => some b
  | .text s =>
    match Text.trim s with
    | "True" | "true" => some true
    | "False" | "false" => some false
    | _ => none
  | _ => none

def toCharacter? : Value → Option Char
  | .character c => some c
  | .text s =>
    match s.toList with
    | [c] => some c
    | _ => none
  | _ => none

/-- The value as the kind of storage that is to hold it. -/
def convert? (v : Value) : Kind → Option Value
  | .integer => v.toInteger?.map .integer
  | .real => v.toReal?.map .real
  | .boolean => v.toBoolean?.map .boolean
  | .character => v.toCharacter?.map .character
  | .text => v.scalarText?.map .text
  | .array =>
    match v with
    | .array _ | .null => some v
    | _ => none
  | .object =>
    match v with
    | .object _ | .null => some v
    | _ => none
  | .null =>
    match v with
    | .null => some v
    | _ => none

def convert (v : Value) (target : Kind) : Except ValueError Value :=
  match v.convert? target with
  | some w => .ok w
  | none => .error (.conversion v.kind target)

def toInteger (v : Value) : Except ValueError Int64 :=
  match v.toInteger? with
  | some n => .ok n
  | none => .error (.conversion v.kind .integer)

/-- The real number that a number is.  Texts are not read here. -/
def number : Value → Except ValueError Float
  | .integer n => .ok n.toFloat
  | .real x => .ok x
  | v => .error (.conversion v.kind .real)

end Primer.Value
