/-
The routines every program can call without defining them.
-/
import Primer.Heap
import Primer.Text.Case
import Primer.Value.Arithmetic

namespace Primer

inductive Builtin where
  | length | toUpper | toLower | substring | contains
  | sqrt | abs | pow | round
  | toInteger | toReal | toString
  | stringToInteger | stringToReal | isInteger | isReal
  | size
  deriving DecidableEq, Repr, Inhabited

namespace Builtin

/-- Every routine under the name it is called by. -/
def table : List (String × Builtin) := [
  ("length", .length), ("toUpper", .toUpper), ("toLower", .toLower),
  ("substring", .substring), ("contains", .contains),
  ("sqrt", .sqrt), ("abs", .abs), ("pow", .pow), ("round", .round),
  ("toInteger", .toInteger), ("toReal", .toReal), ("toString", .toString),
  ("stringToInteger", .stringToInteger), ("stringToReal", .stringToReal),
  ("isInteger", .isInteger), ("isReal", .isReal), ("size", .size)]

def ofName? (name : String) : Option Builtin := table.lookup name

/-- How many arguments a routine takes. -/
def arity : Builtin → Nat
  | .substring => 3
  | .contains | .pow => 2
  | _ => 1

/-- The kind of a routine's result, of which the zero stands in when the routine fails. -/
def resultKind : Builtin → Kind
  | .length | .round | .toInteger | .stringToInteger | .size => .integer
  | .sqrt | .abs | .pow | .toReal | .stringToReal => .real
  | .toUpper | .toLower | .substring | .toString => .text
  | .contains | .isInteger | .isReal => .boolean

def fallback (b : Builtin) : Value := Value.zeroOf b.resultKind

/-- The text that a text or a character is. -/
def textOf : Value → Except ValueError String
  | .text s => .ok s
  | .character c => .ok (String.singleton c)
  | v => .error (.conversion v.kind .text)

/-- Whether `part` stands somewhere in `whole`. -/
def occursIn (part : List Char) : List Char → Bool
  | [] => part.isEmpty
  | c :: rest => part.isPrefixOf (c :: rest) || occursIn part rest

/-- The position nearest to `n` from `least` to `most`. -/
def clamp (n : Int64) (least most : Nat) : Nat := min (max n.toInt.toNat least) most

/-- The characters from `start` up to, not including, `stop`, both moved into the text. -/
def cut (s : String) (start stop : Int64) : String :=
  let cs := s.toList
  let start := clamp start 0 cs.length
  let stop := clamp stop start cs.length
  String.ofList ((cs.take stop).drop start)

/-- The distance of an integer from zero; the least integer is its own. -/
def magnitude (n : Int64) : Int64 := if n < 0 then -n else n

/-- Run a routine.  Missing arguments are null and surplus ones are not looked at. -/
def run (b : Builtin) (heap : Heap) (args : List Value) : Except ValueError Value := do
  let first := args.getD 0 .null
  let second := args.getD 1 .null
  let third := args.getD 2 .null
  match b with
  | .length => return .integer (Int64.ofNat (← textOf first).length)
  | .toUpper => return .text (Text.toUpper (← textOf first))
  | .toLower => return .text (Text.toLower (← textOf first))
  | .substring =>
    let s ← textOf first
    let start ← second.toInteger
    let stop ← third.toInteger
    return .text (cut s start stop)
  | .contains =>
    let whole ← textOf first
    let part ← textOf second
    return .boolean (occursIn part.toList whole.toList)
  | .sqrt => return .real (← first.number).sqrt
  | .abs =>
    match first with
    | .integer n => return .integer (magnitude n)
    | v => return .real (← v.number).abs
  | .pow =>
    let base ← first.number
    let exponent ← second.number
    return .real (base.pow exponent)
  | .round =>
    match first with
    | .integer n => return .integer n
    | v => return .integer (← v.number).round.toInt64
  | .toInteger => first.convert .integer
  | .toReal => first.convert .real
  | .toString => first.convert .text
  | .stringToInteger => (Value.text (← textOf first)).convert .integer
  | .stringToReal => (Value.text (← textOf first)).convert .real
  | .isInteger => return .boolean (Decimal.readInteger? (Text.trim (← textOf first))).isSome
  | .isReal => return .boolean (Decimal.readReal? (Text.trim (← textOf first))).isSome
  | .size =>
    match first with
    | .array r => return .integer (Int64.ofNat (heap.grid r).size)
    | v => throw (.conversion v.kind .array)

end Builtin

end Primer
