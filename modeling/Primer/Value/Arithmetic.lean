/-
Arithmetic on values.

Two integers give an integer as long as the exact result fits in 64 bits, and the
real result of the same operation otherwise.  A real operand makes the whole
operation real.  Texts and characters can only be joined.
-/
import Primer.Value.Conversion

namespace Primer.Value

/-- An integer result, if it fits. -/
def checked (n : Int) : Option Int64 :=
  if Decimal.fits n then some (Int64.ofInt n) else none

/-- An operation with an exact form on integers and a rounded one on reals. -/
def numeric (op : String) (exact : Int → Int → Option Int64) (rounded : Float → Float → Float)
    (a b : Value) : Except ValueError Value :=
  match a, b with
  | .integer m, .integer n =>
    match exact m.toInt n.toInt with
    | some k => .ok (.integer k)
    | none => .ok (.real (rounded m.toFloat n.toFloat))
  | .integer m, .real y => .ok (.real (rounded m.toFloat y))
  | .real x, .integer n => .ok (.real (rounded x n.toFloat))
  | .real x, .real y => .ok (.real (rounded x y))
  | a, b => .error (.operands op a.kind b.kind)

def add (a b : Value) : Except ValueError Value :=
  match a, b with
  | .text s, .text t => .ok (.text (s ++ t))
  | .text s, .character c => .ok (.text (s.push c))
  | .character c, .text t => .ok (.text (String.singleton c ++ t))
  | a, b => numeric "+" (fun m n => checked (m + n)) (· + ·) a b

def subtract (a b : Value) : Except ValueError Value :=
  numeric "-" (fun m n => checked (m - n)) (· - ·) a b

def multiply (a b : Value) : Except ValueError Value :=
  numeric "*" (fun m n => checked (m * n)) (· * ·) a b

def isZero : Value → Bool
  | .integer n => n == 0
  | .real x => x == 0.0
  | _ => false

/-- Division toward zero on integers. -/
def divide (a b : Value) : Except ValueError Value :=
  if b.isZero then .error .divisionByZero
  else numeric "/" (fun m n => checked (m.tdiv n)) (· / ·) a b

/-- The remainder on integers, which exists where its quotient does. -/
def exactRemainder (m n : Int) : Option Int64 :=
  (checked (m.tdiv n)).bind fun _ => checked (m.tmod n)

def modulo (a b : Value) : Except ValueError Value :=
  if b.isZero then .error .divisionByZero
  else numeric "MOD" exactRemainder Binary64.remainder a b

/-- The largest exponent that is told apart from larger ones. -/
def greatestExponent : Nat := 4294967295

/-- A power of an integer, if it fits; no power of two or more with 64 factors does. -/
def exactPower (base : Int) (exponent : Nat) : Option Int64 :=
  if base.natAbs ≤ 1 then
    -- Only whether the exponent is zero, odd or even matters.
    checked (Int.pow base (if exponent = 0 then 0 else 2 - exponent % 2))
  else if 64 ≤ exponent then none
  else checked (Int.pow base exponent)

/-- The operand of a power as a real; the message names this operand first. -/
def powerOperand (a other : Value) : Except ValueError Float :=
  match a.number with
  | .ok x => .ok x
  | .error _ => .error (.operands "^" a.kind other.kind)

/-- The real power of two operands. -/
def realPower (a b : Value) : Except ValueError Value := do
  let base ← powerOperand a b
  let exponent ← powerOperand b a
  return .real (base.pow exponent)

def power (a b : Value) : Except ValueError Value :=
  match a, b with
  | .integer m, .integer n =>
    if 0 ≤ n then
      let exponent := min n.toInt.toNat greatestExponent
      match exactPower m.toInt exponent with
      | some k => .ok (.integer k)
      | none => .ok (.real (m.toFloat.pow (Float.ofNat exponent)))
    else realPower a b
  | _, _ => realPower a b

/-- The negative of a number; the least integer is its own. -/
def negate : Value → Except ValueError Value
  | .integer n => .ok (.integer (-n))
  | .real x => .ok (.real (-x))
  | v => .error (.conversion v.kind .real)

/-- The opposite of a truth value. -/
def not (v : Value) : Except ValueError Value := do
  return .boolean !(← v.toBoolean)

end Primer.Value
