/-
What the operators of expressions do to values, and what stands in for their result
when they fail.
-/
import Primer.Value.Arithmetic
import Primer.Value.Order

namespace Primer

namespace BinaryOp

def isComparison : BinaryOp → Bool
  | equal | notEqual | less | lessEqual | greater | greaterEqual => true
  | add | subtract | multiply | divide | modulo | power => false

/-- A comparison that holds for the orderings that `accept` holds for. -/
def ordered (accept : Ordering → Bool) (a b : Value) : Except ValueError Value := do
  return .boolean (accept (← a.compare b))

/-- The value of an operation. -/
def apply (op : BinaryOp) (a b : Value) : Except ValueError Value :=
  match op with
  | add => a.add b
  | subtract => a.subtract b
  | multiply => a.multiply b
  | divide => a.divide b
  | modulo => a.modulo b
  | power => a.power b
  | equal => do return .boolean (← a.equals b)
  | notEqual => do return .boolean (!(← a.equals b))
  | less => ordered (· == .lt) a b
  | lessEqual => ordered (· != .gt) a b
  | greater => ordered (· == .gt) a b
  | greaterEqual => ordered (· != .lt) a b

/-- What stands in for the value of a failed operation: the zero of the kind that its result
would most likely have had. -/
def fallback (op : BinaryOp) (a b : Value) : Value :=
  let isText (v : Value) : Bool := v.kind = .text || v.kind = .character
  let isReal (v : Value) : Bool := v.kind = .real
  if op.isComparison then .boolean false
  else if op = add && (isText a || isText b) then .text ""
  else if isReal a || isReal b then .real 0.0
  else .integer 0

end BinaryOp

namespace UnaryOp

/-- The value of an operation. -/
def apply : UnaryOp → Value → Except ValueError Value
  | negate => Value.negate
  | not => Value.not

/-- What stands in for the value of a failed operation. -/
def fallback : UnaryOp → Value
  | negate => .integer 0
  | not => .boolean false

end UnaryOp

end Primer
