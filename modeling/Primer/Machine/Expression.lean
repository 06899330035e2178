/-
The values of expressions.

Operands are evaluated from left to right.  An operation that fails is reported and its
place is taken by a value of the kind that was to be expected, so that evaluation
always goes on.
-/
import Primer.Machine.Call
import Primer.Value.Operator

namespace Primer.Engine

open Run

variable (engine : Engine σ) (inner : Inner σ)

/-- The value at the place that an expression names. -/
def valueAt (e : Expr) : Run σ Value := do
  match ← engine.place inner e with
  | some (p, _) => load p
  | none => pure .null

/-- Two tests; the second is made only if the first leaves the matter open. -/
def logical (op : LogicalOp) (left right : Expr) : Run σ Bool := do
  let first ← test inner left
  match op, first with
  | .and, false => pure false
  | .or, true => pure true
  | _, _ => test inner right

/-- The value of an expression. -/
def evaluate (e : Expr) : Run σ Value := do
  match e with
  | .literal v _ => pure v
  | .variableRef .. | .index .. | .field .. => engine.valueAt inner e
  | .binary op left right span =>
    let a ← inner.eval left
    let b ← inner.eval right
    orElse (op.fallback a b) span (op.apply a b)
  | .logical op left right _ => return .boolean (← logical inner op left right)
  | .unary op operand span =>
    let v ← inner.eval operand
    orElse op.fallback span (op.apply v)
  | .call name args span => engine.callByName inner name args span
  | .methodCall object name args span => engine.callMethod inner object name args span
  | .new className args span => engine.construct inner className args span
  | .grouping e _ => inner.eval e
  | .invalid _ => pure .null

end Primer.Engine
