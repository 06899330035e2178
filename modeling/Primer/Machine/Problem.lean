/-
What can go wrong while a program runs.

Each cause carries what its wording needs.  After most of them the run goes on with a
value in place of the one that could not be had; the fatal ones end it.
-/
import Primer.Decimal.Shortest
import Primer.Diagnostic
import Primer.Grid

namespace Primer.Machine

inductive Problem where
  -- the run ends
  | hostStop
  | callDepth (limit : Nat) (routine : String)
  | outsideFrame (name : String) (offset : Int)
  | fieldOutsideObject (name : String)
  | missingFrame (routine : String)
  -- values
  | value (error : ValueError)
  | builtin (name : String) (error : ValueError)
  | notBoolean (found : Kind)
  | noInput (kind : Kind)
  -- arrays
  | negativeExtent (size : Int64)
  | oversizedArray (name : String) (limit : Nat)
  | surplusValues (name : String) (given room : Nat)
  | notIndexable (found : Kind)
  | emptyArray
  | index (problem : IndexProblem)
  -- objects
  | fieldOfNonObject (name : String) (found : Kind)
  | noField (className name : String)
  | methodOfNonObject (name : String) (found : Kind)
  | noMethod (className name : String)
  | noClass (name : String)
  -- calls
  | noRoutine (name : String)
  | unknownRoutine (name : String)
  | argumentCount (routine : String) (expected given : Nat)
  | passedByValue (position : Nat) (routine : String)
  -- loops
  | zeroStep
  | fractionalStep (step : Float)
  | stuckCounter (text : String)
  | notIterable (found : Kind)
  deriving Repr, Inhabited

namespace Problem

def kind : Problem → Diagnostic.Kind
  | hostStop | callDepth .. | outsideFrame .. | fieldOutsideObject _ | missingFrame _ => .fatal
  | value .divisionByZero | zeroStep | stuckCounter _ => .arithmetic
  | negativeExtent _ | oversizedArray .. | surplusValues .. | emptyArray | index _ => .index
  | noField .. | noMethod .. | noClass _ | noRoutine _ | unknownRoutine _ | argumentCount ..
  | passedByValue .. => .semantic
  | value _ | builtin .. | notBoolean _ | noInput _ | notIndexable _ | fieldOfNonObject ..
  | methodOfNonObject .. | fractionalStep _ | notIterable _ => .conversion

def message : Problem → String
  | hostStop => "Execution stopped by the host"
  | callDepth limit routine => s!"Call depth limit of {limit} exceeded calling '{routine}'"
  | outsideFrame name offset => s!"'{name}' (offset {offset}) is outside the current frame"
  | fieldOutsideObject name => s!"Field '{name}' used outside of an object"
  | missingFrame routine => s!"Call frame of '{routine}' is missing on return"
  | value error => error.message
  | builtin name error => s!"{name}: {error.message}"
  | notBoolean found => s!"condition must be Boolean, found {found.name}"
  | noInput kind => s!"No input available; using the default {kind.name}"
  | negativeExtent size => s!"array size {size.toInt} is negative; using 0"
  | oversizedArray name limit =>
    s!"array '{name}' would need more than {limit} elements; it is left empty"
  | surplusValues name given room =>
    s!"{given} initial value(s) given for {room} element(s) of '{name}'; the rest are ignored"
  | notIndexable found => s!"cannot index a value of kind {found.name}"
  | emptyArray => "array has no elements"
  | index problem => problem.message
  | fieldOfNonObject name found => s!"cannot read field '{name}' of {found.name}"
  | noField className name => s!"Class '{className}' has no field '{name}'"
  | methodOfNonObject name found => s!"cannot call method '{name}' on {found.name}"
  | noMethod className name => s!"Class '{className}' has no method '{name}'"
  | noClass name => s!"Class '{name}' is not defined"
  | noRoutine name => s!"No routine named '{name}' is defined"
  | unknownRoutine name => s!"Routine '{name}' is not defined by the program or the host"
  | argumentCount routine expected given =>
    s!"'{routine}' expects {expected} argument(s) but {given} were given"
  | passedByValue position routine =>
    s!"Argument {position} of '{routine}' is passed by value because it is not a variable"
  | zeroStep => "For loop step cannot be 0; the loop is skipped"
  | fractionalStep step =>
    let text := Binary64.plainText step
    s!"step {text} is not a whole number but the counter is Integer; the loop is skipped"
  | stuckCounter text => s!"For loop counter does not advance from {text}; the loop ends"
  | notIterable found => s!"For Each needs an array, found {found.name}"

def wording (p : Problem) : Wording := { kind := p.kind, message := p.message }

/-- Whether the run ends with this problem. -/
def isFatal (p : Problem) : Bool := p.kind = .fatal

end Problem

end Primer.Machine
