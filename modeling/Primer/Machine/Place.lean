/-
Expressions that name a place.

A variable, an element of an array and a field of an object can be assigned, read into
and passed by reference.  What is inside of such an expression, the array, its indices
or the object, is evaluated on the way.

The steps of a run call one another through the tree of the program and through its
routines.  What they need of the steps one level further down is a parameter, `Inner`.
-/
import Primer.Machine

namespace Primer

/-- How a statement hands control on, unless it stops the run. -/
inductive Signal where
  | next
  | continueLoop
  | breakLoop
  | returned (v : Value)
  deriving Repr, Inhabited

/-- A routine that is about to be run: the object it is called on and what its parameters are
bound to. -/
structure Call where
  routine : RoutineId
  this : Option ObjectRef
  args : List Cell
  span : Span

/-- How to run what is inside of an expression or a statement, and the routines it calls. -/
structure Inner (σ : Type) where
  eval : Expr → Run σ Value
  exec : Stmt → Run σ Signal
  run : Call → Run σ Value

namespace Engine

open Run

variable (engine : Engine σ) (inner : Inner σ)

/-- An index of an array; one that is not a number counts as zero. -/
def index (e : Expr) : Run σ Int64 := do
  let v ← inner.eval e
  orElse 0 e.span v.toInteger

/-- The element of an array that is meant by these indices. -/
def element (ref : ArrayRef) (indices : List Int64) (span : Span) :
    Run σ (Option (Place × Kind)) := do
  let grid ← look fun m => m.heap.grid ref
  if grid.size = 0 then
    report .emptyArray span
    pure none
  else
    let (offset, problems) := Grid.locate grid.extents indices
    problems.forM fun problem => report (.index problem) span
    pure (some (.element ref offset, grid.element.kind))

/-- The field of this name of an object of class `id`. -/
def fieldOf (ref : ObjectRef) (id : ClassId) (name : String) (span : Span) :
    Run σ (Option (Place × Kind)) := do
  let classDef := engine.program.classDef id
  match classDef.fieldIndex[name]? with
  | some offset =>
    let v := engine.program.symbols.variableAt (classDef.fields.getD offset 0)
    pure (some (.field ref offset, v.kind))
  | none =>
    report (.noField classDef.name name) span
    pure none

/-- The place an expression names, with the kind of what is stored there; none when it names
none. -/
def place : Expr → Run σ (Option (Place × Kind))
  | .variableRef id _ span => do
    let v := engine.program.symbols.variableAt id
    let p ← placeOf v span
    pure (some (p, v.kind))
  | .index base indices span => do
    let container ← inner.eval base
    let indices ← indices.mapM (index inner)
    match container with
    | .array ref => element ref indices span
    | other =>
      report (.notIndexable other.kind) span
      pure none
  | .field object name span => do
    let container ← inner.eval object
    match ← look fun m => m.heap.objectOf? container with
    | some (ref, id) => engine.fieldOf ref id name span
    | none =>
      report (.fieldOfNonObject name container.kind) span
      pure none
  | .grouping e _ => place e
  | _ => pure none

/-- Whether a test holds.  What is not a Boolean is reported and does not hold. -/
def test (condition : Expr) : Run σ Bool := do
  let v ← inner.eval condition
  match v with
  | .boolean b => pure b
  | other =>
    if !condition.isInvalid then report (.notBoolean other.kind) condition.span
    pure false

end Engine

end Primer
