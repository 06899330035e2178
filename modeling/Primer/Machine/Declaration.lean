/-
What a declaration does when it is reached.

A variable gets its first value every time control reaches its declaration.  An array
is made anew, with as many elements as its sizes ask for at that time.
-/
import Primer.Machine.Place

namespace Primer.Engine

open Run

variable (engine : Engine σ) (inner : Inner σ)

/-- The size of one dimension, which is zero in place of a negative one. -/
def extent (e : Expr) : Run σ Nat := do
  let v ← inner.eval e
  let size ← orElse 0 e.span v.toInteger
  if size < 0 then
    report (.negativeExtent size) e.span
    pure 0
  else pure size.toInt.toNat

/-- Whether an array of these sizes may be made. -/
def allows (extents : List Nat) : Bool :=
  match Grid.count? extents with
  | some count => count ≤ engine.settings.arrayElements
  | none => false

/-- The sizes of a declared array.  One that would be too large is left empty. -/
def extents (v : Variable) (d : Declaration) : Run σ (List Nat) := do
  let asked ← d.dims.mapM (extent inner)
  if engine.allows asked then pure asked
  else
    report (.oversizedArray v.name engine.settings.arrayElements) d.span
    pure (asked.map fun _ => 0)

/-- Evaluate initial values and store them in `cells` from `position` on, as far as there is
room. -/
def fillFrom (kind : Kind) : Nat → Array Value → List Expr → Run σ (Array Value)
  | _, cells, [] => pure cells
  | position, cells, e :: rest => do
    let v ← inner.eval e
    if position < cells.size then
      let v ← coerce v kind e.span
      fillFrom kind (position + 1) (cells.setIfInBounds position v) rest
    else fillFrom kind (position + 1) cells rest

/-- A new array in the store. -/
def newArray (grid : Grid) : Run σ Value :=
  modifyGet fun m =>
    let (ref, heap) := m.heap.addGrid grid
    (.array ref, { m with heap })

/-- The first value of an array. -/
def arrayValue (v : Variable) (d : Declaration) : Run σ Value := do
  let extents ← engine.extents inner v d
  match d.init with
  | some (.one e) =>
    let value ← inner.eval e
    coerce value .array e.span
  | some (.list items) =>
    let grid := Grid.make v.type extents
    let values := (Initializer.list items).flatten
    if grid.size < values.length then
      report (.surplusValues v.name values.length grid.size) d.span
    let cells ← fillFrom inner v.type.kind 0 grid.cells values
    newArray { grid with cells }
  | none => newArray (Grid.make v.type extents)

/-- The first value of a scalar. -/
def scalarValue (v : Variable) (d : Declaration) : Run σ Value := do
  match d.init with
  | some (.one e) =>
    let value ← inner.eval e
    coerce value v.type.kind e.span
  | _ => pure (Value.default v.type)

/-- Give a variable its first value. -/
def declare (d : Declaration) : Run σ Unit := do
  let v := engine.program.symbols.variableAt d.id
  let p ← placeOf v d.span
  let value ← if v.isArray then engine.arrayValue inner v d else scalarValue inner v d
  store p value

end Primer.Engine
