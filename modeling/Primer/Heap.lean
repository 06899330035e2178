/-
The store of shared arrays and objects.

A reference is a position in the store.  Nothing is ever removed from it, so a
reference that was handed out stays good.
-/
import Primer.Grid
import Primer.Value.Conversion

namespace Primer

/-- An object: the class it was made from and its fields in the order of their slots. -/
structure Instance where
  classId : Nat
  className : String
  fields : Array Value
  deriving Inhabited

structure Heap where
  grids : Array Grid := #[]
  instances : Array Instance := #[]
  deriving Inhabited

namespace Heap

def grid (h : Heap) (r : ArrayRef) : Grid := h.grids.getD r.index default

def instanceOf (h : Heap) (r : ObjectRef) : Instance := h.instances.getD r.index default

/-- The class of an object.  A reference that leads to no object has none. -/
def classId? (h : Heap) (r : ObjectRef) : Option Nat := h.instances[r.index]?.map (·.classId)

/-- The object that a value is, with its class. -/
def objectOf? (h : Heap) : Value → Option (ObjectRef × Nat)
  | .object r => (h.classId? r).map (r, ·)
  | _ => none

/-- Put a new array into the store. -/
def addGrid (h : Heap) (g : Grid) : ArrayRef × Heap :=
  (⟨h.grids.size⟩, { h with grids := h.grids.push g })

/-- Put a new object into the store. -/
def addInstance (h : Heap) (o : Instance) : ObjectRef × Heap :=
  (⟨h.instances.size⟩, { h with instances := h.instances.push o })

def element? (h : Heap) (r : ArrayRef) (offset : Nat) : Option Value :=
  (h.grid r).cells[offset]?

def field? (h : Heap) (r : ObjectRef) (offset : Nat) : Option Value :=
  (h.instanceOf r).fields[offset]?

/-- Store into one cell of an array; outside of it nothing happens. -/
def setElement (h : Heap) (r : ArrayRef) (offset : Nat) (v : Value) : Heap :=
  { h with grids := h.grids.modify r.index fun g =>
      { g with cells := g.cells.setIfInBounds offset v } }

/-- Store into one field of an object; outside of it nothing happens. -/
def setField (h : Heap) (r : ObjectRef) (offset : Nat) (v : Value) : Heap :=
  { h with instances := h.instances.modify r.index fun o =>
      { o with fields := o.fields.setIfInBounds offset v } }

/-- The text of a value whose arrays are nested at most `depth` deep. -/
def textWithin (h : Heap) : Nat → Value → String
  | 0, .array _ => "[]"
  | depth + 1, .array r =>
    let items := (h.grid r).cells.toList.map (h.textWithin depth)
    "[" ++ String.intercalate ", " items ++ "]"
  | _, .object r => "<" ++ (h.instanceOf r).className ++ " object>"
  | _, v => v.scalarText?.getD ""

/-- The text of a value.  Arrays that do not contain themselves nest no deeper than there are
arrays. -/
def text (h : Heap) (v : Value) : String := h.textWithin (h.grids.size + 1) v

end Heap

end Primer
