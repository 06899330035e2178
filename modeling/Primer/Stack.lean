/-
The one stack of a run.

From bottom to top it holds the statics, counted from zero, and then a frame for
every routine that is being run.  In a frame the arguments lie below the base, at
negative offsets, and the locals from the base upward.  A cell holds a value, or, for
an argument that is passed by reference, the place that the argument stands for.
-/
import Primer.Value

namespace Primer

/-- A place that can be read and written. -/
inductive Place where
  /-- A slot of the stack, counted from the bottom. -/
  | slot (index : Nat)
  | element (ref : ArrayRef) (offset : Nat)
  | field (ref : ObjectRef) (offset : Nat)
  deriving DecidableEq, Repr, Inhabited

/-- What a slot of the stack holds. -/
inductive Cell where
  | direct (v : Value)
  /-- Reading and writing go to another place. -/
  | alias (place : Place)
  deriving Repr

instance : Inhabited Cell := ⟨.direct .null⟩

/-- What the stack goes back to when a frame ends. -/
structure SavedFrame where
  base : Nat
  /-- Where the arguments of the frame start. -/
  start : Nat
  deriving DecidableEq, Repr, Inhabited

structure Stack where
  cells : Array Cell := #[]
  base : Nat := 0
  /-- The frames that are open, innermost first. -/
  frames : List SavedFrame := []
  statics : Nat := 0
  deriving Inhabited

namespace Stack

/-- A stack that holds `count` statics and nothing else. -/
def withStatics (count : Nat) : Stack :=
  { cells := Array.replicate count default, base := count, statics := count }

def size (s : Stack) : Nat := s.cells.size

/-- How many frames are open. -/
def depth (s : Stack) : Nat := s.frames.length

def push (s : Stack) (c : Cell) : Stack := { s with cells := s.cells.push c }

/-- Take the top cell off.  The statics stay. -/
def pop (s : Stack) : Option (Cell × Stack) :=
  if s.cells.size ≤ s.statics then none
  else s.cells.back?.map fun c => (c, { s with cells := s.cells.pop })

/-- The slot at an offset from the base, if it lies on the stack. -/
def frameSlot? (s : Stack) (offset : Int) : Option Nat :=
  let slot := (s.base : Int) + offset
  if 0 ≤ slot && slot < s.cells.size then some slot.toNat else none

def read? (s : Stack) (slot : Nat) : Option Cell := s.cells[slot]?

/-- Fill a slot; outside of the stack nothing happens. -/
def write (s : Stack) (slot : Nat) (c : Cell) : Stack :=
  { s with cells := s.cells.setIfInBounds slot c }

/-- Open a frame over the `args` cells pushed last, with `locals` fresh slots. -/
def pushFrame (s : Stack) (locals args : Nat) : Stack :=
  { s with
    cells := s.cells ++ Array.replicate locals default
    base := s.cells.size
    frames := ⟨s.base, max (s.cells.size - args) s.statics⟩ :: s.frames }

/-- Close the innermost frame and drop its arguments.  Without an open frame nothing happens. -/
def popFrame (s : Stack) : Stack :=
  match s.frames with
  | [] => s
  | saved :: rest =>
    { s with cells := s.cells.shrink saved.start, base := saved.base, frames := rest }

/-- The place that is meant by a place when at most `n` aliases are followed. -/
def follow (s : Stack) : Nat → Place → Place
  | n + 1, .slot index =>
    match s.read? index with
    | some (.alias place) => s.follow n place
    | _ => .slot index
  | _, place => place

/-- The place that is read and written for a place.  Aliases stand above what they name, so there
are never more of them in a row than there are slots. -/
def target (s : Stack) (place : Place) : Place := s.follow s.size place

end Stack

end Primer
