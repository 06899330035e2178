/-
The state of a run, and what a step of a run can do to it.

A step gives a result or is interrupted.  It is interrupted when the run stops, because
the program or the host says so or because of a fatal problem, and when the fuel it was
given is used up.  Nothing is undone by an interruption: whatever the step changed
before it stays changed.
-/
import Primer.Host
import Primer.Machine.Problem
import Primer.Program
import Primer.Stack

namespace Primer

/-- What a run is allowed to do. -/
structure Settings where
  /-- How many calls may be active at a time. -/
  callDepth : Nat := 256
  /-- Whether `main` is called after the statements of the program. -/
  autoMain : Bool := true
  /-- How many elements an array may be declared with. -/
  arrayElements : Nat := 16777216
  deriving DecidableEq, Repr, Inhabited

/-- What stays the same during a run. -/
structure Engine (σ : Type) where
  program : Program
  settings : Settings := {}
  host : Host σ

/-- What changes during a run. -/
structure Machine (σ : Type) where
  stack : Stack
  heap : Heap := {}
  /-- The object that each active call is made on, innermost last.  While the fields of a new
  object get their first values, that object counts as a call. -/
  calls : Array (Option ObjectRef) := #[]
  /-- In the order in which they arose. -/
  problems : Array (Machine.Problem × Span) := #[]
  /-- Whether the host's wish to stop has been reported. -/
  stopReported : Bool := false
  /-- How often a place was read or written that is not there. -/
  misses : Nat := 0
  outside : Outside σ

/-- Why a step does not give a result. -/
inductive Interrupt where
  | stopped
  | outOfFuel
  deriving DecidableEq, Repr, Inhabited

/-- A step of a run. -/
abbrev Run (σ α : Type) := EStateM Interrupt (Machine σ) α

namespace Machine

/-- The object of the innermost call. -/
def this? (m : Machine σ) : Option ObjectRef := m.calls.back?.join

/-- The value at a place; none where the place lies outside of what it belongs to. -/
def read? (m : Machine σ) (place : Place) : Option Value :=
  match m.stack.target place with
  | .slot index =>
    match m.stack.read? index with
    | some (.direct v) => some v
    | _ => none
  | .element ref offset => m.heap.element? ref offset
  | .field ref offset => m.heap.field? ref offset

/-- Put a value at a place; outside of what the place belongs to nothing happens. -/
def write (m : Machine σ) (place : Place) (v : Value) : Machine σ :=
  match m.stack.target place with
  | .slot index => { m with stack := m.stack.write index (.direct v) }
  | .element ref offset => { m with heap := m.heap.setElement ref offset v }
  | .field ref offset => { m with heap := m.heap.setField ref offset v }

/-- Turn to a place to read or write it; if there is nothing, that is counted. -/
def turnTo (m : Machine σ) (place : Place) : Machine σ :=
  if (m.read? place).isSome then m else { m with misses := m.misses + 1 }

/-- The slot of a variable that lives in the frame at hand. -/
def frameSlot (m : Machine σ) (v : Variable) : Except Problem Nat :=
  match m.stack.frameSlot? v.offset with
  | some slot => .ok slot
  | none => .error (.outsideFrame v.name v.offset)

/-- Where a variable is at the moment.  A parameter by reference is where its argument is. -/
def placeOf (m : Machine σ) (v : Variable) : Except Problem Place :=
  match v.storage with
  | .static => .ok (.slot v.offset.toNat)
  | .frame | .argument => do return .slot (← m.frameSlot v)
  | .refArgument => do
    let slot ← m.frameSlot v
    match m.stack.read? slot with
    | some (.alias place) => return place
    | _ => return .slot slot
  | .field =>
    match m.this? with
    | some object => .ok (.field object v.offset.toNat)
    | none => .error (.fieldOutsideObject v.name)

def report (m : Machine σ) (problem : Problem) (span : Span) : Machine σ :=
  { m with problems := m.problems.push (problem, span) }

/-- Open a call: the arguments below a fresh frame, the first one on top. -/
def enter (m : Machine σ) (this : Option ObjectRef) (args : List Cell) (locals : Nat) : Machine σ :=
  { m with
    stack := (args.reverse.foldl Stack.push m.stack).pushFrame locals args.length
    calls := m.calls.push this }

/-- Close the innermost call. -/
def leave (m : Machine σ) : Machine σ :=
  { m with stack := m.stack.popFrame, calls := m.calls.pop }

end Machine

namespace Run

/-- What a property of the machine is just now. -/
def look (f : Machine σ → α) : Run σ α := fun m => .ok (f m) m

def report (problem : Machine.Problem) (span : Span) : Run σ Unit :=
  modify fun m => m.report problem span

/-- Stop without a word. -/
def stop : Run σ α := throw .stopped

/-- Stop because of a problem. -/
def fatal (problem : Machine.Problem) (span : Span) : Run σ α := do
  report problem span
  stop

/-- Stop if the host asks for it.  Only the first time this is reported. -/
def heedHost (span : Span) : Run σ Unit := do
  if ← look fun m => m.outside.stop then
    if ← look fun m => m.stopReported then stop
    else
      modify fun m => { m with stopReported := true }
      fatal .hostStop span

/-- Where a variable is at the moment. -/
def placeOf (v : Variable) (span : Span) : Run σ Place := do
  match ← look fun m => m.placeOf v with
  | .ok place => pure place
  | .error problem => fatal problem span

/-- The value at a place, which is `null` where there is none. -/
def load (place : Place) : Run σ Value :=
  modifyGet fun m => ((m.read? place).getD .null, m.turnTo place)

def store (place : Place) (v : Value) : Run σ Unit := modify fun m => (m.turnTo place).write place v

/-- A result, or the problem and what stands in for the result. -/
def orElse (fallback : α) (span : Span) : Except ValueError α → Run σ α
  | .ok a => pure a
  | .error e => do
    report (.value e) span
    pure fallback

/-- A value in the form in which it is stored as this kind. -/
def coerce (v : Value) (kind : Kind) (span : Span) : Run σ Value :=
  orElse (Value.zeroOf kind) span (v.convert kind)

/-- Do a step and then, whether or not it was interrupted, another one. -/
def andFinally (step : Run σ α) (after : Run σ Unit) : Run σ α := fun m =>
  match step m with
  | .ok a m =>
    match after m with
    | .ok _ m => .ok a m
    | .error e m => .error e m
  | .error e m =>
    match after m with
    | .ok _ m => .error e m
    | .error e m => .error e m

end Run

end Primer
