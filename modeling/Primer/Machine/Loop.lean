/-
Loops.

A loop takes turns until one of them says how the loop ends.  The number of turns is
not known beforehand and need not be finite, so a loop is given turns as fuel and is
interrupted when they are used up.
-/
import Primer.Machine.Call
import Primer.Value.Order

namespace Primer.Engine

open Run

variable (engine : Engine σ) (inner : Inner σ)

/-- What a turn of a loop comes to. -/
inductive Turn (α : Type) where
  | again (a : α)
  | done (signal : Signal)

/-- Take at most `turns` turns. -/
def loop (turn : α → Run σ (Turn α)) : Nat → α → Run σ Signal
  | 0, _ => throw .outOfFuel
  | turns + 1, a => do
    match ← turn a with
    | .again a => loop turn turns a
    | .done signal => pure signal

/-- Run the body of a loop once.  It gives how the loop ends, unless the loop goes on. -/
def bodyOnce (body : Block Stmt) (span : Span) : Run σ (Option Signal) := do
  match ← block inner body with
  | .next | .continueLoop =>
    heedHost span
    pure none
  | .breakLoop => pure (some .next)
  | .returned v => pure (some (.returned v))

/-- A turn of a loop with its test in front. -/
def whileTurn (condition : Expr) (body : Block Stmt) : Run σ (Turn Unit) := do
  if ← test inner condition then
    match ← bodyOnce inner body body.span with
    | some signal => pure (.done signal)
    | none => pure (.again ())
  else pure (.done .next)

def whileLoop (turns : Nat) (condition : Expr) (body : Block Stmt) : Run σ Signal :=
  loop (fun _ => whileTurn inner condition body) turns ()

/-- A turn of a loop with its test at the end, which ends the loop when it comes out as `exit`. -/
def doTurn (body : Block Stmt) (condition : Expr) (exit : Bool) : Run σ (Turn Unit) := do
  match ← bodyOnce inner body body.span with
  | some signal => pure (.done signal)
  | none =>
    let outcome ← test inner condition
    if outcome = exit then pure (.done .next) else pure (.again ())

def doLoop (turns : Nat) (body : Block Stmt) (condition : Expr) (exit : Bool) : Run σ Signal :=
  loop (fun _ => doTurn inner body condition exit) turns ()

/-! ### Counting -/

/-- What a counted loop is run with. -/
structure Count where
  place : Place
  kind : Kind
  last : Value
  step : Value
  ascending : Bool

/-- Whether the counter has passed the last value. -/
def Count.finished (c : Count) (current : Value) (span : Span) : Run σ Bool :=
  orElse true span ((current.compare c.last).map fun order =>
    order == if c.ascending then .gt else .lt)

/-- Move the counter on.  It gives whether the loop goes on. -/
def Count.advance (c : Count) (span : Span) : Run σ Bool := do
  let current ← load c.place
  match current.add c.step with
  | .ok sum =>
    let next ← coerce sum c.kind span
    match current.equals next with
    | .ok true =>
      let text ← look fun m => m.heap.text current
      report (.stuckCounter text) span
      pure false
    | _ =>
      store c.place next
      pure true
  | .error e =>
    report (.value e) span
    pure false

/-- A turn of a counted loop.  The body may change the counter, and counting goes on from there. -/
def forTurn (c : Count) (body : Block Stmt) (span : Span) : Run σ (Turn Unit) := do
  let current ← load c.place
  if ← c.finished current span then pure (.done .next)
  else
    match ← bodyOnce inner body span with
    | some signal => pure (.done signal)
    | none => if ← c.advance span then pure (.again ()) else pure (.done .next)

/-- Which way a step leads; none when it is no step, which is reported. -/
def direction? (step : Value) (span : Span) : Run σ (Option Bool) := do
  match step.compare (.integer 0) with
  | .ok .gt => pure (some true)
  | .ok .lt => pure (some false)
  | .ok .eq =>
    report .zeroStep span
    pure none
  | .error e =>
    report (.value e) span
    pure none

/-- Whether a counter of this kind can take the step, which is reported otherwise. -/
def stepFits (kind : Kind) (step : Value) (span : Span) : Run σ Bool := do
  match step with
  | .real x =>
    if kind = .integer && !Binary64.isWhole x then
      report (.fractionalStep x) span
      pure false
    else pure true
  | _ => pure true

/-- A counted loop.  Start, end and step are evaluated once, before the first turn. -/
def forLoop (turns : Nat) (counter start stop : Expr) (step : Option Expr) (body : Block Stmt)
    (span : Span) : Run σ Signal := do
  let first ← inner.eval start
  let last ← inner.eval stop
  let step ← match step with
    | some e => inner.eval e
    | none => pure (.integer 1)
  match ← engine.place inner counter with
  | none => pure .next
  | some (place, kind) =>
    match ← direction? step span with
    | none => pure .next
    | some ascending =>
      if ← stepFits kind step span then
        store place (← coerce first kind span)
        loop (fun _ => forTurn inner { place, kind, last, step, ascending } body span) turns ()
      else pure .next

/-! ### Going through an array -/

/-- A turn with the element at `position`, as it is at that time. -/
def eachTurn (ref : ArrayRef) (place : Place) (kind : Kind) (body : Block Stmt) (span : Span)
    (position : Nat) : Run σ (Turn Nat) := do
  match ← look fun m => m.heap.element? ref position with
  | none => pure (.done .next)
  | some v =>
    store place (← coerce v kind span)
    match ← bodyOnce inner body span with
    | some signal => pure (.done signal)
    | none => pure (.again (position + 1))

/-- A loop over the elements of an array. -/
def forEach (turns : Nat) (item array : Expr) (body : Block Stmt) (span : Span) :
    Run σ Signal := do
  if array.isInvalid then pure .next
  else
    match ← inner.eval array with
    | .array ref =>
      match ← engine.place inner item with
      | none => pure .next
      | some (place, kind) => loop (eachTurn inner ref place kind body span) turns 0
    | other =>
      report (.notIterable other.kind) span
      pure .next

end Primer.Engine
