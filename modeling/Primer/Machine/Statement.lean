/-
What statements do.

`level n` runs expressions, statements and routines that are nested up to `n` deep, counting
both the tree of the program and the routines that are called on the way.  Deeper down it is
out of fuel.
-/
import Primer.Machine.Expression
import Primer.Machine.Loop

namespace Primer.Engine

open Run

variable (engine : Engine σ) (inner : Inner σ)

def assign (target value : Expr) (span : Span) : Run σ Unit := do
  let v ← inner.eval value
  match ← engine.place inner target with
  | some (p, kind) => store p (← coerce v kind span)
  | none => pure ()

/-- Write one line that holds the texts of all items. -/
def display (items : List Expr) : Run σ Unit := do
  let texts ← items.mapM fun item => do
    let v ← inner.eval item
    look fun m => m.heap.text v
  modify fun m => { m with outside := engine.host.writeLine (String.join texts) m.outside }

/-- Read a line into a place.  Without one the place gets the zero of its kind. -/
def input (target : Expr) (span : Span) : Run σ Unit := do
  match ← engine.place inner target with
  | none => pure ()
  | some (p, kind) =>
    let line ← modifyGet fun m =>
      let (line, outside) := engine.host.readLine m.outside
      (line, { m with outside })
    match line with
    | some line => store p (← coerce (.text line) kind span)
    | none =>
      report (.noInput kind) span
      store p (Value.zeroOf kind)

def optionalBlock : Option (Block Stmt) → Run σ Signal
  | some b => block inner b
  | none => pure .next

/-- Run the first branch whose test holds. -/
def choose (otherwise : Option (Block Stmt)) : List (Branch Stmt) → Run σ Signal
  | [] => optionalBlock inner otherwise
  | branch :: rest => do
    if ← test inner branch.condition then block inner branch.body else choose otherwise rest

/-- Whether one of the labels equals the subject.  A label that cannot be compared is reported
and passed over. -/
def anyLabel (subject : Value) : List Expr → Run σ Bool
  | [] => pure false
  | label :: rest => do
    let v ← inner.eval label
    if ← orElse false label.span (subject.equals v) then pure true else anyLabel subject rest

/-- Run the first case that has the subject among its labels. -/
def select (subject : Value) (otherwise : Option (Block Stmt)) : List (Case Stmt) → Run σ Signal
  | [] => optionalBlock inner otherwise
  | c :: rest => do
    if ← anyLabel inner subject c.labels then block inner c.body else select subject otherwise rest

/-- Do what a statement says.  A loop may take `turns` turns. -/
def perform (turns : Nat) (s : Stmt) : Run σ Signal := do
  match s with
  | .declare declarations _ =>
    declarations.forM (engine.declare inner)
    pure .next
  | .assign target value span =>
    engine.assign inner target value span
    pure .next
  | .display items _ =>
    engine.display inner items
    pure .next
  | .input target span =>
    engine.input inner target span
    pure .next
  | .call call _ =>
    discard (inner.eval call)
    pure .next
  | .choose branches otherwise _ => choose inner otherwise branches
  | .select subject cases otherwise _ =>
    let v ← inner.eval subject
    select inner v otherwise cases
  | .whileLoop condition body _ => whileLoop inner turns condition body
  | .doLoop body condition exit _ => doLoop inner turns body condition exit
  | .forLoop counter start stop step body span =>
    engine.forLoop inner turns counter start stop step body span
  | .forEach item array body span => engine.forEach inner turns item array body span
  | .returnWith (some e) _ => return .returned (← inner.eval e)
  | .returnWith none _ => pure (.returned .null)
  | .breakLoop _ => pure .breakLoop
  | .continueLoop _ => pure .continueLoop
  | .stop _ => stop

/-- Run a statement, unless the host asks to stop before it. -/
def execute (turns : Nat) (s : Stmt) : Run σ Signal := do
  heedHost s.span
  engine.perform inner turns s

/-- Expressions, statements and routines up to `n` levels deep. -/
def level : Nat → Inner σ
  | 0 =>
    { eval := fun _ => throw .outOfFuel
      exec := fun _ => throw .outOfFuel
      run := fun _ => throw .outOfFuel }
  | n + 1 =>
    { eval := fun e m => engine.evaluate (level n) e m
      exec := fun s m => engine.execute (level n) n s m
      run := fun call m => engine.runRoutine (level n) call m }

end Primer.Engine
