/-
Calls.

A call binds its arguments to the parameters of a routine, opens a frame, runs the body
of the routine and closes the frame again, however the body ended.  A parameter by
reference is bound to the place that its argument names, any other one to a value.
-/
import Primer.Library
import Primer.Machine.Declaration

namespace Primer.Engine

open Run

variable (engine : Engine σ) (inner : Inner σ)

/-- Run statements in order, up to the first that does not hand control on to the next. -/
def statements : List Stmt → Run σ Signal
  | [] => pure .next
  | s :: rest => do
    match ← inner.exec s with
    | .next => statements rest
    | other => pure other

def block (b : Block Stmt) : Run σ Signal := statements inner b.statements

/-- Close the call of a routine. -/
def leave (routine : Routine) (span : Span) : Run σ Unit := do
  let isOpen ← look fun m => !m.stack.frames.isEmpty
  modify Machine.leave
  if !isOpen then fatal (.missingFrame routine.name) span

/-- What a routine gives back when its body ends with this signal. -/
def resultOf (routine : Routine) (span : Span) : Signal → Run σ Value
  | .returned v =>
    match routine.returnType with
    | some type => coerce v type.kind span
    | none => pure .null
  | _ => pure ((routine.returnType.map Value.default).getD .null)

/-- Run a routine on arguments that are already bound. -/
def runRoutine (call : Call) : Run σ Value := do
  let routine := engine.program.routine call.routine
  let depth ← look fun m => m.calls.size
  if engine.settings.callDepth ≤ depth then
    fatal (.callDepth engine.settings.callDepth routine.name) call.span
  else
    modify fun m => m.enter call.this call.args routine.localCount
    let signal ← andFinally (block inner routine.body) (leave routine call.span)
    resultOf routine call.span signal

/-- The value of an argument for a parameter of this kind. -/
def byValue (kind : Kind) (arg : Expr) : Run σ Cell := do
  let v ← inner.eval arg
  return .direct (← coerce v kind arg.span)

/-- What the parameter `v`, the one at `position`, is bound to. -/
def bindArgument (routine : Routine) (position : Nat) (v : Variable) : Option Expr → Run σ Cell
  | none => pure (.direct (Value.zeroOf v.kind))
  | some arg => do
    if v.storage = .refArgument then
      match ← engine.place inner arg with
      | some (p, _) => pure (.alias p)
      | none =>
        if !arg.isPlace then report (.passedByValue position routine.name) arg.span
        byValue inner v.kind arg
    else byValue inner v.kind arg

/-- What the parameters from `position` on are bound to.  Surplus arguments are evaluated and
dropped. -/
def bindFrom (routine : Routine) : Nat → List VarId → List Expr → Run σ (List Cell)
  | _, [], surplus => do
    surplus.forM fun arg => discard (inner.eval arg)
    pure []
  | position, param :: params, args => do
    let v := engine.program.symbols.variableAt param
    let cell ← engine.bindArgument inner routine position v args.head?
    let cells ← bindFrom routine (position + 1) params args.tail
    pure (cell :: cells)

/-- Call a routine of the program. -/
def invoke (id : RoutineId) (this : Option ObjectRef) (args : List Expr) (span : Span) :
    Run σ Value := do
  let routine := engine.program.routine id
  if args.length ≠ routine.params.length then
    report (.argumentCount routine.name routine.params.length args.length) span
  let cells ← engine.bindFrom inner routine 1 routine.params args
  inner.run { routine := id, this, args := cells, span }

/-- Call a built-in. -/
def invokeBuiltin (builtin : Builtin) (name : String) (args : List Value) (span : Span) :
    Run σ Value := do
  match ← look fun m => builtin.run m.heap args with
  | .ok v => pure v
  | .error e =>
    report (.builtin name e) span
    pure builtin.fallback

/-- Call a routine of the host. -/
def invokeHost (name : String) (args : List Value) (span : Span) : Run σ Value := do
  let answer ← modifyGet fun m =>
    let (answer, heap, outside) := engine.host.invoke name args m.heap m.outside
    (answer, { m with heap, outside })
  match answer with
  | some v => pure v
  | none =>
    report (.unknownRoutine name) span
    pure .null

/-- Call a routine that the program does not define: a built-in, or one of the host. -/
def invokeOutside (name : String) (args : List Value) (span : Span) : Run σ Value :=
  match Builtin.ofName? name with
  | some builtin => invokeBuiltin builtin name args span
  | none => engine.invokeHost name args span

/-- The method that a call by name finds in the object at hand. -/
def ownMethod? (m : Machine σ) (name : String) : Option (ObjectRef × RoutineId) :=
  m.this?.bind fun object => (m.heap.classId? object).bind fun id =>
    ((engine.program.classDef id).methods[name]?).map (object, ·)

/-- Call by name: a method of the object at hand, then a routine of the program, then a built-in,
then whatever the host has. -/
def callByName (name : String) (args : List Expr) (span : Span) : Run σ Value := do
  match ← look fun m => engine.ownMethod? m name with
  | some (object, method) => engine.invoke inner method (some object) args span
  | none =>
    match engine.program.routineIndex[name]? with
    | some id => engine.invoke inner id none args span
    | none =>
      let values ← args.mapM inner.eval
      engine.invokeOutside name values span

/-- Call a method of an object. -/
def callMethod (object : Expr) (name : String) (args : List Expr) (span : Span) :
    Run σ Value := do
  let receiver ← inner.eval object
  match ← look fun m => m.heap.objectOf? receiver with
  | some (ref, id) =>
    let classDef := engine.program.classDef id
    match classDef.methods[name]? with
    | some method => engine.invoke inner method (some ref) args span
    | none =>
      report (.noMethod classDef.name name) span
      pure .null
  | none =>
    report (.methodOfNonObject name receiver.kind) span
    pure .null

/-- A new object in the store, whose fields hold nothing yet. -/
def newInstance (id : ClassId) (classDef : ClassDef) : Run σ ObjectRef :=
  modifyGet fun m =>
    let fields := Array.replicate classDef.fields.length Value.null
    let (ref, heap) := m.heap.addInstance { classId := id, className := classDef.name, fields }
    (ref, { m with heap })

/-- Give the fields of a new object their first values. -/
def initialFields (classDef : ClassDef) (object : ObjectRef) : Run σ Unit := do
  modify fun m => { m with calls := m.calls.push (some object) }
  andFinally (classDef.fieldDeclarations.forM (engine.declare inner))
    (modify fun m => { m with calls := m.calls.pop })

/-- Make an object: its fields get their first values, then its constructor is called. -/
def construct (className : String) (args : List Expr) (span : Span) : Run σ Value := do
  match engine.program.classIndex[className]? with
  | none =>
    report (.noClass className) span
    pure .null
  | some id =>
    let classDef := engine.program.classDef id
    let object ← newInstance id classDef
    engine.initialFields inner classDef object
    if let some constructor := classDef.constructor then
      discard (engine.invoke inner constructor (some object) args span)
    pure (.object object)

end Primer.Engine
