/-
Runs of a program, one after another.

A host can run a program as often as it likes, call single routines of it and ask for
the values of its statics.  The arrays and objects that values refer to, and what the
host itself keeps, live on from one run to the next.
-/
import Primer.Machine.Statement

namespace Primer

/-- How a run ended. -/
inductive Ending where
  | completed
  | stopped
  | outOfFuel
  deriving DecidableEq, Repr, Inhabited

/-- What a run came to. -/
structure Outcome where
  ending : Ending
  /-- What a routine gave back; none for a run of the whole program. -/
  value : Option Value
  problems : List (Machine.Problem × Span)
  deriving Inhabited

namespace Outcome

/-- The problems of a run in words, in the order in which they arose. -/
def diagnostics (o : Outcome) : List Diagnostic :=
  o.problems.map fun (problem, span) => problem.wording.at span

def hasErrors (o : Outcome) : Bool := o.diagnostics.any Diagnostic.isError

end Outcome

namespace Engine

open Run

/-- The state before the first run. -/
def start (engine : Engine σ) (outside : Outside σ) : Machine σ :=
  { stack := Stack.withStatics engine.program.symbols.staticCount, outside }

/-- Hand the outcome of a run over. -/
def finish : EStateM.Result Interrupt (Machine σ) (Option Value) → Outcome × Machine σ
  | .ok value m => (⟨.completed, value, m.problems.toList⟩, { m with problems := #[] })
  | .error .stopped m => (⟨.stopped, none, m.problems.toList⟩, { m with problems := #[] })
  | .error .outOfFuel m => (⟨.outOfFuel, none, m.problems.toList⟩, { m with problems := #[] })

/-- The statements of the program and then, if wanted, its `main`. -/
def wholeProgram (engine : Engine σ) (inner : Inner σ) : Run σ Unit := do
  discard (statements inner engine.program.statements)
  if engine.settings.autoMain then
    if let some id := engine.program.routineIndex["main"]? then
      let main := engine.program.routine id
      if main.params.isEmpty then
        discard (inner.run { routine := id, this := none, args := [], span := main.span })

/-- A state in which the statics hold nothing yet and no call is active. -/
def fresh (engine : Engine σ) (m : Machine σ) : Machine σ :=
  { m with
    stack := Stack.withStatics engine.program.symbols.staticCount
    calls := #[]
    stopReported := false }

/-- Run the program, whose parts are run by `inner`.  The statics start afresh. -/
def runProgramBy (engine : Engine σ) (inner : Inner σ) (m : Machine σ) : Outcome × Machine σ :=
  finish ((do engine.wholeProgram inner; pure none : Run σ (Option Value)) (engine.fresh m))

/-- Run the program.  The statics start afresh. -/
def runProgram (engine : Engine σ) (fuel : Nat) (m : Machine σ) : Outcome × Machine σ :=
  engine.runProgramBy (engine.level fuel) m

/-- The argument for a parameter; one that is missing is the zero of the parameter's type. -/
def givenArgument (v : Variable) (span : Span) (arg : Option Value) : Run σ Cell := do
  return .direct (← coerce (arg.getD (Value.default v.type)) v.kind span)

/-- The arguments for the parameters of a routine. -/
def givenArguments (engine : Engine σ) (span : Span) : List VarId → List Value → Run σ (List Cell)
  | [], _ => pure []
  | param :: params, args => do
    let cell ← givenArgument (engine.program.symbols.variableAt param) span args.head?
    let cells ← engine.givenArguments span params args.tail
    pure (cell :: cells)

/-- Find a routine by its name and run it on values. -/
def routineOn (engine : Engine σ) (inner : Inner σ) (name : String) (args : List Value) :
    Run σ Value := do
  match engine.program.routineIndex[name]? with
  | some id =>
    let routine := engine.program.routine id
    let cells ← engine.givenArguments routine.span routine.params args
    inner.run { routine := id, this := none, args := cells, span := routine.span }
  | none =>
    report (.noRoutine name) Span.nowhere
    pure .null

/-- Call a routine by name on values, with `inner` to run what it holds. -/
def callRoutineBy (engine : Engine σ) (inner : Inner σ) (name : String) (args : List Value)
    (m : Machine σ) : Outcome × Machine σ :=
  finish ((some <$> engine.routineOn inner name args) m)

/-- Call a routine by name on values.  The statics keep what an earlier run left in them. -/
def callRoutine (engine : Engine σ) (fuel : Nat) (name : String) (args : List Value)
    (m : Machine σ) : Outcome × Machine σ :=
  engine.callRoutineBy (engine.level fuel) name args m

/-- The value of the first static of this name. -/
def global? (engine : Engine σ) (name : String) (m : Machine σ) : Option Value :=
  (engine.program.symbols.statics.find? fun v => v.name == name).bind fun v =>
    m.read? (.slot v.offset.toNat)

end Engine

end Primer
