/-
The world outside of a run.

A host hands out lines of input, takes lines of output, answers calls of routines that
the program does not define, and may raise a flag to ask the run to stop.  It is given
by what its operations do to a state of its own, so that a run is a function of its
host as of everything else.
-/
import Primer.Heap

namespace Primer

/-- The host's own state, and the flag by which it asks a run to stop. -/
structure Outside (σ : Type) where
  state : σ
  stop : Bool := false

structure Host (σ : Type) where
  /-- The next line of input without its end; none when the input is used up. -/
  readLine : Outside σ → Option String × Outside σ
  writeLine : String → Outside σ → Outside σ
  /-- Answer a call; none when the host does not know the routine either. -/
  invoke : String → List Value → Heap → Outside σ → Option Value × Heap × Outside σ

/-- A routine of the host.  It may change the arrays and objects it is given and make new ones. -/
abbrev HostRoutine (σ : Type) := List Value → Heap → Outside σ → Value × Heap × Outside σ

namespace Host

/-- Answer calls from a list of routines, each under the name it is called by. -/
def invokeFrom (routines : List (String × HostRoutine σ)) (name : String) (args : List Value)
    (heap : Heap) (outside : Outside σ) : Option Value × Heap × Outside σ :=
  match routines.lookup name with
  | some routine =>
    let (value, heap, outside) := routine args heap outside
    (some value, heap, outside)
  | none => (none, heap, outside)

end Host

/-- A host that was told its input beforehand and keeps its output. -/
structure Buffer where
  input : List String := []
  output : Array String := #[]
  deriving Inhabited

namespace Buffer

def readLine (b : Buffer) : Option String × Buffer :=
  match b.input with
  | [] => (none, b)
  | line :: rest => (some line, { b with input := rest })

def writeLine (line : String) (b : Buffer) : Buffer := { b with output := b.output.push line }

/-- All output so far, line by line. -/
def text (b : Buffer) : String := String.intercalate "\n" b.output.toList

/-- A host of this kind with these routines. -/
def host (routines : List (String × HostRoutine Buffer)) : Host Buffer where
  readLine outside :=
    let (line, state) := outside.state.readLine
    (line, { outside with state })
  writeLine line outside := { outside with state := outside.state.writeLine line }
  invoke := Host.invokeFrom routines

end Buffer

end Primer
