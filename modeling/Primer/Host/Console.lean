/-
A host that talks to a console.

What has been typed so far is given as lines.  When a program asks for more than that
and the input has not ended, the host asks the run to stop and takes no more output.
Whoever runs the program then waits for another line and runs it again from the start,
which leads to the same point, with that line at hand.
-/
import Primer.Host

namespace Primer

structure Console where
  /-- The lines to come, each with its end; none stands for one that is not text. -/
  input : List (Option String) := []
  /-- Whether nothing follows these lines. -/
  ended : Bool := true
  output : Array String := #[]
  /-- Whether the program waits for a line that is not there yet. -/
  waiting : Bool := false
  deriving Inhabited

namespace Console

/-- A line without its end, whichever kind of end it has. -/
def withoutEnd (line : String) : String :=
  String.ofList (line.toList.reverse.dropWhile fun c => c = '\r' || c = '\n').reverse

/-- The lines of a text, each with its end.  `line` is what was met of the first one, backwards. -/
def linesFrom (line : List Char) : List Char → List String
  | [] => if line.isEmpty then [] else [String.ofList line.reverse]
  | '\n' :: rest => String.ofList ('\n' :: line).reverse :: linesFrom [] rest
  | c :: rest => linesFrom (c :: line) rest

/-- The lines of a text, each with its end. -/
def lines (text : String) : List String := linesFrom [] text.toList

/-- A console at which all input has been typed. -/
def ofText (text : String) : Console := { input := (lines text).map some }

def readLine (outside : Outside Console) : Option String × Outside Console :=
  let console := outside.state
  match console.input with
  | line :: rest => (line.map withoutEnd, { outside with state := { console with input := rest } })
  | [] =>
    if console.ended then (none, outside)
    else (none, { state := { console with waiting := true }, stop := true })

def writeLine (line : String) (outside : Outside Console) : Outside Console :=
  if outside.state.waiting then outside
  else { outside with state := { outside.state with output := outside.state.output.push line } }

/-- The host of the command line.  It has no routines of its own. -/
def host : Host Console where
  readLine := readLine
  writeLine := writeLine
  invoke _ _ heap outside := (none, heap, outside)

end Console

end Primer
