/-
What a user is told about a program.

A diagnostic says where a problem is, what stage found it, whether the program can
still be run, what is wrong in one sentence and, often, what to write instead.  The
stages that find problems keep them as causes of their own and put them into this
common form when they hand them over.
-/
import Primer.Span

namespace Primer

namespace Diagnostic

/-- The stage or rule that a problem belongs to. -/
inductive Kind where
  | lexical
  | syntactic
  | semantic
  | conversion
  | index
  | arithmetic
  | fatal
  deriving DecidableEq, Repr, Inhabited

namespace Kind

def title : Kind → String
  | .lexical => "Lexical Error"
  | .syntactic => "Syntax Error"
  | .semantic => "Semantic Error"
  | .conversion => "Conversion Error"
  | .index => "Index Error"
  | .arithmetic => "Arithmetic Error"
  | .fatal => "Fatal Error"

/-- Kinds that only a run of the program can raise. -/
def isRuntime : Kind → Bool
  | .conversion | .index | .arithmetic | .fatal => true
  | .lexical | .syntactic | .semantic => false

end Kind

inductive Severity where
  | error
  | warning
  deriving DecidableEq, Repr, Inhabited

/-- `"error"` or `"warning"`, as it opens a line of a report. -/
def Severity.label : Severity → String
  | .error => "error"
  | .warning => "warning"

end Diagnostic

/-- One problem, located and put into words. -/
structure Diagnostic where
  kind : Diagnostic.Kind
  severity : Diagnostic.Severity
  span : Span
  message : String
  help : Option String
  deriving DecidableEq, Repr, Inhabited

namespace Diagnostic

/-- An error without advice. -/
def ofKind (kind : Kind) (span : Span) (message : String) : Diagnostic :=
  ⟨kind, .error, span, message, none⟩

/-- An error with advice on what to write instead. -/
def withHelp (kind : Kind) (span : Span) (message help : String) : Diagnostic :=
  ⟨kind, .error, span, message, some help⟩

/-- The same problem as a warning. -/
def asWarning (d : Diagnostic) : Diagnostic := { d with severity := .warning }

def isError (d : Diagnostic) : Bool := d.severity == .error

/-- One line of a report. -/
def text (d : Diagnostic) : String :=
  s!"{d.severity.label}: line {d.span.line}: {d.kind.title}: {d.message}"

/-- Diagnostics by where they start; those that start together keep their order. -/
def inSourceOrder (ds : List Diagnostic) : List Diagnostic :=
  ds.mergeSort fun a b => a.span.start ≤ b.span.start

end Diagnostic

/-- A problem put into words, not yet located. -/
structure Wording where
  kind : Diagnostic.Kind
  message : String
  help : Option String := none
  severity : Diagnostic.Severity := .error

/-- The diagnostic that says `w` at `span`. -/
def Wording.at (w : Wording) (span : Span) : Diagnostic :=
  ⟨w.kind, w.severity, span, w.message, w.help⟩

end Primer
