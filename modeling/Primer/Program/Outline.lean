/-
The outline of a program: its statics, classes and routines by line.
-/
import Primer.Program

namespace Primer.Program

/-- One line of an outline. -/
structure OutlineEntry where
  kind : String
  name : String
  detail : String
  line : Nat
  /-- One for a method, nothing otherwise. -/
  depth : Nat
  deriving DecidableEq, Repr

namespace OutlineEntry

def ofStatic (v : Variable) : OutlineEntry where
  kind := "static"
  name := v.name
  detail := v.type.name ++ String.join (List.replicate v.rank "[]")
  line := v.span.line
  depth := 0

def ofClass (c : ClassDef) : OutlineEntry where
  kind := "class"
  name := c.name
  detail := Nat.repr c.fields.length ++ " field(s)"
  line := c.span.line
  depth := 0

def ofRoutine (p : Program) (r : Routine) : OutlineEntry where
  kind := match r.kind with
    | .module => "module"
    | .function => "function"
  name := p.qualifiedName r
  detail := p.signature r
  line := r.span.line
  depth := if r.classId.isSome then 1 else 0

/-- Blanks that fill a column of `width` beside `s`. -/
def padding (width : Nat) (s : String) : String :=
  String.ofList (List.replicate (width - s.length) ' ')

/-- The entry as a line of text, in columns. -/
def text (e : OutlineEntry) : String :=
  let line := Nat.repr e.line
  let indent := String.join (List.replicate e.depth "  ")
  padding 4 line ++ line ++ "  " ++ indent ++ e.kind ++ padding 8 e.kind
    ++ " " ++ e.name ++ " " ++ e.detail

/-- Entries by line; on one line methods come last, and the order is kept otherwise. -/
def before (a b : OutlineEntry) : Bool :=
  a.line < b.line || (a.line == b.line && a.depth ≤ b.depth)

end OutlineEntry

def outline (p : Program) : List OutlineEntry :=
  let entries := p.symbols.statics.map OutlineEntry.ofStatic
    ++ p.classes.toList.map OutlineEntry.ofClass
    ++ p.routines.toList.map (OutlineEntry.ofRoutine p)
  entries.mergeSort OutlineEntry.before

end Primer.Program
