/-
Giving variables their places while a program is being read.

A layout is a symbol table together with where the reader stands in the program: the
scope at hand, the routines and classes that are open, and the scopes to go back to
when they close.  Opening a routine leads into a scope under the class at hand, or
under the global scope when there is none, whatever surrounds it.
-/
import Primer.Symbol

namespace Primer

/-- What a declaration introduces. -/
inductive DeclarationKind where
  | plain
  | constant
  | parameter (byRef : Bool)
  | field
  deriving DecidableEq, Repr, Inhabited

/-- A routine that is being read, and how much of its frame is taken. -/
structure OpenRoutine where
  id : RoutineId
  params : Nat := 0
  locals : Nat := 0
  deriving DecidableEq, Repr, Inhabited

/-- A class that is being read, and how many fields it has so far. -/
structure OpenClass where
  id : ClassId
  scope : ScopeId
  fields : Nat := 0
  deriving DecidableEq, Repr, Inhabited

structure Layout where
  table : SymbolTable := {}
  scope : ScopeId := SymbolTable.globalScope
  /-- Innermost first, like the next two. -/
  routines : List OpenRoutine := []
  classes : List OpenClass := []
  saved : List ScopeId := []
  deriving DecidableEq, Repr, Inhabited

namespace Layout

def currentRoutine (l : Layout) : Option RoutineId := l.routines.head?.map (·.id)

def currentClass (l : Layout) : Option ClassId := l.classes.head?.map (·.id)

/-- Open a scope under `parent`. -/
def openScope (l : Layout) (parent : ScopeId) : Layout :=
  { l with
    table := { l.table with scopes := l.table.scopes.push { parent := some parent } }
    scope := l.table.scopes.size }

/-- Open a scope inside the one at hand. -/
def pushScope (l : Layout) : Layout := l.openScope l.scope

/-- Go back to the scope around the one at hand. -/
def popScope (l : Layout) : Layout :=
  match (l.table.scopeAt l.scope).parent with
  | some parent => { l with scope := parent }
  | none => l

/-- Go back to the scope that was left last. -/
def restoreScope (l : Layout) : Layout :=
  { l with scope := l.saved.headD SymbolTable.globalScope, saved := l.saved.tail }

/-- Open the field scope of a class. -/
def enterClass (l : Layout) (id : ClassId) : Layout :=
  let inside := l.openScope SymbolTable.globalScope
  { inside with
    classes := { id, scope := inside.scope } :: l.classes
    saved := l.scope :: l.saved }

/-- Close the class at hand. -/
def exitClass (l : Layout) : Layout := { l with classes := l.classes.tail }.restoreScope

/-- How many fields the class at hand has. -/
def fieldCount (l : Layout) : Nat := (l.classes.head?.map (·.fields)).getD 0

/-- The scope that routines of the class at hand are written in. -/
def routineParent (l : Layout) : ScopeId :=
  (l.classes.head?.map (·.scope)).getD SymbolTable.globalScope

/-- Open the scope of a routine. -/
def enterRoutine (l : Layout) (id : RoutineId) : Layout :=
  let inside := l.openScope l.routineParent
  { inside with
    routines := { id } :: l.routines
    saved := l.scope :: l.saved }

/-- Close the routine at hand. -/
def exitRoutine (l : Layout) : Layout := { l with routines := l.routines.tail }.restoreScope

/-- How many local slots the routine at hand needs. -/
def localCount (l : Layout) : Nat := (l.routines.head?.map (·.locals)).getD 0

def lookup? (l : Layout) (name : String) : Option VarId := l.table.lookup? l.scope name

/-- Take the next number among the statics. -/
def nextStatic (l : Layout) : Storage × Int × Layout :=
  (.static, l.table.staticCount,
    { l with table := { l.table with staticCount := l.table.staticCount + 1 } })

/-- Take the next place of the kind that a declaration asks for. -/
def nextPlace (l : Layout) : DeclarationKind → Storage × Int × Layout
  | .field =>
    match l.classes with
    | [] => l.nextStatic
    | c :: rest => (.field, c.fields, { l with classes := { c with fields := c.fields + 1 } :: rest })
  | .parameter byRef =>
    match l.routines with
    | [] => l.nextStatic
    | r :: rest =>
      (if byRef then .refArgument else .argument, -((r.params : Int) + 1),
        { l with routines := { r with params := r.params + 1 } :: rest })
  | .plain | .constant =>
    match l.routines with
    | [] => l.nextStatic
    | r :: rest =>
      (.frame, r.locals, { l with routines := { r with locals := r.locals + 1 } :: rest })

/-- Add a variable to the scope at hand. -/
def addVariable (l : Layout) (v : Variable) : Layout :=
  let id := l.table.entries.size
  { l with table := { l.table with
      entries := l.table.entries.push v
      scopes := l.table.scopes.modify l.scope fun s => { s with members := s.members.push id } } }

/-- The line on which the scope at hand already declares the name. -/
def firstDeclaration? (l : Layout) (name : String) : Option Nat :=
  (l.table.findIn? l.scope name).map fun id => (l.table.variableAt id).span.line

/--
Declare a name in the scope at hand.

The new variable gets a place of its own also when the scope already has one of that
name; a lookup goes on finding the first.
-/
def declare (l : Layout) (name : String) (type : TypeName) (rank : Nat) (kind : DeclarationKind)
    (span : Span) : VarId × Layout :=
  let (storage, offset, taken) := l.nextPlace kind
  let v : Variable :=
    { name, type, storage, offset, rank, isConstant := kind == .constant
      scope := l.scope, routine := l.currentRoutine, span }
  (l.table.entries.size, taken.addVariable v)

end Layout

end Primer
