/-
Declared names and the scopes they live in.

Every declaration makes a variable of its own and gives it a place to live: a number
among the statics, a slot in the frame of its routine, or a slot in the objects of its
class.  Scopes form a tree in which a parent always has a smaller number than its
children, so that looking a name up goes outward and ends.
-/
import Primer.Span
import Primer.Value

namespace Primer

/-- Where a variable lives. -/
inductive Storage where
  | static
  | frame
  | argument
  /-- An argument that stands for a place of the caller. -/
  | refArgument
  | field
  deriving DecidableEq, Repr, Inhabited

abbrev VarId := Nat
abbrev ScopeId := Nat
abbrev RoutineId := Nat
abbrev ClassId := Nat

structure Variable where
  name : String
  type : TypeName
  storage : Storage
  /-- The number among the statics or fields; relative to the base for what lives in a frame. -/
  offset : Int
  /-- How many dimensions it has; none for a scalar. -/
  rank : Nat
  isConstant : Bool
  scope : ScopeId
  /-- The routine it was declared in. -/
  routine : Option RoutineId
  span : Span
  deriving DecidableEq, Repr, Inhabited

namespace Variable

def isArray (v : Variable) : Bool := 0 < v.rank

/-- The kind of value the variable holds. -/
def kind (v : Variable) : Kind := if v.isArray then .array else v.type.kind

end Variable

structure Scope where
  parent : Option ScopeId
  /-- The variables declared in it, in order. -/
  members : Array VarId := #[]
  deriving DecidableEq, Repr, Inhabited

structure SymbolTable where
  /-- All variables, each under its number. -/
  entries : Array Variable := #[]
  scopes : Array Scope := #[{ parent := none }]
  staticCount : Nat := 0
  deriving DecidableEq, Repr, Inhabited

namespace SymbolTable

/-- The scope around everything else. -/
def globalScope : ScopeId := 0

def variableAt (t : SymbolTable) (id : VarId) : Variable := t.entries.getD id default

def scopeAt (t : SymbolTable) (id : ScopeId) : Scope := t.scopes.getD id default

/-- The variables that live among the statics, in order of declaration. -/
def statics (t : SymbolTable) : List Variable :=
  t.entries.toList.filter (·.storage == .static)

/-- The first variable of this name declared in the scope itself. -/
def findIn? (t : SymbolTable) (scope : ScopeId) (name : String) : Option VarId :=
  (t.scopeAt scope).members.find? fun id => (t.variableAt id).name == name

/-- The first variable of this name in the nearest scope that has one. -/
def lookup? (t : SymbolTable) (scope : ScopeId) (name : String) : Option VarId :=
  match t.findIn? scope name with
  | some id => some id
  | none =>
    match (t.scopeAt scope).parent with
    | some parent => if parent < scope then t.lookup? parent name else none
    | none => none
termination_by scope

end SymbolTable

end Primer
