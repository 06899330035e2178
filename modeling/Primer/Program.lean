/-
A program as it stands after reading: its statements, routines and classes, the
symbol table their names are bound in, and the names that routines and classes are
found by.
-/
import Primer.Tree
import Std.Data.TreeMap

namespace Primer

/-- Numbers by name, in the order of the names. -/
abbrev NameIndex := Std.TreeMap String Nat

/-- A module does something, a function also gives a value back. -/
inductive RoutineKind where
  | module
  | function
  deriving DecidableEq, Repr, Inhabited

structure Routine where
  name : String
  kind : RoutineKind
  params : List VarId
  returnType : Option TypeName
  body : Block Stmt
  /-- How many slots its frame has above the base. -/
  localCount : Nat
  /-- The class it is a method of. -/
  classId : Option ClassId
  scope : ScopeId
  span : Span
  deriving Inhabited

structure ClassDef where
  name : String
  /-- The fields in the order of their slots. -/
  fields : List VarId
  /-- What is run on every new object. -/
  fieldDeclarations : List Declaration
  /-- The slot of each field. -/
  fieldIndex : NameIndex
  methods : NameIndex
  /-- The method with the name of the class. -/
  constructor : Option RoutineId
  scope : ScopeId
  span : Span
  deriving Inhabited

structure Program where
  /-- What is run first, outside of every routine. -/
  statements : List Stmt
  routines : Array Routine
  classes : Array ClassDef
  symbols : SymbolTable
  routineIndex : NameIndex
  classIndex : NameIndex
  deriving Inhabited

/-- One parameter as it is declared. -/
def Variable.asParameter (v : Variable) : String :=
  let byRef := if v.storage == .refArgument then " Ref" else ""
  let brackets := String.join (List.replicate v.rank "[]")
  s!"{v.type.name}{byRef} {v.name}{brackets}"

/-- A parameter list as it is declared. -/
def SymbolTable.parameterList (t : SymbolTable) (params : List VarId) : String :=
  "(" ++ String.intercalate ", " (params.map fun id => (t.variableAt id).asParameter) ++ ")"

namespace Program

def routine (p : Program) (id : RoutineId) : Routine := p.routines.getD id default

def classDef (p : Program) (id : ClassId) : ClassDef := p.classes.getD id default

/-- The routine that is called by this name. -/
def routine? (p : Program) (name : String) : Option Routine := p.routineIndex[name]?.map p.routine

/-- The class of this name. -/
def classDef? (p : Program) (name : String) : Option ClassDef := p.classIndex[name]?.map p.classDef

/-- The name of a routine with its class in front. -/
def qualifiedName (p : Program) (r : Routine) : String :=
  match r.classId with
  | some id =>
    let className := (p.classDef id).name
    s!"{className}.{r.name}"
  | none => r.name

/-- The parameters of a routine and what it gives back. -/
def signature (p : Program) (r : Routine) : String :=
  let params := p.symbols.parameterList r.params
  match r.returnType with
  | some type => s!"{params} As {type.name}"
  | none => params

end Program

end Primer
