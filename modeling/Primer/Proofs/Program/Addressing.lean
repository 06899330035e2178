/-
Programs whose variables can be found where the program says they are.

A run never looks a name up.  It goes by the storage and the offset that a variable got
while the program was read, so these have to fit the place where the variable is
mentioned: a static must lie among the statics, a local or a parameter must belong to the
routine in whose body it is mentioned and lie inside its frame, and a field can only be
mentioned inside its class.  `WellAddressed` says so of a whole program, `WellLinked`
what ties its routines to their parameters and its methods to their classes.
-/
import Primer.Program
import Primer.Proofs.Tree.Notes

namespace Primer

/-! ### Where something is written -/

/-- A definition: a routine, with the class it is written in, or a class. -/
inductive Definition where
  | routine (id : RoutineId) (inside : Option ClassId)
  | classBody (id : ClassId)
  deriving DecidableEq, Repr

/-- The innermost definition around something; none outside of all definitions. -/
abbrev Home := Option Definition

namespace Home

/-- The routine whose locals and parameters can be mentioned. -/
def routine? : Home → Option RoutineId
  | some (.routine id _) => some id
  | _ => none

/-- The class whose fields can be mentioned. -/
def fields? : Home → Option ClassId
  | some (.routine _ inside) => inside
  | some (.classBody id) => some id
  | none => none

/-- Where what is declared there is kept. -/
def storage : Home → Storage
  | none => .static
  | some (.routine ..) => .frame
  | some (.classBody _) => .field

/-- Statements stand everywhere but right inside a class. -/
def HoldsStatements (home : Home) : Prop := ∀ c, home ≠ some (.classBody c)

end Home

/-- The variable is a parameter, by value or by reference. -/
def Variable.IsArgument (v : Variable) : Prop := v.storage = .argument ∨ v.storage = .refArgument

/-- The variables are kept in the same part of the stack: among the statics, or among the locals or
the parameters of one routine. -/
def Variable.Beside (v w : Variable) : Prop :=
  (v.storage = .static ∧ w.storage = .static) ∨
  ((v.storage = .frame ∧ w.storage = .frame ∨ v.IsArgument ∧ w.IsArgument) ∧ v.routine = w.routine)

/-- The variable, unless it is a static or a field, lies in a frame of this size. -/
def Variable.InFrame (params locals : Nat) (v : Variable) : Prop :=
  (v.storage = .frame → 0 ≤ v.offset ∧ v.offset < locals) ∧
  (v.IsArgument → -(params : Int) ≤ v.offset ∧ v.offset < 0)

namespace Program

variable (p : Program)

/-- The routine is written right inside the class: so its scope lies in that of the class. -/
def WrittenIn (r : RoutineId) (c : ClassId) : Prop :=
  c < p.classes.size ∧
  (p.symbols.scopeAt (p.routine r).scope).parent = some (p.classDef c).scope

/-- The class around a routine; without one the routine is written outside of all classes. -/
def Around (r : RoutineId) : Option ClassId → Prop
  | some c => p.WrittenIn r c
  | none => (p.symbols.scopeAt (p.routine r).scope).parent = some SymbolTable.globalScope

/-- The home is one of the program's: a routine with the class around it, or a class. -/
def Houses : Home → Prop
  | none => True
  | some (.routine r inside) => r < p.routines.size ∧ p.Around r inside
  | some (.classBody c) => c < p.classes.size

/-- What the code says that the home is the innermost definition around. -/
def notesAt : Home → List Note
  | none => Stmt.notesAll p.statements
  | some (.routine r _) => Stmt.blockNotes (p.routine r).body
  | some (.classBody c) => Declaration.notesAll (p.classDef c).fieldDeclarations

/-- The variable lies where a mention of it at `home` looks for it. -/
def Sees (home : Home) (id : VarId) : Prop :=
  id < p.symbols.entries.size ∧
  match (p.symbols.variableAt id).storage with
  | .static =>
    0 ≤ (p.symbols.variableAt id).offset ∧
      (p.symbols.variableAt id).offset < p.symbols.staticCount
  | .field => ∃ c, home.fields? = some c ∧ id ∈ (p.classDef c).fields
  | .frame | .argument | .refArgument =>
    ∃ r, home.routine? = some r ∧ (p.symbols.variableAt id).routine = some r ∧
      -((p.routine r).params.length : Int) ≤ (p.symbols.variableAt id).offset ∧
      (p.symbols.variableAt id).offset < (p.routine r).localCount

/-- Every number that stands for a variable, scope, routine or class is the number of one. -/
structure InBounds : Prop where
  scopes : ∀ v ∈ p.symbols.entries, v.scope < p.symbols.scopes.size
  routines : ∀ v ∈ p.symbols.entries, ∀ r, v.routine = some r → r < p.routines.size
  parents : ∀ s ∈ p.symbols.scopes, ∀ q, s.parent = some q → q < p.symbols.scopes.size
  members : ∀ s ∈ p.symbols.scopes, ∀ id ∈ s.members, id < p.symbols.entries.size
  routineScopes : ∀ r ∈ p.routines, r.scope < p.symbols.scopes.size
  routineClasses : ∀ r ∈ p.routines, ∀ c, r.classId = some c → c < p.classes.size
  params : ∀ r ∈ p.routines, ∀ id ∈ r.params, id < p.symbols.entries.size
  classScopes : ∀ c ∈ p.classes, c.scope < p.symbols.scopes.size
  fields : ∀ c ∈ p.classes, ∀ id ∈ c.fields, id < p.symbols.entries.size
  methods : ∀ c ∈ p.classes, ∀ (name : String) r, c.methods[name]? = some r → r < p.routines.size
  constructors : ∀ c ∈ p.classes, ∀ r, c.constructor = some r → r < p.routines.size
  routineIndex : ∀ (name : String) r, p.routineIndex[name]? = some r → r < p.routines.size
  classIndex : ∀ (name : String) c, p.classIndex[name]? = some c → c < p.classes.size

/-- Every variable lies where it is looked for. -/
structure WellAddressed : Prop where
  inBounds : p.InBounds
  /-- Parameters are numbered downward from the base of the frame. -/
  params : ∀ r < p.routines.size, ∀ (i : Nat) id, (p.routine r).params[i]? = some id →
    (p.symbols.variableAt id).IsArgument ∧ (p.symbols.variableAt id).offset = -((i : Int) + 1)
  bodies : ∀ r < p.routines.size, ∃ inside, p.Around r inside ∧
    ∀ id ∈ Stmt.blockMentions (p.routine r).body, p.Sees (some (.routine r inside)) id
  statements : ∀ id ∈ Stmt.mentionsAll p.statements, p.Sees none id
  fieldDeclarations : ∀ c < p.classes.size,
    ∀ id ∈ Declaration.mentionsAll (p.classDef c).fieldDeclarations, p.Sees (some (.classBody c)) id
  /-- Fields are numbered upward, in the order in which the class lists them. -/
  fields : ∀ c < p.classes.size, ∀ (k : Nat) id, (p.classDef c).fields[k]? = some id →
    (p.symbols.variableAt id).storage = .field ∧ (p.symbols.variableAt id).offset = k

/-- No two variables share a place on the stack, routines own their parameters, and methods are
known to their classes only. -/
structure WellLinked : Prop where
  apart : ∀ id < p.symbols.entries.size, ∀ id' < p.symbols.entries.size,
    (p.symbols.variableAt id).Beside (p.symbols.variableAt id') →
    (p.symbols.variableAt id).offset = (p.symbols.variableAt id').offset → id = id'
  statics : ∀ id < p.symbols.entries.size, (p.symbols.variableAt id).storage = .static →
    0 ≤ (p.symbols.variableAt id).offset ∧ (p.symbols.variableAt id).offset < p.symbols.staticCount
  locals : ∀ id < p.symbols.entries.size, (p.symbols.variableAt id).storage = .frame →
    0 ≤ (p.symbols.variableAt id).offset
  arguments : ∀ id < p.symbols.entries.size, (p.symbols.variableAt id).IsArgument →
    ∀ r, (p.symbols.variableAt id).routine = some r →
      ∃ i : Nat, (p.routine r).params[i]? = some id ∧
        (p.symbols.variableAt id).offset = -((i : Int) + 1)
  methods : ∀ c < p.classes.size, ∀ (name : String) r,
    (p.classDef c).methods[name]? = some r → (p.routine r).classId = some c
  constructors : ∀ c < p.classes.size, ∀ r,
    (p.classDef c).constructor = some r → (p.routine r).classId = some c
  routineIndex : ∀ (name : String) r, p.routineIndex[name]? = some r →
    (p.routine r).classId = none

/-- No routine is written inside another one: each is a method of the class around it. -/
def Unnested : Prop := ∀ r < p.routines.size, ∀ c, p.WrittenIn r c → (p.routine r).classId = some c

end Program

end Primer
