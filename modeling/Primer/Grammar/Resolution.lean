/-
Checks that need the whole program.

Types may be used and routines called before they are defined.  When everything has
been read, every class name used as a type must be a class, and every call must fit
what it calls: a method of the class it is written in, then a routine of the program,
then a built-in.  A call that fits none of these is left to the host and only warned
about.
-/
import Primer.Grammar.Reader
import Primer.Library

namespace Primer.Grammar

namespace Reader

/-- The class of this name. -/
def classDef? (r : Reader) (name : String) : Option ClassDef :=
  r.classIndex[name]?.map fun id => r.classes.getD id default

/-- The problem with a type name, if it has one. -/
def checkType (r : Reader) (name : String) (span : Span) : List (Problem × Span) :=
  if r.classIndex.contains name then [] else [(.undefinedType name, span)]

/-- The arguments that should name a place and do not, counted from `position`. -/
def checkPlaces (r : Reader) (name : String) (position : Nat) :
    List VarId → List (Bool × Span) → List (Problem × Span)
  | param :: params, (isPlace, span) :: args =>
    let v := r.variableAt param
    let later := r.checkPlaces name (position + 1) params args
    if v.storage = .refArgument && !isPlace then
      (.refNeedsVariable position name v.name, span) :: later
    else later
  | _, _ => []

/-- What is wrong with the arguments of a call to this routine. -/
def checkArguments (r : Reader) (id : RoutineId) (call : PendingCall) : List (Problem × Span) :=
  let params := (r.routines.getD id default).params
  if params.length = call.args.length then r.checkPlaces call.name 1 params call.args
  else
    let signature := r.layout.table.parameterList params
    [(.argumentCount call.name params.length call.args.length (some signature), call.span)]

/-- The routine that a call by name finds. -/
def calledRoutine? (r : Reader) (inside : Option ClassId) (name : String) : Option RoutineId :=
  (inside.bind fun id => (r.classes.getD id default).methods[name]?) <|> r.routineIndex[name]?

/-- What is wrong with a call of a built-in or host routine. -/
def checkOutside (call : PendingCall) : List (Problem × Span) :=
  match Builtin.ofName? call.name with
  | none => [(.undefinedRoutine call.name, call.span)]
  | some builtin =>
    if builtin.arity = call.args.length then []
    else [(.argumentCount call.name builtin.arity call.args.length none, call.span)]

/-- What is wrong with a call.  Calls on classes that do not exist were reported as types. -/
def checkCall (r : Reader) (call : PendingCall) : List (Problem × Span) :=
  match call.target with
  | .constructor =>
    match r.classDef? call.name with
    | none => []
    | some c =>
      match c.constructor with
      | some id => r.checkArguments id call
      | none => if call.args.isEmpty then [] else [(.noConstructor call.name, call.span)]
  | .method className =>
    match r.classDef? className with
    | none => []
    | some c =>
      match c.methods[call.name]? with
      | some id => r.checkArguments id call
      | none => [(.noMethod className call.name, call.span)]
  | .routine inside =>
    match r.calledRoutine? inside call.name with
    | some id => r.checkArguments id call
    | none => checkOutside call

/-- The routine that a run starts with takes no parameters. -/
def checkMain (r : Reader) : List (Problem × Span) :=
  match r.routineIndex["main"]? with
  | none => []
  | some id =>
    let main := r.routines.getD id default
    if main.params.isEmpty then [] else [(.mainWithParameters, main.span)]

/-- Everything that is wrong with the whole program. -/
def unresolved (r : Reader) : List (Problem × Span) :=
  r.pendingTypes.toList.flatMap (fun (name, span) => r.checkType name span)
    ++ r.pendingCalls.toList.flatMap r.checkCall
    ++ r.checkMain

end Reader

end Primer.Grammar
