/-
Definitions of modules and functions.

A routine is known by its name as soon as its first line is read, so that its own body
can call it.  Its parameters are numbered downward from the base of its frame, its
locals upward.  A routine inside another one is reported and read all the same; it is
then found like any routine outside of classes.
-/
import Primer.Grammar.Block
import Primer.Grammar.Declaration

namespace Primer.Grammar

/-! ### Parameters -/

/-- The type of a parameter and whether it was marked `Ref` in front of the type. -/
def parameterType : Read (TypeName × Bool) := do
  match ← acceptAny? [.kwRef] with
  | some refToken =>
    if ← look Reader.startsType then
      report .refBeforeType refToken.span
      pure (← typeName, true)
    else if ← check .identifier then
      report .refWithoutType refToken.span
      pure (.integer, true)
    else abandon .expectedAfterRef (← look Reader.errorSpan)
  | none =>
    if ← look Reader.startsType then pure (← typeName, false)
    else if ← check .identifier then
      let name ← peek
      report (.missingParameterType name.lexeme) name.span
      pure (.integer, false)
    else abandon .expectedParameter (← look Reader.errorSpan)

/-- The mark `Ref` after the type. -/
def refMark (marked : Bool) : Read Bool := do
  match ← acceptAny? [.kwRef] with
  | some refToken =>
    if marked then report .refTwice refToken.span
    pure true
  | none => pure marked

/-- One more pair of empty brackets. -/
def nextBrackets (type : TypeName) (name : Token) (rank : Nat) : Read (Option Nat) := do
  if ← accept .leftBracket then
    if ← check .rightBracket then pure ()
    else
      report (.sizedParameter type name.lexeme) (← peek).span
      skipWhile fun r => r.onLine name.line && !r.check .rightBracket
    let _ ← expect .rightBracket .expectedParameterSizeEnd
    pure (some (rank + 1))
  else pure none

/-- The empty brackets of an array parameter, counted. -/
def parameterRank (type : TypeName) (name : Token) : Read Nat := iterate (nextBrackets type name) 0

def parameter : Read VarId := do
  let (type, marked) ← parameterType
  let byRef ← refMark marked
  let name ← expect .identifier .expectedParameterName
  let rank ← parameterRank type name
  declareName name type rank (.parameter byRef)

/-- A parameter added to those before it, latest first; one that makes no sense is skipped. -/
def parameterOrSkip (line : Nat) (params : List VarId) : Read (List VarId) := do
  match ← attempt parameter with
  | some id => pure (id :: params)
  | none =>
    skipWhile fun r => r.onLine line && !r.check .comma && !r.check .rightParen
    pure params

/-- A comma and the parameter after it. -/
def nextParameter (line : Nat) (params : List VarId) : Read (Option (List VarId)) := do
  if ← accept .comma then some <$> parameterOrSkip line params else pure none

/-- The parameters of the routine that `keyword` opened. -/
def parameters (keyword : Token) : Read (List VarId) := do
  if ← accept .leftParen then
    let params ←
      if ← check .rightParen then pure []
      else do
        let first ← parameterOrSkip keyword.line []
        iterate (nextParameter keyword.line) first
    if ← accept .rightParen then pure ()
    else report .expectedParametersEnd (← look Reader.errorSpan)
    pure params.reverse
  else
    reportMissing (.missingParameterList keyword.lexeme)
    pure []

/-! ### Definitions -/

/-- What a function gives back; a module gives nothing. -/
def returnType (kind : RoutineKind) : Read (Option TypeName) := do
  match kind with
  | .module => pure none
  | .function =>
    if ← look Reader.startsType then some <$> typeName
    else
      reportMissing .missingReturnType
      pure (some .integer)

/-- What stands for the name of a routine or class that has none. -/
def unnamed (line : Nat) : String := s!"<unnamed on line {line}>"

/-- Whether a name was made up because none was written. -/
def isUnnamed (name : String) : Bool := name.toList.head? = some '<'

/-- The name after the first word of a definition, and where it stands. -/
def definedName (keyword : Token) (problem : Problem) : Read (String × Span) := do
  if ← check .identifier then
    let token ← advance
    pure (token.lexeme, token.span)
  else
    report problem (← look Reader.errorSpan)
    pure (unnamed keyword.line, keyword.span)

/-- The names that routines of a class, or those outside of classes, are found by. -/
def Reader.routineNames (r : Reader) (classId : Option ClassId) : NameIndex :=
  match classId with
  | some id => (r.classes.getD id default).methods
  | none => r.routineIndex

/-- Let a routine be found by its name. -/
def Reader.nameRoutine (r : Reader) (id : RoutineId) (name : String) (classId : Option ClassId) :
    Reader :=
  match classId with
  | some c =>
    { r with classes := r.classes.modify c fun d => { d with methods := d.methods.insert name id } }
  | none => { r with routineIndex := r.routineIndex.insert name id }

/-- Let a routine be found by its name, unless another one already is. -/
def registerRoutine (id : RoutineId) (name : String) (span : Span) (classId : Option ClassId) :
    Read Unit := do
  if isUnnamed name then pure ()
  else
    let r ← get
    match (r.routineNames classId)[name]? with
    | some earlier =>
      report (.routineAlreadyDefined name (r.routines.getD earlier default).span.line) span
    | none => modify fun r => r.nameRoutine id name classId

/-- Open a routine: its scope is at hand, and it can be called from here on. -/
def openRoutine (draft : Routine) (nameSpan : Span) : Read RoutineId := do
  let id ← look fun r => r.routines.size
  modify fun r =>
    { r with routines := r.routines.push draft, layout := r.layout.enterRoutine id }
  registerRoutine id draft.name nameSpan draft.classId
  pure id

/-- Close the routine at hand, whose frame and body are known by now. -/
def closeRoutine (id : RoutineId) (scope : ScopeId) (params : List VarId) (body : Block Stmt) :
    Read Unit :=
  modify fun r =>
    { r with
      layout := r.layout.exitRoutine
      routines := r.routines.modify id fun draft =>
        { draft with params, body, localCount := r.layout.localCount, scope } }

/-- The construct that a routine of this kind is. -/
def blockKind : RoutineKind → BlockKind
  | .module => .module
  | .function => .function

/-- A routine from its parameters through its `End`. -/
def routineBody (nested : Nested) (keyword : Token) (draft : Routine) (nameSpan : Span) :
    Read Unit := do
  let id ← openRoutine draft nameSpan
  let scope ← look fun r => r.layout.scope
  let params ← parameters keyword
  endOfStatement
  let body ← inFreshBlock (blockKind draft.kind) do
    let body ← block nested
    expectEnd (blockKind draft.kind) keyword
    pure body
  closeRoutine id scope params body
  if draft.kind = .function && !Stmt.blockReturns body then
    report (.neverReturns draft.name) nameSpan

/-- A routine from its first word through its `End`. -/
def routineDefinition (nested : Nested) : Read Unit := do
  let keyword ← advance
  let kind := if keyword.kind = .kwFunction then RoutineKind.function else .module
  let inRoutine ← look fun r => r.layout.currentRoutine.isSome
  if inRoutine then report (.nestedRoutine keyword.lexeme) keyword.span
  let returned ← returnType kind
  let (name, nameSpan) ← definedName keyword (.expectedRoutineName keyword.lexeme)
  let classId ← if inRoutine then pure none else look fun r => r.layout.currentClass
  let draft : Routine :=
    { name, kind, params := [], returnType := returned
      body := { statements := [], span := keyword.span }
      localCount := 0, classId, scope := 0, span := keyword.span.cover nameSpan }
  routineBody nested keyword draft nameSpan

end Primer.Grammar
