/-
Definitions of classes: fields and methods.
-/
import Primer.Grammar.Routine

namespace Primer.Grammar

/-- Let a class be found by its name, unless another one already is. -/
def registerClass (id : ClassId) (name : String) (span : Span) : Read Unit := do
  let r ← get
  match r.classIndex[name]? with
  | some earlier => report (.classAlreadyDefined name (r.classes.getD earlier default).span.line) span
  | none =>
    if isUnnamed name then pure ()
    else modify fun r => { r with classIndex := r.classIndex.insert name id }

/-- The field declarations at the cursor, added to the class. -/
def fieldDeclarations (id : ClassId) (line : Nat) : Read Unit := do
  match ← attempt (declarators .field) with
  | some declarations =>
    endOfStatement
    modify fun r => { r with classes := r.classes.modify id fun c =>
      { c with fieldDeclarations := c.fieldDeclarations ++ declarations } }
  | none => skipLine line

/-- A field, a method or a line that does not belong into a class. -/
def member (nested : Nested) (id : ClassId) (className : String) (line : Nat) : Read Unit := do
  let token ← peek
  match token.kind with
  | .kwModule | .kwFunction => nested.routine
  | .kwClass => nested.classDef
  | .kwDeclare =>
    let _ ← advance
    fieldDeclarations id line
  | .typeName | .identifier => fieldDeclarations id line
  | _ =>
    report (.expectedMember className) token.span
    skipLine line

/-- The next member of a class with its access modifier, if the class goes on. -/
def classItem (nested : Nested) (id : ClassId) (className : String) : Unit → Read (Option Unit)
  | () => do
    let r ← get
    if r.atEnd || r.check .kwEnd then pure none
    else
      let line := r.peek.line
      match ← acceptAny? [.kwPublic, .kwPrivate] with
      | none => member nested id className line
      | some modifier =>
        if ← onLine line then member nested id className line
        else report .modifierWithoutMember modifier.span
      pure (some ())

/-- The slot of each field by its name; of two fields with one name the later one is found. -/
def fieldSlots (table : SymbolTable) (fields : List VarId) : NameIndex :=
  fields.foldl (fun index id =>
    let v := table.variableAt id
    index.insert v.name v.offset.toNat) {}

/-- Fill in what is known of a class once its body has been read. -/
def completeClass (table : SymbolTable) (c : ClassDef) : ClassDef :=
  let fields := (table.scopeAt c.scope).members.toList
  { c with fields, fieldIndex := fieldSlots table fields, constructor := c.methods[c.name]? }

/-- Open a class: its field scope is at hand, and it can be used from here on. -/
def openClass (name : String) (nameSpan span : Span) : Read ClassId := do
  let id ← look fun r => r.classes.size
  modify fun r =>
    let layout := r.layout.enterClass id
    let draft : ClassDef :=
      { name, fields := [], fieldDeclarations := [], fieldIndex := {}, methods := {}
        constructor := none, scope := layout.scope, span }
    { r with layout, classes := r.classes.push draft }
  registerClass id name nameSpan
  pure id

/-- Close the class at hand, whose members are known by now. -/
def closeClass (id : ClassId) : Read Unit :=
  modify fun r =>
    { r with
      layout := r.layout.exitClass
      classes := r.classes.modify id (completeClass r.layout.table) }

/-- A class from its first word through its `End`. -/
def classDefinition (nested : Nested) : Read Unit := do
  let keyword ← advance
  let isNested ← look fun r => r.layout.currentRoutine.isSome || r.layout.currentClass.isSome
  if isNested then report .nestedClass keyword.span
  let (name, nameSpan) ← definedName keyword .expectedClassName
  endOfStatement
  let id ← openClass name nameSpan (keyword.span.cover nameSpan)
  inFreshBlock .classBody do
    iterate (classItem nested id name) ()
    expectEnd .classBody keyword
  closeClass id

end Primer.Grammar
