/-
Declarations of variables, constants and fields.

A declaration names a type, then one or more variables, each with its sizes in square
brackets if it is an array and with a starting value if it has one.  A missing type is
guessed from the starting value.
-/
import Primer.Grammar.Expression

namespace Primer.Grammar

/-! ### Types -/

/-- Whether a type stands at the cursor: a built-in one, or a class name before another name. -/
def Reader.startsType (r : Reader) : Bool :=
  match r.peek.kind with
  | .typeName => true
  | .identifier =>
    let next := r.peekAt 1
    next.line = r.peek.line && (next.kind = .identifier || next.kind = .kwRef)
  | _ => false

/-- Take a type.  Whether a class exists is checked at the end. -/
def typeName : Read TypeName := do
  let token ← advance
  if token.kind = .typeName then pure ((TypeName.ofWord? token.lexeme).getD .integer)
  else
    deferType token.lexeme token.span
    pure (.ofClass token.lexeme)

/-- The type in front of a declaration, absent when it starts with the name itself. -/
def declaredType? : Read (Option TypeName) := do
  if ← look Reader.startsType then some <$> typeName
  else if ← check .identifier then pure none
  else abandon .expectedType (← look Reader.errorSpan)

/-! ### Starting values -/

/-- A list in square brackets whose items are expressions or lists, nested up to `n` deep. -/
def listWithin : Nat → Read Initializer
  | 0 => do
    let _ ← expect .leftBracket .expectedList
    pure (.list [])
  | n + 1 => do
    let _ ← expect .leftBracket .expectedList
    let items ←
      if ← check .rightBracket then pure []
      else commaSeparated do
        if ← check .leftBracket then listWithin n else Initializer.one <$> expression
    let _ ← expect .rightBracket .expectedListEnd
    pure (.list items)

/-- A list in square brackets. -/
def initializerList : Read Initializer := fun r => listWithin r.remaining r

/-- An item of a list: an expression or a list of its own. -/
def initializerItem : Read Initializer := do
  if ← check .leftBracket then initializerList else Initializer.one <$> expression

/--
What follows the equals sign of a declaration: an expression, a list in brackets, or, for
an array, a list without brackets.
-/
def initializer (isArray : Bool) : Read (Option Initializer) := do
  if ← check .leftBracket then
    let opening ← peek
    let list ← initializerList
    if isArray then pure (some list)
    else
      report .listForScalar opening.span
      pure none
  else
    let first ← expression
    let more ← check .comma
    if isArray && more then
      let items ← iterate (nextItem initializerItem) [.one first]
      pure (some (.list items.reverse))
    else pure (some (.one first))

/-- The starting value of `name`, if there is one. -/
def startingValue (name : Token) (isArray : Bool) : Read (Option Initializer) := do
  if ← check .equal then
    let _ ← advance
    initializer isArray
  else if ← check .equalEqual then
    report (.equalEqualInDeclaration name.lexeme) (← peek).span
    let _ ← advance
    initializer isArray
  else pure none

/-- The type that a starting value suggests. -/
def inferType? (init : Initializer) : Option TypeName :=
  init.flatten.head?.bind Expr.literalType?

/-- Whether a starting value of type `found` can be stored in a variable of the declared type. -/
def storable (declared found : TypeName) (value : Expr) : Bool :=
  declared = found ||
  match declared, found with
  | .real, .integer => true
  | .text, .character => true
  | .character, .text =>
    match value with
    | .literal (.text s) _ => s.length = 1
    | _ => false
  | _, _ => false

/-- Report a literal that can never be stored in a variable of the declared type. -/
def literalMismatch (declared : TypeName) (value : Expr) : Read Bool := do
  match value.literalType? with
  | none => pure false
  | some found =>
    if storable declared found value then pure false
    else
      report (.literalMismatch found declared) value.span
      pure true

/-- A scalar's starting value, left out when it does not fit the type. -/
def checkedInitializer (declared : TypeName) (rank : Nat) (init : Option Initializer) :
    Read (Option Initializer) := do
  match rank, init with
  | 0, some (.one value) =>
    if ← literalMismatch declared value then pure none else pure init
  | _, _ => pure init

/-! ### Sizes -/

/-- The sizes in one pair of brackets, the first of which was just taken; none in empty ones. -/
def sizeGroup : Read (List (Option Expr)) := do
  let sizes ←
    if ← check .rightBracket then pure [none]
    else List.map some <$> commaSeparated expression
  let _ ← expect .rightBracket .expectedSizeEnd
  pure sizes

/-- The sizes in the next pair of brackets, after those before. -/
def nextSizes (sizes : List (Option Expr)) : Read (Option (List (Option Expr))) := do
  if ← accept .leftBracket then
    let group ← sizeGroup
    pure (some (sizes ++ group))
  else pure none

/-- All the sizes after a name. -/
def sizes : Read (List (Option Expr)) := iterate nextSizes []

/-- The size of a dimension; empty brackets take it from a list, if there is just one dimension. -/
def settleSize (rank : Nat) (init : Option Initializer) (name : Token) :
    Option Expr → Read Expr
  | some size => pure size
  | none =>
    match init with
    | some (.list items) =>
      if rank = 1 then pure (.literal (.integer (Int64.ofNat items.length)) name.span)
      else missing
    | _ => missing
where
  /-- Report that the size is missing and use zero. -/
  missing : Read Expr := do
    report (.arrayWithoutSize name.lexeme) name.span
    pure (.literal (.integer 0) name.span)

/-- The sizes of all dimensions in order. -/
def settleSizes (rank : Nat) (init : Option Initializer) (name : Token) :
    List (Option Expr) → Read (List Expr)
  | [] => pure []
  | size :: rest => do
    let first ← settleSize rank init name size
    let others ← settleSizes rank init name rest
    pure (first :: others)

/-! ### Declarations -/

/-- Declare a name, reporting one that the scope already has. -/
def declareName (name : Token) (type : TypeName) (rank : Nat) (kind : DeclarationKind) :
    Read VarId := do
  let earlier ← look fun r => r.layout.firstDeclaration? name.lexeme
  let id ← modifyGet fun r =>
    let (id, layout) := r.layout.declare name.lexeme type rank kind name.span
    (id, { r with layout })
  match earlier with
  | some line => report (.alreadyDeclared name.lexeme line) name.span
  | none => pure ()
  pure id

/-- The type of a declared name and whether a missing type has been reported by now. -/
def settleType (declared : Option TypeName) (reported : Bool) (init : Option Initializer)
    (name : Token) : Read (TypeName × Bool) := do
  match declared with
  | some type => pure (type, reported)
  | none =>
    let type := (init.bind inferType?).getD .integer
    if reported then pure (type, true)
    else
      report (.missingType name.lexeme type) name.span
      pure (type, true)

/-- One name of a declaration with its sizes and starting value. -/
def declarator (kind : DeclarationKind) (declared : Option TypeName) (reported : Bool) :
    Read (Declaration × Bool) := do
  let name ← expect .identifier .expectedVariableName
  let given ← sizes
  let rank := given.length
  let init ← startingValue name (0 < rank)
  let (type, reported) ← settleType declared reported init name
  let dims ← settleSizes rank init name given
  let id ← declareName name type rank kind
  if kind = .constant && init.isNone then
    report (.constantWithoutValue type name.lexeme) name.span
  let init ← checkedInitializer type rank init
  let last ← look Reader.previous
  pure ({ id, dims, init, span := name.span.cover last.span }, reported)

/-- A comma and the name declared after it, put in front of those before. -/
def nextDeclarator (kind : DeclarationKind) (declared : Option TypeName) :
    List Declaration × Bool → Read (Option (List Declaration × Bool))
  | (declarations, reported) => do
    if ← accept .comma then
      let (next, reported) ← declarator kind declared reported
      pure (some (next :: declarations, reported))
    else pure none

/-- A type and the names declared with it. -/
def declarators (kind : DeclarationKind) : Read (List Declaration) := do
  let declared ← declaredType?
  let (first, reported) ← declarator kind declared false
  let (all, _) ← iterate (nextDeclarator kind declared) ([first], reported)
  pure all.reverse

/-- Everything after the first word of a declaration, whose span is `start`. -/
def declarationStatement (kind : DeclarationKind) (start : Span) : Read Stmt := do
  let declarations ← declarators kind
  let last ← look Reader.previous
  endOfStatement
  pure (.declare declarations (start.cover last.span))

end Primer.Grammar
