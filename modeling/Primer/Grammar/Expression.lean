/-
Expressions.

From loosest to tightest the levels are OR, AND, NOT, comparison, `+ -`, `* / MOD`,
the minus sign, `^`, then indices, members and calls, then single values.  Each level
is written in terms of the next tighter one.  Where an expression holds another one,
in brackets or after a sign, reading starts again at a looser level; these three ways
back are the fields of `Inner`.

`level n` can go back `n` times.  Every way back takes a token first, so as many levels
as there are tokens are enough, and at level zero nothing is left to read but the end
of the input.
-/
import Primer.Decimal.Reading
import Primer.Grammar.Reader
import Primer.Library

namespace Primer.Grammar

/-- How to read the expressions inside an expression. -/
structure Inner where
  expression : Read Expr
  negation : Read Expr
  unary : Read Expr

/-- There is no value at the cursor. -/
def expectedValue : Read Expr := do
  let r ← get
  let found :=
    if r.errorSpan = r.peek.span then r.peek.describe else "the end of the line"
  abandon (.expectedValue found) r.errorSpan

/-- For each argument, whether it names a place, and where it stands. -/
def argumentPlaces (args : List Expr) : List (Bool × Span) :=
  args.map fun arg => (arg.isPlace, arg.span)

/-- Leave a call to be checked when the whole program is known. -/
def deferCall (name : String) (target : CallTarget) (args : List Expr) (span : Span) : Read Unit :=
  modify fun r =>
    { r with pendingCalls := r.pendingCalls.push { name, target, args := argumentPlaces args, span } }

/-- Leave the name of a class to be checked when all classes are known. -/
def deferType (name : String) (span : Span) : Read Unit :=
  modify fun r => { r with pendingTypes := r.pendingTypes.push (name, span) }

/-- A call by name that ends at `stop`. -/
def routineCall (name : Token) (args : List Expr) (stop : Span) : Read Expr := do
  let span := name.span.cover stop
  let inside ← look fun r => r.layout.currentClass
  deferCall name.lexeme (.routine inside) args span
  pure (.call name.lexeme args span)

/-- The variable that a name stands for. -/
def variableReference (name : Token) : Read Expr := do
  let r ← get
  match r.layout.lookup? name.lexeme with
  | some id => pure (.variableRef id name.lexeme name.span)
  | none =>
    let isRoutine :=
      r.routineIndex.contains name.lexeme || (Builtin.ofName? name.lexeme).isSome
    report (.undefinedVariable name.lexeme isRoutine) name.span
    pure (.invalid name.span)

/-- Arguments in brackets, and where the brackets end. -/
def arguments (inner : Inner) : Read (List Expr × Span) := do
  let _ ← expect .leftParen .expectedArguments
  let args ← if ← check .rightParen then pure [] else commaSeparated inner.expression
  let close ← expect .rightParen .expectedArgumentsEnd
  pure (args, close.span)

/-- A new object, from the word `New` on. -/
def newObject (inner : Inner) : Read Expr := do
  let keyword ← advance
  let name ← expect .identifier .expectedNewClass
  deferType name.lexeme name.span
  let (args, stop) ←
    if ← check .leftParen then arguments inner
    else do
      report (.newWithoutBrackets name.lexeme) name.span
      pure ([], name.span)
  let span := keyword.span.cover stop
  deferCall name.lexeme .constructor args span
  pure (.new name.lexeme args span)

/-- What follows the word `NOT`, which was just taken. -/
def negated (inner : Inner) (keyword : Token) : Read Expr := do
  let operand ← inner.negation
  pure (.unary .not operand (keyword.span.cover operand.span))

/-- The value of an integer literal; one that is too large is reported and counts as zero. -/
def integerLiteral (token : Token) : Read Expr := do
  match Decimal.readInteger? token.lexeme with
  | some n => pure (.literal (.integer n) token.span)
  | none =>
    report (.integerTooLarge token.lexeme) token.span
    pure (.literal (.integer 0) token.span)

/-- A token that is a value by itself. -/
def literalValue? (token : Token) : Option Value :=
  match token.kind with
  | .real => some (.real ((Decimal.readReal? token.lexeme).getD 0.0))
  | .text => some (.text token.lexeme)
  | .character => some (.character (token.lexeme.toList.headD ' '))
  | .kwTrue => some (.boolean true)
  | .kwFalse => some (.boolean false)
  | .kwNull => some .null
  | _ => none

/-- A single value. -/
def primary (inner : Inner) : Read Expr := do
  let token ← peek
  match token.kind with
  | .integer =>
    let _ ← advance
    integerLiteral token
  | .kwNot =>
    let keyword ← advance
    negated inner keyword
  | .leftParen =>
    let _ ← advance
    let content ← inner.expression
    let close ← expect .rightParen .expectedGroupEnd
    pure (.grouping content (token.span.cover close.span))
  | .kwNew => newObject inner
  | .identifier =>
    let _ ← advance
    if ← check .leftParen then
      let (args, stop) ← arguments inner
      routineCall token args stop
    else variableReference token
  | .typeName =>
    let _ ← advance
    abandon (.typeAsValue token.lexeme) token.span
  | _ =>
    match literalValue? token with
    | some value =>
      let _ ← advance
      pure (.literal value token.span)
    | none => expectedValue

/-- The class of the object that a method is called on, when it is a plain variable. -/
def receiverClass? (r : Reader) : Expr → Option String
  | .variableRef id _ _ =>
    let v := r.variableAt id
    match v.type with
    | .ofClass name => if v.isArray then none else some name
    | _ => none
  | _ => none

/-- Report an index on a variable that was declared without dimensions. -/
def checkIndexable : Expr → Read Unit
  | .variableRef id name span => do
    if (← look fun r => r.variableAt id).isArray then pure ()
    else report (.notAnArray name) span
  | _ => pure ()

/-- `base` with more indices; they join those it already has. -/
def indexed (base : Expr) (indices : List Expr) (span : Span) : Expr :=
  match base with
  | .index inside earlier _ => .index inside (earlier ++ indices) span
  | other => .index other indices span

/-- An index, member or method call after `base`, if there is one. -/
def suffix (inner : Inner) (base : Expr) : Read (Option Expr) := do
  if ← accept .leftBracket then
    let indices ← commaSeparated inner.expression
    let close ← expect .rightBracket .expectedIndexEnd
    checkIndexable base
    pure (some (indexed base indices (base.span.cover close.span)))
  else if ← accept .dot then
    let name ← expect .identifier .expectedMemberName
    if ← check .leftParen then
      let (args, stop) ← arguments inner
      let span := base.span.cover stop
      match ← look fun r => receiverClass? r base with
      | some className => deferCall name.lexeme (.method className) args span
      | none => pure ()
      pure (some (.methodCall base name.lexeme args span))
    else pure (some (.field base name.lexeme (base.span.cover name.span)))
  else pure none

/-- A value with its indices, members and method calls. -/
def suffixed (inner : Inner) : Read Expr := do
  let base ← primary inner
  iterate (suffix inner) base

/-- A power, which groups to the right and binds tighter than a minus sign before it. -/
def power (inner : Inner) : Read Expr := do
  let base ← suffixed inner
  if ← accept .caret then
    let exponent ← inner.unary
    pure (.binary .power base exponent (base.span.cover exponent.span))
  else pure base

def unary (inner : Inner) : Read Expr := do
  match ← acceptAny? [.minus] with
  | some sign =>
    let operand ← inner.unary
    pure (.unary .negate operand (sign.span.cover operand.span))
  | none => power inner

/-! ### Operators between operands -/

/-- An operator and its right operand, joined with the left one. -/
def nextOperand (operand : Read Expr) (operator? : Read (Option (Expr → Expr → Span → Expr)))
    (left : Expr) : Read (Option Expr) := do
  match ← operator? with
  | some join =>
    let right ← operand
    pure (some (join left right (left.span.cover right.span)))
  | none => pure none

/-- Operands of one level with its operators between them, grouped to the left. -/
def leftGrouped (operand : Read Expr) (operator? : Read (Option (Expr → Expr → Span → Expr))) :
    Read Expr := do
  let first ← operand
  iterate (nextOperand operand operator?) first

/-- Take the next token if it is an operator of the table. -/
def operatorIn? (table : List (TokenKind × BinaryOp)) :
    Read (Option (Expr → Expr → Span → Expr)) := fun r =>
  match table.lookup r.peek.kind with
  | some op => .ok (some (Expr.binary op)) r.step
  | none => .ok none r

/-- Take the next token if it is this word. -/
def logicalOperator? (word : TokenKind) (op : LogicalOp) :
    Read (Option (Expr → Expr → Span → Expr)) := do
  if ← accept word then pure (some (Expr.logical op)) else pure none

def multiplicativeOps : List (TokenKind × BinaryOp) :=
  [(.star, .multiply), (.slash, .divide), (.kwMod, .modulo)]

def additiveOps : List (TokenKind × BinaryOp) := [(.plus, .add), (.minus, .subtract)]

def comparisonOps : List (TokenKind × BinaryOp) :=
  [(.equalEqual, .equal), (.notEqual, .notEqual), (.less, .less), (.lessEqual, .lessEqual),
    (.greater, .greater), (.greaterEqual, .greaterEqual)]

/-- A comparison operator.  In a test a single `=` is reported and taken as one. -/
def comparisonOperator? : Read (Option (Expr → Expr → Span → Expr)) := do
  let r ← get
  if r.inTest && r.peek.kind = .equal then
    report .equalInTest r.peek.span
    let _ ← advance
    pure (some (Expr.binary .equal))
  else operatorIn? comparisonOps

def multiplicative (inner : Inner) : Read Expr :=
  leftGrouped (unary inner) (operatorIn? multiplicativeOps)

def additive (inner : Inner) : Read Expr :=
  leftGrouped (multiplicative inner) (operatorIn? additiveOps)

def comparison (inner : Inner) : Read Expr :=
  leftGrouped (additive inner) comparisonOperator?

def negation (inner : Inner) : Read Expr := do
  match ← acceptAny? [.kwNot] with
  | some keyword => negated inner keyword
  | none => comparison inner

def conjunction (inner : Inner) : Read Expr :=
  leftGrouped (negation inner) (logicalOperator? .kwAnd .and)

def disjunction (inner : Inner) : Read Expr :=
  leftGrouped (conjunction inner) (logicalOperator? .kwOr .or)

/-! ### Levels of nesting -/

/-- Expressions that hold others up to `n` deep. -/
def Inner.level : Nat → Inner
  | 0 => { expression := expectedValue, negation := expectedValue, unary := expectedValue }
  | n + 1 =>
    { expression := fun r => disjunction (Inner.level n) r
      negation := fun r => Grammar.negation (Inner.level n) r
      unary := fun r => Grammar.unary (Inner.level n) r }

/-- Any expression. -/
def expression : Read Expr := fun r => disjunction (Inner.level r.remaining) r

/-- A value with its indices, members and method calls, such as the target of an assignment. -/
def target : Read Expr := fun r => suffixed (Inner.level r.remaining) r

end Primer.Grammar
