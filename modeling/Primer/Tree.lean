/-
The tree of a program: expressions, declarations and statements.

Names are already bound when a tree is built: a variable is known by its number in
the symbol table.  Calls and classes are still known by name, since they may be
defined further on.  Every node says which part of the source it came from.
-/
import Primer.Symbol
import Primer.Value

namespace Primer

inductive Expr where
  | literal (value : Value) (span : Span)
  | variableRef (id : VarId) (name : String) (span : Span)
  /-- All the indices that follow one another after `base`. -/
  | index (base : Expr) (indices : List Expr) (span : Span)
  | field (object : Expr) (name : String) (span : Span)
  | binary (op : BinaryOp) (left right : Expr) (span : Span)
  | logical (op : LogicalOp) (left right : Expr) (span : Span)
  | unary (op : UnaryOp) (operand : Expr) (span : Span)
  /-- A routine, built-in or host routine called by name. -/
  | call (name : String) (args : List Expr) (span : Span)
  | methodCall (object : Expr) (name : String) (args : List Expr) (span : Span)
  | new (className : String) (args : List Expr) (span : Span)
  | grouping (inner : Expr) (span : Span)
  /-- Stands for an expression that could not be read; the reason was reported. -/
  | invalid (span : Span)
  deriving Inhabited

namespace Expr

def span : Expr → Span
  | literal _ s | variableRef _ _ s | index _ _ s | field _ _ s | binary _ _ _ s
  | logical _ _ _ s | unary _ _ s | call _ _ s | methodCall _ _ _ s | new _ _ s
  | grouping _ s | invalid s => s

/-- Whether the expression names something that can be written to. -/
def isPlace : Expr → Bool
  | variableRef .. | index .. | field .. => true
  | _ => false

def isCall : Expr → Bool
  | call .. | methodCall .. => true
  | _ => false

def isInvalid : Expr → Bool
  | invalid _ => true
  | _ => false

/-- The type of a literal value. -/
def scalarType? : Value → Option TypeName
  | .integer _ => some .integer
  | .real _ => some .real
  | .text _ => some .text
  | .boolean _ => some .boolean
  | .character _ => some .character
  | _ => none

/-- The type of a starting value, where the source makes it obvious. -/
def literalType? : Expr → Option TypeName
  | literal v _ => scalarType? v
  | unary .negate operand _ =>
    match operand.literalType? with
    | some .integer => some .integer
    | some .real => some .real
    | _ => none
  | grouping inner _ => inner.literalType?
  | new className _ _ => some (.ofClass className)
  | _ => none

end Expr

/-- A starting value: one expression, or a list whose items may be lists. -/
inductive Initializer where
  | one (value : Expr)
  | list (items : List Initializer)
  deriving Inhabited

mutual

/-- The expressions of an initializer in the order they are written. -/
def Initializer.flatten : Initializer → List Expr
  | .one value => [value]
  | .list items => Initializer.flattenAll items

/-- The expressions of several initializers in the order they are written. -/
def Initializer.flattenAll : List Initializer → List Expr
  | [] => []
  | item :: rest => item.flatten ++ Initializer.flattenAll rest

end

structure Declaration where
  id : VarId
  /-- The size of each dimension; none for a scalar. -/
  dims : List Expr
  init : Option Initializer
  span : Span
  deriving Inhabited

/-- A row of statements. -/
structure Block (σ : Type) where
  statements : List σ
  span : Span
  deriving Inhabited

/-- A test and what is done when it holds. -/
structure Branch (σ : Type) where
  condition : Expr
  body : Block σ
  deriving Inhabited

/-- The values that a case of a `Select` answers to, and what is done then. -/
structure Case (σ : Type) where
  labels : List Expr
  body : Block σ
  span : Span
  deriving Inhabited

inductive Stmt where
  | declare (declarations : List Declaration) (span : Span)
  | assign (target value : Expr) (span : Span)
  | display (items : List Expr) (span : Span)
  | input (target : Expr) (span : Span)
  | call (call : Expr) (span : Span)
  /-- `If` and every `Else If` in order, then `Else`. -/
  | choose (branches : List (Branch Stmt)) (otherwise : Option (Block Stmt)) (span : Span)
  | select (subject : Expr) (cases : List (Case Stmt)) (otherwise : Option (Block Stmt)) (span : Span)
  | whileLoop (condition : Expr) (body : Block Stmt) (span : Span)
  /-- A loop with its test at the end, which goes on while the test differs from `exit`. -/
  | doLoop (body : Block Stmt) (condition : Expr) (exit : Bool) (span : Span)
  | forLoop (counter start stop : Expr) (step : Option Expr) (body : Block Stmt) (span : Span)
  | forEach (item array : Expr) (body : Block Stmt) (span : Span)
  | returnWith (value : Option Expr) (span : Span)
  | breakLoop (span : Span)
  | continueLoop (span : Span)
  | stop (span : Span)
  deriving Inhabited

namespace Stmt

def span : Stmt → Span
  | declare _ s | assign _ _ s | display _ s | input _ s | call _ s | choose _ _ s
  | select _ _ _ s | whileLoop _ _ s | doLoop _ _ _ s | forLoop _ _ _ _ _ s | forEach _ _ _ s
  | returnWith _ s | breakLoop s | continueLoop s | stop s => s

end Stmt

mutual

/-- Whether the statement is a `Return` or holds one. -/
def Stmt.returns : Stmt → Bool
  | .returnWith .. => true
  | .choose branches otherwise _ => Stmt.branchesReturn branches || Stmt.optionReturns otherwise
  | .select _ cases otherwise _ => Stmt.casesReturn cases || Stmt.optionReturns otherwise
  | .whileLoop _ body _ => Stmt.blockReturns body
  | .doLoop body _ _ _ => Stmt.blockReturns body
  | .forLoop _ _ _ _ body _ => Stmt.blockReturns body
  | .forEach _ _ body _ => Stmt.blockReturns body
  | _ => false

def Stmt.blockReturns : Block Stmt → Bool
  | ⟨statements, _⟩ => Stmt.anyReturns statements

def Stmt.optionReturns : Option (Block Stmt) → Bool
  | none => false
  | some body => Stmt.blockReturns body

def Stmt.branchReturns : Branch Stmt → Bool
  | ⟨_, body⟩ => Stmt.blockReturns body

def Stmt.branchesReturn : List (Branch Stmt) → Bool
  | [] => false
  | branch :: rest => Stmt.branchReturns branch || Stmt.branchesReturn rest

def Stmt.caseReturns : Case Stmt → Bool
  | ⟨_, body, _⟩ => Stmt.blockReturns body

def Stmt.casesReturn : List (Case Stmt) → Bool
  | [] => false
  | c :: rest => Stmt.caseReturns c || Stmt.casesReturn rest

/-- Whether one of the statements is or holds a `Return`. -/
def Stmt.anyReturns : List Stmt → Bool
  | [] => false
  | s :: rest => s.returns || Stmt.anyReturns rest

end

end Primer
