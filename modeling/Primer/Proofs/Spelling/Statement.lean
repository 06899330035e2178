/-
How statements are written.

A program is written in rows of tokens, one for each line.  A simple statement is a row by itself; a
construct starts with a row, and the rows of its bodies follow up to the row that closes it.
`SpellsRows` is the grammar of statements as it is documented, for any depth of nesting, and it does
not mention how they are read.

A name stands for the variable that the nearest scope declares under it.  `Sight` says which one
that is: every body has a scope of its own, a declaration adds to the scope it stands in, and what
was declared in a body is out of sight after it.  Whether a variable may be indexed or written to,
and whether a jump stands inside of a loop, is no matter of spelling.
-/
import Primer.Proofs.Spelling.Expression

namespace Primer

/-! ### Statements without their places in the source -/

mutual

/-- The starting value without its places in the source. -/
def Initializer.bare : Initializer → Initializer
  | .one value => .one value.bare
  | .list items => .list (Initializer.bareAll items)

def Initializer.bareAll : List Initializer → List Initializer
  | [] => []
  | item :: rest => item.bare :: Initializer.bareAll rest

end

def Declaration.bare (d : Declaration) : Declaration where
  id := d.id
  dims := d.dims.map Expr.bare
  init := d.init.map Initializer.bare
  span := Span.nowhere

mutual

/-- The statement without its places in the source. -/
def Stmt.bare : Stmt → Stmt
  | .declare declarations _ => .declare (declarations.map Declaration.bare) Span.nowhere
  | .assign target value _ => .assign target.bare value.bare Span.nowhere
  | .display items _ => .display (items.map Expr.bare) Span.nowhere
  | .input target _ => .input target.bare Span.nowhere
  | .call e _ => .call e.bare Span.nowhere
  | .choose branches otherwise _ =>
    .choose (Stmt.bareBranches branches) (Stmt.bareOption otherwise) Span.nowhere
  | .select subject cases otherwise _ =>
    .select subject.bare (Stmt.bareCases cases) (Stmt.bareOption otherwise) Span.nowhere
  | .whileLoop condition body _ => .whileLoop condition.bare (Stmt.bareBlock body) Span.nowhere
  | .doLoop body condition exit _ =>
    .doLoop (Stmt.bareBlock body) condition.bare exit Span.nowhere
  | .forLoop counter first last step body _ =>
    .forLoop counter.bare first.bare last.bare (step.map Expr.bare) (Stmt.bareBlock body)
      Span.nowhere
  | .forEach item array body _ =>
    .forEach item.bare array.bare (Stmt.bareBlock body) Span.nowhere
  | .returnWith value _ => .returnWith (value.map Expr.bare) Span.nowhere
  | .breakLoop _ => .breakLoop Span.nowhere
  | .continueLoop _ => .continueLoop Span.nowhere
  | .stop _ => .stop Span.nowhere

def Stmt.bareBlock : Block Stmt → Block Stmt
  | ⟨statements, _⟩ => ⟨Stmt.bareAll statements, Span.nowhere⟩

def Stmt.bareOption : Option (Block Stmt) → Option (Block Stmt)
  | none => none
  | some body => some (Stmt.bareBlock body)

def Stmt.bareBranch : Branch Stmt → Branch Stmt
  | ⟨condition, body⟩ => ⟨condition.bare, Stmt.bareBlock body⟩

def Stmt.bareBranches : List (Branch Stmt) → List (Branch Stmt)
  | [] => []
  | branch :: rest => Stmt.bareBranch branch :: Stmt.bareBranches rest

def Stmt.bareCase : Case Stmt → Case Stmt
  | ⟨labels, body, _⟩ => ⟨labels.map Expr.bare, Stmt.bareBlock body, Span.nowhere⟩

def Stmt.bareCases : List (Case Stmt) → List (Case Stmt)
  | [] => []
  | c :: rest => Stmt.bareCase c :: Stmt.bareCases rest

def Stmt.bareAll : List Stmt → List Stmt
  | [] => []
  | s :: rest => s.bare :: Stmt.bareAll rest

end

attribute [simp] Stmt.bare

@[simp] theorem Stmt.bareBranches_eq_map (branches : List (Branch Stmt)) :
    Stmt.bareBranches branches = branches.map Stmt.bareBranch := by
  induction branches with
  | nil => rfl
  | cons branch rest ih => rw [Stmt.bareBranches, ih, List.map_cons]

@[simp] theorem Stmt.bareCases_eq_map (cases : List (Case Stmt)) :
    Stmt.bareCases cases = cases.map Stmt.bareCase := by
  induction cases with
  | nil => rfl
  | cons c rest ih => rw [Stmt.bareCases, ih, List.map_cons]

@[simp] theorem Stmt.bareAll_eq_map (statements : List Stmt) :
    Stmt.bareAll statements = statements.map Stmt.bare := by
  induction statements with
  | nil => rfl
  | cons s rest ih => rw [Stmt.bareAll, ih, List.map_cons]

namespace Grammar

/-! ### What names stand for -/

/-- The variables that have been declared, and what their names stand for. -/
structure Sight where
  /-- Every variable so far with its type, each under its number. -/
  declared : List (String × TypeName) := []
  /-- What the scope at hand declares, in order. -/
  here : List (String × VarId) := []
  /-- What the scopes around it declare, innermost first. -/
  around : List (List (String × VarId)) := []

namespace Sight

/-- The first variable of this name in the nearest scope that has one. -/
def lookup? (s : Sight) (name : String) : Option VarId :=
  (s.here :: s.around).findSome? (·.lookup name)

def declare (s : Sight) (name : String) (type : TypeName) : Sight :=
  { s with
    declared := s.declared ++ [(name, type)]
    here := s.here ++ [(name, s.declared.length)] }

/-- At the start of a body. -/
def enter (s : Sight) : Sight := { s with here := [], around := s.here :: s.around }

/-- At the end of a body. -/
def leave (s : Sight) : Sight :=
  match s.around with
  | [] => s
  | here :: around => { s with here, around }

/-- What is spelled may index any variable. -/
def names (s : Sight) : Names where
  lookup? := s.lookup?
  isArray := fun _ => true

end Sight

/-! ### Simple statements -/

/-- The token names the type: one of the built-in ones, or a class. -/
inductive SpellsType (token : Token) : TypeName → Prop where
  | builtin {type : TypeName} (hkind : token.kind = .typeName)
      (hword : TypeName.ofWord? token.lexeme = some type) : SpellsType token type
  | ofClass (hkind : token.kind = .identifier) : SpellsType token (.ofClass token.lexeme)

/-- A literal that a variable of the type can start with: one of this type, an integer for a real, a
character for a text, or a text of one character for a character.  Nothing is asked of an expression
that is no literal. -/
def Fits (type : TypeName) (value : Expr) : Prop :=
  ∀ found, value.literalType? = some found →
    found = type ∨ found = .integer ∧ type = .real ∨ found = .character ∧ type = .text ∨
      type = .character ∧ ∃ s span, value = .literal (.text s) span ∧ s.length = 1

/-- A scalar with its starting value, if it has one.  Its own name is not yet in sight there. -/
inductive SpellsVariable (type : TypeName) (s : Sight) : List Token → Declaration → Token → Prop where
  | alone {name : Token} {span : Span} (hname : name.kind = .identifier) :
      SpellsVariable type s [name] ⟨s.declared.length, [], none, span⟩ name
  | starting {name equal : Token} {tokens : List Token} {value : Expr} {span : Span}
      (hname : name.kind = .identifier) (hequal : equal.kind = .equal)
      (hvalue : Spells s.names .disjunction tokens value) (hfits : Fits type value) :
      SpellsVariable type s (name :: equal :: tokens)
        ⟨s.declared.length, [], some (.one value), span⟩ name

/-- One or more scalars of a type with commas between them, and what is in sight after them. -/
inductive SpellsVariables (type : TypeName) :
    Sight → List Token → List Declaration → Sight → Prop where
  | last {s : Sight} {tokens : List Token} {d : Declaration} {name : Token}
      (h : SpellsVariable type s tokens d name) :
      SpellsVariables type s tokens [d] (s.declare name.lexeme type)
  | more {s s' : Sight} {tokens tokens' : List Token} {d : Declaration} {ds : List Declaration}
      {name comma : Token} (h : SpellsVariable type s tokens d name) (hcomma : comma.kind = .comma)
      (hmore : SpellsVariables type (s.declare name.lexeme type) tokens' ds s') :
      SpellsVariables type s (tokens ++ comma :: tokens') (d :: ds) s'

/-- Expressions with commas between them. -/
structure SpellsList (names : Names) (items : Listing) : Prop where
  commas : items.Separated
  parts : ∀ part ∈ items.parts, Spells names .disjunction part.1 part.2

/-- The row is a simple statement, after which this is in sight. -/
inductive SpellsLine : Sight → List Token → Stmt → Sight → Prop where
  | declare {s s' : Sight} {keyword word : Token} {type : TypeName} {tokens : List Token}
      {declarations : List Declaration} {span : Span} (hkeyword : keyword.kind = .kwDeclare)
      (htype : SpellsType word type) (h : SpellsVariables type s tokens declarations s') :
      SpellsLine s (keyword :: word :: tokens) (.declare declarations span) s'
  | assign {s : Sight} {keyword equal : Token} {before after : List Token} {place value : Expr}
      {span : Span} (hkeyword : keyword.kind = .kwSet) (hequal : equal.kind = .equal)
      (hplace : Spells s.names .suffixed before place)
      (hvalue : Spells s.names .disjunction after value) :
      SpellsLine s (keyword :: (before ++ equal :: after)) (.assign place value span) s
  | display {s : Sight} {keyword : Token} {items : Option Listing} {span : Span}
      (hkeyword : keyword.kind = .kwDisplay) (hitems : ∀ l ∈ items, SpellsList s.names l) :
      SpellsLine s (keyword :: Listing.tokensOf items) (.display (Listing.valuesOf items) span) s
  | input {s : Sight} {keyword : Token} {tokens : List Token} {place : Expr} {span : Span}
      (hkeyword : keyword.kind = .kwInput) (hplace : Spells s.names .suffixed tokens place) :
      SpellsLine s (keyword :: tokens) (.input place span) s
  | call {s : Sight} {keyword : Token} {tokens : List Token} {e : Expr} {span : Span}
      (hkeyword : keyword.kind = .kwCall) (hcall : Spells s.names .suffixed tokens e)
      (hshape : e.isCall = true) : SpellsLine s (keyword :: tokens) (.call e span) s
  | breakLoop {s : Sight} {keyword : Token} {span : Span} (hkeyword : keyword.kind = .kwBreak) :
      SpellsLine s [keyword] (.breakLoop span) s
  | continueLoop {s : Sight} {keyword : Token} {span : Span}
      (hkeyword : keyword.kind = .kwContinue) : SpellsLine s [keyword] (.continueLoop span) s
  | stop {s : Sight} {keyword : Token} {span : Span} (hkeyword : keyword.kind = .kwStop) :
      SpellsLine s [keyword] (.stop span) s

/-! ### Constructs -/

/-- The tokens are of these kinds. -/
def OfKinds (kinds : List TokenKind) (row : List Token) : Prop := row.map Token.kind = kinds

/-- The step of a counted loop, if it has one. -/
inductive SpellsStep (names : Names) : List Token → Option Expr → Prop where
  | none : SpellsStep names [] none
  | some {word : Token} {tokens : List Token} {step : Expr} (hword : word.kind = .kwStep)
      (hstep : Spells names .disjunction tokens step) : SpellsStep names (word :: tokens) (some step)

/-- What takes up rows. -/
inductive Phrase where
  | statement (s : Stmt)
  | statements (ss : List Stmt)
  | block (body : Block Stmt)
  /-- What follows the first body of an `If`. -/
  | branches (more : List (Branch Stmt)) (otherwise : Option (Block Stmt))
  /-- What follows the first row of a `Select`. -/
  | cases (cases : List (Case Stmt)) (otherwise : Option (Block Stmt))

/-- The rows are a spelling of the phrase, after which this is in sight. -/
inductive SpellsRows : Sight → Phrase → List (List Token) → Sight → Prop where
  | simple {s s' : Sight} {row : List Token} {statement : Stmt}
      (h : SpellsLine s row statement s') : SpellsRows s (.statement statement) [row] s'
  | none {s : Sight} : SpellsRows s (.statements []) [] s
  | more {s s' s'' : Sight} {rows rows' : List (List Token)} {statement : Stmt}
      {statements : List Stmt} (h : SpellsRows s (.statement statement) rows s')
      (hmore : SpellsRows s' (.statements statements) rows' s'') :
      SpellsRows s (.statements (statement :: statements)) (rows ++ rows') s''
  | block {s s' : Sight} {rows : List (List Token)} {statements : List Stmt} {span : Span}
      (h : SpellsRows s.enter (.statements statements) rows s') :
      SpellsRows s (.block ⟨statements, span⟩) rows s'.leave
  | choose {s s' s'' : Sight} {keyword word : Token} {test : List Token}
      {rows rows' : List (List Token)} {condition : Expr} {body : Block Stmt}
      {branches : List (Branch Stmt)} {otherwise : Option (Block Stmt)} {span : Span}
      (hkeyword : keyword.kind = .kwIf) (htest : Spells s.names .disjunction test condition)
      (hword : word.kind = .kwThen) (hbody : SpellsRows s (.block body) rows s')
      (hmore : SpellsRows s' (.branches branches otherwise) rows' s'') :
      SpellsRows s (.statement (.choose (⟨condition, body⟩ :: branches) otherwise span))
        ((keyword :: (test ++ [word])) :: (rows ++ rows')) s''
  | elseIf {s s' s'' : Sight} {elseWord keyword word : Token} {test : List Token}
      {rows rows' : List (List Token)} {condition : Expr} {body : Block Stmt}
      {branches : List (Branch Stmt)} {otherwise : Option (Block Stmt)}
      (helse : elseWord.kind = .kwElse) (hkeyword : keyword.kind = .kwIf)
      (htest : Spells s.names .disjunction test condition) (hword : word.kind = .kwThen)
      (hbody : SpellsRows s (.block body) rows s')
      (hmore : SpellsRows s' (.branches branches otherwise) rows' s'') :
      SpellsRows s (.branches (⟨condition, body⟩ :: branches) otherwise)
        ((elseWord :: keyword :: (test ++ [word])) :: (rows ++ rows')) s''
  | otherwise {s s' : Sight} {row last : List Token} {rows : List (List Token)} {body : Block Stmt}
      (hrow : OfKinds [.kwElse] row) (hbody : SpellsRows s (.block body) rows s')
      (hlast : OfKinds [.kwEnd, .kwIf] last) :
      SpellsRows s (.branches [] (some body)) (row :: (rows ++ [last])) s'
  | endIf {s : Sight} {last : List Token} (hlast : OfKinds [.kwEnd, .kwIf] last) :
      SpellsRows s (.branches [] none) [last] s
  | select {s s' : Sight} {keyword : Token} {tokens : List Token} {rows : List (List Token)}
      {subject : Expr} {cases : List (Case Stmt)} {otherwise : Option (Block Stmt)} {span : Span}
      (hkeyword : keyword.kind = .kwSelect) (hsubject : Spells s.names .disjunction tokens subject)
      (hcases : SpellsRows s (.cases cases otherwise) rows s') :
      SpellsRows s (.statement (.select subject cases otherwise span)) ((keyword :: tokens) :: rows)
        s'
  | case {s s' s'' : Sight} {keyword colon : Token} {labels : Listing}
      {rows rows' : List (List Token)} {body : Block Stmt} {cases : List (Case Stmt)}
      {otherwise : Option (Block Stmt)} {span : Span} (hkeyword : keyword.kind = .kwCase)
      (hlabels : SpellsList s.names labels) (hcolon : colon.kind = .colon)
      (hbody : SpellsRows s (.block body) rows s')
      (hmore : SpellsRows s' (.cases cases otherwise) rows' s'') :
      SpellsRows s (.cases (⟨labels.values, body, span⟩ :: cases) otherwise)
        ((keyword :: (labels.tokens ++ [colon])) :: (rows ++ rows')) s''
  | default {s s' s'' : Sight} {row : List Token} {rows rows' : List (List Token)}
      {body : Block Stmt} {cases : List (Case Stmt)} (hrow : OfKinds [.kwDefault, .colon] row)
      (hbody : SpellsRows s (.block body) rows s')
      (hmore : SpellsRows s' (.cases cases none) rows' s'') :
      SpellsRows s (.cases cases (some body)) (row :: (rows ++ rows')) s''
  | endSelect {s : Sight} {last : List Token} (hlast : OfKinds [.kwEnd, .kwSelect] last) :
      SpellsRows s (.cases [] none) [last] s
  | whileLoop {s s' : Sight} {keyword : Token} {test last : List Token} {rows : List (List Token)}
      {condition : Expr} {body : Block Stmt} {span : Span} (hkeyword : keyword.kind = .kwWhile)
      (htest : Spells s.names .disjunction test condition)
      (hbody : SpellsRows s (.block body) rows s') (hlast : OfKinds [.kwEnd, .kwWhile] last) :
      SpellsRows s (.statement (.whileLoop condition body span))
        ((keyword :: test) :: (rows ++ [last])) s'
  | doLoop {s s' : Sight} {row test : List Token} {keyword word : Token} {rows : List (List Token)}
      {condition : Expr} {exit : Bool} {body : Block Stmt} {span : Span}
      (hrow : OfKinds [.kwDo] row) (hbody : SpellsRows s (.block body) rows s')
      (hkeyword : keyword.kind = .kwLoop) (hword : word.kind = if exit then .kwUntil else .kwWhile)
      (htest : Spells s'.names .disjunction test condition) :
      SpellsRows s (.statement (.doLoop body condition exit span))
        (row :: (rows ++ [keyword :: word :: test])) s'
  | forLoop {s s' : Sight} {keyword equal word : Token} {place first upTo stride last : List Token}
      {rows : List (List Token)} {counter start stop : Expr} {step : Option Expr}
      {body : Block Stmt} {span : Span} (hkeyword : keyword.kind = .kwFor)
      (hcounter : Spells s.names .suffixed place counter) (hequal : equal.kind = .equal)
      (hstart : Spells s.names .disjunction first start) (hword : word.kind = .kwTo)
      (hstop : Spells s.names .disjunction upTo stop) (hstep : SpellsStep s.names stride step)
      (hbody : SpellsRows s (.block body) rows s') (hlast : OfKinds [.kwEnd, .kwFor] last) :
      SpellsRows s (.statement (.forLoop counter start stop step body span))
        ((keyword :: (place ++ equal :: (first ++ word :: (upTo ++ stride)))) :: (rows ++ [last])) s'
  | forEach {s s' : Sight} {keyword each word : Token} {place tokens last : List Token}
      {rows : List (List Token)} {item array : Expr} {body : Block Stmt} {span : Span}
      (hkeyword : keyword.kind = .kwFor) (heach : each.kind = .kwEach)
      (hitem : Spells s.names .suffixed place item) (hword : word.kind = .kwIn)
      (harray : Spells s.names .disjunction tokens array)
      (hbody : SpellsRows s (.block body) rows s') (hlast : OfKinds [.kwEnd, .kwFor] last) :
      SpellsRows s (.statement (.forEach item array body span))
        ((keyword :: each :: (place ++ word :: tokens)) :: (rows ++ [last])) s'

end Grammar

end Primer
