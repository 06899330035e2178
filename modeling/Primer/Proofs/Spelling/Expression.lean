/-
How expressions are written.

`Spells names level tokens e` says that the tokens are a spelling of `e` as an expression of the
level.  It is the grammar of expressions as it is documented, and it does not mention how they are
read: operators of a level stand between an expression of the same level and one of the next
tighter level, so that they group to the left; a power groups to the right, and its exponent may
have a sign; a pair of parentheses is a node of the tree; indices that follow one another belong to
one node, whether they share a pair of brackets or not.

What the tree says of places in the source is left open, since tokens are compared by what they say
and not by where they stand.  `bare` forgets it.
-/
import Primer.Decimal.Reading
import Primer.Token
import Primer.Tree

namespace Primer

mutual

/-- The expression without its places in the source. -/
def Expr.bare : Expr → Expr
  | .literal value _ => .literal value Span.nowhere
  | .variableRef id name _ => .variableRef id name Span.nowhere
  | .index base indices _ => .index base.bare (Expr.bareAll indices) Span.nowhere
  | .field object name _ => .field object.bare name Span.nowhere
  | .binary op left right _ => .binary op left.bare right.bare Span.nowhere
  | .logical op left right _ => .logical op left.bare right.bare Span.nowhere
  | .unary op operand _ => .unary op operand.bare Span.nowhere
  | .call name args _ => .call name (Expr.bareAll args) Span.nowhere
  | .methodCall object name args _ => .methodCall object.bare name (Expr.bareAll args) Span.nowhere
  | .new className args _ => .new className (Expr.bareAll args) Span.nowhere
  | .grouping inner _ => .grouping inner.bare Span.nowhere
  | .invalid _ => .invalid Span.nowhere

def Expr.bareAll : List Expr → List Expr
  | [] => []
  | e :: rest => e.bare :: Expr.bareAll rest

end

@[simp] theorem Expr.bareAll_eq_map (es : List Expr) : Expr.bareAll es = es.map Expr.bare := by
  induction es with
  | nil => rfl
  | cons e rest ih => rw [Expr.bareAll, ih, List.map_cons]

namespace Grammar

/-- The levels of the grammar, from loosest to tightest. -/
inductive Level where
  | disjunction | conjunction | negation | comparison | additive | multiplicative
  | unary | power | suffixed | primary
  deriving DecidableEq

namespace Level

/-- The next tighter level. -/
def tighter? : Level → Option Level
  | disjunction => some conjunction
  | conjunction => some negation
  | negation => some comparison
  | comparison => some additive
  | additive => some multiplicative
  | multiplicative => some unary
  | unary => some power
  | power => some suffixed
  | suffixed => some primary
  | primary => none

end Level

/-- The operators between two operands of a level, and what they make of them. -/
inductive Operator : Level → TokenKind → (Expr → Expr → Span → Expr) → Prop where
  | or : Operator .disjunction .kwOr (.logical .or)
  | and : Operator .conjunction .kwAnd (.logical .and)
  | equal : Operator .comparison .equalEqual (.binary .equal)
  | notEqual : Operator .comparison .notEqual (.binary .notEqual)
  | less : Operator .comparison .less (.binary .less)
  | lessEqual : Operator .comparison .lessEqual (.binary .lessEqual)
  | greater : Operator .comparison .greater (.binary .greater)
  | greaterEqual : Operator .comparison .greaterEqual (.binary .greaterEqual)
  | add : Operator .additive .plus (.binary .add)
  | subtract : Operator .additive .minus (.binary .subtract)
  | multiply : Operator .multiplicative .star (.binary .multiply)
  | divide : Operator .multiplicative .slash (.binary .divide)
  | modulo : Operator .multiplicative .kwMod (.binary .modulo)

/-- The token is the value by itself. -/
inductive Literal (token : Token) : Value → Prop where
  | integer {n : Int64} (hkind : token.kind = .integer)
      (hvalue : Decimal.readInteger? token.lexeme = some n) : Literal token (.integer n)
  | real {x : Float} (hkind : token.kind = .real)
      (hvalue : Decimal.readReal? token.lexeme = some x) : Literal token (.real x)
  | text (hkind : token.kind = .text) : Literal token (.text token.lexeme)
  | character {c : Char} (hkind : token.kind = .character) (hvalue : token.lexeme.toList = [c]) :
      Literal token (.character c)
  | yes (hkind : token.kind = .kwTrue) : Literal token (.boolean true)
  | no (hkind : token.kind = .kwFalse) : Literal token (.boolean false)
  | null (hkind : token.kind = .kwNull) : Literal token .null

/-- What the names of variables stand for, and which of them are arrays. -/
structure Names where
  lookup? : String → Option VarId
  isArray : VarId → Bool

/-- One or more items with commas between them. -/
structure Listing where
  first : List Token × Expr
  /-- Each comma with the item after it. -/
  more : List (Token × List Token × Expr)

namespace Listing

/-- The items with their spellings. -/
def parts (l : Listing) : List (List Token × Expr) := l.first :: l.more.map (·.2)

def tokens (l : Listing) : List Token := l.first.1 ++ l.more.flatMap fun item => item.1 :: item.2.1

def values (l : Listing) : List Expr := l.parts.map (·.2)

/-- The separators are commas. -/
def Separated (l : Listing) : Prop := ∀ item ∈ l.more, item.1.kind = .comma

/-- The tokens of what stands between the parentheses of a call. -/
def tokensOf (args : Option Listing) : List Token := (args.map tokens).getD []

def valuesOf (args : Option Listing) : List Expr := (args.map values).getD []

end Listing

/-- The expression is one of an element. -/
def Indexed (e : Expr) : Prop := ∃ base indices span, e = .index base indices span

/-- The tokens are a spelling of the expression at this level of the grammar. -/
inductive Spells (names : Names) : Level → List Token → Expr → Prop where
  | tighter {level next : Level} {tokens : List Token} {e : Expr}
      (hlevel : level.tighter? = some next) (h : Spells names next tokens e) :
      Spells names level tokens e
  | joined {level operand : Level} {join : Expr → Expr → Span → Expr} {token : Token}
      {before after : List Token} {left right : Expr} {span : Span}
      (hlevel : level.tighter? = some operand) (hop : Operator level token.kind join)
      (hleft : Spells names level before left) (hright : Spells names operand after right) :
      Spells names level (before ++ token :: after) (join left right span)
  | not {token : Token} {tokens : List Token} {e : Expr} {span : Span}
      (hkind : token.kind = .kwNot) (h : Spells names .negation tokens e) :
      Spells names .negation (token :: tokens) (.unary .not e span)
  | negate {token : Token} {tokens : List Token} {e : Expr} {span : Span}
      (hkind : token.kind = .minus) (h : Spells names .unary tokens e) :
      Spells names .unary (token :: tokens) (.unary .negate e span)
  | power {token : Token} {before after : List Token} {base exponent : Expr} {span : Span}
      (hkind : token.kind = .caret) (hbase : Spells names .suffixed before base)
      (hexponent : Spells names .unary after exponent) :
      Spells names .power (before ++ token :: after) (.binary .power base exponent span)
  | index {opening closing : Token} {tokens : List Token} {base : Expr} {indices : Listing}
      {span : Span} (hopening : opening.kind = .leftBracket)
      (hclosing : closing.kind = .rightBracket)
      (hbase : Spells names .suffixed tokens base) (hfirst : ¬ Indexed base)
      (harray : ∀ id name place, base = .variableRef id name place → names.isArray id = true)
      (hcommas : indices.Separated)
      (hindices : ∀ part ∈ indices.parts, Spells names .disjunction part.1 part.2) :
      Spells names .suffixed (tokens ++ opening :: (indices.tokens ++ [closing]))
        (.index base indices.values span)
  | moreIndices {opening closing : Token} {tokens : List Token} {base : Expr} {earlier : List Expr}
      {indices : Listing} {place span : Span} (hopening : opening.kind = .leftBracket)
      (hclosing : closing.kind = .rightBracket)
      (hbase : Spells names .suffixed tokens (.index base earlier place))
      (hcommas : indices.Separated)
      (hindices : ∀ part ∈ indices.parts, Spells names .disjunction part.1 part.2) :
      Spells names .suffixed (tokens ++ opening :: (indices.tokens ++ [closing]))
        (.index base (earlier ++ indices.values) span)
  | field {dot name : Token} {tokens : List Token} {object : Expr} {span : Span}
      (hdot : dot.kind = .dot) (hname : name.kind = .identifier)
      (hobject : Spells names .suffixed tokens object) :
      Spells names .suffixed (tokens ++ [dot, name]) (.field object name.lexeme span)
  | methodCall {dot name opening closing : Token} {tokens : List Token} {object : Expr}
      {args : Option Listing} {span : Span} (hdot : dot.kind = .dot)
      (hname : name.kind = .identifier) (hopening : opening.kind = .leftParen)
      (hclosing : closing.kind = .rightParen) (hobject : Spells names .suffixed tokens object)
      (hcommas : ∀ l ∈ args, l.Separated)
      (hargs : ∀ l ∈ args, ∀ part ∈ l.parts, Spells names .disjunction part.1 part.2) :
      Spells names .suffixed
        (tokens ++ dot :: name :: opening :: (Listing.tokensOf args ++ [closing]))
        (.methodCall object name.lexeme (Listing.valuesOf args) span)
  | literal {token : Token} {value : Value} {span : Span} (hvalue : Literal token value) :
      Spells names .primary [token] (.literal value span)
  | named {token : Token} {id : VarId} {span : Span} (hkind : token.kind = .identifier)
      (hfound : names.lookup? token.lexeme = some id) :
      Spells names .primary [token] (.variableRef id token.lexeme span)
  | call {name opening closing : Token} {args : Option Listing} {span : Span}
      (hname : name.kind = .identifier) (hopening : opening.kind = .leftParen)
      (hclosing : closing.kind = .rightParen) (hcommas : ∀ l ∈ args, l.Separated)
      (hargs : ∀ l ∈ args, ∀ part ∈ l.parts, Spells names .disjunction part.1 part.2) :
      Spells names .primary (name :: opening :: (Listing.tokensOf args ++ [closing]))
        (.call name.lexeme (Listing.valuesOf args) span)
  | new {word name opening closing : Token} {args : Option Listing} {span : Span}
      (hword : word.kind = .kwNew) (hname : name.kind = .identifier)
      (hopening : opening.kind = .leftParen) (hclosing : closing.kind = .rightParen)
      (hcommas : ∀ l ∈ args, l.Separated)
      (hargs : ∀ l ∈ args, ∀ part ∈ l.parts, Spells names .disjunction part.1 part.2) :
      Spells names .primary (word :: name :: opening :: (Listing.tokensOf args ++ [closing]))
        (.new name.lexeme (Listing.valuesOf args) span)
  | grouping {opening closing : Token} {tokens : List Token} {e : Expr} {span : Span}
      (hopening : opening.kind = .leftParen) (hclosing : closing.kind = .rightParen)
      (h : Spells names .disjunction tokens e) :
      Spells names .primary (opening :: (tokens ++ [closing])) (.grouping e span)

/-! ### What can follow -/

namespace Level

/-- How loose a level is. -/
def bond : Level → Nat
  | primary => 0
  | suffixed => 1
  | power => 2
  | unary => 3
  | multiplicative => 4
  | additive => 5
  | comparison => 6
  | negation => 7
  | conjunction => 8
  | disjunction => 9

end Level

/-- The level at which a token goes on with the expression before it.  A single equals sign does so
in a test only. -/
def bond? (inTest : Bool) : TokenKind → Option Nat
  | .leftParen => some 0
  | .leftBracket | .dot => some 1
  | .caret => some 2
  | .star | .slash | .kwMod => some 4
  | .plus | .minus => some 5
  | .equalEqual | .notEqual | .less | .lessEqual | .greater | .greaterEqual => some 6
  | .equal => if inTest then some 6 else none
  | .kwAnd => some 8
  | .kwOr => some 9
  | _ => none

/-- A token of this kind goes on with the expression before it. -/
def Continues (inTest : Bool) (kind : TokenKind) : Prop := (bond? inTest kind).isSome

instance (inTest : Bool) (kind : TokenKind) : Decidable (Continues inTest kind) :=
  inferInstanceAs (Decidable ((bond? inTest kind).isSome = true))

/-- A token of this kind ends every expression that is not looser than this bond. -/
def Ends (inTest : Bool) (bond : Nat) (kind : TokenKind) : Prop :=
  ∀ k, bond? inTest kind = some k → bond < k

end Grammar

end Primer
