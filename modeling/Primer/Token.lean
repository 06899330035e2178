/-
Tokens: the words and marks a source text is made of.

A token keeps the text it was written as.  For a quoted literal that is the text
between the quotes, and for a reserved word its proper spelling, whatever case it
was typed in.
-/
import Primer.Span
import Primer.Text.Case

namespace Primer

/-- What a token is, apart from the text it holds. -/
inductive TokenKind where
  -- marks
  | leftParen | rightParen | leftBracket | rightBracket
  | comma | colon | dot
  | minus | plus | slash | star | caret
  | equal | equalEqual | notEqual
  | greater | greaterEqual | less | lessEqual
  -- names and literals
  | identifier | text | character | integer | real
  -- one of the five built-in type names
  | typeName
  -- the other reserved words
  | kwDeclare | kwConstant | kwSet | kwDisplay | kwInput | kwCall
  | kwModule | kwFunction | kwEnd | kwReturn
  | kwIf | kwThen | kwElse | kwSelect | kwCase | kwDefault
  | kwWhile | kwDo | kwLoop | kwUntil
  | kwFor | kwEach | kwIn | kwTo | kwStep
  | kwBreak | kwContinue | kwStop
  | kwClass | kwPublic | kwPrivate | kwNew | kwRef
  | kwAnd | kwOr | kwNot | kwMod
  | kwTrue | kwFalse | kwNull
  -- what stands after the last token
  | endOfInput
  deriving DecidableEq, Repr, Inhabited

namespace TokenKind

/-- Every reserved word with its kind, in its one proper spelling. -/
def reserved : List (String × TokenKind) := [
  ("Declare", .kwDeclare), ("Constant", .kwConstant), ("Set", .kwSet),
  ("Display", .kwDisplay), ("Input", .kwInput), ("Call", .kwCall),
  ("Module", .kwModule), ("Function", .kwFunction), ("End", .kwEnd),
  ("Return", .kwReturn), ("If", .kwIf), ("Then", .kwThen), ("Else", .kwElse),
  ("Select", .kwSelect), ("Case", .kwCase), ("Default", .kwDefault),
  ("While", .kwWhile), ("Do", .kwDo), ("Loop", .kwLoop), ("Until", .kwUntil),
  ("For", .kwFor), ("Each", .kwEach), ("In", .kwIn), ("To", .kwTo), ("Step", .kwStep),
  ("Break", .kwBreak), ("Continue", .kwContinue), ("Stop", .kwStop),
  ("Class", .kwClass), ("Public", .kwPublic), ("Private", .kwPrivate),
  ("New", .kwNew), ("Ref", .kwRef),
  ("AND", .kwAnd), ("OR", .kwOr), ("NOT", .kwNot), ("MOD", .kwMod),
  ("True", .kwTrue), ("False", .kwFalse), ("Null", .kwNull),
  ("Integer", .typeName), ("Real", .typeName), ("String", .typeName),
  ("Boolean", .typeName), ("Character", .typeName)]

/-- The kind of a word that is spelled exactly like a reserved one. -/
def ofWord? (word : String) : Option TokenKind := reserved.lookup word

/-- The reserved words by their lower-case spelling. -/
def folded : List (String × String × TokenKind) :=
  reserved.map fun (word, kind) => (Text.toLower word, word, kind)

/-- The reserved word that `word` spells when letter case is ignored. -/
def ofWordIgnoringCase? (word : String) : Option (String × TokenKind) :=
  folded.lookup (Text.toLower word)

/-- How a reserved word other than a type name is spelled. -/
def spelling? (kind : TokenKind) : Option String :=
  if kind = .typeName then none
  else (reserved.find? fun (_, k) => k = kind).map (·.1)

end TokenKind

structure Token where
  kind : TokenKind
  lexeme : String
  span : Span
  deriving DecidableEq, Repr, Inhabited

namespace Token

def line (t : Token) : Nat := t.span.line

/-- How a token is named in messages. -/
def describe (t : Token) : String :=
  match t.kind with
  | .endOfInput => "end of input"
  | .text => s!"\"{t.lexeme}\""
  | _ => s!"'{t.lexeme}'"

end Token

end Primer
