/-
From a source text to its tokens.

The scanner looks at the head of the remaining text and cuts off one piece: a gap,
a mark, a quoted literal, a number, a word, or a character that means nothing.
`Piece.atHead` says which piece it is and how long, without any memory.  `Scan`
then decides what the piece contributes, and this is where the memory is: a word
that spells a reserved word in the wrong case is repaired, unless it stands where a
declaration puts a name, in which case the rest of the text may use it as a name.

Scanning never fails.  Every piece is at least one character long, so the text runs
out.
-/
import Primer.Diagnostic
import Primer.Text.Letter
import Primer.Token

namespace Primer

/-- What the scanner objects to. -/
inductive LexicalProblem where
  | unexpectedCharacter (c : Char)
  | unterminatedText
  | unterminatedCharacter
  | wrongCharacterCount (content : String)
  | wrongCase (found proper : String)
  deriving DecidableEq, Repr, Inhabited

namespace LexicalProblem

def wording : LexicalProblem → Wording
  | unexpectedCharacter c =>
    { kind := .lexical, message := s!"Unexpected character: '{c}'" }
  | unterminatedText =>
    { kind := .lexical
      message := "Unterminated string"
      help := some "Close the string with '\"' before the end of the line." }
  | unterminatedCharacter =>
    { kind := .lexical, message := "Unterminated character literal" }
  | wrongCharacterCount content =>
    { kind := .lexical
      message := s!"Character literal must hold exactly one character, found '{content}'"
      help := some "Use double quotes for text: \"...\"" }
  | wrongCase found proper =>
    { kind := .syntactic
      message := s!"Reserved word '{found}' must be written '{proper}'"
      help := some proper }

end LexicalProblem

/-- What stands at the head of a text. -/
inductive Piece where
  /-- A blank or a comment. -/
  | gap
  | newline
  | mark (kind : TokenKind)
  /-- What a pair of double quotes holds, and whether the second one is there. -/
  | text (content : List Char) (closed : Bool)
  /-- The same for single quotes. -/
  | character (content : List Char) (closed : Bool)
  | number (kind : TokenKind)
  | word
  | stray (c : Char)
  deriving DecidableEq, Repr

namespace Piece

/-- A mark of one character, or of two when `second` follows. -/
def markPair (second : Char) (two one : TokenKind) (rest : List Char) : Piece × Nat :=
  if rest.head? = some second then (.mark two, 1) else (.mark one, 0)

/-- The content of a quoted literal whose opening quote was just read. -/
def quoted (quote : Char) (rest : List Char) : List Char × Bool :=
  let content := rest.takeWhile fun c => c != quote && c != '\n'
  (content, (rest.drop content.length).head? = some quote)

/-- How many characters a quoted literal takes after its opening quote. -/
def quotedLength : List Char × Bool → Nat
  | (content, closed) => content.length + if closed then 1 else 0

/-- A number after its first digit.  A point belongs to it only before a digit. -/
def numeral (rest : List Char) : Piece × Nat :=
  let whole := rest.takeWhile Text.isDigit
  match rest.drop whole.length with
  | '.' :: d :: more =>
    if Text.isDigit d then
      let fraction := (d :: more).takeWhile Text.isDigit
      (.number .real, whole.length + 1 + fraction.length)
    else (.number .integer, whole.length)
  | _ => (.number .integer, whole.length)

/-- The piece that starts with `c`, and how many characters of `rest` belong to it. -/
def atHead (c : Char) (rest : List Char) : Piece × Nat :=
  match c with
  | '(' => (.mark .leftParen, 0)
  | ')' => (.mark .rightParen, 0)
  | '[' => (.mark .leftBracket, 0)
  | ']' => (.mark .rightBracket, 0)
  | ',' => (.mark .comma, 0)
  | ':' => (.mark .colon, 0)
  | '.' => (.mark .dot, 0)
  | '-' => (.mark .minus, 0)
  | '+' => (.mark .plus, 0)
  | '*' => (.mark .star, 0)
  | '^' => (.mark .caret, 0)
  | '!' => if rest.head? = some '=' then (.mark .notEqual, 1) else (.stray '!', 0)
  | '=' => markPair '=' .equalEqual .equal rest
  | '<' =>
    if rest.head? = some '=' then (.mark .lessEqual, 1)
    else if rest.head? = some '>' then (.mark .notEqual, 1)
    else (.mark .less, 0)
  | '>' => markPair '=' .greaterEqual .greater rest
  | '/' =>
    if rest.head? = some '/' then (.gap, (rest.takeWhile (· != '\n')).length)
    else (.mark .slash, 0)
  | ' ' | '\r' | '\t' => (.gap, 0)
  | '\n' => (.newline, 0)
  | '"' =>
    let found := quoted '"' rest
    (.text found.1 found.2, quotedLength found)
  | '\'' =>
    let found := quoted '\'' rest
    (.character found.1 found.2, quotedLength found)
  | _ =>
    if Text.isDigit c then numeral rest
    else if Text.startsName c then (.word, (rest.takeWhile Text.continuesName).length)
    else (.stray c, 0)

end Piece

/-- What the scanner remembers while it works through a text. -/
structure Scan where
  /-- How many characters are behind. -/
  position : Nat := 0
  line : Nat := 1
  /-- The tokens so far, latest first. -/
  tokens : List Token := []
  /-- The problems so far, latest first. -/
  problems : List (LexicalProblem × Span) := []
  /-- Words that spell a reserved word in another case and were declared as names. -/
  declared : List String := []

namespace Scan

/-- The span of the next `length` characters. -/
def span (s : Scan) (length : Nat) : Span := ⟨s.position, s.position + length, s.line⟩

/-- Whether the line at hand opens a routine, so that names in its brackets are parameters. -/
def onRoutineHeader (s : Scan) : Bool :=
  (s.tokens.takeWhile fun t => t.line = s.line).any fun t =>
    t.kind = .kwModule || t.kind = .kwFunction

/--
Whether the next word stands where a declaration puts its name: after a type, `Ref`,
`Module`, `Function` or `Class`, or after a class name that opens a declaration or a
parameter.
-/
def atDeclaredName (s : Scan) : Bool :=
  match s.tokens with
  | [] => false
  | last :: earlier =>
    if last.line ≠ s.line then false
    else match last.kind with
      | .typeName | .kwRef | .kwModule | .kwFunction | .kwClass => true
      | .identifier =>
        match earlier.head?.map Token.kind with
        | some .kwDeclare | some .kwConstant | some .kwPublic | some .kwPrivate => true
        | some .leftParen | some .comma => s.onRoutineHeader
        | _ => false
      | _ => false

/-- Add a token over the next `length` characters. -/
def emit (s : Scan) (kind : TokenKind) (lexeme : String) (length : Nat) : Scan :=
  { s with tokens := ⟨kind, lexeme, s.span length⟩ :: s.tokens }

/-- Record a problem with the next `length` characters. -/
def report (s : Scan) (problem : LexicalProblem) (length : Nat) : Scan :=
  { s with problems := (problem, s.span length) :: s.problems }

/-- Decide what a word is. -/
def word (s : Scan) (lexeme : String) (length : Nat) : Scan :=
  match TokenKind.ofWord? lexeme with
  | some kind => s.emit kind lexeme length
  | none =>
    if s.declared.contains lexeme then s.emit .identifier lexeme length
    else match TokenKind.ofWordIgnoringCase? lexeme with
      | none => s.emit .identifier lexeme length
      | some (proper, kind) =>
        if s.atDeclaredName then
          { s.emit .identifier lexeme length with declared := lexeme :: s.declared }
        else (s.report (.wrongCase lexeme proper) length).emit kind proper length

/-- Take in one piece, whose characters are `taken`. -/
def take (s : Scan) (piece : Piece) (taken : List Char) : Scan :=
  let length := taken.length
  let lexeme := String.ofList taken
  let seen := match piece with
    | .gap => s
    | .newline => { s with line := s.line + 1 }
    | .mark kind | .number kind => s.emit kind lexeme length
    | .text content closed =>
      let s := if closed then s else s.report .unterminatedText length
      s.emit .text (String.ofList content) length
    | .character content closed =>
      let s :=
        if !closed then s.report .unterminatedCharacter length
        else if content.length ≠ 1 then
          s.report (.wrongCharacterCount (String.ofList content)) length
        else s
      s.emit .character (String.singleton (content.head?.getD ' ')) length
    | .word => s.word lexeme length
    | .stray c => s.report (.unexpectedCharacter c) length
  { seen with position := s.position + length }

/-- Work through the rest of a text. -/
def run (s : Scan) : List Char → Scan
  | [] => s
  | c :: rest =>
    let (piece, more) := Piece.atHead c rest
    run (s.take piece (c :: rest.take more)) (rest.drop more)
termination_by cs => cs.length
decreasing_by rw [List.length_drop, List.length_cons]; omega

/-- Close the list of tokens. -/
def finish (s : Scan) : Scan := s.emit .endOfInput "" 0

end Scan

/-- The tokens of a text, the last one marking its end, and what is wrong with the text. -/
def scan (source : String) : List Token × List Diagnostic :=
  let done := (Scan.run {} source.toList).finish
  (done.tokens.reverse, done.problems.reverse.map fun (p, span) => p.wording.at span)

end Primer
