/-
Reading a program from its tokens.

A reader stands at a token and never moves past the first token that marks the end of
the input.  Whatever it objects to is recorded and reading goes on: either the
intention is obvious and the tree is repaired, or the part at hand is abandoned and
whoever asked for it decides where to pick up again.

The loops of the grammar end because each turn takes a token; `iterate` gives them as
many turns as there are tokens left.
-/
import Primer.Grammar.Problem
import Primer.Program
import Primer.Symbol.Layout
import Primer.Token

namespace Primer.Grammar

/-- How a call that is checked at the end of reading finds what it calls. -/
inductive CallTarget where
  /-- By name, from inside a class or from outside of any. -/
  | routine (inside : Option ClassId)
  | constructor
  /-- A method of a variable of this class. -/
  | method (className : String)
  deriving DecidableEq, Repr, Inhabited

/-- A call whose target may be defined further on. -/
structure PendingCall where
  name : String
  target : CallTarget
  /-- For each argument, whether it names a place, and where it stands. -/
  args : List (Bool × Span)
  span : Span
  deriving DecidableEq, Repr, Inhabited

/-- Where the first token stands that marks the end of the input. -/
def endOf (tokens : Array Token) : Nat := tokens.findIdx fun token => token.kind = .endOfInput

structure Reader where
  tokens : Array Token
  /-- Some token marks the end. -/
  closed : endOf tokens < tokens.size
  cursor : Nat := 0
  /-- The cursor has not passed the first of them. -/
  notPast : cursor ≤ endOf tokens := by exact Nat.zero_le _
  /-- In the order in which they were found. -/
  problems : Array (Problem × Span) := #[]
  layout : Layout := {}
  routines : Array Routine := #[]
  classes : Array ClassDef := #[]
  routineIndex : NameIndex := {}
  classIndex : NameIndex := {}
  /-- The constructs around the cursor within the routine or class at hand, innermost first. -/
  openBlocks : List BlockKind := []
  loopDepth : Nat := 0
  /-- Inside a test, where a single `=` is read as a comparison. -/
  inTest : Bool := false
  pendingTypes : Array (String × Span) := #[]
  pendingCalls : Array PendingCall := #[]

namespace Reader

/-- The tokens with one at the end that marks the end, added if need be. -/
def closeTokens (tokens : Array Token) : Array Token :=
  let last := tokens.back?.getD ⟨.leftParen, "", Span.nowhere⟩
  if last.kind = .endOfInput then tokens
  else tokens.push ⟨.endOfInput, "", ⟨last.span.stop, last.span.stop, max last.span.line 1⟩⟩

theorem closed_closeTokens (tokens : Array Token) :
    endOf (closeTokens tokens) < (closeTokens tokens).size := by
  refine Array.findIdx_lt_size_of_exists ?_
  unfold closeTokens
  extract_lets last
  split
  · rename_i hlast
    cases hback : tokens.back? with
    | none => simp [last, hback] at hlast
    | some token => exact ⟨token, Array.mem_of_back? hback, by simpa [last, hback] using hlast⟩
  · exact ⟨_, Array.mem_push_self, by simp⟩

def ofTokens (tokens : List Token) : Reader :=
  { tokens := closeTokens tokens.toArray, closed := closed_closeTokens _ }

instance : Inhabited Reader := ⟨ofTokens []⟩

/-- The cursor is at a token. -/
theorem inside (r : Reader) : r.cursor < r.tokens.size := Nat.lt_of_le_of_lt r.notPast r.closed

def peek (r : Reader) : Token :=
  have := r.inside
  r.tokens[r.cursor]

/-- The token `distance` further on, or the last one. -/
def peekAt (r : Reader) (distance : Nat) : Token :=
  have := r.inside
  r.tokens[min (r.cursor + distance) (r.tokens.size - 1)]

/-- The token before the cursor, or the first one. -/
def previous (r : Reader) : Token :=
  have := r.inside
  r.tokens[r.cursor - 1]

def atEnd (r : Reader) : Bool := r.peek.kind = .endOfInput

/-- How many tokens are left, the last one counted. -/
def remaining (r : Reader) : Nat := r.tokens.size - r.cursor

/-- Whether the next token is of this kind; at the end there is no next token. -/
def check (r : Reader) (kind : TokenKind) : Bool := !r.atEnd && r.peek.kind = kind

def checkAny (r : Reader) (kinds : List TokenKind) : Bool := kinds.any r.check

/-- Whether the next token stands on this line. -/
def onLine (r : Reader) (line : Nat) : Bool := !r.atEnd && r.peek.line = line

/-- Just after the last token read, for what is missing rather than wrong. -/
def missingSpan (r : Reader) : Span :=
  if r.cursor = 0 then r.peek.span
  else ⟨r.previous.span.stop, r.previous.span.stop + 1, r.previous.line⟩

/-- Where to point when the next token is not the expected one. -/
def errorSpan (r : Reader) : Span :=
  if r.atEnd || (0 < r.cursor && r.peek.line ≠ r.previous.line) then r.missingSpan
  else r.peek.span

theorem atEnd_iff (r : Reader) : r.atEnd ↔ r.cursor = endOf r.tokens := by
  unfold atEnd peek
  constructor
  · intro hkind
    refine Nat.le_antisymm r.notPast (Nat.le_of_not_lt fun hlt => ?_)
    have hbefore := Array.not_of_lt_findIdx hlt
    simp_all
  · intro hcursor
    simp only [hcursor]
    exact Array.findIdx_getElem (w := r.closed)

theorem succ_cursor_le (r : Reader) (h : ¬ r.atEnd) : r.cursor + 1 ≤ endOf r.tokens :=
  Nat.lt_of_le_of_ne r.notPast fun hcursor => h (r.atEnd_iff.mpr hcursor)

/-- Go one token on, but not past the end. -/
def step (r : Reader) : Reader :=
  if h : r.atEnd then r
  else { r with cursor := r.cursor + 1, notPast := r.succ_cursor_le h }

/-- The variable with this number. -/
def variableAt (r : Reader) (id : VarId) : Variable := r.layout.table.variableAt id

end Reader

/-- The part at hand cannot be read; the reason is already recorded. -/
structure Abandoned where
  deriving Repr, Inhabited

/-- A step of reading: it moves a reader and gives a result, or abandons its part. -/
abbrev Read (α : Type) := EStateM Abandoned Reader α

/-- What a property of the reader is just now. -/
def look (f : Reader → α) : Read α := fun r => .ok (f r) r

def peek : Read Token := look Reader.peek

def check (kind : TokenKind) : Read Bool := look fun r => r.check kind

def onLine (line : Nat) : Read Bool := look fun r => r.onLine line

/-- Take the next token.  At the end this gives the one before. -/
def advance : Read Token := fun r => .ok r.step.previous r.step

/-- Take the next token if it is of this kind. -/
def accept (kind : TokenKind) : Read Bool := fun r =>
  if r.check kind then .ok true r.step else .ok false r

/-- Take the next token if it is of one of these kinds. -/
def acceptAny? (kinds : List TokenKind) : Read (Option Token) := fun r =>
  if r.checkAny kinds then .ok (some r.peek) r.step else .ok none r

def report (problem : Problem) (span : Span) : Read Unit :=
  modify fun r => { r with problems := r.problems.push (problem, span) }

/-- Record a problem and give the part at hand up. -/
def abandon (problem : Problem) (span : Span) : Read α := do
  report problem span
  throw ⟨⟩

/-- Record a problem just after the last token read. -/
def reportMissing (problem : Problem) : Read Unit := do
  report problem (← look Reader.missingSpan)

/-- Take a token of this kind, or give the part at hand up. -/
def expect (kind : TokenKind) (problem : Problem) : Read Token := do
  if ← check kind then advance
  else abandon problem (← look Reader.errorSpan)

/-- Read a part that may be given up. -/
def attempt (part : Read α) : Read (Option α) := fun r =>
  match part r with
  | .ok a r => .ok (some a) r
  | .error _ r => .ok none r

/-! ### Loops

A turn of a loop says what it has made so far, or that the loop is over.
-/

/-- At most `turns` turns. -/
def iterateFor (turn : α → Read (Option α)) : Nat → α → Read α
  | 0, a => pure a
  | turns + 1, a => do
    match ← turn a with
    | some b => iterateFor turn turns b
    | none => pure a

/-- Take turns until one says that the loop is over. -/
def iterate (turn : α → Read (Option α)) (start : α) : Read α := fun r =>
  iterateFor turn r.remaining start r

/-- Skip a token if `more` holds. -/
def skipIf (more : Reader → Bool) : Unit → Read (Option Unit)
  | () => do
    if ← look more then
      let _ ← advance
      pure (some ())
    else pure none

/-- Skip tokens as long as `more` holds. -/
def skipWhile (more : Reader → Bool) : Read Unit := iterate (skipIf more) ()

/-- Skip what is left of a line, and of the lines before it. -/
def skipLine (line : Nat) : Read Unit :=
  skipWhile fun r => !r.atEnd && r.peek.line ≤ line

/-- A comma and the item after it, put in front of those before. -/
def nextItem (item : Read α) (items : List α) : Read (Option (List α)) := do
  if ← accept .comma then
    let next ← item
    pure (some (next :: items))
  else pure none

/-- One or more items with commas between them. -/
def commaSeparated (item : Read α) : Read (List α) := do
  let first ← item
  let items ← iterate (nextItem item) [first]
  pure items.reverse

/-! ### Ends of statements and constructs -/

/-- Report and skip whatever is left on the line of the token taken last. -/
def endOfStatement : Read Unit := do
  let r ← get
  if r.cursor = 0 || r.atEnd then pure ()
  else if r.peek.line = r.previous.line then
    report (.extraTokens r.peek.describe) r.peek.span
    skipLine r.previous.line
  else pure ()

/-- The word after `End` that closes a construct; a `Do` is closed by `Loop`. -/
def BlockKind.endWord? : BlockKind → Option TokenKind
  | choose => some .kwIf
  | select => some .kwSelect
  | whileLoop => some .kwWhile
  | doLoop => none
  | forLoop => some .kwFor
  | module => some .kwModule
  | function => some .kwFunction
  | classBody => some .kwClass

/-- Tokens other than `End` that finish a body of a construct. -/
def BlockKind.terminators : BlockKind → List TokenKind
  | choose => [.kwElse]
  | select => [.kwCase, .kwDefault]
  | doLoop => [.kwLoop]
  | _ => []

/-- Whether a token of this kind finishes a body of some construct around the cursor. -/
def Reader.closesOpenBlock (r : Reader) (kind : TokenKind) : Bool :=
  r.openBlocks.any fun block => block.terminators.contains kind

/-- The `End` at the cursor, whether its word is on the same line, and that word. -/
def Reader.closer (r : Reader) : Token × Bool × Token :=
  let next := r.peekAt 1
  (r.peek, next.kind ≠ .endOfInput && next.line = r.peek.line, next)

/--
Take the `End` of a construct that `opener` opened.

An `End` that belongs to a construct further out is left for it; any other wrong `End`
is taken as this one.
-/
def expectEnd (kind : BlockKind) (opener : Token) : Read Unit := do
  match kind.endWord? with
  | none => pure ()
  | some word =>
    let r ← get
    if !r.check .kwEnd then report (.missingEnd kind opener.line) opener.span
    else
      let (close, sameLine, next) := r.closer
      if sameLine && next.kind = word then
        let _ ← advance
        let _ ← advance
        endOfStatement
      else if sameLine && r.openBlocks.tail.any fun outer => outer.endWord? = some next.kind then
        report (.missingEndBefore kind opener.line) close.span
      else if sameLine then
        report (.wrongEnd kind opener.line s!"End {next.lexeme}") (close.span.cover next.span)
        let _ ← advance
        let _ ← advance
        endOfStatement
      else
        report (.wrongEnd kind opener.line "End") close.span
        let _ ← advance
        endOfStatement

end Primer.Grammar
