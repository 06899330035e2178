/-
Statements.

A statement starts with a word that says what it is and ends with its line.  Words
that were left out are put in and reported: a declaration without `Declare`, an
assignment without `Set`, a call without `Call`, a test without `Then`.  A missing test
is replaced by one that ends the loop or skips the branch.  A statement that makes no
sense is given up, and reading goes on with the next line.
-/
import Primer.Grammar.Block
import Primer.Grammar.Declaration

namespace Primer.Grammar

/-- No statement starts like this. -/
def unexpectedToken (token : Token) : Problem :=
  match token.kind with
  | .kwEnd => .strayEnd
  | .kwElse => .strayElse
  | .kwCase | .kwDefault => .strayCase token.lexeme
  | .kwLoop => .strayLoop
  | _ => .expectedStatement token.describe

/-! ### Assignment, output, input and calls -/

/-- An equals sign; a double one is reported and taken as a single one. -/
def assignmentOperator : Read Unit := do
  if ← accept .equal then pure ()
  else
    match ← acceptAny? [.equalEqual] with
    | some token => report .equalEqualInAssignment token.span
    | none =>
      let _ ← expect .equal .expectedAssignment

/-- Report a target that is a constant or no place at all. -/
def checkAssignable : Expr → Read Unit
  | .invalid _ => pure ()
  | .variableRef id name span => do
    if (← look fun r => r.variableAt id).isConstant then report (.changesConstant name) span
    else pure ()
  | .index base _ _ => checkAssignable base
  | .field .. => pure ()
  | other => report .notAssignable other.span

def setStatement : Read Stmt := do
  let keyword ← advance
  let place ← target
  assignmentOperator
  let value ← expression
  checkAssignable place
  endOfStatement
  pure (.assign place value (keyword.span.cover value.span))

def displayStatement : Read Stmt := do
  let keyword ← advance
  let items ← if ← onLine keyword.line then commaSeparated expression else pure []
  let last := (items.getLast?.map Expr.span).getD keyword.span
  endOfStatement
  pure (.display items (keyword.span.cover last))

def inputStatement : Read Stmt := do
  let keyword ← advance
  if ← onLine keyword.line then
    let place ← target
    checkAssignable place
    endOfStatement
    pure (.input place (keyword.span.cover place.span))
  else abandon .missingInputTarget (← look Reader.missingSpan)

/-- Whether the next token is a name that is not followed by what a call needs. -/
def Reader.bareName (r : Reader) : Bool :=
  let next := (r.peekAt 1).kind
  r.check .identifier && next ≠ .leftParen && next ≠ .dot && next ≠ .leftBracket

def callStatement : Read Stmt := do
  let keyword ← advance
  if ← look Reader.bareName then
    let name ← advance
    report (.callWithoutBrackets name.lexeme) name.span
    let call ← routineCall name [] name.span
    endOfStatement
    pure (.call call (keyword.span.cover name.span))
  else
    let call ← target
    if call.isCall then
      endOfStatement
      pure (.call call (keyword.span.cover call.span))
    else if call.isInvalid then throw ⟨⟩
    else abandon .expectedCall call.span

def missingDeclare : Read Stmt := do
  let token ← peek
  report .missingDeclare token.span
  declarationStatement .plain token.span

/-- A statement that starts with a name: an assignment or call without its first word. -/
def bareStatement : Read Stmt := do
  let first ← peek
  let place ← target
  match ← acceptAny? [.equal, .equalEqual] with
  | some _ =>
    report (.missingSet first.lexeme) first.span
    let value ← expression
    checkAssignable place
    endOfStatement
    pure (.assign place value (first.span.cover value.span))
  | none =>
    if place.isCall then
      report (.missingCall first.lexeme) first.span
      endOfStatement
      pure (.call place place.span)
    else if place.isInvalid then throw ⟨⟩
    else abandon (.bareExpression first.lexeme) place.span

/-! ### Branches -/

/-- Read a part of a test, where a single `=` compares. -/
def asTest (part : Read α) : Read α := do
  let outside ← get
  modify fun r => { r with inTest := true }
  let result ← part
  modify fun r => { r with inTest := outside.inTest }
  pure result

/--
The test after `keyword`, up to a token of `stops`.

A test that is missing or makes no sense is reported once and replaced by `fallback`.
-/
def test (keyword : Token) (stops : List TokenKind) (fallback : Bool) : Read Expr := do
  let r ← get
  if !r.onLine keyword.line || r.checkAny stops then
    report (.missingTest keyword.lexeme) r.missingSpan
    pure (.literal (.boolean fallback) r.missingSpan)
  else
    match ← asTest (attempt expression) with
    | some condition => pure condition
    | none =>
      let here ← peek
      skipWhile fun r => r.onLine keyword.line && !r.checkAny stops
      pure (.literal (.boolean fallback) here.span)

/-- The last word of a header, then the end of its line. -/
def lastWord (kind : TokenKind) (problem : Problem) : Read Unit := do
  if ← accept kind then pure () else reportMissing problem
  endOfStatement

/-- A test, `Then` and what is done when the test holds. -/
def branch (nested : Nested) (keyword : Token) : Read (Branch Stmt) := do
  let condition ← test keyword [.kwThen] false
  lastWord .kwThen .missingThen
  let body ← block nested
  pure { condition, body }

/-- The next `Else If` or `Else`, if there is one.  Branches come latest first. -/
def elseBranch (nested : Nested) (branches : List (Branch Stmt)) (otherwise : Option (Block Stmt)) :
    Read (Option (List (Branch Stmt) × Option (Block Stmt))) := do
  match ← acceptAny? [.kwElse] with
  | none => pure none
  | some elseToken =>
    let r ← get
    if r.check .kwIf && r.peek.line = elseToken.line then
      let ifToken ← advance
      let next ← branch nested ifToken
      if otherwise.isSome then
        report .elseIfAfterElse (elseToken.span.cover ifToken.span)
        pure (some (branches, otherwise))
      else pure (some (next :: branches, none))
    else
      endOfStatement
      let body ← block nested
      if otherwise.isSome then
        report .secondElse elseToken.span
        pure (some (branches, otherwise))
      else pure (some (branches, some body))

def ifStatement (nested : Nested) : Read Stmt := do
  let opener ← advance
  let condition ← test opener [.kwThen] false
  lastWord .kwThen .missingThen
  let (branches, otherwise) ← inBlock .choose do
    let body ← block nested
    let all ← iterate (fun (branches, otherwise) => elseBranch nested branches otherwise)
      ([{ condition, body }], none)
    expectEnd .choose opener
    pure all
  let last ← look Reader.previous
  pure (.choose branches.reverse otherwise (opener.span.cover last.span))

/-- A label of a case; one that makes no sense ends the labels, and what follows is skipped. -/
def label? (line : Nat) : Read (Option Expr) := do
  match ← attempt expression with
  | some found => pure (some found)
  | none =>
    skipWhile fun r => r.onLine line && !r.check .colon
    pure none

/-- A comma and the label after it, as long as all labels before made sense. -/
def nextLabel (line : Nat) : List Expr × Bool → Read (Option (List Expr × Bool))
  | (found, complete) => do
    if complete then
      if ← accept .comma then
        match ← label? line with
        | some next => pure (some (next :: found, true))
        | none => pure (some (found, false))
      else pure none
    else pure none

/-- The labels of a case, as far as they make sense. -/
def labels (line : Nat) : Read (List Expr) := do
  match ← label? line with
  | none => pure []
  | some first =>
    let (found, _) ← iterate (nextLabel line) ([first], true)
    pure found.reverse

/-- What stands between the word `Case` and the body. -/
def caseLabels (caseToken : Token) : Read (List Expr) := do
  let r ← get
  let found ←
    if !r.onLine caseToken.line || r.check .colon then do
      report .missingCaseValue r.missingSpan
      pure []
    else labels caseToken.line
  lastWord .colon .missingColon
  pure found

/-- The cases read so far, latest first, and what is done otherwise. -/
abbrev Cases := List (Case Stmt) × Option (Block Stmt)

/-- The next case of a `Select`, or a line that does not belong there. -/
def selectItem (nested : Nested) : Cases → Read (Option Cases)
  | (cases, otherwise) => do
    let r ← get
    let token := r.peek
    match token.kind with
    | .kwCase =>
      let caseToken ← advance
      let found ← caseLabels caseToken
      let body ← block nested
      let next : Case Stmt := { labels := found, body, span := caseToken.span.cover body.span }
      pure (some (next :: cases, otherwise))
    | .kwDefault =>
      let defaultToken ← advance
      lastWord .colon .missingColon
      let body ← block nested
      if otherwise.isSome then
        report .secondDefault defaultToken.span
        pure (some (cases, otherwise))
      else pure (some (cases, some body))
    | .kwEnd | .endOfInput => pure none
    | kind =>
      if r.closesOpenBlock kind then pure none
      else
        report (.expectedCase token.describe) token.span
        skipLine token.line
        pure (some (cases, otherwise))

/-- The value that a `Select` looks at. -/
def subject (opener : Token) : Read Expr := do
  if ← onLine opener.line then
    match ← attempt expression with
    | some value => pure value
    | none =>
      skipLine opener.line
      pure (.invalid opener.span)
  else
    let span ← look Reader.missingSpan
    report .missingSubject span
    pure (.invalid span)

def selectStatement (nested : Nested) : Read Stmt := do
  let opener ← advance
  let value ← subject opener
  endOfStatement
  let (cases, otherwise) ← inBlock .select do
    let all ← iterate (selectItem nested) ([], none)
    expectEnd .select opener
    pure all
  let last ← look Reader.previous
  pure (.select value cases.reverse otherwise (opener.span.cover last.span))

/-! ### Loops -/

/-- The body and the end of a loop that is closed by `End`. -/
def loopBody (nested : Nested) (kind : BlockKind) (opener : Token) : Read (Block Stmt) :=
  inLoop <| inBlock kind do
    let body ← block nested
    expectEnd kind opener
    pure body

def whileStatement (nested : Nested) : Read Stmt := do
  let opener ← advance
  let condition ← test opener [] false
  endOfStatement
  let body ← loopBody nested .whileLoop opener
  let last ← look Reader.previous
  pure (.whileLoop condition body (opener.span.cover last.span))

/-- Whether a loop goes on until its test holds, or while it does. -/
def loopWord : Read Bool := do
  if ← accept .kwUntil then pure true
  else if ← accept .kwWhile then pure false
  else
    reportMissing .expectedLoopTest
    pure false

/-- The test that ends a `Do`, and the result on which the loop is left. -/
def loopTest (opener : Token) : Read (Expr × Bool) := do
  match ← acceptAny? [.kwLoop] with
  | some loopToken =>
    let exit ← loopWord
    -- A missing test must end the loop.
    let condition ← test loopToken [] exit
    endOfStatement
    pure (condition, exit)
  | none =>
    report (.missingLoop opener.line) opener.span
    let r ← get
    if r.check .kwEnd && (r.peekAt 1).kind = .kwDo then
      let _ ← advance
      let _ ← advance
      endOfStatement
    pure (.literal (.boolean false) opener.span, false)

def doStatement (nested : Nested) : Read Stmt := do
  let opener ← advance
  endOfStatement
  let body ← inLoop (inBlock .doLoop (block nested))
  let (condition, exit) ← loopTest opener
  let last ← look Reader.previous
  pure (.doLoop body condition exit (opener.span.cover last.span))

/-- The first line of a counted loop. -/
structure ForHeader where
  counter : Expr
  start : Expr
  stop : Expr
  step : Option Expr

def forHeader : Read ForHeader := do
  let counter ← target
  checkAssignable counter
  assignmentOperator
  let start ← expression
  let _ ← expect .kwTo .expectedTo
  let stop ← expression
  let step ← if ← accept .kwStep then some <$> expression else pure none
  pure { counter, start, stop, step }

/-- The header that stands in for one that makes no sense: the loop runs no times. -/
def ForHeader.never (span : Span) : ForHeader :=
  { counter := .invalid span
    start := .literal (.integer 1) span
    stop := .literal (.integer 0) span
    step := none }

/-- A header, or what stands in for it. -/
def headerOr (header : Read α) (opener : Token) (fallback : α) : Read α := do
  match ← attempt header with
  | some found =>
    endOfStatement
    pure found
  | none =>
    skipLine opener.line
    pure fallback

def forEachHeader : Read (Expr × Expr) := do
  let item ← target
  checkAssignable item
  let _ ← expect .kwIn .expectedIn
  let array ← expression
  pure (item, array)

def forStatement (nested : Nested) : Read Stmt := do
  let opener ← advance
  if ← accept .kwEach then
    let (item, array) ←
      headerOr forEachHeader opener (.invalid opener.span, .invalid opener.span)
    let body ← loopBody nested .forLoop opener
    let last ← look Reader.previous
    pure (.forEach item array body (opener.span.cover last.span))
  else
    let header ← headerOr forHeader opener (ForHeader.never opener.span)
    let body ← loopBody nested .forLoop opener
    let last ← look Reader.previous
    pure (.forLoop header.counter header.start header.stop header.step body
      (opener.span.cover last.span))

/-! ### Jumps -/

/-- The kind of the routine that is being read. -/
def Reader.routineKind? (r : Reader) : Option RoutineKind :=
  r.layout.currentRoutine.map fun id => (r.routines.getD id default).kind

def returnStatement : Read Stmt := do
  let keyword ← advance
  let value ← if ← onLine keyword.line then some <$> expression else pure none
  let span := keyword.span.cover ((value.map Expr.span).getD keyword.span)
  let kept ← match ← look Reader.routineKind?, value with
    | none, _ => do
      report .returnOutsideRoutine keyword.span
      pure value
    | some .module, some _ => do
      report .moduleReturnsValue span
      pure none
    | some .function, none => do
      report .functionReturnsNothing keyword.span
      pure value
    | some _, _ => pure value
  endOfStatement
  pure (.returnWith kept span)

/-- `Break` or `Continue`. -/
def jumpStatement : Read Stmt := do
  let token ← advance
  if (← look Reader.loopDepth) = 0 then report (.jumpOutsideLoop token.lexeme) token.span
  endOfStatement
  pure (if token.kind = .kwBreak then .breakLoop token.span else .continueLoop token.span)

def stopStatement : Read Stmt := do
  let token ← advance
  endOfStatement
  pure (.stop token.span)

/-! ### Any statement -/

/-- Whether a class name and another name start the statement, as in a declaration. -/
def Reader.twoNames (r : Reader) : Bool :=
  (r.peekAt 1).kind = .identifier && (r.peekAt 1).line = r.peek.line

/-- A statement by its first word. -/
def statementOrAbandon (nested : Nested) : Read Stmt := do
  let r ← get
  match r.peek.kind with
  | .kwDeclare =>
    let keyword ← advance
    declarationStatement .plain keyword.span
  | .kwConstant =>
    let keyword ← advance
    declarationStatement .constant keyword.span
  | .typeName => missingDeclare
  | .kwSet => setStatement
  | .kwDisplay => displayStatement
  | .kwInput => inputStatement
  | .kwCall => callStatement
  | .kwIf => ifStatement nested
  | .kwSelect => selectStatement nested
  | .kwWhile => whileStatement nested
  | .kwDo => doStatement nested
  | .kwFor => forStatement nested
  | .kwReturn => returnStatement
  | .kwBreak | .kwContinue => jumpStatement
  | .kwStop => stopStatement
  | .identifier => if r.twoNames then missingDeclare else bareStatement
  | _ => abandon (unexpectedToken r.peek) r.peek.span

/-- A statement, or nothing and a skipped line when it makes no sense. -/
def statement (nested : Nested) : Read (Option Stmt) := do
  let first ← peek
  match ← attempt (statementOrAbandon nested) with
  | some found => pure (some found)
  | none =>
    skipLine first.line
    pure none

end Primer.Grammar
