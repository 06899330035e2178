/-
Whole programs.

Statements hold statements, and routines and classes can stand wherever a statement
can.  As with expressions, `level n` can go `n` constructs deep, and each of them takes
its first word before it goes deeper.

Reading always gives a program, whatever the tokens are.  Only a program without errors
is meant to be run.
-/
import Primer.Grammar.Class
import Primer.Grammar.Resolution
import Primer.Grammar.Statement
import Primer.Token.Scan

namespace Primer.Grammar

/-- Nothing is left to read. -/
def nothingLeft : Read (Option Stmt) := do
  let token ← peek
  report (unexpectedToken token) token.span
  pure none

/-- Statements and definitions that hold others up to `n` deep. -/
def Nested.level : Nat → Nested
  | 0 => { statement := nothingLeft, routine := pure (), classDef := pure () }
  | n + 1 =>
    { statement := fun r => Grammar.statement (Nested.level n) r
      routine := fun r => routineDefinition (Nested.level n) r
      classDef := fun r => classDefinition (Nested.level n) r }

/-- Read with as many levels as there can be. -/
def atAnyDepth (part : Nested → Read α) : Read α := fun r => part (Nested.level r.remaining) r

/-- The next statement or definition of a program, whose statements so far are `statements`,
latest first. -/
def programItem (statements : List Stmt) : Read (Option (List Stmt)) := do
  let r ← get
  if r.atEnd then pure none
  else
    match r.peek.kind with
    | .kwModule | .kwFunction =>
      atAnyDepth routineDefinition
      pure (some statements)
    | .kwClass =>
      atAnyDepth classDefinition
      pure (some statements)
    | .kwPublic | .kwPrivate =>
      let token ← advance
      report (.modifierOutsideClass token.lexeme) token.span
      pure (some statements)
    | _ =>
      match ← atAnyDepth statement with
      | some found => pure (some (found :: statements))
      | none => pure (some statements)

/-- All statements of a program. -/
def programStatements : Read (List Stmt) := List.reverse <$> iterate programItem []

/-- Run a step of reading that does not give up. -/
def readFrom (part : Read (List α)) (r : Reader) : List α × Reader :=
  match part r with
  | .ok result r => (result, r)
  | .error _ r => ([], r)

end Primer.Grammar

namespace Primer

open Grammar

/-- The program that a reader has read. -/
def Program.ofReader (statements : List Stmt) (r : Reader) : Program where
  statements
  routines := r.routines
  classes := r.classes
  symbols := r.layout.table
  routineIndex := r.routineIndex
  classIndex := r.classIndex

/-- The program in a list of tokens, and what is wrong with it, in source order. -/
def Program.ofTokens (tokens : List Token) : Program × List Diagnostic :=
  let (statements, r) := readFrom programStatements (Reader.ofTokens tokens)
  let problems := r.problems.toList ++ r.unresolved
  (Program.ofReader statements r,
    Diagnostic.inSourceOrder (problems.map fun (p, span) => p.wording.at span))

/-- The program in a source text, and what is wrong with the text and the program. -/
def Program.ofSource (source : String) : Program × List Diagnostic :=
  let (tokens, lexical) := scan source
  let (program, found) := Program.ofTokens tokens
  (program, Diagnostic.inSourceOrder (lexical ++ found))

end Primer
