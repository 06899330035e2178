/-
Blocks: rows of statements up to the line that closes them.

A block opens a scope.  It ends at an `End`, and also at a word that finishes a body of
any construct around it, so that a forgotten `End` does not swallow the rest of the
program.  Routines and classes met on the way are read where they stand.
-/
import Primer.Grammar.Reader

namespace Primer.Grammar

/-- How to read what a block holds. -/
structure Nested where
  /-- A statement; none when it had to be given up. -/
  statement : Read (Option Stmt)
  routine : Read Unit
  classDef : Read Unit

def modifyLayout (f : Layout → Layout) : Read Unit :=
  modify fun r => { r with layout := f r.layout }

/-- One statement or definition of a block, whose statements so far are `statements`, latest
first. -/
def blockItem (nested : Nested) (statements : List Stmt) : Read (Option (List Stmt)) := do
  let r ← get
  let kind := r.peek.kind
  if r.atEnd || kind = .kwEnd || r.closesOpenBlock kind then pure none
  else
    match kind with
    | .kwModule | .kwFunction =>
      nested.routine
      pure (some statements)
    | .kwClass =>
      nested.classDef
      pure (some statements)
    | _ =>
      match ← nested.statement with
      | some statement => pure (some (statement :: statements))
      | none => pure (some statements)

def block (nested : Nested) : Read (Block Stmt) := do
  let start ← peek
  modifyLayout Layout.pushScope
  let statements ← iterate (blockItem nested) []
  modifyLayout Layout.popScope
  let last := (statements.head?.map Stmt.span).getD start.span
  pure { statements := statements.reverse, span := start.span.cover last }

/-- Read the bodies and the end of a construct with the construct open around them. -/
def inBlock (kind : BlockKind) (part : Read α) : Read α := do
  modify fun r => { r with openBlocks := kind :: r.openBlocks }
  let result ← part
  modify fun r => { r with openBlocks := r.openBlocks.tail }
  pure result

/-- Read a part of a loop, where `Break` and `Continue` have a meaning. -/
def inLoop (part : Read α) : Read α := do
  modify fun r => { r with loopDepth := r.loopDepth + 1 }
  let result ← part
  modify fun r => { r with loopDepth := r.loopDepth - 1 }
  pure result

/-- Read a body that the constructs and loops around it do not reach into. -/
def inFreshBlock (kind : BlockKind) (part : Read α) : Read α := do
  let outside ← get
  modify fun r => { r with openBlocks := [kind], loopDepth := 0 }
  let result ← part
  modify fun r => { r with openBlocks := outside.openBlocks, loopDepth := outside.loopDepth }
  pure result

end Primer.Grammar
