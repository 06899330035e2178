/-
Whole programs, and readers that insist.

Reading a program never fails: a statement that makes no sense is reported and left out.  Beside the
reader that does so stands one that insists on every statement, at whatever depth, and gives up for good
where the other goes on.  Unless an error is reported, the two read the same program.
-/
import Primer.Proofs.Account.Definition
import Primer.Proofs.Progress.Program

namespace Primer.Grammar

variable {tokens : Array Token}

/-- Statements and definitions up to `n` deep, where a statement that makes no sense is not skipped:
reading is given up for good. -/
def Nested.strict : Nat → Nested
  | 0 => { statement := throw ⟨⟩, routine := pure (), classDef := pure () }
  | n + 1 =>
    { statement := fun r => (some <$> statementOrAbandon (Nested.strict n)) r
      routine := fun r => routineDefinition (Nested.strict n) r
      classDef := fun r => classDefinition (Nested.strict n) r }

theorem Nested.accounts_level (tokens : Array Token) (n : Nat) :
    (Nested.strict n).Accounts tokens (Nested.level n) := by
  induction n with
  | zero =>
    refine ⟨fun _ _ => .apart ?_, fun _ _ => .done, fun _ _ => .done⟩
    exact peek_gives.known fun _ htoken =>
      (report_gives (.token htoken) (unexpectedToken_isError _)).bind fun _ => .pure fun _ h => ⟨h.1, h.1⟩
  | succ n ih =>
    exact ⟨fun _ _ => statement_accounts ih, fun _ _ => routineDefinition_accounts ih,
      fun _ _ => classDefinition_accounts ih⟩

/-- The next statement or definition of a program, with `nested` for how to read it. -/
def itemWith (nested : Nested) (statements : List Stmt) : Read (Option (List Stmt)) := do
  let r ← get
  if r.atEnd then pure none
  else
    match r.peek.kind with
    | .kwModule | .kwFunction =>
      nested.routine
      pure (some statements)
    | .kwClass =>
      nested.classDef
      pure (some statements)
    | .kwPublic | .kwPrivate =>
      let token ← advance
      report (.modifierOutsideClass token.lexeme) token.span
      pure (some statements)
    | _ =>
      match ← nested.statement with
      | some found => pure (some (found :: statements))
      | none => pure (some statements)

/-- Insisting on every statement, however deep it stands. -/
def Nested.insistent : Nested where
  statement := fun r => (some <$> statementOrAbandon (Nested.strict r.remaining)) r
  routine := fun r => routineDefinition (Nested.strict r.remaining) r
  classDef := fun r => classDefinition (Nested.strict r.remaining) r

/-- All statements of a program, where every one of them has to make sense. -/
def insistentStatements : Read (List Stmt) := List.reverse <$> iterate (itemWith Nested.insistent) []

theorem Nested.accounts_whole (tokens : Array Token) : Nested.insistent.Accounts tokens Nested.whole where
  statement := fun _ _ => .choose (fun r => some <$> statementOrAbandon (Nested.strict r.remaining))
    (fun r => Grammar.statement (Nested.level r.remaining)) (fun _ => rfl) (fun _ => rfl) fun r _ =>
      statement_accounts (Nested.accounts_level tokens r.remaining)
  routine := fun _ _ => .choose (fun r => routineDefinition (Nested.strict r.remaining))
    (fun r => routineDefinition (Nested.level r.remaining)) (fun _ => rfl) (fun _ => rfl) fun r _ =>
      routineDefinition_accounts (Nested.accounts_level tokens r.remaining)
  classDef := fun _ _ => .choose (fun r => classDefinition (Nested.strict r.remaining))
    (fun r => classDefinition (Nested.level r.remaining)) (fun _ => rfl) (fun _ => rfl) fun r _ =>
      classDefinition_accounts (Nested.accounts_level tokens r.remaining)

theorem itemWith_accounts {strict nested : Nested} (hn : strict.Accounts tokens nested) {fails : Prop}
    {old : Prop → Prop} {statements : List Stmt}
    (h : ∀ flawed, old flawed → GroundedStatements tokens flawed statements) :
    Accounts .anyhow tokens fails old (itemWith strict statements) (itemWith nested statements)
      fun flawed next => next.elim True (GroundedStatements tokens flawed) := by
  refine get_gives.known fun r _ => ?_
  split
  · exact .pure fun _ _ => trivial
  · split
    · exact (hn.routine _ _).known fun _ _ => .pure h
    · exact (hn.routine _ _).known fun _ _ => .pure h
    · exact (hn.classDef _ _).known fun _ _ => .pure h
    · exact advance_gives.known fun _ htoken => (remark_gives (.token htoken)).known fun _ _ => .pure h
    · exact advance_gives.known fun _ htoken => (remark_gives (.token htoken)).known fun _ _ => .pure h
    · refine (hn.statement _ _).bind fun found => ?_
      split
      · exact .pure fun flawed hold => .cons hold.1 (h flawed hold.2)
      · exact .pure fun flawed hold => h flawed hold.2

theorem programStatements_accounts :
    Accounts .anyhow tokens False Nothing insistentStatements programStatements
      (GroundedStatements tokens) := by
  refine Accounts.map (Q := GroundedStatements tokens) (.iterate ?_ fun statements => ?_) ?_
  · exact fun _ _ => by simp [GroundedStatements]
  · exact itemWith_accounts (Nested.accounts_whole tokens) fun _ h => h.1
  · exact fun flawed statements h s hs => h s (List.mem_reverse.mp hs)

/-- What has been read when a program has come to its end. -/
theorem programStatements_grounded (tokens : List Token) :
    ∃ statements r, programStatements (Reader.ofTokens tokens) = .ok statements r ∧
      (insistentStatements (Reader.ofTokens tokens) = .ok statements r ∨ 0 < r.errors) ∧
      ∀ flawed : Prop, (0 < r.errors → flawed) →
        r.Grounded (Reader.ofTokens tokens).tokens flawed ∧
          GroundedStatements (Reader.ofTokens tokens).tokens flawed statements := by
  have hrun := programStatements_accounts 0 (Reader.ofTokens tokens) rfl (Nat.zero_le _)
    fun _ _ => trivial
  unfold Yields at hrun
  cases hread : programStatements (Reader.ofTokens tokens) with
  | error _ r =>
    rw [hread] at hrun
    exact hrun.2.1.elim
  | ok statements r =>
    rw [hread] at hrun
    obtain ⟨hsame, htraced, hgrounded⟩ := hrun
    refine ⟨statements, r, rfl, hsame, fun flawed hflawed => ⟨?_, hgrounded flawed hflawed⟩⟩
    refine htraced.record flawed hflawed ⟨?_, ?_, ?_, ?_, ?_, ?_⟩
    all_goals intro _ h; simp [Reader.ofTokens] at h

end Primer.Grammar

namespace Primer

open Grammar

/-- A program and what is wrong with it, once it has been read. -/
theorem Program.ofTokens_eq {tokens : List Token} {statements : List Stmt} {r : Reader}
    (hread : programStatements (Reader.ofTokens tokens) = .ok statements r) :
    Program.ofTokens tokens = (Program.ofReader statements r, Diagnostic.inSourceOrder
      ((r.problems.toList ++ r.unresolved).map fun found => found.1.wording.at found.2)) := by
  unfold Program.ofTokens readFrom
  rw [hread]

theorem Program.ofSource_eq (source : String) :
    Program.ofSource source = ((Program.ofTokens (scan source).1).1,
      Diagnostic.inSourceOrder ((scan source).2 ++ (Program.ofTokens (scan source).1).2)) := rfl

end Primer
