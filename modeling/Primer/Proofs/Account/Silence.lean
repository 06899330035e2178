/-
Nothing is dropped without a word.

What makes no sense in a program is reported and left out, or something stands in for it.  So a program
is worth running only if everything that was left out or made up was reported.  There are two sides to
this.  Each part of the grammar that gives up, or gives something with a hole in it, has reported an
error while it was read; and each part that goes on without something does the same as a part that
insists on it, unless an error was reported.

For a whole program it follows that, if nothing in it is reported as an error, no expression of it
stands for one that could not be read, and a reader that insists on every statement reads the same
program.
-/
import Primer.Proofs.Account.Program

namespace Primer

/-! ### Trees without holes -/

/-- No part of the expression stands for one that could not be read. -/
def Expr.Whole (e : Expr) : Prop := e.Each fun e => e.isInvalid = false

def Initializer.Whole (init : Initializer) : Prop := init.Each fun e => e.isInvalid = false

def Declaration.Whole (d : Declaration) : Prop := d.Each (fun e => e.isInvalid = false) fun _ => True

def Stmt.Whole (s : Stmt) : Prop := s.Each (fun e => e.isInvalid = false) fun _ => True

def Block.Whole (body : Block Stmt) : Prop :=
  Stmt.EachBlock (fun e => e.isInvalid = false) (fun _ => True) body

/-- No expression of a program stands for one that could not be read. -/
structure Program.Whole (p : Program) : Prop where
  statements : ∀ s ∈ p.statements, s.Whole
  routines : ∀ routine ∈ p.routines, routine.body.Whole
  fieldDeclarations : ∀ c ∈ p.classes, ∀ d ∈ c.fieldDeclarations, d.Whole

namespace Grammar

variable {tokens : Array Token}

theorem GroundedNode.sound {e : Expr} (h : GroundedNode tokens False e) : e.isInvalid = false := by
  cases hinvalid : e.isInvalid with
  | false => rfl
  | true => exact (h.invalid hinvalid).elim

theorem Grounded.whole {e : Expr} (h : Grounded tokens False e) : e.Whole :=
  h.mono fun _ => GroundedNode.sound

theorem GroundedInitializer.whole {init : Initializer} (h : GroundedInitializer tokens False init) :
    init.Whole :=
  fun e he => Grounded.whole (h e he)

theorem GroundedDeclaration.whole {d : Declaration} (h : GroundedDeclaration tokens False d) : d.Whole :=
  Declaration.Each.mono (fun _ => GroundedNode.sound) (fun _ _ => trivial) h

theorem GroundedStatement.whole {s : Stmt} (h : GroundedStatement tokens False s) : s.Whole :=
  Stmt.Each.mono (fun _ => GroundedNode.sound) (fun _ _ => trivial) s h

theorem GroundedBlock.whole {body : Block Stmt} (h : GroundedBlock tokens False body) : body.Whole :=
  Stmt.EachBlock.mono (fun _ => GroundedNode.sound) (fun _ _ => trivial) body h

/-! ### Each part by itself -/

namespace Reader

/-- Read from here, the part reports an error if it gives up, or gives something with a hole in it. -/
def Objects (r : Reader) (part : Read α) (whole : α → Prop) : Prop :=
  Yields part r (fun a r' => whole a ∨ r.errors < r'.errors) (fun r' => r.errors < r'.errors)

/-- Read from here, the part never gives up, and it does what one that insists does, unless an error
is reported. -/
def Heeds (r : Reader) (insistent part : Read α) : Prop :=
  Yields part r (fun a r' => insistent r = .ok a r' ∨ r.errors < r'.errors) (fun _ => False)

end Reader

section Parts

variable {α : Type} {K : Course} {x y : Read α} {Q : Prop → α → Prop} {r : Reader}

/-- What is asked of a part without a flaw holds unless an error is reported. -/
theorem Accounts.objects (h : Accounts K r.tokens True Nothing x y Q) : r.Objects y (Q False) := by
  refine (h r.errors r rfl (Nat.le_refl _) fun _ _ => trivial).mono ?_ fun _ he => he.2.2
  rintro a r' ⟨-, -, ha⟩
  by_cases hlt : r.errors < r'.errors
  · exact Or.inr hlt
  · exact Or.inl (ha False hlt)

theorem Accounts.heeds (h : Accounts K r.tokens False Nothing x y Q) : r.Heeds x y :=
  (h r.errors r rfl (Nat.le_refl _) fun _ _ => trivial).mono (fun _ _ ha => ha.1) fun _ he => he.2.1

theorem Reader.Objects.mono {whole whole' : α → Prop} (h : r.Objects x whole)
    (hw : ∀ a, whole a → whole' a) : r.Objects x whole' :=
  Yields.mono h (fun a _ ha => ha.imp_left (hw a)) fun _ he => he

end Parts

/-- The parts that read an expression, where expressions inside of it go up to `n` deep. -/
def expressionParts (n : Nat) : List (Read Expr) :=
  [primary, newObject, suffixed, power, unary, multiplicative, additive, comparison, negation,
    conjunction, disjunction].map (· (Inner.level n)) ++ [expression, target]

/-- The parts that read a statement, where statements inside of it go up to `n` deep. -/
def statementParts (n : Nat) : List (Read Stmt) :=
  [missingDeclare, setStatement, displayStatement, inputStatement, callStatement, bareStatement,
    returnStatement, jumpStatement, stopStatement] ++
  [ifStatement, selectStatement, whileStatement, doStatement, forStatement,
    statementOrAbandon].map (· (Nested.level n))

/-- Read from here, no part of the grammar gives up, leaves something out or makes something up without
reporting an error. -/
structure Reader.Outspoken (r : Reader) : Prop where
  token : ∀ kind problem, problem.isError = true → r.Objects (expect kind problem) fun _ => True
  expressions : ∀ n, ∀ part ∈ expressionParts n, r.Objects part Expr.Whole
  arguments : ∀ n, r.Objects (arguments (Inner.level n)) fun found => ∀ e ∈ found.1, e.Whole
  declaredType : r.Objects declaredType? fun _ => True
  lists : ∀ n, ∀ part ∈ [listWithin n, initializerList, initializerItem],
    r.Objects part Initializer.Whole
  startingValues : ∀ name isArray, ∀ part ∈ [initializer isArray, startingValue name isArray],
    r.Objects part fun init => ∀ i ∈ init, i.Whole
  sizes : ∀ part ∈ [sizeGroup, sizes], r.Objects part fun given => ∀ e, some e ∈ given → e.Whole
  declarator : ∀ kind declared reported,
    r.Objects (declarator kind declared reported) fun found => found.1.Whole
  declarators : ∀ kind, r.Objects (declarators kind) fun found => ∀ d ∈ found, d.Whole
  declaration : ∀ kind, ∀ keyword ∈ r.tokens,
    r.Objects (declarationStatement kind keyword.span) Stmt.Whole
  parameterType : r.Objects parameterType fun _ => True
  parameterRank : ∀ type name, r.Objects (parameterRank type name) fun _ => True
  parameter : r.Objects parameter fun _ => True
  assignmentOperator : r.Objects assignmentOperator fun _ => True
  forHeader : r.Objects forHeader fun header => header.counter.Whole ∧ header.start.Whole ∧
    header.stop.Whole ∧ ∀ e ∈ header.step, e.Whole
  forEachHeader : r.Objects forEachHeader fun header => header.1.Whole ∧ header.2.Whole
  statements : ∀ n, ∀ part ∈ statementParts n, r.Objects part Stmt.Whole
  block : ∀ n, r.Objects (block (Nested.level n)) Block.Whole
  statement : ∀ n, r.Objects (statement (Nested.level n)) fun found => ∃ s, found = some s ∧ s.Whole
  /-- A further branch, or what is done otherwise, is kept. -/
  elseBranch : ∀ n branches otherwise, r.Objects (elseBranch (Nested.level n) branches otherwise)
    fun next => ∀ found ∈ next, KeepsBranch branches otherwise found
  /-- So is a further case. -/
  selectItem : ∀ n found, r.Objects (selectItem (Nested.level n) found)
    fun next => ∀ found' ∈ next, KeepsCase found.1 found.2 found'
  insistStatement : ∀ n,
    r.Heeds (some <$> statementOrAbandon (Nested.level n)) (Grammar.statement (Nested.level n))
  insistTest : ∀ keyword stops fallback, r.Heeds (asTest expression) (test keyword stops fallback)
  insistLoopTest : ∀ opener ∈ r.tokens, r.Heeds givenLoopTest (loopTest opener)
  insistSubject : ∀ opener ∈ r.tokens, r.Heeds expression (subject opener)
  insistLabel : ∀ line, r.Heeds (some <$> expression) (label? line)
  insistForHeader : ∀ opener ∈ r.tokens,
    r.Heeds (do let found ← Grammar.forHeader; endOfStatement; pure found)
      (headerOr Grammar.forHeader opener (ForHeader.never opener.span))
  insistForEachHeader : ∀ opener ∈ r.tokens,
    r.Heeds (do let found ← Grammar.forEachHeader; endOfStatement; pure found)
      (headerOr Grammar.forEachHeader opener (.invalid opener.span, .invalid opener.span))
  insistParameter : ∀ line params,
    r.Heeds (do let id ← Grammar.parameter; pure (id :: params)) (parameterOrSkip line params)
  insistFields : ∀ id line, r.Heeds (givenFields id) (fieldDeclarations id line)

theorem expressionParts_give (tokens : Array Token) (n : Nat) :
    ∀ part ∈ expressionParts n, Gives .anyhow tokens True Nothing part (Grounded tokens) := by
  have hi := Inner.gives_level .anyhow tokens n
  simp only [expressionParts, List.map_cons, List.map_nil, List.cons_append, List.nil_append,
    List.forall_mem_cons]
  exact ⟨primary_gives hi, newObject_gives hi, suffixed_gives hi, power_gives hi, unary_gives hi,
    multiplicative_gives hi, additive_gives hi, comparison_gives hi, negation_gives hi,
    conjunction_gives hi, disjunction_gives hi, expression_gives, target_gives, by simp⟩

/-- Statements and definitions by themselves. -/
theorem Nested.Accounts.alone {strict nested : Nested} (h : strict.Accounts tokens nested) :
    nested.Accounts tokens nested where
  statement := fun fails old => (h.statement fails old).alone
  routine := fun fails old => (h.routine fails old).alone
  classDef := fun fails old => (h.classDef fails old).alone

theorem Nested.gives_level (tokens : Array Token) (n : Nat) :
    (Nested.level n).Accounts tokens (Nested.level n) :=
  (Nested.accounts_level tokens n).alone

theorem statementParts_give (tokens : Array Token) (n : Nat) :
    ∀ part ∈ statementParts n, Gives .anyhow tokens True Nothing part (GroundedStatement tokens) := by
  have hn := Nested.gives_level tokens n
  simp only [statementParts, List.map_cons, List.map_nil, List.cons_append, List.nil_append,
    List.forall_mem_cons]
  exact ⟨missingDeclare_gives.statement, setStatement_gives.statement, displayStatement_gives.statement,
    inputStatement_gives.statement, callStatement_gives.statement, bareStatement_gives.statement,
    returnStatement_gives.statement, jumpStatement_gives.statement, stopStatement_gives.statement,
    ifStatement_accounts hn, selectStatement_accounts hn,
    whileStatement_accounts hn, doStatement_accounts hn, forStatement_accounts hn,
    statementOrAbandon_accounts hn, by simp⟩

theorem initializerParts_give (tokens : Array Token) (n : Nat) :
    ∀ part ∈ [listWithin n, initializerList, initializerItem],
      Gives .anyhow tokens True Nothing part (GroundedInitializer tokens) := by
  simp only [List.forall_mem_cons]
  exact ⟨listWithin_gives n, initializerList_gives, initializerItem_gives, by simp⟩

theorem startingValues_give (tokens : Array Token) (name : Token) (isArray : Bool) :
    ∀ part ∈ [initializer isArray, startingValue name isArray],
      Gives .anyhow tokens True Nothing part (GroundedOption tokens) := by
  simp only [List.forall_mem_cons]
  exact ⟨initializer_gives, startingValue_gives, by simp⟩

theorem sizeParts_give (tokens : Array Token) :
    ∀ part ∈ [sizeGroup, sizes], Gives .anyhow tokens True Nothing part (GroundedSizes tokens) := by
  simp only [List.forall_mem_cons]
  exact ⟨sizeGroup_gives, sizes_gives, by simp⟩

/-- What was kept unless there is a flaw was kept. -/
theorem forall_kept {next : Option α} {p q : α → Prop}
    (h : next.elim True fun found => p found ∧ (False ∨ q found)) : ∀ found ∈ next, q found := by
  intro found hfound
  obtain rfl := Option.mem_def.mp hfound
  exact h.2.resolve_left not_false

theorem Reader.outspoken (r : Reader) : r.Outspoken where
  token := fun _ _ h => (expect_gives (K := .anyhow) h).objects.mono fun _ _ => trivial
  expressions := fun n part hpart =>
    (expressionParts_give r.tokens n part hpart).objects.mono fun _ => Grounded.whole
  arguments := fun n => (arguments_gives (Inner.gives_level .anyhow _ n)).objects.mono fun _ h e he =>
    (h.1 e he).whole
  declaredType := (declaredType?_gives (K := .anyhow)).objects
  lists := fun n part hpart =>
    (initializerParts_give r.tokens n part hpart).objects.mono fun _ => GroundedInitializer.whole
  startingValues := fun name isArray part hpart =>
    (startingValues_give r.tokens name isArray part hpart).objects.mono fun _ h i hi =>
      GroundedInitializer.whole (h i hi)
  sizes := fun part hpart => (sizeParts_give r.tokens part hpart).objects.mono fun _ h e he =>
    Grounded.whole (h e he)
  declarator := fun _ _ _ => (declarator_gives (K := .anyhow)).objects.mono fun _ =>
    GroundedDeclaration.whole
  declarators := fun _ => (declarators_gives (K := .anyhow)).objects.mono fun _ h d hd =>
    GroundedDeclaration.whole (h d hd)
  declaration := fun _ _ hkeyword =>
    (declarationStatement_gives (K := .anyhow) (.token hkeyword)).statement.objects.mono fun _ =>
      GroundedStatement.whole
  parameterType := (parameterType_gives (K := .anyhow)).objects
  parameterRank := fun _ _ => (parameterRank_gives (K := .anyhow)).objects
  parameter := (parameter_gives (K := .anyhow)).objects
  assignmentOperator := (assignmentOperator_gives (K := .anyhow)).objects
  forHeader := (forHeader_gives (K := .anyhow)).objects.mono fun _ h =>
    ⟨h.counter.whole, h.start.whole, h.stop.whole, fun e he => (h.step e he).whole⟩
  forEachHeader := (forEachHeader_gives (K := .anyhow)).objects.mono fun _ h => ⟨h.1.whole, h.2.whole⟩
  statements := fun n part hpart =>
    (statementParts_give r.tokens n part hpart).objects.mono fun _ => GroundedStatement.whole
  block := fun n => (block_accounts (Nested.gives_level _ n)).objects.mono fun _ =>
    GroundedBlock.whole
  statement := fun n => by
    refine (statement_accounts (Nested.gives_level r.tokens n)).objects.mono fun found h => ?_
    cases found with
    | none => exact h.elim
    | some s => exact ⟨s, rfl, GroundedStatement.whole h⟩
  elseBranch := fun n _ _ =>
    (elseBranch_accounts (Nested.gives_level _ n)).objects.mono fun _ => forall_kept
  selectItem := fun n _ => (selectItem_accounts (Nested.gives_level _ n)).objects.mono fun _ => forall_kept
  insistStatement := fun n => (statement_accounts (Nested.gives_level _ n)).heeds
  insistTest := fun _ _ _ => (test_accounts (K := .anyhow)).heeds
  insistLoopTest := fun _ hopener => (loopTest_accounts (K := .anyhow) hopener).heeds
  insistSubject := fun _ hopener => (subject_accounts (K := .anyhow) hopener).heeds
  insistLabel := fun _ => (label?_accounts (K := .anyhow)).heeds
  insistForHeader := fun _ hopener => (headerOr_accounts (K := .anyhow) forHeader_gives fun _ h =>
    groundedHeader_never (.token hopener) h).heeds
  insistForEachHeader := fun _ hopener =>
    (headerOr_accounts (K := .anyhow) forEachHeader_gives fun _ h =>
      ⟨grounded_invalid (.token hopener) h, grounded_invalid (.token hopener) h⟩).heeds
  insistParameter := fun _ _ => (parameterOrSkip_accounts (K := .anyhow)).heeds
  insistFields := fun _ _ => fieldDeclarations_accounts.heeds

/-! ### Programs without errors -/

theorem Reader.errors_eq_zero {r : Reader} (h : ∀ found ∈ r.problems, found.1.isError = false) :
    r.errors = 0 := by
  refine Array.countP_eq_zero.mpr fun found hfound => ?_
  simp [h found hfound]

end Grammar

namespace Program

open Grammar

/-- The program that is read if every statement has to make sense, however deep it stands. -/
def insistOn? (tokens : List Token) : Option Program :=
  match insistentStatements (Reader.ofTokens tokens) with
  | .ok statements r => some (Program.ofReader statements r)
  | .error _ _ => none

theorem whole_ofReader {tokens : Array Token} {statements : List Stmt} {r : Reader}
    (hr : r.Grounded tokens False) (hstatements : GroundedStatements tokens False statements) :
    (Program.ofReader statements r).Whole where
  statements := fun s hs => (hstatements s hs).whole
  routines := fun routine hroutine => (hr.routines routine hroutine).2.whole
  fieldDeclarations := fun c hc d hd => ((hr.classes c hc).2 d hd).whole

/-- Whatever a reader leaves out or makes up it reports as an error.  So if a program has no errors,
there is no hole in it, and every statement of it was read. -/
theorem nothing_dropped (r : Reader) (tokens : List Token) :
    r.Outspoken ∧ ((∀ d ∈ (ofTokens tokens).2, d.isError = false) →
      (ofTokens tokens).1.Whole ∧ insistOn? tokens = some (ofTokens tokens).1) := by
  refine ⟨r.outspoken, fun hclean => ?_⟩
  obtain ⟨statements, last, hread, hinsist, hgrounded⟩ := programStatements_grounded tokens
  rw [ofTokens_eq hread] at hclean ⊢
  have herrors : last.errors = 0 := by
    refine Reader.errors_eq_zero fun found hfound => hclean (found.1.wording.at found.2) ?_
    exact List.mem_mergeSort.mpr (List.mem_map_of_mem (List.mem_append_left _ hfound.val))
  have hnone : ¬ 0 < last.errors := by omega
  obtain ⟨hlast, hstatements⟩ := hgrounded False hnone
  refine ⟨whole_ofReader hlast hstatements, ?_⟩
  unfold insistOn?
  rw [hinsist.resolve_right hnone]

/-- A loop behind a declaration. -/
def countdown : List Token :=
  (scan "Declare Integer n = 3\nWhile n > 0\nDisplay n\nSet n = n - 1\nEnd While\n").1

theorem nothing_dropped_countdown :
    (∀ d ∈ (ofTokens countdown).2, d.isError = false) ∧
      (ofTokens countdown).1.Whole ∧ insistOn? countdown = some (ofTokens countdown).1 := by
  have hclean : ∀ d ∈ (ofTokens countdown).2, d.isError = false := by decide +kernel
  exact ⟨hclean, (nothing_dropped (Reader.ofTokens countdown) countdown).2 hclean⟩

end Program

end Primer
