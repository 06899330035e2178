/-
Constructs and definitions account for themselves.

Constructs hold blocks and blocks hold statements and definitions, so what is proved here takes it as
given for those inside.  They are read twice, side by side: as the grammar reads them, and by a
companion that may give up where the grammar goes on after an error.  As long as no error is reported
both do the same.
-/
import Primer.Grammar.Class
import Primer.Proofs.Account.Statement

namespace Primer.Grammar

variable {tokens : Array Token} {fails flawed : Prop} {old : Prop → Prop} {strict nested : Nested}

/-- Statements and definitions account for themselves; a statement that is given up leaves a flaw. -/
structure Nested.Accounts (tokens : Array Token) (strict nested : Nested) : Prop where
  statement : ∀ fails old, Grammar.Accounts .anyhow tokens fails old strict.statement nested.statement
    fun flawed found => found.elim flawed (GroundedStatement tokens flawed)
  routine : ∀ fails old, Grammar.Accounts .anyhow tokens fails old strict.routine nested.routine Whatever
  classDef : ∀ fails old, Grammar.Accounts .anyhow tokens fails old strict.classDef nested.classDef Whatever

/-! ### Changes of the reader -/

theorem modify_gives {f : Reader → Reader} 
    (h : ∀ count (r : Reader), r.tokens = tokens → Reader.Traced count r (f r)) :
    Gives .anyhow tokens fails old (modify f) Whatever :=
  .single fun count r htokens _ _ => ⟨h count r htokens, fun _ _ => trivial⟩

/-- A change of the layout that adds no variable. -/
theorem Reader.traced_layout (r : Reader) (count : Nat) {layout : Layout}
    (h : layout.table.entries = r.layout.table.entries) : Traced count r { r with layout } := by
  refine ⟨rfl, Nat.le_refl _, fun flawed _ hr => ?_⟩
  refine ⟨hr.problems, fun v hv => hr.entries v ?_, hr.routines, hr.classes, hr.pendingTypes,
    hr.pendingCalls⟩
  rw [← h]
  exact hv

/-- What is around the cursor changes. -/
theorem Reader.traced_around (r : Reader) (count : Nat) {openBlocks : List BlockKind}
    {loopDepth : Nat} {inTest : Bool} : Traced count r { r with openBlocks, loopDepth, inTest } :=
  ⟨rfl, Nat.le_refl _, fun _ _ hr => hr.around _ _ _⟩

theorem modifyLayout_gives {f : Layout → Layout} (h : ∀ l, (f l).table.entries = l.table.entries) :
    Gives .anyhow tokens fails old (modifyLayout f) Whatever :=
  modify_gives fun count r _ => r.traced_layout count (h r.layout)

theorem Layout.entries_popScope (l : Layout) : l.popScope.table.entries = l.table.entries := by
  unfold Layout.popScope
  split <;> rfl

/-! ### Blocks -/

/-- The statements are grounded, each by itself. -/
def GroundedStatements (tokens : Array Token) (flawed : Prop) (statements : List Stmt) : Prop :=
  ∀ s ∈ statements, GroundedStatement tokens flawed s

theorem GroundedStatements.cons {s : Stmt} {rest : List Stmt}
    (hs : GroundedStatement tokens flawed s) (hrest : GroundedStatements tokens flawed rest) :
    GroundedStatements tokens flawed (s :: rest) := by
  intro s' hs'
  rcases List.mem_cons.mp hs' with rfl | hs'
  · exact hs
  · exact hrest s' hs'

theorem blockItem_accounts (hn : strict.Accounts tokens nested) {statements : List Stmt}
    (h : ∀ flawed, old flawed → GroundedStatements tokens flawed statements) :
    Accounts .anyhow tokens fails old (blockItem strict statements) (blockItem nested statements)
      fun flawed next => next.elim True (GroundedStatements tokens flawed) := by
  refine get_gives.known fun r _ => ?_
  extract_lets kind
  clear_value kind
  split
  · exact .pure fun _ _ => trivial
  · split
    · exact (hn.routine _ _).known fun _ _ => .pure h
    · exact (hn.routine _ _).known fun _ _ => .pure h
    · exact (hn.classDef _ _).known fun _ _ => .pure h
    · refine (hn.statement _ _).bind fun found => ?_
      split
      · exact .pure fun flawed hold => .cons hold.1 (h flawed hold.2)
      · exact .pure fun flawed hold => h flawed hold.2

/-- The span of the statement read last, or another one. -/
theorem place_head {statements : List Stmt} {span : Span} (hspan : Place tokens span)
    (h : GroundedStatements tokens flawed statements) :
    Place tokens ((statements.head?.map Stmt.span).getD span) := by
  cases statements with
  | nil => exact hspan
  | cons s rest => exact (h s List.mem_cons_self).span

theorem block_accounts (hn : strict.Accounts tokens nested) :
    Accounts .anyhow tokens fails old (block strict) (block nested) (GroundedBlock tokens) := by
  refine peek_gives.known fun start hstart => ?_
  refine (modifyLayout_gives (f := Layout.pushScope) fun _ => rfl).known fun _ _ => ?_
  refine .bind (.iterate (Q := GroundedStatements tokens) (fun _ _ => by simp [GroundedStatements])
    fun statements => blockItem_accounts hn fun _ h => h.1) fun statements => ?_
  refine (modifyLayout_gives Layout.entries_popScope).known fun _ _ => .pure fun flawed h => ?_
  refine Stmt.eachBlock_iff.mpr ⟨.cover (.token hstart) (place_head (.token hstart) h.1), ?_⟩
  exact fun s hs => h.1 s (List.mem_reverse.mp hs)

section Around

variable {α : Type} {x y : Read α} {Q : Prop → α → Prop}

theorem inBlock_accounts {kind : BlockKind} (h : Accounts .anyhow tokens fails old x y Q) :
    Accounts .anyhow tokens fails old (inBlock kind x) (inBlock kind y) Q := by
  refine (modify_gives fun _ _ _ => Reader.traced_around _ _).known fun _ _ => h.bind fun a => ?_
  exact (modify_gives fun _ _ _ => Reader.traced_around _ _).known fun _ _ => .pure fun _ h => h.1

theorem inLoop_accounts (h : Accounts .anyhow tokens fails old x y Q) :
    Accounts .anyhow tokens fails old (inLoop x) (inLoop y) Q := by
  refine (modify_gives fun _ _ _ => Reader.traced_around _ _).known fun _ _ => h.bind fun a => ?_
  exact (modify_gives fun _ _ _ => Reader.traced_around _ _).known fun _ _ => .pure fun _ h => h.1

theorem inFreshBlock_accounts {kind : BlockKind}
    (h : Accounts .anyhow tokens fails old x y Q) :
    Accounts .anyhow tokens fails old (inFreshBlock kind x) (inFreshBlock kind y) Q := by
  refine get_gives.known fun outside _ => ?_
  refine (modify_gives fun _ _ _ => Reader.traced_around _ _).known fun _ _ => h.bind fun a => ?_
  exact (modify_gives fun _ _ _ => Reader.traced_around _ _).known fun _ _ => .pure fun _ h => h.1

end Around

/-! ### Branches -/

/-- The test of a branch and what is done when it holds. -/
def GroundedBranch (tokens : Array Token) (flawed : Prop) (b : Branch Stmt) : Prop :=
  Grounded tokens flawed b.condition ∧ GroundedBlock tokens flawed b.body

/-- Branches read so far, and what is done otherwise. -/
structure GroundedChoice (tokens : Array Token) (flawed : Prop)
    (found : List (Branch Stmt) × Option (Block Stmt)) : Prop where
  branches : ∀ b ∈ found.1, GroundedBranch tokens flawed b
  otherwise : ∀ body ∈ found.2, GroundedBlock tokens flawed body

theorem branch_accounts (hn : strict.Accounts tokens nested) {keyword : Token} :
    Accounts .anyhow tokens fails old (branch strict keyword) (branch nested keyword)
      (GroundedBranch tokens) :=
  test_gives.bind fun _ => (lastWord_gives rfl).known fun _ _ => (block_accounts hn).bind fun _ =>
    .pure fun _ h => ⟨h.2.1, h.1⟩

/-- What was read is a further branch or what is done otherwise, and was kept. -/
def KeepsBranch (branches : List (Branch Stmt)) (otherwise : Option (Block Stmt))
    (found : List (Branch Stmt) × Option (Block Stmt)) : Prop :=
  otherwise = none ∧
    ((∃ next, found = (next :: branches, none)) ∨ ∃ body, found = (branches, some body))

theorem elseBranch_accounts (hn : strict.Accounts tokens nested) {branches : List (Branch Stmt)}
    {otherwise : Option (Block Stmt)} :
    Accounts .anyhow tokens fails old (elseBranch strict branches otherwise)
      (elseBranch nested branches otherwise)
      fun flawed next => next.elim True fun found =>
        (GroundedChoice tokens flawed (branches, otherwise) → GroundedChoice tokens flawed found) ∧
          (flawed ∨ KeepsBranch branches otherwise found) := by
  refine acceptAny?_gives.known fun found hfound => ?_
  split
  · exact .pure fun _ _ => trivial
  · rename_i elseToken
    have helse : Place tokens elseToken.span := .token (hfound _ rfl)
    refine get_gives.known fun r _ => ?_
    split
    · refine advance_gives.known fun ifToken hif => (branch_accounts hn).bind fun next => ?_
      split
      · exact (report_gives (.cover helse (.token hif)) rfl).bind fun _ => .pure fun flawed hold =>
          ⟨id, Or.inl hold.1⟩
      · rename_i hnone
        refine .pure fun flawed hold =>
          ⟨fun h => ⟨fun b hb => ?_, by simp⟩, Or.inr ⟨?_, Or.inl ⟨next, rfl⟩⟩⟩
        · rcases List.mem_cons.mp hb with rfl | hb
          · exact hold.1
          · exact h.branches b hb
        · simpa using hnone
    · refine endOfStatement_gives.known fun _ _ => (block_accounts hn).bind fun body => ?_
      split
      · exact (report_gives helse rfl).bind fun _ => .pure fun flawed hold => ⟨id, Or.inl hold.1⟩
      · rename_i hnone
        refine .pure fun flawed hold => ⟨fun h => ⟨h.branches, fun body' hbody => ?_⟩,
          Or.inr ⟨?_, Or.inr ⟨body, rfl⟩⟩⟩
        · obtain rfl : body = body' := by simpa using hbody
          exact hold.1
        · simpa using hnone

theorem eachOption_iff {P : Expr → Prop} {S : Span → Prop} {otherwise : Option (Block Stmt)} :
    Stmt.EachOption P S otherwise ↔ ∀ body ∈ otherwise, Stmt.EachBlock P S body := by
  cases otherwise <;> simp [Stmt.EachOption]

theorem ifStatement_accounts (hn : strict.Accounts tokens nested) :
    Accounts .anyhow tokens fails old (ifStatement strict) (ifStatement nested)
      (GroundedStatement tokens) := by
  refine advance_gives.known fun opener hopener => test_gives.bind fun condition => ?_
  refine (lastWord_gives rfl).known fun _ _ => ?_
  refine Accounts.bind (Q := GroundedChoice tokens) (inBlock_accounts ?_) fun found => ?_
  · refine (block_accounts hn).bind fun body => ?_
    refine .bind (.iterate ?_ fun found =>
      (elseBranch_accounts hn).turn fun _ _ h hturn => hturn.1 h.1) fun all =>
        (expectEnd_gives hopener).known fun _ _ => .pure fun _ h => h.1
    refine fun flawed h => ⟨fun b hb => ?_, by simp⟩
    obtain rfl := List.mem_singleton.mp hb
    exact ⟨h.2.1, h.1⟩
  · refine previous_gives.known fun last hlast => .pure fun flawed h => ?_
    refine ⟨.cover (.token hopener) (.token hlast), ?_, eachOption_iff.mpr h.1.otherwise⟩
    exact Stmt.eachBranch_iff.mpr fun b hb => h.1.branches b (List.mem_reverse.mp hb)

/-- Cases read so far, and what is done otherwise. -/
structure GroundedCases (tokens : Array Token) (flawed : Prop) (found : Cases) : Prop where
  cases : ∀ c ∈ found.1, Place tokens c.span ∧ (∀ e ∈ c.labels, Grounded tokens flawed e) ∧
    GroundedBlock tokens flawed c.body
  otherwise : ∀ body ∈ found.2, GroundedBlock tokens flawed body

theorem GroundedBlock.span {body : Block Stmt} (h : GroundedBlock tokens flawed body) :
    Place tokens body.span := (Stmt.eachBlock_iff.mp h).1

/-- What was read is a further case or what is done otherwise, and was kept. -/
def KeepsCase (cases : List (Case Stmt)) (otherwise : Option (Block Stmt)) (found : Cases) : Prop :=
  (∃ next, found = (next :: cases, otherwise)) ∨ otherwise = none ∧ ∃ body, found = (cases, some body)

theorem selectItem_accounts (hn : strict.Accounts tokens nested) {found : Cases} :
    Accounts .anyhow tokens fails old (selectItem strict found) (selectItem nested found)
      fun flawed next => next.elim True fun found' =>
        (GroundedCases tokens flawed found → GroundedCases tokens flawed found') ∧
          (flawed ∨ KeepsCase found.1 found.2 found') := by
  obtain ⟨cases, otherwise⟩ := found
  refine get_gives.known fun r htokens => ?_
  extract_lets token
  have htoken : Place tokens token.span := htokens ▸ .token r.peek_mem
  split
  · refine advance_gives.known fun caseToken hcase => caseLabels_gives.bind fun labels => ?_
    refine (block_accounts hn).bind fun body => .pure fun flawed hold =>
      ⟨fun h => ⟨fun c hc => ?_, h.otherwise⟩, Or.inr (Or.inl ⟨_, rfl⟩)⟩
    rcases List.mem_cons.mp hc with rfl | hc
    · exact ⟨.cover (.token hcase) hold.1.span, hold.2.1, hold.1⟩
    · exact h.cases c hc
  · refine advance_gives.known fun defaultToken hdefault => (lastWord_gives rfl).known fun _ _ => ?_
    refine (block_accounts hn).bind fun body => ?_
    split
    · exact (report_gives (.token hdefault) rfl).bind fun _ => .pure fun flawed hold =>
        ⟨id, Or.inl hold.1⟩
    · rename_i hnone
      refine .pure fun flawed hold => ⟨fun h => ⟨h.cases, fun body' hbody => ?_⟩,
        Or.inr (Or.inr ⟨?_, body, rfl⟩)⟩
      · obtain rfl : body = body' := by simpa using hbody
        exact hold.1
      · simpa using hnone
  · exact .pure fun _ _ => trivial
  · exact .pure fun _ _ => trivial
  · split
    · exact .pure fun _ _ => trivial
    · exact (report_gives htoken rfl).bind fun _ => skipLine_gives.known fun _ _ =>
        .pure fun flawed hold => ⟨id, Or.inl hold.1⟩

theorem selectStatement_accounts (hn : strict.Accounts tokens nested) :
    Accounts .anyhow tokens fails old (selectStatement strict) (selectStatement nested)
      (GroundedStatement tokens) := by
  refine advance_gives.known fun opener hopener => (subject_accounts hopener).alone.bind fun value => ?_
  refine endOfStatement_gives.known fun _ _ => ?_
  refine Accounts.bind (Q := GroundedCases tokens) (inBlock_accounts ?_) fun found => ?_
  · exact .bind (.iterate (fun _ _ => ⟨by simp, by simp⟩) fun found =>
      (selectItem_accounts hn).turn fun _ _ h hturn => hturn.1 h.1) fun all =>
        (expectEnd_gives hopener).known fun _ _ => .pure fun _ h => h.1
  · refine previous_gives.known fun last hlast => .pure fun flawed h => ?_
    refine ⟨.cover (.token hopener) (.token hlast), h.2.1, ?_, eachOption_iff.mpr h.1.otherwise⟩
    exact Stmt.eachCase_iff.mpr fun c hc => h.1.cases c (List.mem_reverse.mp hc)

/-! ### Loops -/

theorem loopBody_accounts (hn : strict.Accounts tokens nested) {kind : BlockKind} {opener : Token}
    (hopener : opener ∈ tokens) :
    Accounts .anyhow tokens fails old (loopBody strict kind opener) (loopBody nested kind opener)
      (GroundedBlock tokens) :=
  inLoop_accounts (inBlock_accounts ((block_accounts hn).bind fun _ =>
    (expectEnd_gives hopener).known fun _ _ => .pure fun _ h => h.1))

theorem whileStatement_accounts (hn : strict.Accounts tokens nested) :
    Accounts .anyhow tokens fails old (whileStatement strict) (whileStatement nested)
      (GroundedStatement tokens) :=
  advance_gives.known fun _ hopener => test_gives.bind fun _ => endOfStatement_gives.known fun _ _ =>
    (loopBody_accounts hn hopener).bind fun _ => previous_gives.known fun _ hlast => .pure fun _ h =>
      ⟨.cover (.token hopener) (.token hlast), h.2.1, h.1⟩

theorem doStatement_accounts (hn : strict.Accounts tokens nested) :
    Accounts .anyhow tokens fails old (doStatement strict) (doStatement nested)
      (GroundedStatement tokens) :=
  advance_gives.known fun _ hopener => endOfStatement_gives.known fun _ _ =>
    (inLoop_accounts (inBlock_accounts (block_accounts hn))).bind fun _ =>
      (loopTest_accounts hopener).alone.bind fun _ => previous_gives.known fun _ hlast =>
        .pure fun _ h => ⟨.cover (.token hopener) (.token hlast), h.1, h.2.1⟩

theorem forStatement_accounts (hn : strict.Accounts tokens nested) :
    Accounts .anyhow tokens fails old (forStatement strict) (forStatement nested)
      (GroundedStatement tokens) := by
  refine advance_gives.known fun opener hopener => accept_gives.known fun _ _ => ?_
  have hspan : Place tokens opener.span := .token hopener
  split
  · refine (headerOr_accounts forEachHeader_gives fun _ h =>
      ⟨grounded_invalid hspan h, grounded_invalid hspan h⟩).alone.bind fun header => ?_
    exact (loopBody_accounts hn hopener).bind fun body => previous_gives.known fun last hlast =>
      .pure fun _ h => ⟨.cover hspan (.token hlast), h.2.1.1, h.2.1.2, h.1⟩
  · refine (headerOr_accounts forHeader_gives fun _ h =>
      groundedHeader_never hspan h).alone.bind fun header => ?_
    exact (loopBody_accounts hn hopener).bind fun body => previous_gives.known fun last hlast =>
      .pure fun _ h => ⟨.cover hspan (.token hlast), h.2.1.counter, h.2.1.start, h.2.1.stop,
        h.2.1.step, h.1⟩

/-! ### Any statement -/

theorem Accounts.statement {K : Course} {x y : Read Stmt}
    (h : Accounts K tokens fails old x y (GroundedSimple tokens)) :
    Accounts K tokens fails old x y (GroundedStatement tokens) :=
  h.result fun _ _ hs => hs.grounded

theorem statementOrAbandon_accounts (hn : strict.Accounts tokens nested) :
    Accounts .anyhow tokens True old (statementOrAbandon strict) (statementOrAbandon nested)
      (GroundedStatement tokens) := by
  refine get_gives.known fun r htokens => ?_
  split
  · exact advance_gives.known fun _ hkeyword => (declarationStatement_gives (.token hkeyword)).statement
  · exact advance_gives.known fun _ hkeyword => (declarationStatement_gives (.token hkeyword)).statement
  · exact missingDeclare_gives.statement
  · exact setStatement_gives.statement
  · exact displayStatement_gives.statement
  · exact inputStatement_gives.statement
  · exact callStatement_gives.statement
  · exact ifStatement_accounts hn
  · exact selectStatement_accounts hn
  · exact whileStatement_accounts hn
  · exact doStatement_accounts hn
  · exact forStatement_accounts hn
  · exact returnStatement_gives.statement
  · exact jumpStatement_gives.statement
  · exact jumpStatement_gives.statement
  · exact stopStatement_gives.statement
  · split
    · exact missingDeclare_gives.statement
    · exact bareStatement_gives.statement
  · exact abandon_gives (htokens ▸ .token r.peek_mem) (unexpectedToken_isError _)

/-- **A statement that is given up leaves a flaw.** -/
theorem statement_accounts (hn : strict.Accounts tokens nested) :
    Accounts .anyhow tokens fails old (some <$> statementOrAbandon strict) (statement nested)
      fun flawed found => found.elim flawed (GroundedStatement tokens flawed) := by
  refine .look_right fun first _ => ?_
  rw [map_eq_pure_bind]
  refine (statementOrAbandon_accounts hn).insist.recover (fun _ => .pure fun _ h => h.1) ?_
  exact skipLine_gives.known fun _ _ => .pure fun _ h => h.1

end Primer.Grammar
