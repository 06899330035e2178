/-
Statements and definitions take tokens.

Each construct takes its first word before it reads what stands inside of it.  A statement that is
given up either got past its first token or has the rest of that token's line skipped, so it takes
a token as well.  The levels of nesting that `atAnyDepth` starts with are therefore enough, and a
program is read like by the grammar that has no levels, which is `Nested.whole`.
-/
import Primer.Proofs.Program.Reading
import Primer.Proofs.Progress.Declaration

namespace Primer.Grammar

/-- From `r` on, both ways to read what a block holds do the same and take a token. -/
structure Nested.Agree (r : Reader) (nested nested' : Nested) : Prop where
  statement : ∀ r', r.Reaches r' → r'.atEnd = false →
    Goes nested.statement nested'.statement r' fun _ r'' => r'.Passes r''
  routine : ∀ r', r.Reaches r' → r'.atEnd = false →
    Goes nested.routine nested'.routine r' fun _ r'' => r'.Passes r''
  classDef : ∀ r', r.Reaches r' → r'.atEnd = false →
    Goes nested.classDef nested'.classDef r' fun _ r'' => r'.Passes r''

/-- They do so once the token at `r` has been taken. -/
def Nested.AgreeBeyond (r : Reader) (nested nested' : Nested) : Prop :=
  ∀ r', r.Passes r' → nested.Agree r' nested'

variable {nested nested' : Nested} {r r' : Reader} {name : String} {keyword : Token}
  {opener : Token} {line : Nat} {id : ClassId} {span : Span}

theorem Nested.Agree.from (h : nested.Agree r nested') (hr : r.Reaches r') :
    nested.Agree r' nested' where
  statement := fun r'' hr'' => h.statement r'' (hr.trans hr'')
  routine := fun r'' hr'' => h.routine r'' (hr.trans hr'')
  classDef := fun r'' hr'' => h.classDef r'' (hr.trans hr'')

/-! ### Blocks -/

theorem modifyLayout_goes {f : Layout → Layout} : Forward (modifyLayout f) r Anyhow :=
  modify_goes ⟨rfl, rfl⟩

theorem blockItem_goes (h : nested.Agree r nested') (statements : List Stmt) :
    Goes (blockItem nested statements) (blockItem nested' statements) r r.TakesTurn := by
  refine .get_bind ?_
  extract_lets kind
  clear_value kind
  split
  · exact .pure nofun
  · rename_i hmore
    have hend : r.atEnd = false := by
      cases hend : r.atEnd with
      | false => rfl
      | true => simp [hend] at hmore
    split
    · exact (h.routine r (.refl r) hend).bind fun _ _ _ htaken => .pure fun _ => htaken
    · exact (h.routine r (.refl r) hend).bind fun _ _ _ htaken => .pure fun _ => htaken
    · exact (h.classDef r (.refl r) hend).bind fun _ _ _ htaken => .pure fun _ => htaken
    · refine (h.statement r (.refl r) hend).bind fun found _ _ htaken => ?_
      split
      · exact .pure fun _ => htaken
      · exact .pure fun _ => htaken

theorem block_goes (h : nested.Agree r nested') :
    Goes (block nested) (block nested') r Anyhow := by
  refine .look_bind (modifyLayout_goes.bind fun _ r₁ hr₁ _ => ?_)
  refine (Goes.iterate fun statements r₂ hr₂ => ?_).bind fun _ _ _ _ =>
    modifyLayout_goes.last
  exact (blockItem_goes (h.from (hr₁.trans hr₂)) statements).anyhow

section Around

variable {α : Type} {x y : Read α}

/-- What is changed and put back around a part does not touch the tokens. -/
theorem around_goes {before after : Reader → Reader}
    (hbefore : (before r).tokens = r.tokens ∧ (before r).cursor = r.cursor)
    (hafter : ∀ r, (after r).tokens = r.tokens ∧ (after r).cursor = r.cursor)
    (h : ∀ r', r.Reaches r' → Goes x y r' Anyhow) :
    Goes (do modify before; let a ← x; modify after; pure a)
      (do modify before; let a ← y; modify after; pure a) r Anyhow :=
  (modify_goes hbefore).bind fun _ r₁ hr₁ _ => (h r₁ hr₁).bind fun _ r₂ _ _ =>
    (modify_goes (hafter r₂)).last

theorem inBlock_goes {kind : BlockKind} (h : ∀ r', r.Reaches r' → Goes x y r' Anyhow) :
    Goes (inBlock kind x) (inBlock kind y) r Anyhow :=
  around_goes ⟨rfl, rfl⟩ (fun _ => ⟨rfl, rfl⟩) h

theorem inLoop_goes (h : ∀ r', r.Reaches r' → Goes x y r' Anyhow) :
    Goes (inLoop x) (inLoop y) r Anyhow :=
  around_goes ⟨rfl, rfl⟩ (fun _ => ⟨rfl, rfl⟩) h

theorem inFreshBlock_goes {kind : BlockKind} (h : ∀ r', r.Reaches r' → Goes x y r' Anyhow) :
    Goes (inFreshBlock kind x) (inFreshBlock kind y) r Anyhow :=
  .get_bind (around_goes ⟨rfl, rfl⟩ (fun _ => ⟨rfl, rfl⟩) h)

end Around

/-! ### Statements that hold no others -/

theorem assignmentOperator_goes : Forward assignmentOperator r Anyhow := by
  refine accept_goes.bind fun _ _ _ _ => ?_
  split
  · exact .pure trivial
  · refine acceptAny?_goes.bind fun _ _ _ _ => ?_
    split
    · exact report_goes
    · exact expect_goes.last

theorem checkAssignable_goes : ∀ {r : Reader} (place : Expr),
    Forward (checkAssignable place) r Anyhow := by
  intro r place
  fun_induction checkAssignable place generalizing r with
  | case1 => exact .pure trivial
  | case2 =>
    refine .look_bind ?_
    split
    · exact report_goes
    · exact .pure trivial
  | case3 _ _ _ ih => exact ih
  | case4 => exact .pure trivial
  | case5 => exact report_goes

theorem setStatement_goes (hend : r.atEnd = false) : Forward setStatement r r.Taken := by
  refine .beyondWord hend fun _ r₁ htaken => ?_
  refine target_goes.bind fun place _ _ _ => assignmentOperator_goes.bind fun _ _ _ _ => ?_
  refine expression_goes.bind fun _ _ _ _ => (checkAssignable_goes place).bind fun _ _ _ _ => ?_
  exact endOfStatement_goes.last

theorem displayStatement_goes (hend : r.atEnd = false) : Forward displayStatement r r.Taken := by
  refine .beyondWord hend fun _ r₁ htaken => ?_
  refine .look_bind ?_
  split
  · refine (commaSeparated_goes fun _ _ => expression_goes.anyhow).bind fun _ _ _ _ => ?_
    exact endOfStatement_goes.last
  · exact endOfStatement_goes.last

theorem inputStatement_goes (hend : r.atEnd = false) : Forward inputStatement r r.Taken := by
  refine .beyondWord hend fun _ r₁ htaken => ?_
  refine .look_bind ?_
  split
  · refine target_goes.bind fun place _ _ _ => (checkAssignable_goes place).bind fun _ _ _ _ => ?_
    exact endOfStatement_goes.last
  · exact .look_bind abandon_goes

theorem callStatement_goes (hend : r.atEnd = false) : Forward callStatement r r.Taken := by
  refine .beyondWord hend fun _ r₁ htaken => ?_
  refine .look_bind ?_
  split
  · refine advance_goes.bind fun _ _ _ _ => report_goes.bind fun _ _ _ _ => ?_
    refine routineCall_goes.bind fun _ _ _ _ => endOfStatement_goes.bind fun _ _ _ _ => ?_
    exact .pure trivial
  · refine target_goes.bind fun call _ _ _ => ?_
    split
    · exact endOfStatement_goes.last
    · split
      · exact .throw
      · exact abandon_goes

theorem missingDeclare_goes : Forward missingDeclare r r.Taken :=
  .look_bind (report_goes.bind fun _ _ hr _ =>
    declarationStatement_goes.mono fun _ _ _ hpass => hr.passes hpass)

theorem bareStatement_goes : Forward bareStatement r r.Taken := by
  refine .look_bind (target_goes.bind fun place r₁ _ htaken => Goes.beyond (P := Anyhow) ?_ htaken)
  refine acceptAny?_goes.bind fun sign _ _ _ => ?_
  split
  · refine report_goes.bind fun _ _ _ _ => expression_goes.bind fun _ _ _ _ => ?_
    refine (checkAssignable_goes place).bind fun _ _ _ _ => ?_
    exact endOfStatement_goes.last
  · split
    · refine report_goes.bind fun _ _ _ _ => endOfStatement_goes.bind fun _ _ _ _ => ?_
      exact .pure trivial
    · split
      · exact .throw
      · exact abandon_goes

theorem returnStatement_goes (hend : r.atEnd = false) : Forward returnStatement r r.Taken := by
  refine .beyondWord hend fun keyword r₁ htaken => ?_
  refine .look_bind ?_
  extract_lets finish
  have hfinish : ∀ value r, Forward (finish value) r Anyhow := by
    intro value r
    refine .look_bind ?_
    extract_lets give
    have hgive : ∀ kept r, Forward (give kept) r Anyhow := fun _ _ =>
      endOfStatement_goes.last
    split
    · exact report_goes.bind fun _ _ _ _ => hgive _ _
    · exact report_goes.bind fun _ _ _ _ => hgive none _
    · exact report_goes.bind fun _ _ _ _ => hgive none _
    · exact hgive _ _
  split
  · exact (expression_goes.map (R := Anyhow) fun _ _ _ => trivial).bind fun value r _ _ =>
      hfinish value r
  · exact hfinish none r₁

theorem jumpStatement_goes (hend : r.atEnd = false) : Forward jumpStatement r r.Taken := by
  refine .beyondWord hend fun _ r₁ htaken => ?_
  refine .look_bind ?_
  extract_lets finish
  have hfinish : ∀ u r, Forward (finish u) r Anyhow := fun _ _ =>
    endOfStatement_goes.last
  split
  · exact report_goes.bind fun u r _ _ => hfinish u r
  · exact hfinish () r₁

theorem stopStatement_goes (hend : r.atEnd = false) : Forward stopStatement r r.Taken :=
  (advance_passes hend).bind fun _ _ _ htaken =>
    endOfStatement_goes.bind fun _ _ hr _ => .pure (htaken.trans hr)

/-! ### Branches -/

theorem asTest_goes (h : ∀ r', r.Reaches r' → Goes x y r' Anyhow) :
    Goes (asTest x) (asTest y) r Anyhow :=
  .get_bind (around_goes ⟨rfl, rfl⟩ (fun _ => ⟨rfl, rfl⟩) h)

theorem test_goes {stops : List TokenKind} {fallback : Bool} :
    Forward (test keyword stops fallback) r Anyhow := by
  refine .get_bind ?_
  split
  · exact report_goes.last
  · refine (asTest_goes fun _ _ => expression_goes.attempt.anyhow).bind fun found _ _ _ => ?_
    split
    · exact .pure trivial
    · refine .look_bind ((skipWhile_goes fun r h => ?_).last)
      exact Reader.not_atEnd_of_onLine (Bool.and_eq_true_iff.mp h).1

theorem lastWord_goes {kind : TokenKind} {problem : Problem} :
    Forward (lastWord kind problem) r Anyhow := by
  refine accept_goes.bind fun _ _ _ _ => ?_
  split
  · exact endOfStatement_goes
  · exact reportMissing_goes.bind fun _ _ _ _ => endOfStatement_goes

theorem branch_goes (h : nested.Agree r nested') :
    Goes (branch nested keyword) (branch nested' keyword) r Anyhow := by
  refine test_goes.bind fun _ r₁ hr₁ _ => lastWord_goes.bind fun _ r₂ hr₂ _ => ?_
  exact (block_goes (h.from (hr₁.trans hr₂))).last

theorem elseBranch_goes (h : nested.Agree r nested')
    (branches : List (Branch Stmt)) (otherwise : Option (Block Stmt)) :
    Goes (elseBranch nested branches otherwise) (elseBranch nested' branches otherwise) r
      r.TakesTurn := by
  refine acceptAny?_goes.bind fun word r₁ hr₁ hword => ?_
  split
  · exact .pure nofun
  · have htaken := hword rfl
    refine Goes.mono (Q := r.TakesTurn) (Goes.beyond (P := Anyhow) ?_ htaken) fun _ _ _ hpass _ => hpass
    refine .get_bind ?_
    split
    · refine advance_goes.bind fun _ r₂ hr₂ _ => ?_
      refine (branch_goes (h.from (hr₁.trans hr₂))).bind fun _ _ _ _ => ?_
      split
      · exact report_goes.last
      · exact .pure trivial
    · refine endOfStatement_goes.bind fun _ r₂ hr₂ _ => ?_
      refine (block_goes (h.from (hr₁.trans hr₂))).bind fun _ _ _ _ => ?_
      split
      · exact report_goes.last
      · exact .pure trivial

theorem ifStatement_goes (h : nested.AgreeBeyond r nested') (hend : r.atEnd = false) :
    Goes (ifStatement nested) (ifStatement nested') r r.Taken := by
  refine .beyondWord hend fun opener r₁ htaken => ?_
  refine test_goes.bind fun condition r₂ hr₂ _ => lastWord_goes.bind fun _ r₃ hr₃ _ => ?_
  refine (inBlock_goes fun r₄ hr₄ => ?_).bind fun _ _ _ _ => .look_bind (.pure trivial)
  have hr := htaken.trans (hr₂.trans (hr₃.trans hr₄))
  refine (block_goes (h r₄ hr)).bind fun body r₅ hr₅ _ => ?_
  refine (Goes.iterate fun found r₆ hr₆ => ?_).bind fun _ _ _ _ =>
    expectEnd_goes.last
  exact (elseBranch_goes (h r₆ (hr.trans (hr₅.trans hr₆))) found.1 found.2).anyhow

theorem label?_goes : Forward (label? line) r Anyhow := by
  refine expression_goes.attempt.bind fun found _ _ _ => ?_
  split
  · exact .pure trivial
  · refine (skipWhile_goes fun r h => ?_).last
    exact Reader.not_atEnd_of_onLine (Bool.and_eq_true_iff.mp h).1

theorem nextLabel_advancing : Advancing (nextLabel line) := by
  refine .of_goes fun ⟨found, complete⟩ r => ?_
  cases complete with
  | false => exact .pure nofun
  | true =>
    refine accept_goes.bind fun comma r₁ _ hcomma => ?_
    split
    · rename_i htaken
      refine label?_goes.bind fun next _ hr₂ _ => ?_
      split
      · exact .pure fun _ => (hcomma htaken).trans hr₂
      · exact .pure fun _ => (hcomma htaken).trans hr₂
    · exact .pure nofun

theorem labels_goes : Forward (labels line) r Anyhow := by
  refine label?_goes.bind fun first _ _ _ => ?_
  split
  · exact .pure trivial
  · exact (Goes.iterate fun found r' _ => nextLabel_advancing.goes found r').last

theorem caseLabels_goes {caseToken : Token} : Forward (caseLabels caseToken) r Anyhow := by
  refine .get_bind ?_
  split
  · exact report_goes.bind fun _ _ _ _ => lastWord_goes.last
  · exact labels_goes.bind fun _ _ _ _ => lastWord_goes.last

theorem selectItem_goes (h : nested.Agree r nested') (cases : Cases) :
    Goes (selectItem nested cases) (selectItem nested' cases) r r.TakesTurn := by
  obtain ⟨cases, otherwise⟩ := cases
  refine .get_bind ?_
  extract_lets token
  split
  · rename_i hkind
    have hend : r.atEnd = false := Reader.not_atEnd_of_kind hkind (by decide)
    refine (advance_passes hend).bind fun _ r₁ _ htaken => ?_
    refine caseLabels_goes.bind fun _ r₂ hr₂ _ => ?_
    refine (block_goes (h.from (htaken.trans hr₂).reaches)).bind fun _ _ hr₃ _ => ?_
    exact .pure fun _ => htaken.trans (hr₂.trans hr₃)
  · rename_i hkind
    have hend : r.atEnd = false := Reader.not_atEnd_of_kind hkind (by decide)
    refine (advance_passes hend).bind fun _ r₁ _ htaken => ?_
    refine lastWord_goes.bind fun _ r₂ hr₂ _ => ?_
    refine (block_goes (h.from (htaken.trans hr₂).reaches)).bind fun _ _ hr₃ _ => ?_
    split
    · exact report_goes.bind fun _ _ hr₄ _ => .pure fun _ => htaken.trans (hr₂.trans (hr₃.trans hr₄))
    · exact .pure fun _ => htaken.trans (hr₂.trans hr₃)
  · exact .pure nofun
  · exact .pure nofun
  · rename_i hnotEnd
    split
    · exact .pure nofun
    · have hend : r.atEnd = false := by simpa [Reader.atEnd, token] using hnotEnd
      refine report_goes.bind fun _ r₁ hr₁ _ => ?_
      rcases hr₁.passes_or_peek with hpass | ⟨hpeek, hsame⟩
      · exact skipLine_goes.bind fun _ _ hr₂ _ => .pure fun _ => hpass.trans hr₂
      · refine (skipLine_passes (hsame.trans hend) ?_).bind fun _ _ _ htaken => ?_
        · exact Nat.le_of_eq (by rw [hpeek])
        · exact .pure fun _ => hr₁.passes htaken

theorem subject_goes : Forward (subject opener) r Anyhow := by
  refine .look_bind ?_
  split
  · refine expression_goes.attempt.bind fun found _ _ _ => ?_
    split
    · exact .pure trivial
    · exact skipLine_goes.last
  · exact .look_bind (report_goes.last)

theorem selectStatement_goes (h : nested.AgreeBeyond r nested') (hend : r.atEnd = false) :
    Goes (selectStatement nested) (selectStatement nested') r r.Taken := by
  refine .beyondWord hend fun opener r₁ htaken => ?_
  refine subject_goes.bind fun _ r₂ hr₂ _ => endOfStatement_goes.bind fun _ r₃ hr₃ _ => ?_
  refine (inBlock_goes fun r₄ hr₄ => ?_).bind fun _ _ _ _ => .look_bind (.pure trivial)
  refine (Goes.iterate fun cases r₅ hr₅ => ?_).bind fun _ _ _ _ =>
    expectEnd_goes.last
  have hr := htaken.trans (hr₂.trans (hr₃.trans (hr₄.trans hr₅)))
  exact (selectItem_goes (h r₅ hr) cases).anyhow

/-! ### Loops -/

theorem loopBody_goes (h : nested.Agree r nested') {kind : BlockKind} :
    Goes (loopBody nested kind opener) (loopBody nested' kind opener) r Anyhow :=
  inLoop_goes fun _ hr₁ => inBlock_goes fun _ hr₂ =>
    (block_goes (h.from (hr₁.trans hr₂))).bind fun _ _ _ _ =>
      expectEnd_goes.last

theorem whileStatement_goes (h : nested.AgreeBeyond r nested') (hend : r.atEnd = false) :
    Goes (whileStatement nested) (whileStatement nested') r r.Taken := by
  refine .beyondWord hend fun _ r₁ htaken => ?_
  refine test_goes.bind fun _ r₂ hr₂ _ => endOfStatement_goes.bind fun _ r₃ hr₃ _ => ?_
  exact (loopBody_goes (h r₃ (htaken.trans (hr₂.trans hr₃)))).bind fun _ _ _ _ =>
    .look_bind (.pure trivial)

theorem loopWord_goes : Forward loopWord r Anyhow := by
  refine accept_goes.bind fun _ _ _ _ => ?_
  split
  · exact .pure trivial
  · refine accept_goes.bind fun _ _ _ _ => ?_
    split
    · exact .pure trivial
    · exact reportMissing_goes.last

theorem loopTest_goes : Forward (loopTest opener) r Anyhow := by
  refine acceptAny?_goes.bind fun word _ _ _ => ?_
  split
  · refine loopWord_goes.bind fun _ _ _ _ => test_goes.bind fun _ _ _ _ => ?_
    exact endOfStatement_goes.last
  · refine report_goes.bind fun _ _ _ _ => .get_bind ?_
    split
    · refine advance_goes.bind fun _ _ _ _ => advance_goes.bind fun _ _ _ _ => ?_
      exact endOfStatement_goes.last
    · exact .pure trivial

theorem doStatement_goes (h : nested.AgreeBeyond r nested') (hend : r.atEnd = false) :
    Goes (doStatement nested) (doStatement nested') r r.Taken := by
  refine .beyondWord hend fun _ r₁ htaken => ?_
  refine endOfStatement_goes.bind fun _ r₂ hr₂ _ => ?_
  refine (inLoop_goes fun r₃ hr₃ => inBlock_goes fun r₄ hr₄ => ?_).bind fun _ _ _ _ => ?_
  · exact block_goes (h r₄ (htaken.trans (hr₂.trans (hr₃.trans hr₄))))
  · exact loopTest_goes.bind fun _ _ _ _ => .look_bind (.pure trivial)

theorem forHeader_goes : Forward forHeader r Anyhow := by
  refine target_goes.bind fun counter _ _ _ => (checkAssignable_goes counter).bind fun _ _ _ _ => ?_
  refine assignmentOperator_goes.bind fun _ _ _ _ => expression_goes.bind fun _ _ _ _ => ?_
  refine expect_goes.bind fun _ _ _ _ => expression_goes.bind fun _ _ _ _ => ?_
  refine accept_goes.bind fun _ _ _ _ => ?_
  split
  · exact (expression_goes.map (R := Anyhow) fun _ _ _ => trivial).last
  · exact .pure trivial

theorem headerOr_goes {α : Type} {header : Read α} {fallback : α} (h : Forward header r Anyhow) :
    Forward (headerOr header opener fallback) r Anyhow := by
  refine h.attempt.bind fun found _ _ _ => ?_
  split
  · exact endOfStatement_goes.last
  · exact skipLine_goes.last

theorem forEachHeader_goes : Forward forEachHeader r Anyhow := by
  refine target_goes.bind fun item _ _ _ => (checkAssignable_goes item).bind fun _ _ _ _ => ?_
  exact expect_goes.bind fun _ _ _ _ => expression_goes.last

theorem forStatement_goes (h : nested.AgreeBeyond r nested') (hend : r.atEnd = false) :
    Goes (forStatement nested) (forStatement nested') r r.Taken := by
  refine .beyondWord hend fun _ r₁ htaken => ?_
  refine accept_goes.bind fun _ r₂ hr₂ _ => ?_
  split
  · refine (headerOr_goes forEachHeader_goes).bind fun _ r₃ hr₃ _ => ?_
    exact (loopBody_goes (h r₃ (htaken.trans (hr₂.trans hr₃)))).bind fun _ _ _ _ =>
      .look_bind (.pure trivial)
  · refine (headerOr_goes forHeader_goes).bind fun _ r₃ hr₃ _ => ?_
    exact (loopBody_goes (h r₃ (htaken.trans (hr₂.trans hr₃)))).bind fun _ _ _ _ =>
      .look_bind (.pure trivial)

/-! ### Any statement -/

theorem statementOrAbandon_goes (h : nested.AgreeBeyond r nested') :
    Goes (statementOrAbandon nested) (statementOrAbandon nested') r r.Taken := by
  refine .get_bind ?_
  have hend : ∀ {kind : TokenKind}, r.peek.kind = kind → kind ≠ .endOfInput → r.atEnd = false :=
    Reader.not_atEnd_of_kind
  split
  · rename_i hkind
    exact (advance_passes (hend hkind (by decide))).bind fun _ _ _ htaken =>
      declarationStatement_goes.beyond htaken
  · rename_i hkind
    exact (advance_passes (hend hkind (by decide))).bind fun _ _ _ htaken =>
      declarationStatement_goes.beyond htaken
  · exact missingDeclare_goes
  · exact setStatement_goes (hend ‹_› (by decide))
  · exact displayStatement_goes (hend ‹_› (by decide))
  · exact inputStatement_goes (hend ‹_› (by decide))
  · exact callStatement_goes (hend ‹_› (by decide))
  · exact ifStatement_goes h (hend ‹_› (by decide))
  · exact selectStatement_goes h (hend ‹_› (by decide))
  · exact whileStatement_goes h (hend ‹_› (by decide))
  · exact doStatement_goes h (hend ‹_› (by decide))
  · exact forStatement_goes h (hend ‹_› (by decide))
  · exact returnStatement_goes (hend ‹_› (by decide))
  · exact jumpStatement_goes (hend ‹_› (by decide))
  · exact jumpStatement_goes (hend ‹_› (by decide))
  · exact stopStatement_goes (hend ‹_› (by decide))
  · split
    · exact missingDeclare_goes
    · exact bareStatement_goes
  · exact abandon_goes

/-- **A statement takes a token, even when it makes no sense.** -/
theorem statement_goes (h : nested.AgreeBeyond r nested') (hend : r.atEnd = false) :
    Goes (statement nested) (statement nested') r r.Taken := by
  refine .look_bind ((statementOrAbandon_goes h).attempt.bind fun found r₁ hr₁ hfound => ?_)
  split
  · rename_i statement
    exact .pure (hfound statement rfl)
  · rcases hr₁.passes_or_peek with hpass | ⟨hpeek, hsame⟩
    · exact (skipLine_goes.last).beyond (P := Anyhow) hpass
    · refine (skipLine_passes (hsame.trans hend) ?_).bind fun _ _ _ htaken => ?_
      · exact Nat.le_of_eq (by rw [hpeek])
      · exact .pure (hr₁.passes htaken)

/-! ### Definitions -/

theorem returnType_goes {kind : RoutineKind} : Forward (returnType kind) r Anyhow := by
  unfold returnType
  split
  · exact .pure trivial
  · refine .look_bind ?_
    split
    · exact typeName_goes.map fun _ _ _ => trivial
    · exact reportMissing_goes.last

theorem definedName_goes {problem : Problem} :
    Forward (definedName keyword problem) r Anyhow := by
  refine .look_bind ?_
  split
  · exact advance_goes.last
  · exact .look_bind (report_goes.last)

theorem tokens_nameRoutine (r : Reader) (id : RoutineId) (name : String) (classId : Option ClassId) :
    (r.nameRoutine id name classId).tokens = r.tokens ∧
      (r.nameRoutine id name classId).cursor = r.cursor := by
  cases classId with
  | none => exact ⟨rfl, rfl⟩
  | some c => exact ⟨rfl, rfl⟩

theorem registerRoutine_goes {id : RoutineId} {classId : Option ClassId} :
    Forward (registerRoutine id name span classId) r Anyhow := by
  unfold registerRoutine
  split
  · exact .pure trivial
  · refine .get_bind ?_
    split
    · exact report_goes
    · exact modify_goes (tokens_nameRoutine r id name classId)

theorem openRoutine_goes {draft : Routine} :
    Forward (openRoutine draft span) r Anyhow :=
  .look_bind ((modify_goes ⟨rfl, rfl⟩).bind fun _ _ _ _ =>
    registerRoutine_goes.last)

theorem routineBody_goes (h : nested.Agree r nested') {draft : Routine} :
    Goes (routineBody nested keyword draft span) (routineBody nested' keyword draft span) r
      Anyhow := by
  refine openRoutine_goes.bind fun _ r₁ hr₁ _ => .look_bind ?_
  refine parameters_goes.bind fun _ r₂ hr₂ _ => endOfStatement_goes.bind fun _ r₃ hr₃ _ => ?_
  refine (inFreshBlock_goes fun r₄ hr₄ => ?_).bind fun body _ _ _ => ?_
  · refine (block_goes (h.from (hr₁.trans (hr₂.trans (hr₃.trans hr₄))))).bind fun _ _ _ _ => ?_
    exact expectEnd_goes.last
  · refine (modify_goes ⟨rfl, rfl⟩).bind fun _ _ _ _ => ?_
    split
    · exact report_goes
    · exact .pure trivial

theorem routineDefinition_goes (h : nested.AgreeBeyond r nested') (hend : r.atEnd = false) :
    Goes (routineDefinition nested) (routineDefinition nested') r r.Taken := by
  refine .beyondWord hend fun keyword r₁ htaken => ?_
  refine .look_bind ?_
  extract_lets rest rest'
  have hrest : ∀ u r₂, r₁.Reaches r₂ → Goes (rest u) (rest' u) r₂ Anyhow := by
    intro u r₂ hr₂
    refine returnType_goes.bind fun _ r₃ hr₃ _ => definedName_goes.bind fun name r₄ hr₄ _ => ?_
    split
    extract_lets body body'
    have hbody : ∀ classId, Goes (body classId) (body' classId) r₄ Anyhow := fun _ =>
      routineBody_goes (h r₄ (htaken.trans (hr₂.trans (hr₃.trans hr₄))))
    split
    · exact hbody none
    · exact .look_bind (hbody _)
  split
  · exact report_goes.bind fun u r₂ hr₂ _ => hrest u r₂ hr₂
  · exact hrest () r₁ (.refl r₁)

theorem fieldDeclarations_goes : Forward (fieldDeclarations id line) r
      fun _ r' => r.atEnd = false → r.peek.line ≤ line → r.Passes r' := by
  refine declarators_goes.attempt.bind fun found r₁ hr₁ hfound => ?_
  split
  · rename_i declarations
    have htaken := hfound declarations rfl
    refine endOfStatement_goes.bind fun _ r₂ hr₂ _ => ?_
    refine (modify_goes ⟨rfl, rfl⟩).mono fun _ r₃ hr₃ _ _ _ => htaken.trans (hr₂.trans hr₃)
  · rcases hr₁.passes_or_peek with hpass | ⟨hpeek, hsame⟩
    · exact skipLine_goes.mono fun _ _ hr₂ _ _ _ => hpass.trans hr₂
    · by_cases hstands : r.atEnd = false ∧ r.peek.line ≤ line
      · refine (skipLine_passes (hsame.trans hstands.1) (hpeek ▸ hstands.2)).mono ?_
        exact fun _ _ _ htaken _ _ => hr₁.passes htaken
      · exact skipLine_goes.mono fun _ _ _ _ hend hline => absurd ⟨hend, hline⟩ hstands

theorem member_goes (h : nested.Agree r nested') (hend : r.atEnd = false)
    (hline : r.peek.line ≤ line) :
    Goes (member nested id name line) (member nested' id name line) r r.Taken := by
  refine .look_bind ?_
  split
  · exact h.routine r (.refl r) hend
  · exact h.routine r (.refl r) hend
  · exact h.classDef r (.refl r) hend
  · exact (advance_passes hend).bind fun _ _ _ htaken => fieldDeclarations_goes.beyond htaken
  · exact fieldDeclarations_goes.mono fun _ _ _ htaken => htaken hend hline
  · exact fieldDeclarations_goes.mono fun _ _ _ htaken => htaken hend hline
  · refine report_goes.bind fun _ r₁ hr₁ _ => ?_
    rcases hr₁.passes_or_peek with hpass | ⟨hpeek, hsame⟩
    · exact skipLine_goes.beyond hpass
    · exact (skipLine_passes (hsame.trans hend) (hpeek ▸ hline)).mono fun _ _ _ htaken =>
        hr₁.passes htaken

theorem classItem_goes (h : nested.Agree r nested') (u : Unit) :
    Goes (classItem nested id name u) (classItem nested' id name u) r r.TakesTurn := by
  refine .get_bind ?_
  split
  · exact .pure nofun
  · rename_i hmore
    have hend : r.atEnd = false := by
      cases hend : r.atEnd with
      | false => rfl
      | true => simp [hend] at hmore
    extract_lets line
    refine acceptAny?_stays.bind fun modifier r₁ hr₁ hmodifier => ?_
    split
    · -- Without a modifier the reader has not moved, so the member is on its line.
      obtain rfl := hmodifier.2 rfl
      exact (member_goes h hend (Nat.le_refl _)).bind fun _ _ _ htaken => .pure fun _ => htaken
    · have htaken := hmodifier.1 rfl
      refine Goes.mono (Q := r.TakesTurn) (Goes.beyond (P := Anyhow) ?_ htaken)
        fun _ _ _ hpass _ => hpass
      refine .look_bind ?_
      split
      · rename_i hline
        have hend₁ := Reader.not_atEnd_of_onLine hline
        have hon : r₁.peek.line = line := by simpa [Reader.onLine, hend₁] using hline
        refine (member_goes (h.from hr₁) hend₁ (Nat.le_of_eq hon)).bind fun _ _ _ _ => ?_
        exact .pure trivial
      · exact report_goes.last

theorem registerClass_goes :
    Forward (registerClass id name span) r Anyhow := by
  refine .get_bind ?_
  split
  · exact report_goes
  · split
    · exact .pure trivial
    · exact modify_goes ⟨rfl, rfl⟩

theorem openClass_goes {nameSpan span : Span} :
    Forward (openClass name nameSpan span) r Anyhow :=
  .look_bind ((modify_goes ⟨rfl, rfl⟩).bind fun _ _ _ _ =>
    registerClass_goes.last)

theorem classDefinition_goes (h : nested.AgreeBeyond r nested') (hend : r.atEnd = false) :
    Goes (classDefinition nested) (classDefinition nested') r r.Taken := by
  refine .beyondWord hend fun keyword r₁ htaken => ?_
  refine .look_bind ?_
  extract_lets rest rest'
  have hrest : ∀ u r₂, r₁.Reaches r₂ → Goes (rest u) (rest' u) r₂ Anyhow := by
    intro u r₂ hr₂
    refine definedName_goes.bind fun name r₃ hr₃ _ => endOfStatement_goes.bind fun _ r₄ hr₄ _ => ?_
    refine openClass_goes.bind fun id r₅ hr₅ _ => ?_
    refine (inFreshBlock_goes fun r₆ hr₆ => ?_).bind fun _ _ _ _ => modify_goes ⟨rfl, rfl⟩
    refine (Goes.iterate fun u r₇ hr₇ => ?_).bind fun _ _ _ _ => expectEnd_goes
    have hr₂₇ := hr₂.trans (hr₃.trans (hr₄.trans (hr₅.trans (hr₆.trans hr₇))))
    exact (classItem_goes (h r₇ (htaken.trans hr₂₇)) u).anyhow
  split
  · exact report_goes.bind fun u r₂ hr₂ _ => hrest u r₂ hr₂
  · exact hrest () r₁ (.refl r₁)

end Primer.Grammar
