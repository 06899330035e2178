/-
What statements open.

A statement opens the blocks that it is made of, and a block everything that is written in it.  Where a
branch or a case is reported and left out, its block has been opened all the same.
-/
import Primer.Proofs.Nesting.Rules

namespace Primer.Grammar

variable {tokens : Array Token} {fails : Prop} {past : List Region} {nested : Nested}

/-- Statements open blocks, definitions open routines and classes. -/
structure Nested.Opens (tokens : Array Token) (nested : Nested) : Prop where
  statement : ∀ fails past, Grammar.Opens tokens fails (Only (· = .block)) past nested.statement
    fun found => past ++ found.elim [] Stmt.regions
  routine : ∀ fails past, Grammar.Opens tokens fails (Only (· ≠ .block)) past nested.routine fun _ => past
  classDef : ∀ fails past, Grammar.Opens tokens fails (Only (· ≠ .block)) past nested.classDef fun _ => past

/-! ### Blocks -/

theorem blockItem_opens (hn : nested.Opens tokens) {statements : List Stmt} :
    Opens tokens fails (Only fun _ => True) (Stmt.regionsIn statements.reverse) (blockItem nested statements)
      fun next => next.elim (Stmt.regionsIn statements.reverse) fun found =>
        Stmt.regionsIn found.reverse := by
  refine .step get_gives fun r _ => ?_
  extract_lets kind
  clear_value kind
  split
  · exact .pure (.refl _)
  · split
    · exact ((hn.routine _ _).shaped (.mono fun _ _ => trivial)).bind fun _ => .pure (.refl _)
    · exact ((hn.routine _ _).shaped (.mono fun _ _ => trivial)).bind fun _ => .pure (.refl _)
    · exact ((hn.classDef _ _).shaped (.mono fun _ _ => trivial)).bind fun _ => .pure (.refl _)
    · refine ((hn.statement _ _).shaped (.mono fun _ _ => trivial)).bind fun found => ?_
      cases found with
      | none => exact .pure (by simp)
      | some s => exact .pure (by simp [Stmt.regionsIn_append, Stmt.regionsIn])

/-- A block opens a single region. -/
theorem block_opens (hn : nested.Opens tokens) :
    Opens tokens fails (Single .block) past (block nested)
      fun body => past ++ [Stmt.blockRegion body] := by
  have hitems : Opens tokens False (Only fun _ => True) (Stmt.regionsIn ([] : List Stmt).reverse)
      (iterate (blockItem nested) []) fun statements => Stmt.regionsIn statements.reverse :=
    .iterate fun _ => blockItem_opens hn
  intro count r htokens hcount
  refine Yields.look_bind (Yields.modify_bind (Yields.bind ?_))
  refine (hitems count { r with layout := r.layout.pushScope } htokens hcount).mono ?_
    fun _ he => he.1.elim
  rintro statements r' ⟨inside, hinside, -, hkept⟩
  refine Yields.modify_bind (Yields.pure ⟨[.mk .block inside], hinside.closeBlock, ⟨inside, rfl⟩, ?_⟩)
  exact fun flawed hflawed before hbefore =>
    hbefore.append (.block (hkept flawed hflawed [] .nil) .nil)

/-- As part of a statement. -/
theorem innerBlock_opens (hn : nested.Opens tokens) :
    Opens tokens fails (Only (· = .block)) past (block nested)
      fun body => past ++ [Stmt.blockRegion body] :=
  (block_opens hn).shaped (Single.only (by rfl))

/-! ### Choices -/

/-- The blocks of branches, latest first, and of what is done otherwise. -/
def choiceRegions (found : List (Branch Stmt) × Option (Block Stmt)) : List Region :=
  Stmt.branchRegions found.1.reverse ++ Stmt.optionRegions found.2

theorem choiceRegions_cons (b : Branch Stmt) (branches : List (Branch Stmt)) :
    choiceRegions (b :: branches, none) = choiceRegions (branches, none) ++ [Stmt.blockRegion b.body] := by
  simp [choiceRegions, Stmt.optionRegions, Stmt.branchRegions_append, Stmt.branchRegions]

theorem choiceRegions_some (branches : List (Branch Stmt)) (body : Block Stmt) :
    choiceRegions (branches, some body) = choiceRegions (branches, none) ++ [Stmt.blockRegion body] := by
  simp [choiceRegions, Stmt.optionRegions]

theorem branch_opens (hn : nested.Opens tokens) {keyword : Token} :
    Opens tokens fails (Only (· = .block)) past (branch nested keyword)
      fun b => past ++ [Stmt.blockRegion b.body] :=
  .step test_gives fun _ _ => .step (lastWord_gives rfl) fun _ _ =>
    (innerBlock_opens hn).bind fun _ => .pure (.refl _)

theorem elseBranch_opens (hn : nested.Opens tokens) {branches : List (Branch Stmt)}
    {otherwise : Option (Block Stmt)} :
    Opens tokens fails (Only (· = .block)) (choiceRegions (branches, otherwise))
      (elseBranch nested branches otherwise)
      fun next => next.elim (choiceRegions (branches, otherwise)) choiceRegions := by
  refine .step acceptAny?_gives fun found hfound => ?_
  split
  · exact .pure (.refl _)
  · rename_i elseToken
    have helse : Place tokens elseToken.span := .token (hfound _ rfl)
    refine .step get_gives fun r _ => ?_
    split
    · refine .step advance_gives fun ifToken hif => (branch_opens hn).bind fun next => ?_
      split
      · exact (Opens.leaveOut (report_gives (.cover helse (.token hif)) rfl)).bind fun _ => .pure (.refl _)
      · rename_i hnone
        obtain rfl : otherwise = none := by simpa using hnone
        exact .pure (.of_eq (choiceRegions_cons next branches).symm)
    · refine .step endOfStatement_gives fun _ _ => (innerBlock_opens hn).bind fun body => ?_
      split
      · exact (Opens.leaveOut (report_gives helse rfl)).bind fun _ => .pure (.refl _)
      · rename_i hnone
        obtain rfl : otherwise = none := by simpa using hnone
        exact .pure (.of_eq (choiceRegions_some branches body).symm)

theorem ifStatement_opens (hn : nested.Opens tokens) :
    Opens tokens fails (Only (· = .block)) [] (ifStatement nested) Stmt.regions := by
  refine .step advance_gives fun opener hopener => .step test_gives fun condition _ => ?_
  refine .step (lastWord_gives rfl) fun _ _ => ?_
  refine Opens.bind (T := choiceRegions) (inBlock_opens ?_) fun found => ?_
  · refine (innerBlock_opens hn).bind fun body => ?_
    refine Opens.bind (.iterate fun found => elseBranch_opens hn) fun all => ?_
    exact .step (expectEnd_gives hopener) fun _ _ => .pure (.refl _)
  · exact .step previous_gives fun _ _ => .pure (.refl _)

/-- The blocks of cases, latest first, and of what is done otherwise. -/
def casesRegions (found : Cases) : List Region :=
  Stmt.caseRegions found.1.reverse ++ Stmt.optionRegions found.2

/-- A case may come after what is done otherwise, which stays at the end. -/
theorem casesRegions_cons (c : Case Stmt) (found : Cases) :
    (casesRegions found ++ [Stmt.blockRegion c.body]).Perm (casesRegions (c :: found.1, found.2)) := by
  simp only [casesRegions, List.reverse_cons, Stmt.caseRegions_append, Stmt.caseRegions,
    List.append_assoc]
  exact List.Perm.append_left _ List.perm_append_comm

theorem casesRegions_some (cases : List (Case Stmt)) (body : Block Stmt) :
    casesRegions (cases, some body) = casesRegions (cases, none) ++ [Stmt.blockRegion body] := by
  simp [casesRegions, Stmt.optionRegions]

theorem selectItem_opens (hn : nested.Opens tokens) {found : Cases} :
    Opens tokens fails (Only (· = .block)) (casesRegions found) (selectItem nested found)
      fun next => next.elim (casesRegions found) casesRegions := by
  obtain ⟨cases, otherwise⟩ := found
  refine .step get_gives fun r htokens => ?_
  extract_lets token
  have htoken : Place tokens token.span := htokens ▸ .token r.peek_mem
  split
  · refine .step advance_gives fun caseToken _ => .step caseLabels_gives fun labels _ => ?_
    exact (innerBlock_opens hn).bind fun body => .pure
      (casesRegions_cons ⟨labels, body, caseToken.span.cover body.span⟩ (cases, otherwise))
  · refine .step advance_gives fun defaultToken hdefault => .step (lastWord_gives rfl) fun _ _ => ?_
    refine (innerBlock_opens hn).bind fun body => ?_
    split
    · exact (Opens.leaveOut (report_gives (.token hdefault) rfl)).bind fun _ => .pure (.refl _)
    · rename_i hnone
      obtain rfl : otherwise = none := by simpa using hnone
      exact .pure (.of_eq (casesRegions_some cases body).symm)
  · exact .pure (.refl _)
  · exact .pure (.refl _)
  · split
    · exact .pure (.refl _)
    · exact .step (report_gives htoken rfl) fun _ _ => .step skipLine_gives fun _ _ => .pure (.refl _)

theorem selectStatement_opens (hn : nested.Opens tokens) :
    Opens tokens fails (Only (· = .block)) [] (selectStatement nested) Stmt.regions := by
  refine .step advance_gives fun opener hopener => ?_
  refine .step (subject_accounts hopener).alone fun value _ => .step endOfStatement_gives fun _ _ => ?_
  refine Opens.bind (T := casesRegions) (inBlock_opens ?_) fun found => ?_
  · refine Opens.bind (.iterate fun found => selectItem_opens hn) fun all => ?_
    exact .step (expectEnd_gives hopener) fun _ _ => .pure (.refl _)
  · exact .step previous_gives fun _ _ => .pure (.refl _)

/-! ### Loops -/

theorem loopBody_opens (hn : nested.Opens tokens) {kind : BlockKind} {opener : Token}
    (hopener : opener ∈ tokens) :
    Opens tokens fails (Only (· = .block)) past (loopBody nested kind opener)
      fun body => past ++ [Stmt.blockRegion body] :=
  inLoop_opens (inBlock_opens ((innerBlock_opens hn).bind fun _ =>
    .step (expectEnd_gives hopener) fun _ _ => .pure (.refl _)))

theorem whileStatement_opens (hn : nested.Opens tokens) :
    Opens tokens fails (Only (· = .block)) [] (whileStatement nested) Stmt.regions :=
  .step advance_gives fun _ hopener => .step test_gives fun _ _ => .step endOfStatement_gives fun _ _ =>
    (loopBody_opens hn hopener).bind fun _ => .step previous_gives fun _ _ => .pure (.refl _)

theorem doStatement_opens (hn : nested.Opens tokens) :
    Opens tokens fails (Only (· = .block)) [] (doStatement nested) Stmt.regions :=
  .step advance_gives fun _ hopener => .step endOfStatement_gives fun _ _ =>
    (inLoop_opens (inBlock_opens (innerBlock_opens hn))).bind fun _ =>
      .step (loopTest_accounts hopener).alone fun _ _ => .step previous_gives fun _ _ => .pure (.refl _)

theorem forStatement_opens (hn : nested.Opens tokens) :
    Opens tokens fails (Only (· = .block)) [] (forStatement nested) Stmt.regions := by
  refine .step advance_gives fun opener hopener => .step accept_gives fun _ _ => ?_
  have hspan : Place tokens opener.span := .token hopener
  split
  · refine .step (headerOr_accounts forEachHeader_gives fun _ h =>
      ⟨grounded_invalid hspan h, grounded_invalid hspan h⟩).alone fun header _ => ?_
    exact (loopBody_opens hn hopener).bind fun _ => .step previous_gives fun _ _ => .pure (.refl _)
  · refine .step (headerOr_accounts forHeader_gives fun _ h =>
      groundedHeader_never hspan h).alone fun header _ => ?_
    exact (loopBody_opens hn hopener).bind fun _ => .step previous_gives fun _ _ => .pure (.refl _)

/-! ### Any statement -/

/-- A statement without blocks opens nothing. -/
theorem simple_opens {x : Read Stmt}
    (h : Gives .plainly tokens fails Nothing x (GroundedSimple tokens)) :
    Opens tokens fails (Only (· = .block)) [] x Stmt.regions := by
  rw [← bind_pure x]
  exact .step h fun _ hs => .pure (.of_eq (Stmt.regions_of_isSimple hs.simple).symm)

theorem statementOrAbandon_opens (hn : nested.Opens tokens) :
    Opens tokens True (Only (· = .block)) [] (statementOrAbandon nested) Stmt.regions := by
  refine .step get_gives fun r htokens => ?_
  split
  · exact .step advance_gives fun _ hkeyword => simple_opens (declarationStatement_gives (.token hkeyword))
  · exact .step advance_gives fun _ hkeyword => simple_opens (declarationStatement_gives (.token hkeyword))
  · exact simple_opens missingDeclare_gives
  · exact simple_opens setStatement_gives
  · exact simple_opens displayStatement_gives
  · exact simple_opens inputStatement_gives
  · exact simple_opens callStatement_gives
  · exact ifStatement_opens hn
  · exact selectStatement_opens hn
  · exact whileStatement_opens hn
  · exact doStatement_opens hn
  · exact forStatement_opens hn
  · exact simple_opens returnStatement_gives
  · exact simple_opens jumpStatement_gives
  · exact simple_opens jumpStatement_gives
  · exact simple_opens stopStatement_gives
  · split
    · exact simple_opens missingDeclare_gives
    · exact simple_opens bareStatement_gives
  · exact simple_opens (abandon_gives (htokens ▸ .token r.peek_mem) (unexpectedToken_isError _))

theorem statement_opens (hn : nested.Opens tokens) :
    Opens tokens fails (Only (· = .block)) past (statement nested)
      fun found => past ++ found.elim [] Stmt.regions := by
  refine Opens.behind (.step peek_gives fun first _ => ?_)
  refine (statementOrAbandon_opens hn).attempt.bind fun found => ?_
  cases found with
  | some s => exact .pure (.refl _)
  | none => exact .step skipLine_gives fun _ _ => .pure (.refl _)

end Primer.Grammar
