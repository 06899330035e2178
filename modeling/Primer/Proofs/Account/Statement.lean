/-
Statements account for themselves.

A statement that holds no other statements is read like an expression.  Wherever one is given up, or
something is put in the place of a part that could not be read, an error was reported before; the
companions of such steps are the steps that do not help themselves.
-/
import Primer.Proofs.Account.Declaration
import Primer.Proofs.Grammar.Statement

namespace Primer.Grammar

variable {K : Course} {tokens : Array Token} {fails : Prop} {old : Prop → Prop} {opener : Token}
  {flawed : Prop} {span : Span} {line : Nat}

theorem unexpectedToken_isError (token : Token) : (unexpectedToken token).isError = true := by
  unfold unexpectedToken
  split <;> rfl

/-! ### Assignment, output, input and calls -/

theorem assignmentOperator_gives : Gives K tokens True old assignmentOperator Whatever := by
  refine accept_gives.known fun _ _ => ?_
  split
  · exact .done
  · refine acceptAny?_gives.known fun found hfound => ?_
    split
    · exact remark_gives (.token (hfound _ rfl))
    · exact (expect_gives rfl).known fun _ _ => .done

theorem checkAssignable_gives (place : Expr)
    (hplace : ∀ flawed, old flawed → Grounded tokens flawed place) :
    Gives K tokens fails old (checkAssignable place) Whatever := by
  fun_induction checkAssignable place generalizing old with
  | case1 => exact .done
  | case2 id name span =>
    refine .given (fun flawed h => (hplace flawed h).span) fun hspan => ?_
    refine looks_gives.known fun _ _ => ?_
    split
    · exact remark_gives hspan
    · exact .done
  | case3 base indices span ih => exact ih fun flawed h => (hplace flawed h).2.1
  | case4 => exact .done
  | case5 other =>
    refine .given (fun flawed h => (hplace flawed h).span) fun hspan => ?_
    exact remark_gives hspan

theorem setStatement_gives : Gives K tokens True old setStatement (GroundedSimple tokens) := by
  refine advance_gives.known fun keyword hkeyword => target_gives.bind fun place => ?_
  refine assignmentOperator_gives.known fun _ _ => expression_gives.bind fun value => ?_
  refine (checkAssignable_gives place fun _ h => h.2.1).known fun _ _ => ?_
  refine endOfStatement_gives.known fun _ _ => .pure ?_
  rintro flawed ⟨hvalue, hplace, -⟩
  exact ⟨⟨.cover (.token hkeyword) hvalue.span, hplace, hvalue⟩, rfl⟩

/-- The span of the last expression, or another one. -/
theorem place_last {items : List Expr} (hspan : Place tokens span)
    (hitems : ∀ e ∈ items, Grounded tokens flawed e) :
    Place tokens ((items.getLast?.map Expr.span).getD span) := by
  cases hlast : items.getLast? with
  | none => exact hspan
  | some e => exact (hitems e (List.mem_of_getLast? hlast)).span

theorem displayStatement_gives :
    Gives K tokens True old displayStatement (GroundedSimple tokens) := by
  refine advance_gives.known fun keyword hkeyword => onLine_gives.known fun _ _ => ?_
  extract_lets finish
  have hfinish : ∀ items old, (∀ flawed, old flawed → ∀ e ∈ items, Grounded tokens flawed e) →
      Gives K tokens True old (finish items) (GroundedSimple tokens) := fun items old hitems =>
    endOfStatement_gives.known fun _ _ => .pure fun flawed h =>
      ⟨⟨.cover (.token hkeyword) (place_last (.token hkeyword) (hitems flawed h)), hitems flawed h⟩, rfl⟩
  split
  · exact (commaSeparated_gives expression_gives).bind fun items => hfinish items _ fun _ h => h.1
  · exact hfinish [] _ (by simp)

theorem inputStatement_gives : Gives K tokens True old inputStatement (GroundedSimple tokens) := by
  refine advance_gives.known fun keyword hkeyword => onLine_gives.known fun _ _ => ?_
  split
  · refine target_gives.bind fun place => ?_
    refine (checkAssignable_gives place fun _ h => h.1).known fun _ _ => ?_
    exact endOfStatement_gives.known fun _ _ => .pure fun _ h =>
      ⟨⟨.cover (.token hkeyword) h.1.span, h.1⟩, rfl⟩
  · exact missingSpan_gives.known fun _ hspan => abandon_gives hspan rfl

/-- Whatever is no call was reported, by whoever read it or here. -/
theorem noCall_gives {place : Expr} {problem : Problem} {Q : Prop → Stmt → Prop}
    (hplace : ∀ flawed, old flawed → Grounded tokens flawed place) (herror : problem.isError = true) :
    Gives K tokens True old (if place.isInvalid then throw ⟨⟩ else abandon problem place.span)
      Q := by
  refine .given (fun flawed h => (hplace flawed h).span) fun hspan => ?_
  split
  · rename_i hinvalid
    exact .throw fun flawed h => (hplace flawed h).self.invalid hinvalid
  · exact abandon_gives hspan herror

theorem callStatement_gives : Gives K tokens True old callStatement (GroundedSimple tokens) := by
  refine advance_gives.known fun keyword hkeyword => looks_gives.known fun _ _ => ?_
  split
  · refine advance_gives.known fun name hname => (remark_gives (.token hname)).known fun _ _ => ?_
    refine (routineCall_gives hname fun _ _ => ⟨by simp, .token hname⟩).bind fun call => ?_
    exact endOfStatement_gives.known fun _ _ => .pure fun _ h =>
      ⟨⟨.cover (.token hkeyword) (.token hname), h.1⟩, rfl⟩
  · refine target_gives.bind fun call => ?_
    split
    · exact endOfStatement_gives.known fun _ _ => .pure fun _ h =>
        ⟨⟨.cover (.token hkeyword) h.1.span, h.1⟩, rfl⟩
    · exact noCall_gives (fun _ h => h.1) rfl

theorem missingDeclare_gives : Gives K tokens True old missingDeclare (GroundedSimple tokens) :=
  peek_gives.known fun _ htoken => (remark_gives (.token htoken)).known fun _ _ =>
    declarationStatement_gives (.token htoken)

theorem bareStatement_gives : Gives K tokens True old bareStatement (GroundedSimple tokens) := by
  refine peek_gives.known fun first hfirst => target_gives.bind fun place => ?_
  refine acceptAny?_gives.known fun found _ => ?_
  split
  · refine (remark_gives (.token hfirst)).known fun _ _ => expression_gives.bind fun value => ?_
    refine (checkAssignable_gives place fun _ h => h.2.1).known fun _ _ => ?_
    refine endOfStatement_gives.known fun _ _ => .pure ?_
    rintro flawed ⟨hvalue, hplace, -⟩
    exact ⟨⟨.cover (.token hfirst) hvalue.span, hplace, hvalue⟩, rfl⟩
  · split
    · exact (remark_gives (.token hfirst)).known fun _ _ => endOfStatement_gives.known fun _ _ =>
        .pure fun _ h => ⟨⟨h.1.span, h.1⟩, rfl⟩
    · exact noCall_gives (fun _ h => h.1) rfl

/-! ### Tests and headers

What is read in the place of a test or header agrees with reading the test or header itself, unless
an error is reported.
-/

theorem asTest_accounts {α : Type} {x y : Read α} {Q : Prop → α → Prop}
    (h : Accounts K tokens True old x y Q) :
    Accounts K tokens fails old (some <$> asTest x) (asTest (attempt y))
      fun flawed found => found.elim flawed (Q flawed) := by
  intro count r htokens hcount hold
  have hy := (h.insist : Accounts K tokens False old (some <$> x) (attempt y) _) count
    { r with inTest := true } htokens hcount hold
  refine Yields.get_bind (Yields.modify_bind (Yields.bind (hy.mono ?_ fun _ he => he.2.1.elim)))
  rintro found r' ⟨hsame, hleads, hQ⟩
  refine ⟨hsame.imp_left fun hx => ?_, K.test true hleads, hQ⟩
  simp only [Functor.map, EStateM.map] at hx
  cases hres : x { r with inTest := true } with
  | error _ _ => simp [hres] at hx
  | ok a r₁ =>
    simp only [hres, EStateM.Result.ok.injEq] at hx
    obtain ⟨rfl, rfl⟩ := hx
    show EStateM.map some (asTest x) r = _
    have hinside : asTest x r = .ok a { r₁ with inTest := r.inTest } := by
      show EStateM.bind x _ { r with inTest := true } = _
      simp only [EStateM.bind, hres]
      rfl
    simp only [EStateM.map, hinside]

theorem test_accounts {keyword : Token} {stops : List TokenKind} {fallback : Bool} :
    Accounts K tokens fails old (asTest expression) (test keyword stops fallback) (Grounded tokens) := by
  refine .get_right fun r htokens => ?_
  have hspan : Place tokens r.missingSpan := htokens ▸ r.place_missingSpan
  split
  · exact .apart ((report_gives hspan rfl).bind fun _ => .pure fun _ h =>
      ⟨h.1, GroundedNode.valid hspan rfl⟩)
  · refine (asTest_accounts expression_gives).fallBack (fun _ => rfl) ?_
    exact peek_gives.known fun here hhere => skipWhile_gives.known fun _ _ => .pure fun _ _ =>
      GroundedNode.valid (.token hhere) rfl

theorem test_gives {keyword : Token} {stops : List TokenKind} {fallback : Bool} :
    Gives K tokens fails old (test keyword stops fallback) (Grounded tokens) :=
  test_accounts.alone

theorem lastWord_gives {kind : TokenKind} {problem : Problem} (herror : problem.isError = true) :
    Gives K tokens fails old (lastWord kind problem) Whatever := by
  refine accept_gives.known fun _ _ => ?_
  extract_lets finish
  split
  · exact endOfStatement_gives
  · exact (reportMissing_gives herror).bind fun _ => endOfStatement_gives

theorem label?_accounts :
    Accounts K tokens fails old (some <$> expression) (label? line)
      fun flawed found => found.elim flawed (Grounded tokens flawed) := by
  rw [map_eq_pure_bind]
  refine expression_gives.insist.recover (fun found => .pure fun _ h => h.1) ?_
  exact skipWhile_gives.known fun _ _ => .pure fun _ h => h.1

theorem nextLabel_gives {found : List Expr × Bool}
    (hfound : ∀ flawed, old flawed → ∀ e ∈ found.1, Grounded tokens flawed e) :
    Gives K tokens fails old (nextLabel line found)
      fun flawed next => next.elim True fun found => ∀ e ∈ found.1, Grounded tokens flawed e := by
  obtain ⟨found, complete⟩ := found
  cases complete with
  | false => exact .pure fun _ _ => trivial
  | true =>
    refine accept_gives.known fun _ _ => ?_
    split
    · refine label?_accounts.alone.bind fun next => ?_
      split
      · refine .pure fun flawed h e he => ?_
        rcases List.mem_cons.mp he with rfl | he
        · exact h.1
        · exact hfound flawed h.2 e he
      · exact .pure fun flawed h => hfound flawed h.2
    · exact .pure fun _ _ => trivial

theorem labels_gives :
    Gives K tokens fails old (labels line) fun flawed found => ∀ e ∈ found, Grounded tokens flawed e := by
  refine label?_accounts.alone.bind fun first => ?_
  split
  · exact .pure fun _ _ => by simp
  · refine .bind (.iterate (Q := fun flawed (found : List Expr × Bool) =>
      ∀ e ∈ found.1, Grounded tokens flawed e) ?_ fun found => nextLabel_gives fun _ h => h.1)
      fun found => .pure fun flawed h e he => h.1 e (List.mem_reverse.mp he)
    rintro flawed h e he
    obtain rfl := List.mem_singleton.mp he
    exact h.1

theorem caseLabels_gives {token : Token} :
    Gives K tokens fails old (caseLabels token)
      fun flawed found => ∀ e ∈ found, Grounded tokens flawed e := by
  refine get_gives.known fun r htokens => ?_
  extract_lets finish
  have hfinish : ∀ found old, (∀ flawed, old flawed → ∀ e ∈ found, Grounded tokens flawed e) →
      Gives K tokens fails old (finish found) fun flawed found => ∀ e ∈ found, Grounded tokens flawed e :=
    fun found old h => (lastWord_gives rfl).known fun _ _ => .pure h
  split
  · exact (remark_gives (htokens ▸ r.place_missingSpan)).known fun _ _ => hfinish [] _ (by simp)
  · exact labels_gives.bind fun found => hfinish found _ fun _ h => h.1

theorem subject_accounts (hopener : opener ∈ tokens) :
    Accounts K tokens fails old expression (subject opener) (Grounded tokens) := by
  refine .look_right fun r _ => ?_
  split
  · refine expression_gives.insist.fallBack (fun _ => rfl) ?_
    exact skipLine_gives.known fun _ _ => .pure fun _ h => ⟨.token hopener, fun _ => h.1⟩
  · exact .apart (missingSpan_gives.known fun _ hspan => (report_gives hspan rfl).bind fun _ =>
      .pure fun _ h => ⟨h.1, hspan, fun _ => h.1⟩)

/-! ### Headers of loops -/

theorem loopWord_gives : Gives K tokens fails old loopWord Whatever := by
  refine accept_gives.known fun _ _ => ?_
  split
  · exact .done
  · refine accept_gives.known fun _ _ => ?_
    split
    · exact .done
    · exact (reportMissing_gives rfl).bind fun _ => .done

/-- The test that ends a `Do`, where it has to be there. -/
def givenLoopTest : Read (Expr × Bool) := do
  match ← acceptAny? [.kwLoop] with
  | some _ =>
    let exit ← loopWord
    let condition ← asTest expression
    endOfStatement
    pure (condition, exit)
  | none => throw ⟨⟩

theorem loopTest_accounts (hopener : opener ∈ tokens) :
    Accounts K tokens fails old givenLoopTest (loopTest opener)
      fun flawed found => Grounded tokens flawed found.1 := by
  refine acceptAny?_gives.known fun found _ => ?_
  cases found with
  | some loopToken =>
    exact loopWord_gives.known fun exit _ => test_accounts.bind fun condition =>
      endOfStatement_gives.known fun _ _ => .pure fun _ h => h.1
  | none =>
    refine .apart ((report_gives (.token hopener) rfl).bind fun _ => get_gives.known fun r _ => ?_)
    extract_lets finish
    have hfinish : ∀ u (old : Prop → Prop), (∀ flawed, old flawed → flawed) →
        Gives K tokens fails old (finish u)
          fun flawed found => flawed ∧ Grounded tokens flawed found.1 :=
      fun _ _ hold => .pure fun flawed h => ⟨hold flawed h, GroundedNode.valid (.token hopener) rfl⟩
    split
    · exact advance_gives.known fun _ _ => advance_gives.known fun _ _ =>
        endOfStatement_gives.known fun u _ => hfinish u _ fun _ h => h.1
    · exact hfinish () _ fun _ h => h.1

theorem headerOr_accounts {α : Type} {header : Read α} {fallback : α} {Q : Prop → α → Prop}
    (h : ∀ {old}, Gives K tokens True old header Q)
    (hfallback : ∀ flawed : Prop, flawed → Q flawed fallback) :
    Accounts K tokens fails old (do let found ← header; endOfStatement; pure found)
      (headerOr header opener fallback) Q :=
  h.insist.recover (fun _ => endOfStatement_gives.known fun _ _ => .pure fun _ h => h.1)
    (skipLine_gives.known fun _ _ => .pure fun flawed h => hfallback flawed h.1)

/-- Everything in the first line of a counted loop is grounded. -/
structure GroundedHeader (tokens : Array Token) (flawed : Prop) (header : ForHeader) : Prop where
  counter : Grounded tokens flawed header.counter
  start : Grounded tokens flawed header.start
  stop : Grounded tokens flawed header.stop
  step : ∀ e ∈ header.step, Grounded tokens flawed e

/-- What stands for an expression that could not be read, where there is a flaw. -/
theorem grounded_invalid (hspan : Place tokens span) (h : flawed) :
    Grounded tokens flawed (.invalid span) :=
  ⟨hspan, fun _ => h⟩

theorem groundedHeader_never (hspan : Place tokens span) (h : flawed) :
    GroundedHeader tokens flawed (ForHeader.never span) where
  counter := grounded_invalid hspan h
  start := GroundedNode.valid hspan rfl
  stop := GroundedNode.valid hspan rfl
  step := by simp [ForHeader.never]

theorem forHeader_gives : Gives K tokens True old forHeader (GroundedHeader tokens) := by
  refine target_gives.bind fun counter => (checkAssignable_gives counter fun _ h => h.1).known fun _ _ => ?_
  refine assignmentOperator_gives.known fun _ _ => expression_gives.bind fun start => ?_
  refine (expect_gives rfl).known fun _ _ => expression_gives.bind fun stop => ?_
  refine accept_gives.known fun _ _ => ?_
  extract_lets finish
  split
  · refine expression_gives.map (R := fun flawed (step : Option Expr) =>
      ∀ e ∈ step, Grounded tokens flawed e) (fun _ _ h => by simpa using h) |>.bind fun step => ?_
    exact .pure fun _ h => ⟨h.2.2.2.1, h.2.2.1, h.2.1, h.1⟩
  · exact .pure fun _ h => ⟨h.2.2.1, h.2.1, h.1, by simp⟩

theorem forEachHeader_gives : Gives K tokens True old forEachHeader
    fun flawed found => Grounded tokens flawed found.1 ∧ Grounded tokens flawed found.2 := by
  refine target_gives.bind fun item => (checkAssignable_gives item fun _ h => h.1).known fun _ _ => ?_
  exact (expect_gives rfl).known fun _ _ => expression_gives.bind fun _ => .pure fun _ h =>
    ⟨h.2.1, h.1⟩

/-! ### Jumps -/

theorem returnStatement_gives : Gives K tokens True old returnStatement (GroundedSimple tokens) := by
  refine advance_gives.known fun keyword hkeyword => onLine_gives.known fun _ _ => ?_
  extract_lets finish
  have hfinish : ∀ value old, (∀ flawed, old flawed → ∀ e ∈ value, Grounded tokens flawed e) →
      Gives K tokens True old (finish value) (GroundedSimple tokens) := by
    intro value old hvalue
    refine .given (P := Place tokens (keyword.span.cover ((value.map Expr.span).getD keyword.span)))
      (fun flawed h => .cover (.token hkeyword) ?_) fun hspan => ?_
    · cases value with
      | none => exact .token hkeyword
      | some e => exact (hvalue flawed h e rfl).span
    refine looks_gives.known fun kind _ => ?_
    extract_lets give
    have hgive : ∀ kept, (∀ flawed, old flawed → ∀ e ∈ kept, Grounded tokens flawed e) →
        Gives K tokens True old (give kept) (GroundedSimple tokens) :=
      fun kept hkept => endOfStatement_gives.known fun _ _ => .pure fun flawed h =>
        ⟨⟨hspan, hkept flawed h⟩, rfl⟩
    split
    · exact (remark_gives (.token hkeyword)).known fun _ _ => hgive _ hvalue
    · exact (remark_gives hspan).known fun _ _ => hgive none (by simp)
    · exact (remark_gives (.token hkeyword)).known fun _ _ => hgive none (by simp)
    · exact hgive _ hvalue
  split
  · refine Accounts.bind (Q := fun flawed (value : Option Expr) => ∀ e ∈ value, Grounded tokens flawed e)
      (expression_gives.map fun _ _ h => by simpa using h) fun value => hfinish value _ fun _ h => h.1
  · exact hfinish none _ (by simp)

theorem jumpStatement_gives : Gives K tokens True old jumpStatement (GroundedSimple tokens) := by
  refine advance_gives.known fun token htoken => looks_gives.known fun _ _ => ?_
  extract_lets finish
  have hfinish : ∀ u (old : Prop → Prop),
      Gives K tokens True old (finish u) (GroundedSimple tokens) := by
    intro u old
    refine endOfStatement_gives.known fun _ _ => .pure fun _ _ => ?_
    split
    · exact ⟨Place.token htoken, rfl⟩
    · exact ⟨Place.token htoken, rfl⟩
  split
  · exact (remark_gives (.token htoken)).known fun u _ => hfinish u _
  · exact hfinish () _

theorem stopStatement_gives : Gives K tokens True old stopStatement (GroundedSimple tokens) :=
  advance_gives.known fun _ htoken => endOfStatement_gives.known fun _ _ => .pure fun _ _ =>
    ⟨Place.token htoken, rfl⟩

end Primer.Grammar
