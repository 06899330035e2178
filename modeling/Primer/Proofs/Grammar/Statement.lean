/-
Statements say only what may be said where they stand.

They mention what can be seen, assign no constants, declare what is kept there, return from routines
and jump inside of loops.  There is one lemma for each kind of statement.  Statements hold blocks and blocks hold
statements, so the proof for statements of depth `n + 1` takes the one for depth `n` as
given, and `Nested.sound_level` is the induction over the depth.
-/
import Primer.Grammar.Parse
import Primer.Proofs.Grammar.Routine

namespace Primer.Grammar

variable {home : Home} {fails : Prop} {old : List Note} {nested : Nested} {opener : Token}
  {line : Nat}

/-! ### Assignment, output, input and calls -/

theorem assignmentOperator_reads : Reads home True old assignmentOperator (fun _ => []) := by
  refine accept_reads.bind fun _ => ?_
  split
  · exact .pure (by simp)
  · refine acceptAny?_reads.bind fun found => ?_
    split
    · exact report_reads
    · exact expect_reads.bind fun _ => .pure (by simp)

/-- Where an error is reported, what is said may be out of order. -/
theorem report_excuses {problem : Problem} {span : Span} (notes : List Note) (h : problem.isError)
    (hnotes : ∀ n ∈ notes, ∀ r : Reader, r.Flawed → r.Allows home n) :
    Reads home fails old (report problem span) (fun _ => notes) := by
  rintro known r ⟨homes, hknown, hr⟩ _
  have hquiet := r.quiet_report (problem, span)
  refine ⟨hquiet.leads, ⟨homes, hknown, hr.quiet hquiet⟩, fun n hn => ?_⟩
  exact Or.inl (hnotes n hn _ ⟨_, Array.mem_push_self, h⟩)

theorem report_targets {problem : Problem} {span : Span} (h : problem.isError) (place : Expr) :
    Reads home fails old (report problem span) (fun _ => place.targetNotes) := by
  refine report_excuses _ h fun n hn r hflawed => ?_
  obtain ⟨x, -, rfl⟩ := List.mem_map.mp hn
  exact Or.inl hflawed

/-- To assign a constant is an error. -/
theorem checkAssignable_reads (place : Expr) (hplace : ∀ n ∈ place.notes, n ∈ old) :
    Reads home fails old (checkAssignable place) (fun _ => place.targetNotes) := by
  fun_induction checkAssignable place generalizing old with
  | case1 => exact .pure (by simp [Expr.targetNotes, Expr.named?])
  | case2 id name span =>
    intro known r hr hold
    have hpermits := hold (.mention id) (hplace _ (by simp [Expr.notes]))
    have hsees : r.Sees home id := hpermits.allows_of_not_jump rfl
    refine Yields.look_bind ?_
    split
    · exact report_targets rfl (.variableRef id name span) known r hr hold
    · rename_i hconstant
      refine ⟨.refl r, hr, fun n hn => ?_⟩
      obtain rfl : n = .target id := by simpa [Expr.targetNotes, Expr.named?] using hn
      exact Or.inl (Or.inr ⟨hsees.1, by simpa using hconstant⟩)
  | case3 base indices span ih =>
    refine (ih fun n hn => hplace n ?_).result (by simp [Expr.targetNotes, Expr.named?])
    rw [Expr.notes]
    exact List.mem_append_left _ hn
  | case4 => exact .pure (by simp [Expr.targetNotes, Expr.named?])
  | case5 other => exact report_targets rfl other

theorem setStatement_reads : Reads home True old setStatement Stmt.notes :=
  advance_reads.bind fun _ => target_reads.bind fun _ => assignmentOperator_reads.bind fun _ =>
    expression_reads.bind fun _ => (checkAssignable_reads _ (by simp +contextual)).bind fun _ =>
      endOfStatement_reads.bind fun _ => .pure (by grind [Stmt.notes])

theorem displayStatement_reads : Reads home True old displayStatement Stmt.notes := by
  refine advance_reads.bind fun _ => onLine_reads.bind fun _ => ?_
  extract_lets finish
  have hfinish : ∀ items old, (∀ n ∈ Expr.notesAll items, n ∈ old) →
      Reads home True old (finish items) Stmt.notes :=
    fun items old hitems => endOfStatement_reads.bind fun _ => .pure (by simpa [Stmt.notes])
  split
  · exact (commaSeparated_reads expression_reads).bind fun items => hfinish items _ (by grind)
  · exact hfinish [] _ (by simp)

theorem inputStatement_reads : Reads home True old inputStatement Stmt.notes := by
  refine advance_reads.bind fun _ => onLine_reads.bind fun _ => ?_
  split
  · exact target_reads.bind fun _ => (checkAssignable_reads _ (by simp +contextual)).bind fun _ =>
      endOfStatement_reads.bind fun _ => .pure (by grind [Stmt.notes])
  · exact look_reads.bind fun _ => abandon_reads

theorem callStatement_reads : Reads home True old callStatement Stmt.notes := by
  refine advance_reads.bind fun _ => look_reads.bind fun _ => ?_
  split
  · refine advance_reads.bind fun _ => report_reads.bind fun _ => ?_
    refine (routineCall_reads (by simp [Expr.notesAll])).bind fun _ => ?_
    exact endOfStatement_reads.bind fun _ => .pure (by simp +contextual [Stmt.notes])
  · refine target_reads.bind fun _ => ?_
    split
    · exact endOfStatement_reads.bind fun _ => .pure (by simp +contextual [Stmt.notes])
    · split
      · exact .throw
      · exact abandon_reads

theorem missingDeclare_reads (hs : home.HoldsStatements) :
    Reads home True old missingDeclare Stmt.notes :=
  peek_reads.bind fun _ => report_reads.bind fun _ => declarationStatement_reads hs

theorem bareStatement_reads : Reads home True old bareStatement Stmt.notes := by
  refine peek_reads.bind fun _ => target_reads.bind fun _ => acceptAny?_reads.bind fun found => ?_
  split
  · exact report_reads.bind fun _ => expression_reads.bind fun _ =>
      (checkAssignable_reads _ (by simp +contextual)).bind fun _ => endOfStatement_reads.bind fun _ =>
        .pure (by grind [Stmt.notes])
  · split
    · exact report_reads.bind fun _ => endOfStatement_reads.bind fun _ =>
        .pure (by simp +contextual [Stmt.notes])
    · split
      · exact .throw
      · exact abandon_reads

/-! ### Branches -/

theorem Reader.still_inTest (r : Reader) (inTest : Bool) : r.Still { r with inTest } :=
  ⟨⟨rfl, rfl, rfl, rfl⟩, rfl, fun _ hp => hp, fun _ hc => hc⟩

theorem asTest_reads {α : Type} {part : Read α} {m : α → List Note}
    (h : Reads home False [] part m) : Reads home fails old (asTest part) m := by
  intro known r hr _
  refine Yields.get_bind (Yields.modify_bind ((around_yields h hr (r.still_inTest true) (by simp)
    (fun r₂ => r₂.still_inTest _) ?_).mono ?_ (fun _ he => he.elim)))
  · exact fun r₂ hsame => ⟨hsame.openBlocks, hsame.loopDepth, rfl⟩
  · rintro a r' ⟨hleads, hr', r₂, hinside, he, hpermits⟩
    refine ⟨hleads, hr', fun v hv => (hpermits v hv).mono he (Nat.le_of_eq ?_)⟩
    rw [hinside.loopDepth, hleads.loopDepth]

theorem test_reads {keyword : Token} {stops : List TokenKind} {fallback : Bool} :
    Reads home fails old (test keyword stops fallback) Expr.notes := by
  refine get_reads.bind fun r => ?_
  split
  · exact report_reads.bind fun _ => .pure (by simp)
  · refine (asTest_reads expression_reads.attempt).bind fun result => ?_
    split
    · exact .pure (by simp +contextual)
    · exact peek_reads.bind fun _ => skipWhile_reads.bind fun _ => .pure (by simp)

theorem lastWord_reads {kind : TokenKind} {problem : Problem} :
    Reads home fails old (lastWord kind problem) (fun _ => []) := by
  refine accept_reads.bind fun _ => ?_
  extract_lets finish
  have hfinish : ∀ u (old : List Note), Reads home fails old (finish u) (fun _ => []) :=
    fun _ _ => endOfStatement_reads
  split
  · exact hfinish () _
  · exact reportMissing_reads.bind fun u => hfinish u _

theorem branch_reads (hn : nested.Sound) (hs : home.HoldsStatements) {keyword : Token} :
    Reads home fails old (branch nested keyword)
      (fun b => b.condition.notes ++ Stmt.blockNotes b.body) :=
  test_reads.bind fun _ => lastWord_reads.bind fun _ => (block_reads hn hs).bind fun _ =>
    .pure (by grind)

/-- The variables of the branches read so far and of what is done otherwise. -/
def choiceNotes (found : List (Branch Stmt) × Option (Block Stmt)) : List Note :=
  Stmt.branchNotes found.1 ++ Stmt.optionNotes found.2

theorem elseBranch_reads (hn : nested.Sound) (hs : home.HoldsStatements)
    {branches : List (Branch Stmt)} {otherwise : Option (Block Stmt)}
    (h : ∀ v ∈ choiceNotes (branches, otherwise), v ∈ old) :
    Reads home fails old (elseBranch nested branches otherwise) (·.elim [] choiceNotes) := by
  have hkept : ∀ {old'}, (∀ v ∈ old, v ∈ old') →
      Reads home fails old' (pure (some (branches, otherwise))) (·.elim [] choiceNotes) :=
    fun hold => .pure fun v hv => hold v (h v hv)
  have hbranches : ∀ v ∈ Stmt.branchNotes branches, v ∈ old :=
    fun v hv => h v (List.mem_append_left _ hv)
  refine acceptAny?_reads.bind fun found => ?_
  split
  · exact .pure (by simp)
  · refine get_reads.bind fun r => ?_
    split
    · refine advance_reads.bind fun _ => (branch_reads hn hs).bind fun next => ?_
      split
      · exact report_reads.bind fun _ => hkept (by simp +contextual)
      · refine .pure ?_
        simp only [Option.elim_some, choiceNotes, Stmt.branchNotes, Stmt.optionNotes]
        grind
    · refine endOfStatement_reads.bind fun _ => (block_reads hn hs).bind fun body => ?_
      split
      · exact report_reads.bind fun _ => hkept (by simp +contextual)
      · refine .pure ?_
        simp only [Option.elim_some, choiceNotes, Stmt.optionNotes]
        grind

theorem mem_branchNotes_reverse {branches : List (Branch Stmt)} {n : Note} :
    n ∈ Stmt.branchNotes branches.reverse ↔ n ∈ Stmt.branchNotes branches := by
  simp [Stmt.mem_branchNotes]

theorem ifStatement_reads (hn : nested.Sound) (hs : home.HoldsStatements) :
    Reads home fails old (ifStatement nested) Stmt.notes := by
  refine advance_reads.bind fun opener => test_reads.bind fun condition => ?_
  refine lastWord_reads.bind fun _ => ?_
  refine .bind (m := choiceNotes) (inBlock_reads ?_) fun found => ?_
  · refine (block_reads hn hs).bind fun body => ?_
    refine .bind (.iterate ?_ fun found => elseBranch_reads hn hs (by simp +contextual)) fun all =>
      expectEnd_reads.bind fun _ => .pure (by simp +contextual)
    simp only [choiceNotes, Stmt.branchNotes, Stmt.optionNotes]
    grind
  · split
    refine look_reads.bind fun _ => .pure ?_
    simp only [Stmt.notes, choiceNotes, List.mem_append, mem_branchNotes_reverse]
    grind

theorem label?_reads : Reads home fails old (label? line) Expr.notesOf := by
  refine expression_reads.attempt.bind fun found => ?_
  split
  · exact .pure (by simp +contextual)
  · exact skipWhile_reads.bind fun _ => .pure (by simp)

theorem nextLabel_reads {found : List Expr × Bool} (hfound : ∀ v ∈ Expr.notesAll found.1, v ∈ old) :
    Reads home fails old (nextLabel line found) (·.elim [] fun found => Expr.notesAll found.1) := by
  obtain ⟨found, complete⟩ := found
  cases complete with
  | false => exact .pure (by simp)
  | true =>
    refine accept_reads.bind fun _ => ?_
    split
    · refine label?_reads.bind fun next => ?_
      split
      · exact .pure (by grind)
      · exact .pure (by simpa using hfound)
    · exact .pure (by simp)

theorem labels_reads : Reads home fails old (labels line) Expr.notesAll := by
  refine label?_reads.bind fun first => ?_
  split
  · exact .pure (by simp)
  · refine .bind (.iterate (m := fun found => Expr.notesAll found.1) ?_ fun found => ?_)
      fun found => ?_
    · grind
    · exact nextLabel_reads (by simp +contextual)
    · split
      exact .pure (by grind)

theorem caseLabels_reads {token : Token} :
    Reads home fails old (caseLabels token) Expr.notesAll := by
  refine get_reads.bind fun r => ?_
  extract_lets finish
  have hfinish : ∀ found old, (∀ v ∈ Expr.notesAll found, v ∈ old) →
      Reads home fails old (finish found) Expr.notesAll :=
    fun found old h => lastWord_reads.bind fun _ => .pure h
  split
  · exact report_reads.bind fun _ => hfinish [] _ (by simp)
  · exact labels_reads.bind fun found => hfinish found _ (by simp +contextual)

/-- The variables of the cases read so far and of what is done otherwise. -/
def casesNotes (found : Cases) : List Note :=
  Stmt.caseNotes found.1 ++ Stmt.optionNotes found.2

theorem selectItem_reads (hn : nested.Sound) (hs : home.HoldsStatements) {found : Cases}
    (h : ∀ v ∈ casesNotes found, v ∈ old) :
    Reads home fails old (selectItem nested found) (·.elim [] casesNotes) := by
  obtain ⟨cases, otherwise⟩ := found
  have hkept : ∀ {old'}, (∀ v ∈ old, v ∈ old') →
      Reads home fails old' (pure (some (cases, otherwise))) (·.elim [] casesNotes) :=
    fun hold => .pure fun v hv => hold v (h v hv)
  have hcases : ∀ v ∈ Stmt.caseNotes cases, v ∈ old :=
    fun v hv => h v (List.mem_append_left _ hv)
  have hotherwise : ∀ v ∈ Stmt.optionNotes otherwise, v ∈ old :=
    fun v hv => h v (List.mem_append_right _ hv)
  refine get_reads.bind fun r => ?_
  extract_lets token
  split
  · refine advance_reads.bind fun _ => caseLabels_reads.bind fun labels => ?_
    refine (block_reads hn hs).bind fun body => .pure ?_
    simp only [Option.elim_some, casesNotes, Stmt.caseNotes]
    grind
  · refine advance_reads.bind fun _ => lastWord_reads.bind fun _ => ?_
    refine (block_reads hn hs).bind fun body => ?_
    split
    · exact report_reads.bind fun _ => hkept (by simp +contextual)
    · refine .pure ?_
      simp only [Option.elim_some, casesNotes, Stmt.optionNotes]
      grind
  · exact .pure (by simp)
  · exact .pure (by simp)
  · split
    · exact .pure (by simp)
    · exact report_reads.bind fun _ => skipLine_reads.bind fun _ => hkept (by simp +contextual)

theorem subject_reads : Reads home fails old (subject opener) Expr.notes := by
  refine onLine_reads.bind fun _ => ?_
  split
  · refine expression_reads.attempt.bind fun found => ?_
    split
    · exact .pure (by simp +contextual)
    · exact skipLine_reads.bind fun _ => .pure (by simp)
  · exact look_reads.bind fun _ => report_reads.bind fun _ => .pure (by simp)

theorem mem_caseNotes_reverse {cases : List (Case Stmt)} {n : Note} :
    n ∈ Stmt.caseNotes cases.reverse ↔ n ∈ Stmt.caseNotes cases := by
  simp [Stmt.mem_caseNotes]

theorem selectStatement_reads (hn : nested.Sound) (hs : home.HoldsStatements) :
    Reads home fails old (selectStatement nested) Stmt.notes := by
  refine advance_reads.bind fun opener => subject_reads.bind fun value => ?_
  refine endOfStatement_reads.bind fun _ => ?_
  refine .bind (m := casesNotes) (inBlock_reads ?_) fun found => ?_
  · refine .bind (.iterate ?_ fun found => selectItem_reads hn hs (by simp +contextual)) fun all =>
      expectEnd_reads.bind fun _ => .pure (by simp +contextual)
    simp [casesNotes, Stmt.caseNotes, Stmt.optionNotes]
  · split
    refine look_reads.bind fun _ => .pure ?_
    simp only [Stmt.notes, casesNotes, List.mem_append, mem_caseNotes_reverse]
    grind

/-! ### Loops -/

theorem loopBody_reads (hn : nested.Sound) (hs : home.HoldsStatements) {kind : BlockKind} :
    Reads home fails old (loopBody nested kind opener)
      (fun body => Note.inLoop (Stmt.blockNotes body)) :=
  inLoop_reads (inBlock_reads ((block_reads hn hs).bind fun _ => expectEnd_reads.bind fun _ =>
    .pure (by simp +contextual)))

theorem whileStatement_reads (hn : nested.Sound) (hs : home.HoldsStatements) :
    Reads home fails old (whileStatement nested) Stmt.notes :=
  advance_reads.bind fun _ => test_reads.bind fun _ => endOfStatement_reads.bind fun _ =>
    (loopBody_reads hn hs).bind fun _ => look_reads.bind fun _ => .pure (by grind [Stmt.notes])

theorem loopWord_reads : Reads home fails old loopWord (fun _ => []) := by
  refine accept_reads.bind fun _ => ?_
  split
  · exact .pure (by simp)
  · refine accept_reads.bind fun _ => ?_
    split
    · exact .pure (by simp)
    · exact reportMissing_reads.bind fun _ => .pure (by simp)

theorem loopTest_reads :
    Reads home fails old (loopTest opener) (fun found => found.1.notes) := by
  refine acceptAny?_reads.bind fun found => ?_
  split
  · exact loopWord_reads.bind fun _ => test_reads.bind fun _ => endOfStatement_reads.bind fun _ =>
      .pure (by simp +contextual)
  · refine report_reads.bind fun _ => get_reads.bind fun r => ?_
    extract_lets finish
    have hfinish : ∀ u (old : List Note), Reads home fails old (finish u) (fun found => found.1.notes) :=
      fun _ _ => .pure (by simp)
    split
    · exact advance_reads.bind fun _ => advance_reads.bind fun _ => endOfStatement_reads.bind fun u =>
        hfinish u _
    · exact hfinish () _

theorem doStatement_reads (hn : nested.Sound) (hs : home.HoldsStatements) :
    Reads home fails old (doStatement nested) Stmt.notes :=
  advance_reads.bind fun _ => endOfStatement_reads.bind fun _ =>
    (inLoop_reads (inBlock_reads (block_reads hn hs))).bind fun _ => loopTest_reads.bind fun _ =>
      look_reads.bind fun _ => .pure (by grind [Stmt.notes])

/-- The variables of the first line of a counted loop. -/
def ForHeader.notes (header : ForHeader) : List Note :=
  header.counter.notes ++ header.counter.targetNotes ++ header.start.notes ++ header.stop.notes
    ++ Expr.notesOf header.step

theorem forHeader_reads : Reads home True old forHeader ForHeader.notes := by
  refine target_reads.bind fun _ => (checkAssignable_reads _ (by simp +contextual)).bind fun _ => ?_
  refine assignmentOperator_reads.bind fun _ => expression_reads.bind fun _ => ?_
  refine expect_reads.bind fun _ => expression_reads.bind fun _ => accept_reads.bind fun _ => ?_
  extract_lets finish
  split
  · exact .bind (expression_reads.map (n := Expr.notesOf) (by simp)) fun _ =>
      .pure (by grind [ForHeader.notes])
  · exact .pure (by grind [ForHeader.notes])

theorem headerOr_reads {α : Type} {header : Read α} {fallback : α} {m : α → List Note}
    (h : Reads home True old header m) (hfallback : m fallback = []) :
    Reads home fails old (headerOr header opener fallback) m := by
  refine h.attempt.bind fun found => ?_
  split
  · exact endOfStatement_reads.bind fun _ => .pure (by simp +contextual)
  · exact skipLine_reads.bind fun _ => .pure (by simp [hfallback])

theorem forEachHeader_reads :
    Reads home True old forEachHeader (fun found => found.1.notes ++ found.1.targetNotes ++ found.2.notes) :=
  target_reads.bind fun _ => (checkAssignable_reads _ (by simp +contextual)).bind fun _ =>
    expect_reads.bind fun _ => expression_reads.bind fun _ => .pure (by grind)

theorem forStatement_reads (hn : nested.Sound) (hs : home.HoldsStatements) :
    Reads home fails old (forStatement nested) Stmt.notes := by
  refine advance_reads.bind fun opener => accept_reads.bind fun _ => ?_
  split
  · refine (headerOr_reads forEachHeader_reads (by simp)).bind fun found => ?_
    split
    refine (loopBody_reads hn hs).bind fun _ => look_reads.bind fun _ => .pure ?_
    grind [Stmt.notes]
  · have hnever : (ForHeader.never opener.span).notes = [] := by
      simp [ForHeader.never, ForHeader.notes]
    refine (headerOr_reads forHeader_reads hnever).bind fun header => ?_
    refine (loopBody_reads hn hs).bind fun _ => look_reads.bind fun _ => .pure ?_
    grind [Stmt.notes, ForHeader.notes]

/-! ### Jumps -/

theorem returnStatement_reads (hs : home.HoldsStatements) :
    Reads home True old returnStatement Stmt.notes := by
  refine advance_reads.bind fun _ => onLine_reads.bind fun _ => ?_
  extract_lets finish
  have hfinish : ∀ value old, (∀ v ∈ Expr.notesOf value, v ∈ old) →
      Reads home True old (finish value) Stmt.notes := by
    rintro value old hvalue known r ⟨homes, hknown, hr⟩ hold
    refine Yields.look_bind ?_
    extract_lets give
    have hgive : ∀ kept old, (∀ v ∈ .returns :: Expr.notesOf kept, v ∈ old) →
        Reads home True old (give kept) Stmt.notes :=
      fun kept old hkept => endOfStatement_reads.bind fun _ => .pure (by simpa [Stmt.notes] using hkept)
    -- Inside a routine its `Return` is in order, whatever else is reported of it.
    have hinside : r.routineKind?.isSome → ∀ v ∈ .returns :: old, r.Permits home v := by
      intro hkind v hv
      rcases List.mem_cons.mp hv with rfl | hv
      · refine Or.inl (Or.inr ?_)
        rw [hr.layout.routine hs]
        simpa [Reader.routineKind?] using hkind
      · exact hold v hv
    split
    · refine ((report_excuses [.returns] rfl ?_).bind fun _ => hgive _ _ ?_) known r
        ⟨homes, hknown, hr⟩ hold
      · simp +contextual [Reader.Allows]
      · simp +contextual [hvalue]
    · rename_i hkind
      exact (report_reads.bind fun _ => hgive none _ (by simp)) known r ⟨homes, hknown, hr⟩
        (hinside (by simp [hkind]))
    · rename_i hkind
      exact (report_reads.bind fun _ => hgive none _ (by simp)) known r ⟨homes, hknown, hr⟩
        (hinside (by simp [hkind]))
    · rename_i hkind _ _
      exact hgive _ (.returns :: old) (by simp +contextual [hvalue]) known r ⟨homes, hknown, hr⟩
        (hinside (by simp [hkind]))
  split
  · exact .bind (expression_reads.map (n := Expr.notesOf) (by simp)) fun value =>
      hfinish value _ (by simp +contextual)
  · exact hfinish none _ (by simp)

theorem jumpStatement_reads : Reads home fails old jumpStatement Stmt.notes := by
  refine advance_reads.bind fun token => fun known r hr hold => Yields.look_bind ?_
  extract_lets finish
  have hfinish : ∀ u (old : List Note), .jump ∈ old →
      Reads home fails old (finish u) Stmt.notes := by
    refine fun _ _ hjump => endOfStatement_reads.bind fun _ => .pure ?_
    split <;> simpa [Stmt.notes] using hjump
  split
  · refine ((report_excuses [.jump] rfl ?_).bind fun u => hfinish u _ (by simp)) known r
      hr hold
    simp +contextual [Reader.Allows]
  · rename_i hdepth
    refine hfinish () [.jump] (by simp) known r hr fun v hv => ?_
    obtain rfl := List.mem_singleton.mp hv
    exact Or.inr ⟨rfl, Nat.pos_of_ne_zero hdepth⟩

theorem stopStatement_reads : Reads home fails old stopStatement Stmt.notes :=
  advance_reads.bind fun _ => endOfStatement_reads.bind fun _ => .pure (by simp [Stmt.notes])

/-! ### Any statement -/

theorem statementOrAbandon_reads (hn : nested.Sound) (hs : home.HoldsStatements) :
    Reads home True old (statementOrAbandon nested) Stmt.notes := by
  refine get_reads.bind fun r => ?_
  split
  · exact advance_reads.bind fun _ => declarationStatement_reads hs
  · exact advance_reads.bind fun _ => declarationStatement_reads hs
  · exact missingDeclare_reads hs
  · exact setStatement_reads
  · exact displayStatement_reads
  · exact inputStatement_reads
  · exact callStatement_reads
  · exact ifStatement_reads hn hs
  · exact selectStatement_reads hn hs
  · exact whileStatement_reads hn hs
  · exact doStatement_reads hn hs
  · exact forStatement_reads hn hs
  · exact returnStatement_reads hs
  · exact jumpStatement_reads
  · exact jumpStatement_reads
  · exact stopStatement_reads
  · split
    · exact missingDeclare_reads hs
    · exact bareStatement_reads
  · exact abandon_reads

theorem statement_reads (hn : nested.Sound) (hs : home.HoldsStatements) :
    Reads home fails old (statement nested) (·.elim [] Stmt.notes) := by
  refine peek_reads.bind fun first => (statementOrAbandon_reads hn hs).attempt.bind fun found => ?_
  split
  · exact .pure (by simp +contextual)
  · exact skipLine_reads.bind fun _ => .pure (by simp)

/-- **Statements and definitions of every depth keep to the home they stand at.** -/
theorem Nested.sound_level (n : Nat) : (Nested.level n).Sound := by
  induction n with
  | zero =>
    refine ⟨fun _ _ _ _ => ?_, fun _ _ _ => .pure (by simp), fun _ _ _ => .pure (by simp)⟩
    exact peek_reads.bind fun _ => report_reads.bind fun _ => .pure (by simp)
  | succ n ih =>
    exact ⟨fun _ _ _ hs => statement_reads ih hs, fun _ _ _ => routineDefinition_reads ih,
      fun _ _ _ => classDefinition_reads ih⟩

end Primer.Grammar
