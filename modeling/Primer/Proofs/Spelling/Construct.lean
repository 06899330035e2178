/-
Constructs as they are read.

The rows of a construct follow one another, each on a line of its own.  A body is read up to the
first row that belongs to the construct around it: such a row starts with a word that no statement
starts with, and that closes a body of the construct at hand.  So the proof follows the rows, by
induction on how they are spelled, and what is around a construct matters only for what is in sight.
-/
import Primer.Proofs.Spelling.Line

namespace Primer.Grammar

variable {row : List Token} {s s' : Sight} {kind : TokenKind} {kinds : List TokenKind}
  {phrase : Phrase} {rows : List (List Token)}

/-! ### Rows -/

/-- Each row has a line to itself, and `next` stands after the last one. -/
def Aligned : List (List Token) → Token → Prop
  | [], _ => True
  | row :: rows, next => Alone row (rows.flatten.headD next) ∧ Aligned rows next

section Rows

variable {rows rows' : List (List Token)} {next : Token}

theorem headD_flatten_append (rows rows' : List (List Token)) (next : Token) :
    (rows ++ rows').flatten.headD next = rows.flatten.headD (rows'.flatten.headD next) := by
  rw [List.flatten_append]
  cases rows.flatten <;> rfl

theorem aligned_append :
    Aligned (rows ++ rows') next ↔
      Aligned rows (rows'.flatten.headD next) ∧ Aligned rows' next := by
  induction rows with
  | nil => simp [Aligned]
  | cons row rows ih =>
    rw [List.cons_append, Aligned, Aligned, ih, headD_flatten_append, and_assoc]

/-- Some token follows the rows before these. -/
theorem exists_ahead (rows : List (List Token)) (next : Token) (rest : List Token) :
    ∃ after, rows.flatten ++ next :: rest = rows.flatten.headD next :: after := by
  cases rows.flatten with
  | nil => exact ⟨rest, rfl⟩
  | cons token more => exact ⟨more ++ next :: rest, rfl⟩

end Rows

theorem SpellsLine.starts {statement : Stmt} (h : SpellsLine s row statement s') :
    ∃ token more, row = token :: more ∧ token.kind ∈ statementStarts := by
  cases h <;> exact ⟨_, _, rfl, by simp_all [statementStarts]⟩

/-- How the first row of a phrase starts, if it always has one. -/
def Phrase.starts : Phrase → Option (List TokenKind)
  | .statement _ => some statementStarts
  | .branches .. => some [.kwElse, .kwEnd]
  | .cases .. => some [.kwCase, .kwDefault, .kwEnd]
  | .statements _ | .block _ => none

theorem OfKinds.cons (h : OfKinds (kind :: kinds) row) :
    ∃ token more, row = token :: more ∧ token.kind = kind ∧ OfKinds kinds more := by
  obtain ⟨token, more, rfl, hkind, hmore⟩ := List.map_eq_cons_iff.mp h
  exact ⟨token, more, rfl, hkind, hmore⟩

theorem OfKinds.nil (h : OfKinds [] row) : row = [] := List.map_eq_nil_iff.mp h

theorem SpellsRows.first (h : SpellsRows s phrase rows s') (hkinds : phrase.starts = some kinds) :
    ∃ token more, rows.flatten = token :: more ∧ token.kind ∈ kinds := by
  cases h with
  | none | more | block => cases hkinds
  | simple h =>
    cases hkinds
    obtain ⟨token, more, rfl, hstarts⟩ := h.starts
    exact ⟨token, _, rfl, hstarts⟩
  | choose hkeyword | elseIf hkeyword | select hkeyword | case hkeyword | whileLoop hkeyword
  | forLoop hkeyword | forEach hkeyword =>
    cases hkinds
    exact ⟨_, _, rfl, by rw [hkeyword]; decide⟩
  | otherwise hrow | endIf hrow | default hrow | endSelect hrow | doLoop hrow =>
    cases hkinds
    obtain ⟨token, more, rfl, hkind, -⟩ := hrow.cons
    exact ⟨token, _, rfl, by rw [hkind]; decide⟩

/-! ### Ends of rows -/

section Ends

variable {r r₀ : Reader} {token next : Token} {row taken rest : List Token} {kind : TokenKind}

/-- The last word of a header, then the end of its row. -/
theorem lastWord_takes {problem : Problem} (h : r₀.Takes Problem.Semantic taken r)
    (hrow : row = taken ++ [token]) (halone : Alone row next) (hkind : token.kind = kind)
    (hend : kind ≠ .endOfInput) (hrest : r₀.rest = row ++ next :: rest) :
    Succeeds (lastWord kind problem) r fun _ r' => r₀.Takes Problem.Semantic row r' := by
  subst hrow
  have hrest₁ : r.rest = token :: next :: rest := h.rest_eq (by simpa using hrest)
  refine (accept_takes hrest₁ hkind hend).bind fun found r₁ ⟨hfound, h₁⟩ => ?_
  subst hfound
  have hall := h.trans h₁
  exact (endOfStatement_stays hall.toMoves (by simp) halone hrest).mono fun _ _ hstay => hstay ▸ hall

/-- The row that closes a construct. -/
theorem expectEnd_takes {kind : BlockKind} {word : TokenKind} (hword : kind.endWord? = some word)
    (hend : word ≠ .endOfInput) (hrow : OfKinds [.kwEnd, word] row) (halone : Alone row next)
    (hrest : r.rest = row ++ next :: rest) (opener : Token) :
    Succeeds (expectEnd kind opener) r fun _ r' => r.Takes Problem.Semantic row r' := by
  obtain ⟨close, more, rfl, hclose, hmore⟩ := hrow.cons
  obtain ⟨second, more, rfl, hsecond, hnone⟩ := hmore.cons
  obtain rfl := hnone.nil
  unfold expectEnd
  rw [hword]
  refine .get_bind ?_
  have hline : second.line = close.line := halone.line second (by simp) close (by simp)
  have hcloser : r.closer = (close, true, second) := by
    unfold Reader.closer
    rw [Reader.peekAt_of_rest hrest, Reader.peek_of_rest hrest]
    simp [hsecond, hline, hend]
  rw [Reader.check_of_rest hrest (by decide), hclose, hcloser]
  simp only [hsecond, decide_true, Bool.not_true, Bool.false_eq_true, if_false, Bool.and_self,
    if_true]
  refine (advance_takes hrest (by rw [hclose]; decide)).bind fun _ r₁ ⟨_, h₁⟩ => ?_
  refine (advance_takes (h₁.rest_eq hrest) (by rw [hsecond]; exact hend)).bind
    fun _ r₂ ⟨_, h₂⟩ => ?_
  have hall := h₁.trans h₂
  exact (endOfStatement_stays hall.toMoves (by simp) halone hrest).mono fun _ _ hstay => hstay ▸ hall

end Ends

/-! ### Headers -/

section Headers

variable {s : Sight} {r r₀ : Reader} {keyword next : Token} {tokens row rest : List Token} {e : Expr}

/-- A test is read like any expression, but a single equals sign would go on with it. -/
theorem test_takes {stops : List TokenKind} {fallback : Bool}
    (hspelt : Spells s.names .disjunction tokens e) (hshows : r.layout.Shows s)
    (hrest : r.rest = tokens ++ next :: rest) (hnext : ¬ Continues true next.kind)
    (hstops : ∀ kind ∈ stops, kind ∉ valueStarts ∧ kind ≠ .endOfInput)
    (hline : r.onLine keyword.line = true) :
    Succeeds (test keyword stops fallback) r fun found r' =>
      found.bare = e.bare ∧ r.Takes Problem.Semantic tokens r' := by
  obtain ⟨token, after, hhead, -, hstarts⟩ := hspelt.ahead hrest
  have hstop : r.checkAny stops = false := by
    refine List.any_eq_false.mpr fun kind hkind => ?_
    rw [Reader.check_of_rest hhead (hstops kind hkind).2]
    simpa using ne_of_mem_starts hstarts (hstops kind hkind).1
  refine .get_bind ?_
  rw [hline, hstop, if_neg (by decide)]
  have hinside : Succeeds (attempt expression) { r with inTest := true } fun found r' =>
      ∃ condition, found = some condition ∧ condition.bare = e.bare ∧
        { r with inTest := true }.Takes Problem.Semantic tokens r' :=
    (expression_takes (r := { r with inTest := true }) hspelt hshows hrest hnext).attempt
  refine Succeeds.bind (Q := fun found r' => ∃ condition, found = some condition ∧
    condition.bare = e.bare ∧ r.Takes Problem.Semantic tokens r') ?_ fun found r' h => ?_
  · refine .get_bind (.modify_bind (hinside.bind fun found r₁ h₁ => .modify_bind (.pure ?_)))
    obtain ⟨condition, hfound, hbare, htakes⟩ := h₁
    exact ⟨condition, hfound, hbare,
      ⟨htakes.tokens, htakes.cursor, htakes.rest, htakes.problems, rfl, htakes.openBlocks⟩,
      htakes.layout⟩
  · obtain ⟨condition, rfl, hbare, htakes⟩ := h
    exact .pure ⟨hbare, htakes⟩

/-- A test and `Then`, up to the end of their row. -/
theorem thenHeader_takes {α : Type} {f : Expr → Read α} {Q : α → Reader → Prop}
    {taken : List Token} {word : Token} (hspelt : Spells s.names .disjunction tokens e)
    (hword : word.kind = .kwThen) (hshows : r₀.layout.Shows s)
    (h : r₀.Takes Problem.Semantic taken r) (hrow : row = taken ++ (tokens ++ [word]))
    (hkeyword : keyword ∈ row) (halone : Alone row next) (hrest : r₀.rest = row ++ next :: rest)
    (hf : ∀ found r', found.bare = e.bare → r₀.Takes Problem.Semantic row r' →
      Succeeds (f found) r' Q) :
    Succeeds (do
      let condition ← test keyword [.kwThen] false
      lastWord .kwThen .missingThen
      f condition) r Q := by
  have hrest₁ : r.rest = tokens ++ word :: next :: rest := h.rest_eq (by rw [hrest, hrow]; simp)
  obtain ⟨token, after, hhead, htoken, hstarts⟩ := hspelt.ahead hrest₁
  have hline := onLine_within halone hkeyword (by rw [hrow]; simp [htoken])
    (ne_of_mem_starts hstarts (by decide)) hhead
  refine (test_takes hspelt (h.layout ▸ hshows) hrest₁ (by rw [hword]; decide) (by decide)
    hline).bind fun found r₁ ⟨hbare, h₁⟩ => ?_
  exact (lastWord_takes (h.trans h₁) (by rw [hrow]; simp) halone hword (by decide) hrest).bind
    fun _ r₂ h₂ => hf found r₂ hbare h₂

end Headers

/-! ### Rows one after another -/

/-- The reader stands before these rows and sees what is in sight. -/
structure Reader.Faces (r : Reader) (s : Sight) (rows : List (List Token)) (next : Token)
    (rest : List Token) : Prop where
  shows : r.layout.Shows s
  inTest : r.inTest = false
  ahead : r.rest = rows.flatten ++ next :: rest
  aligned : Aligned rows next

/-- The reader has taken the rows, after which this is in sight. -/
structure Reader.Crosses (r : Reader) (rows : List (List Token)) (s' : Sight) (r' : Reader) :
    Prop where
  moves : r.Moves Problem.Semantic rows.flatten r'
  shows : r'.layout.Shows s'

section Crossing

variable {α : Type} {s s' s'' : Sight} {r r' r'' : Reader} {rows rows' : List (List Token)}
  {row rest : List Token} {next : Token} {D : Token → Prop}

theorem Reader.Faces.append (h : r.Faces s (rows ++ rows') next rest) :
    ∃ after, r.Faces s rows (rows'.flatten.headD next) after := by
  obtain ⟨after, hafter⟩ := exists_ahead rows' next rest
  refine ⟨after, h.shows, h.inTest, ?_, (aligned_append.mp h.aligned).1⟩
  rw [h.ahead, List.flatten_append, List.append_assoc, hafter]

/-- Past the first rows the others are ahead. -/
theorem Reader.Faces.past (h : r.Faces s (rows ++ rows') next rest) (hcross : r.Crosses rows s' r') :
    r'.Faces s' rows' next rest where
  shows := hcross.shows
  inTest := hcross.moves.inTest.trans h.inTest
  ahead := hcross.moves.rest_eq (by rw [h.ahead, List.flatten_append, List.append_assoc])
  aligned := (aligned_append.mp h.aligned).2

theorem Reader.Faces.pastRow (h : r.Faces s (row :: rows) next rest)
    (hcross : r.Crosses [row] s' r') : r'.Faces s' rows next rest := Reader.Faces.past h hcross

/-- Past the first row and those of a body. -/
theorem Reader.Faces.pastBody (h : r.Faces s (row :: (rows ++ rows')) next rest)
    (hcross : r.Crosses (row :: rows) s' r') : r'.Faces s' rows' next rest :=
  Reader.Faces.past h hcross

theorem Reader.Crosses.trans (h : r.Crosses rows s' r') (h' : r'.Crosses rows' s'' r'') :
    r.Crosses (rows ++ rows') s'' r'' :=
  ⟨by rw [List.flatten_append]; exact h.moves.trans h'.moves, h'.shows⟩

theorem Reader.Faces.first (h : r.Faces s (row :: rows) next rest) :
    ∃ first after, r.rest = row ++ first :: after ∧ Alone row first := by
  obtain ⟨after, hafter⟩ := exists_ahead rows next rest
  refine ⟨_, after, ?_, h.aligned.1⟩
  rw [h.ahead, List.flatten_cons, List.append_assoc, hafter]

theorem Reader.Moves.crosses (h : r.Moves Problem.Semantic row r') (hshows : r'.layout.Shows s) :
    r.Crosses [row] s r' :=
  ⟨by simpa using h, hshows⟩

/-- The step takes the rows, with `Q` of its result, wherever `C` holds of the reader and of what
follows the rows. -/
def ReadsRows (x : Read α) (C : Reader → Token → Prop) (s : Sight) (rows : List (List Token))
    (s' : Sight) (Q : α → Prop) : Prop :=
  ∀ ⦃r next rest⦄, r.Faces s rows next rest → C r next →
    Succeeds x r fun a r' => Q a ∧ r.Crosses rows s' r'

/-- Nothing is asked of what is around. -/
abbrev Anywhere (_ : Reader) (_ : Token) : Prop := True

/-- A body of the construct is being read. -/
def Within (kind : BlockKind) (r : Reader) (_ : Token) : Prop := kind ∈ r.openBlocks

/-- The token is not part of a body. -/
def Closing (r : Reader) (next : Token) : Prop :=
  next.kind = .endOfInput ∨ next.kind = .kwEnd ∨ r.closesOpenBlock next.kind = true

variable {part : Read α} {Q : α → Prop} {kind : BlockKind}

theorem Within.closing (h : Within kind r next)
    (hnext : next.kind = .kwEnd ∨ next.kind ∈ kind.terminators) : Closing r next := by
  rcases hnext with hend | hterminator
  · exact .inr (.inl hend)
  · exact .inr (.inr (List.any_eq_true.mpr ⟨kind, h, List.contains_iff_mem.mpr hterminator⟩))

theorem Within.crosses {next' : Token} (h : Within kind r next) (hcross : r.Crosses rows s r') :
    Within kind r' next' := by
  unfold Within
  rw [hcross.moves.openBlocks]
  exact h

/-- What is around a construct is not asked for, but what follows it may be. -/
theorem ReadsRows.inBlock
    (h : ReadsRows part (fun r next => Within kind r next ∧ D next) s rows s' Q) :
    ReadsRows (inBlock kind part) (fun _ next => D next) s rows s' Q := by
  intro r next rest hfaces hnext
  have hinside := h (r := { r with openBlocks := kind :: r.openBlocks })
    ⟨hfaces.shows, hfaces.inTest, hfaces.ahead, hfaces.aligned⟩ ⟨List.mem_cons_self, hnext⟩
  refine .modify_bind (hinside.bind fun a r₁ ⟨ha, hmoves, hshows⟩ => .modify_bind (.pure ?_))
  refine ⟨ha, ⟨hmoves.tokens, hmoves.cursor, hmoves.rest, hmoves.problems, hmoves.inTest, ?_⟩,
    hshows⟩
  show r₁.openBlocks.tail = r.openBlocks
  rw [hmoves.openBlocks]
  rfl

theorem ReadsRows.inLoop (h : ReadsRows part (fun _ next => D next) s rows s' Q) :
    ReadsRows (inLoop part) (fun _ next => D next) s rows s' Q := by
  intro r next rest hfaces hnext
  have hinside := h (r := { r with loopDepth := r.loopDepth + 1 })
    ⟨hfaces.shows, hfaces.inTest, hfaces.ahead, hfaces.aligned⟩ hnext
  refine .modify_bind (hinside.bind fun a r₁ ⟨ha, hmoves, hshows⟩ => .modify_bind (.pure ?_))
  exact ⟨ha, ⟨hmoves.tokens, hmoves.cursor, hmoves.rest, hmoves.problems, hmoves.inTest,
    hmoves.openBlocks⟩, hshows⟩

end Crossing

/-! ### Bodies -/

/-- A loop that takes statements one after another. -/
structure StatementLoop (turn : List Stmt → Read (Option (List Stmt))) : Prop where
  advancing : Advancing turn
  item : ∀ (r : Reader) (before : List Stmt), r.peek.kind ∈ statementStarts →
    turn before r = (do
      match ← Nested.whole.statement with
      | some statement => pure (some (statement :: before))
      | none => pure (some before)) r

theorem closesOpenBlock_of_starts {r : Reader} (h : kind ∈ statementStarts) :
    r.closesOpenBlock kind = false := by
  refine List.any_eq_false.mpr fun block _ => ?_
  have hnone : ∀ kind ∈ statementStarts, ¬ block.terminators.contains kind = true := by
    cases block <;> decide
  exact hnone kind h

theorem blockItem_statementLoop : StatementLoop (blockItem .whole) where
  advancing := everyLoopAdvances.block.advancing
  item := by
    intro r before h
    have hend : r.atEnd = false := decide_eq_false (ne_of_mem_starts h (by decide))
    have hclose : (r.atEnd || r.peek.kind = .kwEnd || r.closesOpenBlock r.peek.kind) = false := by
      rw [hend, closesOpenBlock_of_starts h, decide_eq_false (ne_of_mem_starts h (by decide))]
      rfl
    unfold blockItem
    rw [read_get_bind, if_neg (by rw [hclose]; decide)]
    refine congrFun ?_ r
    split
    · rename_i hkind
      rw [hkind] at h
      exact absurd h (by decide)
    · rename_i hkind
      rw [hkind] at h
      exact absurd h (by decide)
    · rename_i hkind
      rw [hkind] at h
      exact absurd h (by decide)
    · rfl

/-- What follows the first body of an `If`, with the branches before it at hand, latest first. -/
def moreBranches (opener : Token) (before : List (Branch Stmt)) :
    Read (List (Branch Stmt) × Option (Block Stmt)) := do
  let all ← iterate (fun (branches, otherwise) => elseBranch .whole branches otherwise) (before, none)
  expectEnd .choose opener
  pure all

/-- What follows the first row of a `Select`, with what was read before at hand. -/
def moreCases (opener : Token) (before : Cases) : Read Cases := do
  let all ← iterate (selectItem .whole) before
  expectEnd .select opener
  pure all

/-- The rows are read as the phrase. -/
def Phrase.ReadFrom (s : Sight) (rows : List (List Token)) (s' : Sight) : Phrase → Prop
  | .statement one => ReadsRows (statementOrAbandon .whole) Anywhere s rows s' fun found =>
    found.bare = one.bare
  | .statements all => ∀ ⦃turn⦄, StatementLoop turn → ∀ before ⦃r next rest⦄,
    r.Faces s rows next rest → ∃ found r', iterate turn before r = iterate turn found r' ∧
      found.map Stmt.bare = (all.map Stmt.bare).reverse ++ before.map Stmt.bare ∧
      r.Crosses rows s' r'
  | .block body => ReadsRows (Grammar.block .whole) Closing s rows s' fun found =>
    Stmt.bareBlock found = Stmt.bareBlock body
  | .branches more otherwise => ∀ opener before,
    ReadsRows (moreBranches opener before) (Within .choose) s rows s' fun found =>
      found.1.map Stmt.bareBranch
        = (more.map Stmt.bareBranch).reverse ++ before.map Stmt.bareBranch ∧
      Stmt.bareOption found.2 = Stmt.bareOption otherwise
  | .cases more otherwise => ∀ opener before earlier, earlier = none ∨ otherwise = none →
    ReadsRows (moreCases opener (before, earlier)) (Within .select) s rows s' fun found =>
      found.1.map Stmt.bareCase = (more.map Stmt.bareCase).reverse ++ before.map Stmt.bareCase ∧
      Stmt.bareOption found.2 = Stmt.bareOption (earlier.or otherwise)

section Bodies

variable {s s' s'' : Sight} {r : Reader} {rows rows' : List (List Token)} {row rest : List Token}
  {next : Token} {statement : Stmt} {statements : List Stmt} {body : Block Stmt} {span : Span}

theorem StatementLoop.take {turn : List Stmt → Read (Option (List Stmt))}
    (hloop : StatementLoop turn) {Q : Stmt → Reader → Prop} (hstarts : r.peek.kind ∈ statementStarts)
    (h : Succeeds (statementOrAbandon .whole) r Q) (before : List Stmt) :
    ∃ found r', turn before r = .ok (some (found :: before)) r' ∧ Q found r' := by
  have hend : r.atEnd = false := decide_eq_false (ne_of_mem_starts hstarts (by decide))
  have hread : Succeeds Nested.whole.statement r fun found r' =>
      ∃ statement, found = some statement ∧ Q statement r' := by
    obtain ⟨found, r', hread, hfound⟩ : Succeeds (Grammar.statement .whole) r fun found r' =>
        ∃ statement, found = some statement ∧ Q statement r' := by
      refine .look_bind (h.attempt.bind fun found r' hfound => ?_)
      obtain ⟨statement, rfl, hQ⟩ := hfound
      exact .pure ⟨statement, rfl, hQ⟩
    exact ⟨found, r', (statement_unfold hend).trans hread, hfound⟩
  obtain ⟨_, r', hread, statement, rfl, hQ⟩ := hread
  refine ⟨statement, r', ?_, hQ⟩
  rw [hloop.item r before hstarts, read_bind hread]
  rfl

theorem SpellsLine.readFrom (h : SpellsLine s row statement s') :
    Phrase.ReadFrom s [row] s' (.statement statement) := by
  intro r next rest hfaces _
  obtain ⟨first, after, hrest, halone⟩ := hfaces.first
  exact (h.reads .whole hfaces.shows hfaces.inTest hrest halone).mono
    fun found r' ⟨hfound, hmoves, hshows⟩ => ⟨hfound, hmoves.crosses hshows⟩

theorem readFrom_more (hspelt : SpellsRows s (.statement statement) rows s')
    (h : Phrase.ReadFrom s rows s' (.statement statement))
    (hmore : Phrase.ReadFrom s' rows' s'' (.statements statements)) :
    Phrase.ReadFrom s (rows ++ rows') s'' (.statements (statement :: statements)) := by
  intro turn hloop before r next rest hfaces
  obtain ⟨after, hfirst⟩ := hfaces.append
  obtain ⟨token, more, htokens, hstarts⟩ := hspelt.first rfl
  have hhead : r.rest = token :: (more ++ rows'.flatten.headD next :: after) := by
    rw [hfirst.ahead, htokens]
    rfl
  obtain ⟨found, r₁, hturn, hfound, hcross⟩ :=
    hloop.take (Reader.peek_of_rest hhead ▸ hstarts) (h hfirst trivial) before
  obtain ⟨all, r₂, hread, hall, hcross₂⟩ :=
    hmore hloop (found :: before) (hfaces.past hcross)
  refine ⟨all, r₂, (iterate_on hloop.advancing hturn).trans hread, ?_, hcross.trans hcross₂⟩
  simp [hall, hfound]

theorem blockItem_over (hrest : r.rest = next :: rest) (h : Closing r next) (before : List Stmt) :
    blockItem .whole before r = .ok none r := by
  have hpeek := Reader.peek_of_rest hrest
  unfold blockItem
  rw [read_get_bind, if_pos]
  · rfl
  · rcases h with hend | hend | hclose
    · simp [Reader.atEnd, hpeek, hend]
    · simp [hpeek, hend]
    · simp [hpeek, hclose]

/-- A body ends before the first token that is not part of it. -/
theorem readFrom_block (h : Phrase.ReadFrom s.enter rows s' (.statements statements)) :
    Phrase.ReadFrom s rows s'.leave (.block ⟨statements, span⟩) := by
  intro r next rest hfaces hclosing
  have hinside : Reader.Faces { r with layout := r.layout.pushScope } s.enter rows next rest :=
    ⟨hfaces.shows.pushScope, hfaces.inTest, hfaces.ahead, hfaces.aligned⟩
  obtain ⟨found, r₁, hread, hfound, hmoves, hshows⟩ :=
    h blockItem_statementLoop [] hinside
  have hclosing₁ : Closing r₁ next := by
    have hopen : r₁.openBlocks = r.openBlocks := hmoves.openBlocks
    unfold Closing Reader.closesOpenBlock
    rw [hopen]
    exact hclosing
  have hover := blockItem_over (hmoves.rest_eq hinside.ahead) hclosing₁ found
  refine .look_bind (.modify_bind (Succeeds.bind (Q := fun all r' => all = found ∧ r' = r₁)
    ⟨found, r₁, hread.trans (iterate_over blockItem_statementLoop.advancing hover), rfl, rfl⟩
    fun all r' ⟨hall, hr'⟩ => .modify_bind (.pure ?_)))
  subst hall hr'
  refine ⟨by simp [Stmt.bareBlock, hfound], ?_, hshows.popScope⟩
  exact ⟨hmoves.tokens, hmoves.cursor, hmoves.rest, hmoves.problems, hmoves.inTest,
    hmoves.openBlocks⟩

end Bodies

/-! ### Branches -/

section Branches

variable {α : Type} {s s' s'' : Sight} {r : Reader} {rows rows' : List (List Token)}
  {row tokens rest : List Token} {keyword word next : Token} {body : Block Stmt} {condition : Expr}
  {kind : BlockKind} {span : Span} {branches before : List (Branch Stmt)}
  {otherwise : Option (Block Stmt)} {last : List Token}

/-- A body is read up to rows that belong to the construct around it. -/
theorem block_takes (hbody : Phrase.ReadFrom s rows s' (.block body))
    (hfirst : ∃ token more, rows'.flatten = token :: more ∧
      (token.kind = .kwEnd ∨ token.kind ∈ kind.terminators))
    (hfaces : r.Faces s (rows ++ rows') next rest) (hwithin : Within kind r next) :
    Succeeds (block .whole) r fun found r' =>
      Stmt.bareBlock found = Stmt.bareBlock body ∧ r.Crosses rows s' r' := by
  obtain ⟨after, hbefore⟩ := hfaces.append
  obtain ⟨token, more, htokens, hkind⟩ := hfirst
  refine hbody hbefore ?_
  rw [htokens]
  have hhere : Within kind r token := hwithin
  exact hhere.closing hkind

theorem SpellsRows.branchesFirst (h : SpellsRows s (.branches branches otherwise) rows s') :
    ∃ token more, rows.flatten = token :: more ∧
      (token.kind = .kwEnd ∨ token.kind ∈ BlockKind.choose.terminators) := by
  obtain ⟨token, more, htokens, hkind⟩ := h.first rfl
  exact ⟨token, more, htokens, by simpa [BlockKind.terminators, or_comm] using hkind⟩

theorem SpellsRows.casesFirst {cases : List (Case Stmt)}
    (h : SpellsRows s (.cases cases otherwise) rows s') :
    ∃ token more, rows.flatten = token :: more ∧
      (token.kind = .kwEnd ∨ token.kind ∈ BlockKind.select.terminators) := by
  obtain ⟨token, more, htokens, hkind⟩ := h.first rfl
  refine ⟨token, more, htokens, ?_⟩
  simp only [List.mem_cons, List.not_mem_nil, or_false] at hkind
  rcases hkind with hkind | hkind | hkind <;> simp [hkind, BlockKind.terminators]

theorem endFirst {kinds : List TokenKind} (h : OfKinds (.kwEnd :: kinds) last) :
    ∃ token more, [last].flatten = token :: more ∧
      (token.kind = .kwEnd ∨ token.kind ∈ kind.terminators) := by
  obtain ⟨token, more, rfl, hkind, -⟩ := h.cons
  exact ⟨token, more, by simp, .inl hkind⟩

theorem elseBranch_advancing : Advancing
    (fun (all : List (Branch Stmt) × Option (Block Stmt)) => elseBranch .whole all.1 all.2) :=
  .of_goes fun all r => elseBranch_goes (Nested.agree_self r) all.1 all.2

theorem readFrom_choose (hkeyword : keyword.kind = .kwIf)
    (htest : Spells s.names .disjunction tokens condition) (hword : word.kind = .kwThen)
    (hbody : Phrase.ReadFrom s rows s' (.block body))
    (hspelt : SpellsRows s' (.branches branches otherwise) rows' s'')
    (hmore : Phrase.ReadFrom s' rows' s'' (.branches branches otherwise)) :
    Phrase.ReadFrom s ((keyword :: (tokens ++ [word])) :: (rows ++ rows')) s''
      (.statement (.choose (⟨condition, body⟩ :: branches) otherwise span)) := by
  intro r next rest hfaces _
  obtain ⟨first, after, hrest, halone⟩ := hfaces.first
  refine .get_bind ?_
  rw [Reader.peek_of_rest hrest, hkeyword]
  refine (advance_takes hrest (by rw [hkeyword]; decide)).bind fun _ r₁ ⟨hopener, h₁⟩ => ?_
  subst hopener
  refine thenHeader_takes htest hword hfaces.shows h₁ rfl List.mem_cons_self halone hrest
    fun found r₂ hfound h₂ => ?_
  have hcross := h₂.toMoves.crosses (h₂.layout ▸ hfaces.shows)
  have hinside : ReadsRows (do
      let body ← block .whole
      moreBranches keyword [⟨found, body⟩]) (fun r next => Within .choose r next ∧ True) s
      (rows ++ rows') s'' fun all =>
        all.1.map Stmt.bareBranch = (branches.map Stmt.bareBranch).reverse ++
          [Stmt.bareBranch ⟨condition, body⟩] ∧
        Stmt.bareOption all.2 = Stmt.bareOption otherwise := by
    rintro r next rest hfaces ⟨hwithin, -⟩
    refine (block_takes hbody hspelt.branchesFirst hfaces hwithin).bind
      fun found' r₁ ⟨hfound', hcross₁⟩ => ?_
    refine (hmore keyword [⟨found, found'⟩] (hfaces.past hcross₁) (hwithin.crosses hcross₁)).mono
      fun all r' ⟨hall, hcross'⟩ => ⟨⟨?_, hall.2⟩, hcross₁.trans hcross'⟩
    rw [hall.1]
    simp [Stmt.bareBranch, hfound, hfound']
  refine (hinside.inBlock (hfaces.pastRow hcross) trivial).bind
    fun all r₃ ⟨hall, hcross₃⟩ => ?_
  obtain ⟨all, last⟩ := all
  refine .look_bind (.pure ⟨?_, hcross.trans hcross₃⟩)
  simp [hall]

/-- The next branch is taken into the loop over all of them. -/
theorem moreBranches_on {opener : Token} {branch : Branch Stmt} {r' : Reader}
    (h : elseBranch .whole before none r = .ok (some (branch :: before, none)) r') :
    moreBranches opener before r = moreBranches opener (branch :: before) r' := by
  unfold moreBranches
  simp only [Bind.bind, EStateM.bind]
  rw [iterate_on elseBranch_advancing (a := (before, none)) h]

theorem elseBranch_over (hrest : r.rest = word :: rest) (hword : word.kind ≠ .kwElse) :
    elseBranch .whole before otherwise r = .ok none r := by
  unfold elseBranch
  rw [read_bind (acceptAny?_other hrest hword (by decide))]
  rfl

theorem readFrom_elseIf {elseWord : Token} (helse : elseWord.kind = .kwElse)
    (hkeyword : keyword.kind = .kwIf) (htest : Spells s.names .disjunction tokens condition)
    (hword : word.kind = .kwThen) (hbody : Phrase.ReadFrom s rows s' (.block body))
    (hspelt : SpellsRows s' (.branches branches otherwise) rows' s'')
    (hmore : Phrase.ReadFrom s' rows' s'' (.branches branches otherwise)) :
    Phrase.ReadFrom s ((elseWord :: keyword :: (tokens ++ [word])) :: (rows ++ rows')) s''
      (.branches (⟨condition, body⟩ :: branches) otherwise) := by
  intro opener before r next rest hfaces hwithin
  obtain ⟨first, after, hrest, halone⟩ := hfaces.first
  have hturn : Succeeds (elseBranch .whole before none) r fun found r' =>
      ∃ branch, found = some (branch :: before, none) ∧
        Stmt.bareBranch branch = Stmt.bareBranch ⟨condition, body⟩ ∧
        r.Crosses ((elseWord :: keyword :: (tokens ++ [word])) :: rows) s' r' := by
    have hstep := Reader.takes_step Problem.Semantic hrest (by rw [helse]; decide)
    refine Succeeds.bind (Q := fun found r' => found = some elseWord ∧ r' = r.step)
      ⟨_, _, acceptAny?_of_rest hrest helse (by decide), rfl, rfl⟩ fun _ r₁ ⟨hfound, hr₁⟩ => ?_
    subst hfound hr₁
    have hrest₁ := hstep.rest_eq hrest
    refine .get_bind ?_
    have hline : keyword.line = elseWord.line := halone.line _ (by simp) _ (by simp)
    rw [if_pos (by rw [Reader.check_of_rest hrest₁ (by decide), Reader.peek_of_rest hrest₁]
                   simp [hkeyword, hline])]
    refine (advance_takes hrest₁ (by rw [hkeyword]; decide)).bind fun _ r₂ ⟨hif, h₂⟩ => ?_
    subst hif
    refine Succeeds.bind (Q := fun branch r' =>
      Stmt.bareBranch branch = Stmt.bareBranch ⟨condition, body⟩ ∧
        r.Crosses ((elseWord :: keyword :: (tokens ++ [word])) :: rows) s' r') ?_
      fun branch r' ⟨hbranch, hcross⟩ => .pure ⟨branch, rfl, hbranch, hcross⟩
    refine thenHeader_takes htest hword hfaces.shows (hstep.trans h₂) rfl (by simp) halone hrest
      fun found r₃ hfound h₃ => ?_
    have hcross := h₃.toMoves.crosses (h₃.layout ▸ hfaces.shows)
    refine (block_takes hbody hspelt.branchesFirst (hfaces.pastRow hcross)
      (hwithin.crosses hcross)).bind fun found' r₄ ⟨hfound', hcross₄⟩ => ?_
    exact .pure ⟨by simp [Stmt.bareBranch, hfound, hfound'], hcross.trans hcross₄⟩
  obtain ⟨_, r₁, hread, branch, rfl, hbranch, hcross⟩ := hturn
  obtain ⟨all, r₂, hread₂, hall, hcross₂⟩ :=
    hmore opener (branch :: before) (hfaces.pastBody hcross)
      (hwithin.crosses hcross)
  refine ⟨all, r₂, (moreBranches_on hread).trans hread₂, ⟨?_, hall.2⟩, hcross.trans hcross₂⟩
  rw [hall.1]
  simp [hbranch]

theorem readFrom_endIf (hlast : OfKinds [.kwEnd, .kwIf] last) :
    Phrase.ReadFrom s [last] s (.branches [] none) := by
  intro opener before r next rest hfaces _
  obtain ⟨first, after, hrest, halone⟩ := hfaces.first
  obtain ⟨close, more, hclose, hkind, -⟩ := hlast.cons
  have hover : elseBranch .whole before none r = .ok none r :=
    elseBranch_over (by rw [hrest, hclose]; rfl) (by rw [hkind]; decide)
  refine Succeeds.bind (Q := fun all r' => all = (before, none) ∧ r' = r)
    ⟨_, _, iterate_over elseBranch_advancing (a := (before, none)) hover, rfl, rfl⟩
    fun _ _ ⟨hall, hr⟩ => ?_
  subst hall hr
  refine (expectEnd_takes rfl (by decide) hlast halone hrest opener).bind fun _ r₁ h₁ => ?_
  exact .pure ⟨⟨by simp, rfl⟩, h₁.toMoves.crosses (h₁.layout ▸ hfaces.shows)⟩

theorem readFrom_otherwise (hrow : OfKinds [.kwElse] row)
    (hbody : Phrase.ReadFrom s rows s' (.block body)) (hlast : OfKinds [.kwEnd, .kwIf] last) :
    Phrase.ReadFrom s (row :: (rows ++ [last])) s' (.branches [] (some body)) := by
  obtain ⟨elseWord, more, rfl, helse, hnone⟩ := hrow.cons
  obtain rfl := hnone.nil
  intro opener before r next rest hfaces hwithin
  obtain ⟨first, after, hrest, halone⟩ := hfaces.first
  have hturn : Succeeds (elseBranch .whole before none) r fun found r' =>
      ∃ found', found = some (before, some found') ∧
        Stmt.bareBlock found' = Stmt.bareBlock body ∧ r.Crosses ([elseWord] :: rows) s' r' := by
    have hstep := Reader.takes_step Problem.Semantic hrest (by rw [helse]; decide)
    refine Succeeds.bind (Q := fun found r' => found = some elseWord ∧ r' = r.step)
      ⟨_, _, acceptAny?_of_rest hrest helse (by decide), rfl, rfl⟩ fun _ r₁ ⟨hfound, hr₁⟩ => ?_
    subst hfound hr₁
    have hrest₁ := hstep.rest_eq hrest
    refine .get_bind ?_
    -- An `If` on the next line is part of the body.
    have hparted : (r.step.check .kwIf && decide (r.step.peek.line = elseWord.line)) = false := by
      rw [Reader.check_of_rest hrest₁ (by decide), Reader.peek_of_rest hrest₁]
      by_cases hif : first.kind = .kwIf
      · simp [halone.parted (by rw [hif]; decide) elseWord (by simp)]
      · simp [hif]
    rw [if_neg (by rw [hparted]; decide)]
    refine rowEnds hstep.toMoves rfl (by simp) halone hrest fun hmoves => ?_
    have hcross := hmoves.crosses (hstep.layout ▸ hfaces.shows)
    refine (block_takes hbody (endFirst hlast) (hfaces.pastRow hcross)
      (hwithin.crosses hcross)).bind fun found' r₂ ⟨hfound', hcross₂⟩ => ?_
    exact .pure ⟨found', rfl, hfound', hcross.trans hcross₂⟩
  obtain ⟨_, r₁, hread, found', rfl, hfound', hcross⟩ := hturn
  have hfaces₁ := hfaces.pastBody hcross
  obtain ⟨first', after', hrest', halone'⟩ := hfaces₁.first
  obtain ⟨close, more, hclose, hkind, -⟩ := hlast.cons
  have hover : elseBranch .whole before (some found') r₁ = .ok none r₁ :=
    elseBranch_over (by rw [hrest', hclose]; rfl) (by rw [hkind]; decide)
  refine Succeeds.bind (Q := fun all r' => all = (before, some found') ∧ r' = r₁)
    ⟨_, _, (iterate_on elseBranch_advancing (a := (before, none)) hread).trans
      (iterate_over elseBranch_advancing (a := (before, some found')) hover), rfl, rfl⟩
    fun _ _ ⟨hall, hr⟩ => ?_
  subst hall hr
  refine (expectEnd_takes rfl (by decide) hlast halone' hrest' opener).bind fun _ r₂ h₂ => ?_
  refine .pure ⟨⟨by simp, by simp [Stmt.bareOption, hfound']⟩, ?_⟩
  exact hcross.trans (h₂.toMoves.crosses (h₂.layout ▸ hfaces₁.shows))

end Branches

/-! ### Cases -/

section Cases

variable {s s' s'' : Sight} {r : Reader} {rows rows' : List (List Token)}
  {row tokens rest : List Token} {keyword next colon : Token} {body : Block Stmt} {span : Span}
  {labels : Listing} {cases : List (Case Stmt)} {otherwise : Option (Block Stmt)} {e : Expr}

theorem label?_takes (hspelt : Spells s.names .disjunction tokens e) (hshows : r.layout.Shows s)
    (hrest : r.rest = tokens ++ next :: rest) (hnext : ¬ Continues r.inTest next.kind)
    (line : Nat) :
    Succeeds (label? line) r fun found r' => ∃ label, found = some label ∧
      label.bare = e.bare ∧ r.Takes Problem.Semantic tokens r' := by
  refine (expression_takes hspelt hshows hrest hnext).attempt.bind fun found r' h => ?_
  obtain ⟨label, rfl, h⟩ := h
  exact .pure ⟨label, rfl, h⟩

theorem moreLabels_take {more : List (Token × List Token × Expr)}
    (hcommas : ∀ item ∈ more, item.1.kind = .comma)
    (hspelt : ∀ item ∈ more, Spells s.names .disjunction item.2.1 item.2.2)
    (hshows : r.layout.Shows s) (hrest : r.rest = Listing.moreTokens more ++ next :: rest)
    (hnext : ¬ Continues r.inTest next.kind) (hover : next.kind ≠ .comma) (line : Nat)
    (before : List Expr) :
    Succeeds (iterate (nextLabel line) (before, true)) r fun found r' =>
      found.1.map Expr.bare
        = (more.map fun item => item.2.2.bare).reverse ++ before.map Expr.bare ∧
      r.Takes Problem.Semantic (Listing.moreTokens more) r' := by
  induction more generalizing r before with
  | nil =>
    refine ⟨_, r, iterate_over nextLabel_advancing ?_, rfl, .refl r⟩
    simp only [nextLabel, if_true]
    rw [read_bind (accept_other hrest hover (by decide))]
    rfl
  | cons item more ih =>
    obtain ⟨hcomma, hcommas⟩ := List.forall_mem_cons.mp hcommas
    obtain ⟨hitem, hspelt⟩ := List.forall_mem_cons.mp hspelt
    rw [Listing.moreTokens_cons, List.cons_append, List.append_assoc] at hrest
    have hstep := Reader.takes_step Problem.Semantic hrest (by rw [hcomma]; decide)
    have hrest₁ : r.step.rest = item.2.1 ++ (Listing.moreTokens more ++ next :: rest) :=
      hstep.rest_eq hrest
    obtain ⟨token, after, hafter, htoken⟩ :=
      Listing.followed hcommas (hstep.inTest.symm ▸ hnext) rest
    obtain ⟨_, r₂, hread, label, rfl, hbare, htakes⟩ := label?_takes hitem
      (hstep.layout ▸ hshows) (by rw [hrest₁, hafter]) htoken line
    have hturn : nextLabel line (before, true) r = .ok (some (label :: before, true)) r₂ := by
      simp only [nextLabel, if_true]
      rw [read_bind (accept_of_rest hrest hcomma (by decide))]
      simp only [if_true]
      rw [read_bind hread]
      rfl
    have hboth := hstep.trans htakes
    obtain ⟨all, r₃, hall, hbares, htakes₃⟩ := ih hcommas hspelt (hboth.layout ▸ hshows)
      (htakes.rest_eq hrest₁) (hboth.inTest.symm ▸ hnext) (label :: before)
    refine ⟨all, r₃, (iterate_on nextLabel_advancing hturn).trans hall, ?_, ?_⟩
    · simp [hbares, hbare]
    · rw [Listing.moreTokens_cons]
      exact hboth.trans htakes₃

theorem labels_take (hspelt : SpellsList s.names labels) (hshows : r.layout.Shows s)
    (hrest : r.rest = labels.tokens ++ next :: rest) (hnext : ¬ Continues r.inTest next.kind)
    (hover : next.kind ≠ .comma) (line : Nat) :
    Succeeds (Grammar.labels line) r fun found r' =>
      found.map Expr.bare = labels.values.map Expr.bare ∧
        r.Takes Problem.Semantic labels.tokens r' := by
  obtain ⟨hfirst, hmore⟩ := List.forall_mem_cons.mp hspelt.parts
  have hrest' : r.rest = labels.first.1 ++ (Listing.moreTokens labels.more ++ next :: rest) := by
    rw [hrest, Listing.tokens, List.append_assoc]
    rfl
  obtain ⟨token, after, hafter, htoken⟩ := Listing.followed hspelt.commas hnext rest
  refine (label?_takes hfirst hshows (by rw [hrest', hafter]) htoken line).bind fun _ r₁ h₁ => ?_
  obtain ⟨first, rfl, hbare, htakes⟩ := h₁
  refine (moreLabels_take hspelt.commas (fun item hitem => hmore item.2 (List.mem_map_of_mem hitem))
    (htakes.layout ▸ hshows) (htakes.rest_eq hrest') (htakes.inTest.symm ▸ hnext) hover line
    [first]).bind fun found r₂ h₂ => ?_
  obtain ⟨hfound, htakes₂⟩ := h₂
  refine .pure ⟨?_, htakes.trans htakes₂⟩
  simp [hfound, hbare, Listing.values, Listing.parts]

/-- The labels of a case and the colon, up to the end of their row. -/
theorem caseLabels_take (hspelt : SpellsList s.names labels) (hcolon : colon.kind = .colon)
    (hshows : r.layout.Shows s) (hrow : row = keyword :: (labels.tokens ++ [colon])) {r₁ : Reader}
    (h : r.Takes Problem.Semantic [keyword] r₁) (halone : Alone row next)
    (hrest : r.rest = row ++ next :: rest) :
    Succeeds (caseLabels keyword) r₁ fun found r' =>
      found.map Expr.bare = labels.values.map Expr.bare ∧ r.Takes Problem.Semantic row r' := by
  have hrest₁ : r₁.rest = labels.tokens ++ colon :: next :: rest :=
    h.rest_eq (by rw [hrest, hrow]; simp)
  obtain ⟨token, after, hhead, htoken, hstarts⟩ :=
    (hspelt.parts labels.first List.mem_cons_self).ahead
      (hrest₁.trans (List.append_assoc labels.first.1 (Listing.moreTokens labels.more) _))
  have hmem : token ∈ row := by
    rw [hrow]
    exact List.mem_cons_of_mem _ (List.mem_append_left _ (List.mem_append_left _ htoken))
  have hline := onLine_within halone (by rw [hrow]; exact List.mem_cons_self) hmem
    (ne_of_mem_starts hstarts (by decide)) hhead
  have hvalue : r₁.check .colon = false := by
    rw [Reader.check_of_rest hhead (by decide)]
    exact decide_eq_false (ne_of_mem_starts hstarts (by decide))
  refine .get_bind ?_
  rw [hline, hvalue]
  refine (labels_take hspelt (h.layout ▸ hshows) hrest₁
    (by rw [hcolon]; cases r₁.inTest <;> decide) (by rw [hcolon]; decide) keyword.line).bind
    fun found r₂ ⟨hfound, h₂⟩ => ?_
  exact (lastWord_takes (h.trans h₂) (by rw [hrow]; simp) halone hcolon (by decide) hrest).bind
    fun _ r₃ h₃ => .pure ⟨hfound, h₃⟩

theorem moreCases_on {opener : Token} {before found : Cases} {r' : Reader}
    (h : selectItem .whole before r = .ok (some found) r') :
    moreCases opener before r = moreCases opener found r' := by
  unfold moreCases
  simp only [Bind.bind, EStateM.bind]
  rw [iterate_on everyLoopAdvances.select.advancing h]

theorem readFrom_case (hkeyword : keyword.kind = .kwCase) (hlabels : SpellsList s.names labels)
    (hcolon : colon.kind = .colon) (hbody : Phrase.ReadFrom s rows s' (.block body))
    (hspelt : SpellsRows s' (.cases cases otherwise) rows' s'')
    (hmore : Phrase.ReadFrom s' rows' s'' (.cases cases otherwise)) :
    Phrase.ReadFrom s ((keyword :: (labels.tokens ++ [colon])) :: (rows ++ rows')) s''
      (.cases (⟨labels.values, body, span⟩ :: cases) otherwise) := by
  intro opener before earlier hone r next rest hfaces hwithin
  obtain ⟨first, after, hrest, halone⟩ := hfaces.first
  have hturn : Succeeds (selectItem .whole (before, earlier)) r fun found r' =>
      ∃ next, found = some (next :: before, earlier) ∧
        Stmt.bareCase next = Stmt.bareCase ⟨labels.values, body, span⟩ ∧
        r.Crosses ((keyword :: (labels.tokens ++ [colon])) :: rows) s' r' := by
    refine .get_bind ?_
    rw [Reader.peek_of_rest hrest]
    dsimp only
    rw [hkeyword]
    refine (advance_takes hrest (by rw [hkeyword]; decide)).bind fun _ r₁ ⟨hopener, h₁⟩ => ?_
    subst hopener
    refine (caseLabels_take hlabels hcolon hfaces.shows rfl h₁ halone hrest).bind
      fun found r₂ ⟨hfound, h₂⟩ => ?_
    have hcross := h₂.toMoves.crosses (h₂.layout ▸ hfaces.shows)
    refine (block_takes hbody hspelt.casesFirst (hfaces.pastRow hcross)
      (hwithin.crosses hcross)).bind fun found' r₃ ⟨hfound', hcross₃⟩ => ?_
    refine .pure ⟨_, rfl, ?_, hcross.trans hcross₃⟩
    simp [Stmt.bareCase, hfound, hfound']
  obtain ⟨_, r₁, hread, found, rfl, hfound, hcross⟩ := hturn
  have hfaces₁ := hfaces.pastBody hcross
  obtain ⟨all, r₂, hread₂, hall, hcross₂⟩ :=
    hmore opener (found :: before) earlier hone hfaces₁ (hwithin.crosses hcross)
  refine ⟨all, r₂, (moreCases_on hread).trans hread₂, ⟨?_, hall.2⟩, hcross.trans hcross₂⟩
  simp [hall.1, hfound]

theorem readFrom_default (hrow : OfKinds [.kwDefault, .colon] row)
    (hbody : Phrase.ReadFrom s rows s' (.block body))
    (hspelt : SpellsRows s' (.cases cases none) rows' s'')
    (hmore : Phrase.ReadFrom s' rows' s'' (.cases cases none)) :
    Phrase.ReadFrom s (row :: (rows ++ rows')) s'' (.cases cases (some body)) := by
  obtain ⟨keyword, more, rfl, hkeyword, hmore'⟩ := hrow.cons
  obtain ⟨colon, more, rfl, hcolon, hnone⟩ := hmore'.cons
  obtain rfl := hnone.nil
  intro opener before earlier hone r next rest hfaces hwithin
  obtain rfl : earlier = none := by simpa using hone
  obtain ⟨first, after, hrest, halone⟩ := hfaces.first
  have hturn : Succeeds (selectItem .whole (before, none)) r fun found r' =>
      ∃ found', found = some (before, some found') ∧
        Stmt.bareBlock found' = Stmt.bareBlock body ∧ r.Crosses ([keyword, colon] :: rows) s' r' := by
    refine .get_bind ?_
    rw [Reader.peek_of_rest hrest]
    dsimp only
    rw [hkeyword]
    refine (advance_takes hrest (by rw [hkeyword]; decide)).bind fun _ r₁ ⟨_, h₁⟩ => ?_
    refine (lastWord_takes h₁ rfl halone hcolon (by decide) hrest).bind fun _ r₂ h₂ => ?_
    have hcross := h₂.toMoves.crosses (h₂.layout ▸ hfaces.shows)
    refine (block_takes hbody hspelt.casesFirst (hfaces.pastRow hcross)
      (hwithin.crosses hcross)).bind fun found' r₃ ⟨hfound', hcross₃⟩ => ?_
    exact .pure ⟨found', rfl, hfound', hcross.trans hcross₃⟩
  obtain ⟨_, r₁, hread, found', rfl, hfound', hcross⟩ := hturn
  have hfaces₁ := hfaces.pastBody hcross
  obtain ⟨all, r₂, hread₂, hall, hcross₂⟩ :=
    hmore opener before (some found') (.inr rfl) hfaces₁ (hwithin.crosses hcross)
  refine ⟨all, r₂, (moreCases_on hread).trans hread₂, ⟨hall.1, ?_⟩, hcross.trans hcross₂⟩
  simp [hall.2, Stmt.bareOption, hfound']

theorem readFrom_endSelect {last : List Token} (hlast : OfKinds [.kwEnd, .kwSelect] last) :
    Phrase.ReadFrom s [last] s (.cases [] none) := by
  intro opener before earlier _ r next rest hfaces _
  obtain ⟨first, after, hrest, halone⟩ := hfaces.first
  obtain ⟨close, more, hclose, hkind, -⟩ := hlast.cons
  have hpeek : r.peek = close := Reader.peek_of_rest (by rw [hrest, hclose]; rfl)
  have hover : selectItem .whole (before, earlier) r = .ok none r := by
    unfold selectItem
    dsimp only
    rw [read_get_bind, hpeek, hkind]
    rfl
  refine Succeeds.bind (Q := fun all r' => all = (before, earlier) ∧ r' = r)
    ⟨_, _, iterate_over everyLoopAdvances.select.advancing hover, rfl, rfl⟩ fun _ _ ⟨hall, hr⟩ => ?_
  subst hall hr
  refine (expectEnd_takes rfl (by decide) hlast halone hrest opener).bind fun _ r₁ h₁ => ?_
  exact .pure ⟨⟨by simp, by simp⟩, h₁.toMoves.crosses (h₁.layout ▸ hfaces.shows)⟩

theorem subject_takes (hspelt : Spells s.names .disjunction tokens e) (hshows : r.layout.Shows s)
    (hrest : r.rest = tokens ++ next :: rest) (hnext : ¬ Continues r.inTest next.kind)
    (hline : r.onLine keyword.line = true) :
    Succeeds (subject keyword) r fun found r' =>
      found.bare = e.bare ∧ r.Takes Problem.Semantic tokens r' := by
  refine .look_bind ?_
  rw [if_pos hline]
  refine (expression_takes hspelt hshows hrest hnext).attempt.bind fun found r' h => ?_
  obtain ⟨value, rfl, h⟩ := h
  exact .pure h

theorem readFrom_select {value : Expr} (hkeyword : keyword.kind = .kwSelect)
    (hsubject : Spells s.names .disjunction tokens value)
    (hcases : Phrase.ReadFrom s rows s' (.cases cases otherwise)) :
    Phrase.ReadFrom s ((keyword :: tokens) :: rows) s'
      (.statement (.select value cases otherwise span)) := by
  intro r next rest hfaces _
  obtain ⟨first, after, hrest, halone⟩ := hfaces.first
  refine .get_bind ?_
  rw [Reader.peek_of_rest hrest, hkeyword]
  refine (advance_takes hrest (by rw [hkeyword]; decide)).bind fun _ r₁ ⟨hopener, h₁⟩ => ?_
  subst hopener
  have hrest₁ : r₁.rest = tokens ++ first :: after := h₁.rest_eq hrest
  obtain ⟨token, others, hhead, htoken, hstarts⟩ := hsubject.ahead hrest₁
  refine (subject_takes hsubject (h₁.layout ▸ hfaces.shows) hrest₁
    (not_continues_of_lineStarts halone.starts) (onLine_within halone List.mem_cons_self
      (List.mem_cons_of_mem _ htoken) (ne_of_mem_starts hstarts (by decide)) hhead)).bind
    fun found r₂ ⟨hfound, h₂⟩ => ?_
  have hall := h₁.trans h₂
  refine rowEnds hall.toMoves rfl (by simp) halone hrest fun hmoves => ?_
  have hcross := hmoves.crosses (hall.layout ▸ hfaces.shows)
  have hinside : ReadsRows (moreCases keyword ([], none)) (fun r next => Within .select r next ∧ True)
      s rows s' _ := fun r next rest hfaces hwithin =>
    hcases keyword [] none (.inl rfl) hfaces hwithin.1
  refine (hinside.inBlock (hfaces.pastRow hcross) trivial).bind
    fun all r₃ ⟨hcases, hcross₃⟩ => ?_
  obtain ⟨all, last⟩ := all
  refine .look_bind (.pure ⟨?_, hcross.trans hcross₃⟩)
  simp_all

end Cases

/-! ### Loops -/

section Loops

variable {s s' : Sight} {r r₀ : Reader} {rows : List (List Token)}
  {row tokens last rest place first upTo stride : List Token} {keyword next equal : Token}
  {body : Block Stmt} {condition counter start stop item array : Expr} {span : Span}
  {step : Option Expr} {word : Token} {exit : Bool}

/-- The body of a loop and the row that closes it. -/
theorem loopBody_takes {kind : BlockKind} {word : TokenKind} (hword : kind.endWord? = some word)
    (hend : word ≠ .endOfInput) (hbody : Phrase.ReadFrom s rows s' (.block body))
    (hlast : OfKinds [.kwEnd, word] last) (opener : Token) :
    ReadsRows (loopBody .whole kind opener) Anywhere s (rows ++ [last]) s' fun found =>
      Stmt.bareBlock found = Stmt.bareBlock body := by
  refine ReadsRows.inLoop (D := fun _ => True) (ReadsRows.inBlock ?_)
  rintro r next rest hfaces ⟨hwithin, -⟩
  refine (block_takes hbody (endFirst hlast) hfaces hwithin).bind fun found r₁ ⟨hfound, hcross⟩ => ?_
  have hfaces₁ := hfaces.past hcross
  obtain ⟨first, after, hrest, halone⟩ := hfaces₁.first
  refine (expectEnd_takes hword hend hlast halone hrest opener).bind fun _ r₂ h₂ => ?_
  exact .pure ⟨hfound, hcross.trans (h₂.toMoves.crosses (h₂.layout ▸ hfaces₁.shows))⟩

/-- A test that ends its row. -/
theorem lastTest_takes {α : Type} {f : Expr → Read α} {Q : α → Reader → Prop} {taken : List Token}
    {fallback : Bool} (hspelt : Spells s.names .disjunction tokens condition)
    (hshows : r₀.layout.Shows s) (h : r₀.Takes Problem.Semantic taken r)
    (hrow : row = taken ++ tokens) (hkeyword : keyword ∈ row) (halone : Alone row next)
    (hrest : r₀.rest = row ++ next :: rest)
    (hf : ∀ found r', found.bare = condition.bare → r₀.Takes Problem.Semantic row r' →
      Succeeds (f found) r' Q) :
    Succeeds (do
      let condition ← test keyword [] fallback
      endOfStatement
      f condition) r Q := by
  have hrest₁ : r.rest = tokens ++ next :: rest := h.rest_eq (by rw [hrest, hrow]; simp)
  obtain ⟨token, after, hhead, htoken, hstarts⟩ := hspelt.ahead hrest₁
  have hline := onLine_within halone hkeyword (by rw [hrow]; simp [htoken])
    (ne_of_mem_starts hstarts (by decide)) hhead
  refine (test_takes hspelt (h.layout ▸ hshows) hrest₁ (not_continues_of_lineStarts halone.starts)
    (by simp) hline).bind fun found r₁ ⟨hfound, h₁⟩ => ?_
  subst hrow
  have hall := h.trans h₁
  refine rowEnds hall.toMoves rfl ?_ halone hrest fun _ => hf found r₁ hfound hall
  exact List.ne_nil_of_mem hkeyword

theorem readFrom_whileLoop (hkeyword : keyword.kind = .kwWhile)
    (htest : Spells s.names .disjunction tokens condition)
    (hbody : Phrase.ReadFrom s rows s' (.block body)) (hlast : OfKinds [.kwEnd, .kwWhile] last) :
    Phrase.ReadFrom s ((keyword :: tokens) :: (rows ++ [last])) s'
      (.statement (.whileLoop condition body span)) := by
  intro r next rest hfaces _
  obtain ⟨first, after, hrest, halone⟩ := hfaces.first
  refine .get_bind ?_
  rw [Reader.peek_of_rest hrest, hkeyword]
  refine (advance_takes hrest (by rw [hkeyword]; decide)).bind fun _ r₁ ⟨hopener, h₁⟩ => ?_
  subst hopener
  refine lastTest_takes htest hfaces.shows h₁ rfl List.mem_cons_self halone hrest
    fun found r₂ hfound h₂ => ?_
  have hcross := h₂.toMoves.crosses (h₂.layout ▸ hfaces.shows)
  refine (loopBody_takes rfl (by decide) hbody hlast keyword
    (hfaces.pastRow hcross) trivial).bind fun found' r₃ ⟨hfound', hcross₃⟩ => ?_
  refine .look_bind (.pure ⟨?_, hcross.trans hcross₃⟩)
  simp [hfound, hfound']

theorem loopWord_takes (hrest : r.rest = word :: rest)
    (hword : word.kind = if exit then .kwUntil else .kwWhile) :
    Succeeds loopWord r fun found r' => found = exit ∧ r.Takes Problem.Semantic [word] r' := by
  cases exit with
  | true =>
    refine (accept_takes hrest hword (by decide)).bind fun found r₁ ⟨hfound, h₁⟩ => ?_
    subst hfound
    exact .pure ⟨rfl, h₁⟩
  | false =>
    refine (accept_stays hrest (by rw [hword]; decide) (by decide)).bind
      fun found r₁ ⟨hfound, hstay⟩ => ?_
    subst hfound hstay
    refine (accept_takes hrest hword (by decide)).bind fun found r₂ ⟨hfound, h₂⟩ => ?_
    subst hfound
    exact .pure ⟨rfl, h₂⟩

theorem readFrom_doLoop (hrow : OfKinds [.kwDo] row)
    (hbody : Phrase.ReadFrom s rows s' (.block body)) (hkeyword : keyword.kind = .kwLoop)
    (hword : word.kind = if exit then .kwUntil else .kwWhile)
    (htest : Spells s'.names .disjunction tokens condition) :
    Phrase.ReadFrom s (row :: (rows ++ [keyword :: word :: tokens])) s'
      (.statement (.doLoop body condition exit span)) := by
  obtain ⟨opener, more, rfl, hopener, hnone⟩ := hrow.cons
  obtain rfl := hnone.nil
  intro r next rest hfaces _
  obtain ⟨first, after, hrest, halone⟩ := hfaces.first
  refine .get_bind ?_
  rw [Reader.peek_of_rest hrest, hopener]
  refine (advance_takes hrest (by rw [hopener]; decide)).bind fun _ r₁ ⟨htoken, h₁⟩ => ?_
  subst htoken
  refine rowEnds h₁.toMoves rfl (by simp) halone hrest fun hmoves => ?_
  have hcross := hmoves.crosses (h₁.layout ▸ hfaces.shows)
  have hfaces₁ := hfaces.pastRow hcross
  have hinside : ReadsRows (inLoop (inBlock .doLoop (block .whole)))
      (fun _ next => next.kind = .kwLoop) s rows s' fun found =>
        Stmt.bareBlock found = Stmt.bareBlock body :=
    ReadsRows.inLoop (ReadsRows.inBlock fun r next rest hfaces ⟨hwithin, hloop⟩ =>
      hbody hfaces (hwithin.closing (.inr (by rw [hloop]; decide))))
  obtain ⟨others, hbefore⟩ := hfaces₁.append
  refine (hinside hbefore hkeyword).bind fun found r₂ ⟨hfound, hcross₂⟩ => ?_
  have hfaces₂ := hfaces₁.past hcross₂
  obtain ⟨first₂, after₂, hrest₂, halone₂⟩ := hfaces₂.first
  have htail : Succeeds (loopTest opener) r₂ fun found r' => found.1.bare = condition.bare ∧
      found.2 = exit ∧ r₂.Takes Problem.Semantic (keyword :: word :: tokens) r' := by
    have hstep := Reader.takes_step Problem.Semantic hrest₂ (by rw [hkeyword]; decide)
    refine Succeeds.bind (Q := fun found r' => found = some keyword ∧ r' = r₂.step)
      ⟨_, _, acceptAny?_of_rest hrest₂ hkeyword (by decide), rfl, rfl⟩ fun _ _ ⟨hfound, hr⟩ => ?_
    subst hfound hr
    refine (loopWord_takes (hstep.rest_eq hrest₂) hword).bind fun _ r₃ ⟨hexit, h₃⟩ => ?_
    subst hexit
    exact lastTest_takes htest hfaces₂.shows (hstep.trans h₃) rfl List.mem_cons_self halone₂ hrest₂
      fun found r' hfound h => .pure ⟨hfound, rfl, h⟩
  refine htail.bind fun found' r₃ ⟨hfound', hexit, h₃⟩ => ?_
  obtain ⟨found', exit'⟩ := found'
  refine .look_bind (.pure ⟨?_, ?_⟩)
  · simp_all
  · exact hcross.trans (hcross₂.trans (h₃.toMoves.crosses (h₃.layout ▸ hfaces₂.shows)))

/-- A header that makes sense ends its row. -/
theorem headerOr_takes {α : Type} {header : Read α} {fallback : α} {Q : α → Prop}
    (h : Succeeds header r fun found r' => Q found ∧ r₀.Takes Problem.Semantic row r')
    (hrow : row ≠ []) (halone : Alone row next) (hrest : r₀.rest = row ++ next :: rest)
    (opener : Token) :
    Succeeds (headerOr header opener fallback) r fun found r' =>
      Q found ∧ r₀.Takes Problem.Semantic row r' := by
  refine h.attempt.bind fun found r₁ h₁ => ?_
  obtain ⟨found, rfl, hfound, htakes⟩ := h₁
  exact rowEnds htakes.toMoves rfl hrow halone hrest fun _ => .pure ⟨hfound, htakes⟩

theorem step_takes {α : Type} {f : Option Expr → Read α} {Q : α → Reader → Prop}
    (hspelt : SpellsStep s.names tokens step) (hshows : r.layout.Shows s)
    (hrest : r.rest = tokens ++ next :: rest) (hnext : next.kind ∈ lineStarts)
    (hf : ∀ found r', found.map Expr.bare = step.map Expr.bare →
      r.Takes Problem.Semantic tokens r' → Succeeds (f found) r' Q) :
    Succeeds (do
      let step ← if ← accept .kwStep then some <$> expression else pure none
      f step) r Q := by
  cases hspelt with
  | none =>
    refine (accept_stays hrest (ne_of_mem_starts hnext (by decide)) (by decide)).bind
      fun _ _ ⟨hfound, hstay⟩ => ?_
    subst hfound hstay
    exact hf none _ rfl (.refl _)
  | @some _ tokens step hword hstep =>
    refine (accept_takes hrest hword (by decide)).bind fun _ r₁ ⟨hfound, h₁⟩ => ?_
    subst hfound
    have hread := (expression_takes hstep (h₁.layout ▸ hshows) (h₁.rest_eq hrest)
      (not_continues_of_lineStarts hnext)).map (f := some) (P := fun found r' =>
        found.map Expr.bare = some step.bare ∧ r₁.Takes Problem.Semantic tokens r')
      fun found r₂ ⟨hfound, h₂⟩ => ⟨by simp [hfound], h₂⟩
    exact hread.bind fun found r₂ ⟨hfound, h₂⟩ => hf found r₂ hfound (h₁.trans h₂)

theorem forHeader_takes (hcounter : Spells s.names .suffixed place counter)
    (hequal : equal.kind = .equal) (hstart : Spells s.names .disjunction first start)
    (hword : word.kind = .kwTo) (hstop : Spells s.names .disjunction upTo stop)
    (hstep : SpellsStep s.names stride step) (hshows : r.layout.Shows s)
    (hinTest : r.inTest = false)
    (hrest : r.rest = place ++ equal :: (first ++ word :: (upTo ++ stride)) ++ next :: rest)
    (hnext : next.kind ∈ lineStarts) :
    Succeeds forHeader r fun found r' =>
      (found.counter.bare = counter.bare ∧ found.start.bare = start.bare ∧
        found.stop.bare = stop.bare ∧ found.step.map Expr.bare = step.map Expr.bare) ∧
      r.Takes Problem.Semantic (place ++ equal :: (first ++ word :: (upTo ++ stride))) r' := by
  have hrest₀ : r.rest = place ++ equal :: (first ++ word :: (upTo ++ (stride ++ next :: rest))) := by
    simpa using hrest
  refine (target_takes hcounter hshows hrest₀ (.of_kind hequal rfl hinTest _)).bind
    fun counter' r₁ ⟨hcounter', h₁⟩ => ?_
  refine (checkAssignable_takes counter').bind fun _ r₂ h₂ => ?_
  have hrest₂ := h₂.rest_eq (h₁.rest_eq hrest₀)
  refine (assignmentOperator_takes hrest₂ hequal).bind fun _ r₃ h₃ => ?_
  have hrest₃ := h₃.rest_eq hrest₂
  have hbefore := h₁.trans (h₂.trans h₃)
  refine (expression_takes hstart (hbefore.layout ▸ hshows) hrest₃
    (by rw [hword]; cases r₃.inTest <;> decide)).bind fun start' r₄ ⟨hstart', h₄⟩ => ?_
  have hrest₄ := h₄.rest_eq hrest₃
  refine (expect_takes hrest₄ hword (by decide)).bind fun _ r₅ ⟨_, h₅⟩ => ?_
  have hrest₅ := h₅.rest_eq hrest₄
  have hbetween := hbefore.trans (h₄.trans h₅)
  obtain ⟨token, others, hothers, hends⟩ : ∃ token others,
      stride ++ next :: rest = token :: others ∧ ¬ Continues r₅.inTest token.kind := by
    cases hstep with
    | none => exact ⟨next, rest, rfl, not_continues_of_lineStarts hnext⟩
    | some hword => exact ⟨_, _, rfl, by rw [hword]; cases r₅.inTest <;> decide⟩
  refine (expression_takes hstop (hbetween.layout ▸ hshows) (hothers ▸ hrest₅) hends).bind
    fun stop' r₆ ⟨hstop', h₆⟩ => ?_
  have hrest₆ := h₆.rest_eq hrest₅
  have hmost := hbetween.trans h₆
  refine step_takes hstep (hmost.layout ▸ hshows) hrest₆ hnext fun step' r₇ hstep' h₇ => ?_
  refine .pure ⟨⟨hcounter', hstart', hstop', hstep'⟩, ?_⟩
  simpa using hmost.trans h₇

theorem readFrom_forLoop (hkeyword : keyword.kind = .kwFor)
    (hcounter : Spells s.names .suffixed place counter) (hequal : equal.kind = .equal)
    (hstart : Spells s.names .disjunction first start) (hword : word.kind = .kwTo)
    (hstop : Spells s.names .disjunction upTo stop) (hstep : SpellsStep s.names stride step)
    (hbody : Phrase.ReadFrom s rows s' (.block body)) (hlast : OfKinds [.kwEnd, .kwFor] last) :
    Phrase.ReadFrom s
      ((keyword :: (place ++ equal :: (first ++ word :: (upTo ++ stride)))) :: (rows ++ [last])) s'
      (.statement (.forLoop counter start stop step body span)) := by
  intro r next rest hfaces _
  obtain ⟨first, after, hrest, halone⟩ := hfaces.first
  refine .get_bind ?_
  rw [Reader.peek_of_rest hrest, hkeyword]
  refine (advance_takes hrest (by rw [hkeyword]; decide)).bind fun _ r₁ ⟨hopener, h₁⟩ => ?_
  subst hopener
  have hrest₁ := h₁.rest_eq hrest
  obtain ⟨token, others, hhead, -, hstarts⟩ := hcounter.ahead (by simpa using hrest₁)
  refine (accept_stays hhead (ne_of_mem_starts hstarts (by decide)) (by decide)).bind
    fun _ _ ⟨hfound, hstay⟩ => ?_
  subst hfound hstay
  have hheader := forHeader_takes hcounter hequal hstart hword hstop hstep (h₁.layout ▸ hfaces.shows)
    (h₁.inTest.trans hfaces.inTest) hrest₁ halone.starts
  refine (headerOr_takes (hheader.mono fun found r' ⟨hfound, h⟩ => ⟨hfound, h₁.trans h⟩) (by simp)
    halone hrest keyword).bind fun header r₂ ⟨hfound, h₂⟩ => ?_
  have hcross := h₂.toMoves.crosses (h₂.layout ▸ hfaces.shows)
  refine (loopBody_takes rfl (by decide) hbody hlast keyword
    (hfaces.pastRow hcross) trivial).bind fun found' r₃ ⟨hfound', hcross₃⟩ => ?_
  refine .look_bind (.pure ⟨?_, hcross.trans hcross₃⟩)
  simp [hfound, hfound']

theorem forEachHeader_takes (hitem : Spells s.names .suffixed place item)
    (hword : word.kind = .kwIn) (harray : Spells s.names .disjunction tokens array)
    (hshows : r.layout.Shows s) (hinTest : r.inTest = false)
    (hrest : r.rest = place ++ word :: tokens ++ next :: rest) (hnext : next.kind ∈ lineStarts) :
    Succeeds forEachHeader r fun found r' =>
      (found.1.bare = item.bare ∧ found.2.bare = array.bare) ∧
      r.Takes Problem.Semantic (place ++ word :: tokens) r' := by
  have hrest₀ : r.rest = place ++ word :: (tokens ++ next :: rest) := by simpa using hrest
  refine (target_takes hitem hshows hrest₀ (.of_kind hword rfl hinTest _)).bind
    fun item' r₁ ⟨hitem', h₁⟩ => ?_
  refine (checkAssignable_takes item').bind fun _ r₂ h₂ => ?_
  have hrest₂ := h₂.rest_eq (h₁.rest_eq hrest₀)
  refine (expect_takes hrest₂ hword (by decide)).bind fun _ r₃ ⟨_, h₃⟩ => ?_
  have hbefore := h₁.trans (h₂.trans h₃)
  refine (expression_takes harray (hbefore.layout ▸ hshows) (h₃.rest_eq hrest₂)
    (not_continues_of_lineStarts hnext)).bind fun array' r₄ ⟨harray', h₄⟩ => ?_
  refine .pure ⟨⟨hitem', harray'⟩, ?_⟩
  simpa using hbefore.trans h₄

theorem readFrom_forEach {each : Token} (hkeyword : keyword.kind = .kwFor)
    (heach : each.kind = .kwEach) (hitem : Spells s.names .suffixed place item)
    (hword : word.kind = .kwIn) (harray : Spells s.names .disjunction tokens array)
    (hbody : Phrase.ReadFrom s rows s' (.block body)) (hlast : OfKinds [.kwEnd, .kwFor] last) :
    Phrase.ReadFrom s ((keyword :: each :: (place ++ word :: tokens)) :: (rows ++ [last])) s'
      (.statement (.forEach item array body span)) := by
  intro r next rest hfaces _
  obtain ⟨first, after, hrest, halone⟩ := hfaces.first
  refine .get_bind ?_
  rw [Reader.peek_of_rest hrest, hkeyword]
  refine (advance_takes hrest (by rw [hkeyword]; decide)).bind fun _ r₁ ⟨hopener, h₁⟩ => ?_
  subst hopener
  have hrest₁ := h₁.rest_eq hrest
  refine (accept_takes hrest₁ heach (by decide)).bind fun _ r₂ ⟨hfound, h₂⟩ => ?_
  subst hfound
  have hwords := h₁.trans h₂
  have hheader := forEachHeader_takes hitem hword harray (hwords.layout ▸ hfaces.shows)
    (hwords.inTest.trans hfaces.inTest) (h₂.rest_eq hrest₁) halone.starts
  refine (headerOr_takes (hheader.mono fun found r' ⟨hfound, h⟩ => ⟨hfound, hwords.trans h⟩)
    (by simp) halone hrest keyword).bind fun header r₃ ⟨hfound, h₃⟩ => ?_
  have hcross := h₃.toMoves.crosses (h₃.layout ▸ hfaces.shows)
  refine (loopBody_takes rfl (by decide) hbody hlast keyword
    (hfaces.pastRow hcross) trivial).bind fun found' r₄ ⟨hfound', hcross₄⟩ => ?_
  refine .look_bind (.pure ⟨?_, hcross.trans hcross₄⟩)
  simp [hfound, hfound']

end Loops

/-! ### All together -/

/-- **Rows are read as the phrase that they spell.** -/
theorem SpellsRows.readFrom (h : SpellsRows s phrase rows s') : phrase.ReadFrom s rows s' := by
  induction h with
  | simple h => exact h.readFrom
  | none => exact fun turn _ before r next rest hfaces =>
      ⟨before, r, rfl, by simp, .refl r, hfaces.shows⟩
  | more h _ ih ihMore => exact readFrom_more h ih ihMore
  | block _ ih => exact readFrom_block ih
  | choose hkeyword htest hword _ hmore ihBody ihMore =>
    exact readFrom_choose hkeyword htest hword ihBody hmore ihMore
  | elseIf helse hkeyword htest hword _ hmore ihBody ihMore =>
    exact readFrom_elseIf helse hkeyword htest hword ihBody hmore ihMore
  | otherwise hrow _ hlast ih => exact readFrom_otherwise hrow ih hlast
  | endIf hlast => exact readFrom_endIf hlast
  | select hkeyword hsubject _ ih => exact readFrom_select hkeyword hsubject ih
  | case hkeyword hlabels hcolon _ hmore ihBody ihMore =>
    exact readFrom_case hkeyword hlabels hcolon ihBody hmore ihMore
  | default hrow _ hmore ihBody ihMore => exact readFrom_default hrow ihBody hmore ihMore
  | endSelect hlast => exact readFrom_endSelect hlast
  | whileLoop hkeyword htest _ hlast ih => exact readFrom_whileLoop hkeyword htest ih hlast
  | doLoop hrow _ hkeyword hword htest ih => exact readFrom_doLoop hrow ih hkeyword hword htest
  | forLoop hkeyword hcounter hequal hstart hword hstop hstep _ hlast ih =>
    exact readFrom_forLoop hkeyword hcounter hequal hstart hword hstop hstep ih hlast
  | forEach hkeyword heach hitem hword harray _ hlast ih =>
    exact readFrom_forEach hkeyword heach hitem hword harray ih hlast

end Primer.Grammar
