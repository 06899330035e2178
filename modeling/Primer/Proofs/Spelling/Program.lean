/-
Programs as they are written and read.

A program is written as rows of tokens, each on a line of its own, with blank lines and comments
wherever its author likes.  Scanning it gives the tokens, and since the rows spell statements,
reading the tokens gives these statements: every construct ends where its author ended it, however
deep it is nested, and every name is the variable that was in sight.  What can still be wrong with
such a program is what it means.
-/
import Primer.Proofs.Program.Spans
import Primer.Proofs.Spelling.Construct
import Primer.Proofs.Spelling.Text

namespace Primer

namespace Grammar

variable {rows : List (List Token)}

/-! ### Rows on lines -/

/-- Every row starts with a word that starts a line. -/
theorem SpellsRows.starts {s s' : Sight} {phrase : Phrase} (h : SpellsRows s phrase rows s') :
    ∀ row ∈ rows, ∃ token more, row = token :: more ∧ token.kind ∈ lineStarts := by
  have hof : ∀ {kind : TokenKind} {kinds : List TokenKind} {row : List Token},
      OfKinds (kind :: kinds) row → kind ∈ lineStarts →
        ∃ token more, row = token :: more ∧ token.kind ∈ lineStarts := by
    intro kind kinds row hrow hkind
    obtain ⟨token, more, rfl, rfl, -⟩ := hrow.cons
    exact ⟨token, more, rfl, hkind⟩
  have hword : ∀ {keyword : Token} {kind : TokenKind} {more : List Token}, keyword.kind = kind →
      kind ∈ lineStarts →
        ∃ token others, keyword :: more = token :: others ∧ token.kind ∈ lineStarts := by
    rintro keyword kind more rfl hkind
    exact ⟨keyword, more, rfl, hkind⟩
  induction h with
  | simple h =>
    obtain ⟨token, more, rfl, hkind⟩ := h.starts
    exact List.forall_mem_singleton.mpr ⟨token, more, rfl, List.mem_append_left _ hkind⟩
  | none => simp
  | more _ _ ih ihMore => exact List.forall_mem_append.mpr ⟨ih, ihMore⟩
  | block _ ih => exact ih
  | choose hkeyword _ _ _ _ ihBody ihMore | elseIf hkeyword _ _ _ _ _ ihBody ihMore
  | case hkeyword _ _ _ _ ihBody ihMore =>
    exact List.forall_mem_cons.mpr
      ⟨hword hkeyword (by decide), List.forall_mem_append.mpr ⟨ihBody, ihMore⟩⟩
  | default hrow _ _ ihBody ihMore =>
    exact List.forall_mem_cons.mpr
      ⟨hof hrow (by decide), List.forall_mem_append.mpr ⟨ihBody, ihMore⟩⟩
  | otherwise hrow _ hlast ih =>
    exact List.forall_mem_cons.mpr ⟨hof hrow (by decide), List.forall_mem_append.mpr
      ⟨ih, List.forall_mem_singleton.mpr (hof hlast (by decide))⟩⟩
  | endIf hlast | endSelect hlast => exact List.forall_mem_singleton.mpr (hof hlast (by decide))
  | select hkeyword _ _ ih => exact List.forall_mem_cons.mpr ⟨hword hkeyword (by decide), ih⟩
  | whileLoop hkeyword _ _ hlast ih | forLoop hkeyword _ _ _ _ _ _ _ hlast ih
  | forEach hkeyword _ _ _ _ _ hlast ih =>
    exact List.forall_mem_cons.mpr ⟨hword hkeyword (by decide), List.forall_mem_append.mpr
      ⟨ih, List.forall_mem_singleton.mpr (hof hlast (by decide))⟩⟩
  | doLoop hrow _ hkeyword _ _ ih =>
    exact List.forall_mem_cons.mpr ⟨hof hrow (by decide), List.forall_mem_append.mpr
      ⟨ih, List.forall_mem_singleton.mpr (hword hkeyword (by decide))⟩⟩

/-- Rows on lines of their own, up to the end. -/
theorem aligned_of_lines {next : Token} (hnext : next.kind = .endOfInput)
    (hline : ∀ row ∈ rows, ∀ t ∈ row, ∀ t' ∈ row, t.line = t'.line)
    (hordered : rows.Pairwise fun row later => ∀ t ∈ row, ∀ t' ∈ later, t.line < t'.line)
    (hstarts : ∀ row ∈ rows, ∃ token more, row = token :: more ∧ token.kind ∈ lineStarts) :
    Aligned rows next := by
  induction rows with
  | nil => trivial
  | cons row rows ih =>
    obtain ⟨hrow, hline⟩ := List.forall_mem_cons.mp hline
    obtain ⟨hlater, hordered⟩ := List.pairwise_cons.mp hordered
    obtain ⟨-, hstarts⟩ := List.forall_mem_cons.mp hstarts
    refine ⟨?_, ih hline hordered hstarts⟩
    cases rows with
    | nil => exact ⟨hrow, fun hmore => absurd hnext hmore, by simp [hnext, lineStarts]⟩
    | cons later others =>
      obtain ⟨token, more, rfl, hkind⟩ := hstarts later List.mem_cons_self
      refine ⟨hrow, fun _ t ht => ?_, hkind⟩
      exact Nat.ne_of_gt (hlater _ List.mem_cons_self t ht token List.mem_cons_self)

/-! ### Whole programs -/

theorem programItem_statementLoop : StatementLoop programItem where
  advancing := programItem_advancing
  item := by
    intro r before h
    have hend : r.atEnd = false := decide_eq_false (ne_of_mem_starts h (by decide))
    unfold programItem
    rw [read_get_bind, if_neg (by rw [hend]; decide)]
    refine congrFun ?_ r
    split
    all_goals first
      | rfl
      | rename_i hkind
        rw [hkind] at h
        exact absurd h (by decide)

theorem programItem_over {r : Reader} {next : Token} {rest : List Token}
    (hrest : r.rest = next :: rest) (hnext : next.kind = .endOfInput) (before : List Stmt) :
    programItem before r = .ok none r := by
  have hend : r.atEnd = true := by rw [Reader.atEnd, Reader.peek_of_rest hrest, hnext]; rfl
  unfold programItem
  rw [read_get_bind, if_pos hend]
  rfl

theorem Reader.rest_ofTokens {tokens : List Token} {last : Token}
    (hlast : last.kind = .endOfInput) :
    (Reader.ofTokens (tokens ++ [last])).rest = tokens ++ [last] := by
  have hclosed : Reader.closeTokens (tokens ++ [last]).toArray = (tokens ++ [last]).toArray := by
    unfold Reader.closeTokens
    simp [hlast]
  show (Reader.closeTokens (tokens ++ [last]).toArray).toList.drop 0 = _
  rw [hclosed]
  rfl

/-- A program is read as the statements that its rows spell. -/
theorem SpellsRows.program {statements : List Stmt} {s : Sight} {last : Token}
    (h : SpellsRows {} (.statements statements) rows s) (hlast : last.kind = .endOfInput)
    (haligned : Aligned rows last) :
    ∃ found r, programStatements (Reader.ofTokens (rows.flatten ++ [last])) = .ok found r ∧
      found.map Stmt.bare = statements.map Stmt.bare ∧
      (∀ found ∈ r.problems, found.1.Semantic) ∧ r.layout.Shows s := by
  have hfaces : (Reader.ofTokens (rows.flatten ++ [last])).Faces {} rows last [] :=
    ⟨.start, rfl, Reader.rest_ofTokens hlast, haligned⟩
  obtain ⟨found, r, hread, hfound, hmoves, hshows⟩ :=
    h.readFrom programItem_statementLoop [] hfaces
  have hover := programItem_over (hmoves.rest_eq hfaces.ahead) hlast found
  refine ⟨found.reverse, r, ?_, by simp [hfound], ?_, hshows⟩
  · exact (read_bind (f := fun all => pure (List.reverse all))
      (hread.trans (iterate_over programItem_advancing hover))).trans rfl
  · obtain ⟨added, hadded, hsemantic⟩ := hmoves.problems
    rw [hadded]
    simpa [Reader.ofTokens] using hsemantic

namespace Reader

variable {r : Reader}

theorem semantic_checkPlaces {name : String} {position : Nat} {params : List VarId}
    {args : List (Bool × Span)} :
    ∀ found ∈ r.checkPlaces name position params args, found.1.Semantic := by
  fun_induction checkPlaces r name position params args with
  | case1 _ _ _ _ _ _ _ _ _ ih => exact List.forall_mem_cons.mpr ⟨rfl, ih⟩
  | case2 _ _ _ _ _ _ _ _ _ ih => exact ih
  | case3 => simp

theorem semantic_checkArguments (id : RoutineId) (call : PendingCall) :
    ∀ found ∈ r.checkArguments id call, found.1.Semantic := by
  unfold checkArguments
  extract_lets params signature
  split
  · exact semantic_checkPlaces
  · exact List.forall_mem_singleton.mpr rfl

theorem semantic_checkCall (call : PendingCall) :
    ∀ found ∈ r.checkCall call, found.1.Semantic := by
  have hone : ∀ {problem : Problem} {span : Span}, problem.Semantic →
      ∀ found ∈ [(problem, span)], found.1.Semantic :=
    fun h => List.forall_mem_singleton.mpr h
  unfold checkCall checkOutside
  split
  · split
    · simp
    · split
      · exact semantic_checkArguments _ call
      · split
        · simp
        · exact hone rfl
  · split
    · simp
    · split
      · exact semantic_checkArguments _ call
      · exact hone rfl
  · split
    · exact semantic_checkArguments _ call
    · split
      · exact hone rfl
      · split
        · simp
        · exact hone rfl

/-- What only shows in the whole program is about what it means. -/
theorem semantic_unresolved (r : Reader) : ∀ found ∈ r.unresolved, found.1.Semantic := by
  intro found hfound
  rcases List.mem_append.mp hfound with hfound | hfound
  · rcases List.mem_append.mp hfound with hfound | hfound
    · obtain ⟨⟨name, span⟩, -, hfound⟩ := List.mem_flatMap.mp hfound
      dsimp only [checkType] at hfound
      split at hfound
      · cases hfound
      · obtain rfl := List.mem_singleton.mp hfound
        rfl
    · obtain ⟨call, -, hfound⟩ := List.mem_flatMap.mp hfound
      exact semantic_checkCall call found hfound
  · unfold checkMain at hfound
    split at hfound
    · cases hfound
    · dsimp only at hfound
      split at hfound
      · cases hfound
      · obtain rfl := List.mem_singleton.mp hfound
        rfl

end Reader

end Grammar

namespace Program

open Grammar

/-- **A program that is written as the spelling of statements is read as these statements.**  Every
name is the variable that was in sight, and the program declares just the variables that were
declared.  Nothing is wrong with how it is written. -/
theorem reads_spelling {source : String} {rows : List (List Token)} {statements : List Stmt}
    {s : Sight} (hwritten : WrittenText 1 0 source.toList rows)
    (hspelt : SpellsRows {} (.statements statements) (rows.filter (· ≠ [])) s) :
    (ofSource source).1.statements.map Stmt.bare = statements.map Stmt.bare ∧
      (ofSource source).1.symbols.entries.toList.map (fun v => (v.name, v.type)) = s.declared ∧
      ∀ d ∈ (ofSource source).2, d.kind = .semantic := by
  obtain ⟨span, hscan⟩ := scan_written hwritten
  obtain ⟨hlines, hordered⟩ := hwritten.lines
  have hflatten : rows.flatten = (rows.filter (· ≠ [])).flatten := List.flatten_filter_ne_nil.symm
  have haligned : Aligned (rows.filter (· ≠ [])) ⟨.endOfInput, "", span⟩ := by
    refine aligned_of_lines rfl (fun row hrow t ht t' ht' => ?_) (hordered.filter _) hspelt.starts
    obtain ⟨l, -, hline⟩ := hlines row (List.mem_filter.mp hrow).1
    rw [hline t ht, hline t' ht']
  obtain ⟨found, r, hread, hfound, hproblems, hshows⟩ := hspelt.program rfl haligned
  rw [ofSource_eq, hscan, hflatten, ofTokens_eq hread]
  refine ⟨hfound, hshows.declared, fun d hd => ?_⟩
  rw [List.nil_append] at hd
  obtain ⟨problem, hproblem, rfl⟩ :=
    List.mem_map.mp (List.mem_mergeSort.mp (List.mem_mergeSort.mp hd))
  rcases List.mem_append.mp hproblem with hproblem | hproblem
  · exact hproblems problem (Array.mem_toList_iff.mp hproblem)
  · exact r.semantic_unresolved problem hproblem

/-- A loop that counts down, with a comment and a blank line. -/
def countdownText : String :=
  "Declare Integer n = 3\nWhile n > 0 // down\n\n  Set n = n - 1\nEnd While"

def countdownRows : List (List Token) := [
  [⟨.kwDeclare, "Declare", ⟨0, 7, 1⟩⟩, ⟨.typeName, "Integer", ⟨8, 15, 1⟩⟩,
    ⟨.identifier, "n", ⟨16, 17, 1⟩⟩, ⟨.equal, "=", ⟨18, 19, 1⟩⟩, ⟨.integer, "3", ⟨20, 21, 1⟩⟩],
  [⟨.kwWhile, "While", ⟨22, 27, 2⟩⟩, ⟨.identifier, "n", ⟨28, 29, 2⟩⟩, ⟨.greater, ">", ⟨30, 31, 2⟩⟩,
    ⟨.integer, "0", ⟨32, 33, 2⟩⟩],
  [],
  [⟨.kwSet, "Set", ⟨45, 48, 4⟩⟩, ⟨.identifier, "n", ⟨49, 50, 4⟩⟩, ⟨.equal, "=", ⟨51, 52, 4⟩⟩,
    ⟨.identifier, "n", ⟨53, 54, 4⟩⟩, ⟨.minus, "-", ⟨55, 56, 4⟩⟩, ⟨.integer, "1", ⟨57, 58, 4⟩⟩],
  [⟨.kwEnd, "End", ⟨59, 62, 5⟩⟩, ⟨.kwWhile, "While", ⟨63, 68, 5⟩⟩]]

def countdownTree : List Stmt :=
  let n : Expr := .variableRef 0 "n" Span.nowhere
  let number (k : Int64) : Expr := .literal (.integer k) Span.nowhere
  [.declare [⟨0, [], some (.one (number 3)), Span.nowhere⟩] Span.nowhere,
    .whileLoop (.binary .greater n (number 0) Span.nowhere)
      ⟨[.assign n (.binary .subtract n (number 1) Span.nowhere) Span.nowhere], Span.nowhere⟩
      Span.nowhere]

/-- What is in sight after the first line. -/
def countdownSight : Sight := Sight.declare {} "n" .integer

theorem countdown_written : WrittenText 1 0 countdownText.toList countdownRows := by
  have htext : countdownText.toList =
      "Declare".toList ++ ' ' :: ("Integer".toList ++ ' ' :: ("n".toList ++ ' ' :: (['='] ++ ' ' ::
        ("3".toList ++ [])))) ++ '\n' ::
      ("While".toList ++ ' ' :: ("n".toList ++ ' ' :: (['>'] ++ ' ' :: ("0".toList ++
        ' ' :: '/' :: '/' :: " down".toList))) ++ '\n' :: ([] ++ '\n' ::
      (' ' :: ' ' :: ("Set".toList ++ ' ' :: ("n".toList ++ ' ' :: (['='] ++ ' ' ::
        ("n".toList ++ ' ' :: (['-'] ++ ' ' :: ("1".toList ++ [])))))) ++ '\n' ::
      ("End".toList ++ ' ' :: ("While".toList ++ []))))) := by decide +kernel
  have hblank : ' ' = ' ' ∨ ' ' = '\t' ∨ ' ' = '\r' := .inl rfl
  have hhead : ∀ {P : Char → Prop} {c : Char} {rest : List Char}, P c →
      ∀ d ∈ (c :: rest).head?, P d := by
    intro P c rest hc d hd
    obtain rfl : c = d := Option.some.inj hd
    exact hc
  have hgap : ∀ {rest : List Char}, ∀ c ∈ (' ' :: rest).head?, Text.continuesName c = false :=
    hhead (by decide +kernel)
  have hn : ∀ {rest : List Char}, Written (' ' :: rest) .identifier "n" "n".toList :=
    .name (by decide +kernel) (by decide +kernel) hgap
  have hlast : ∀ {digits : String}, Digits digits.toList →
      Written [] .integer digits digits.toList := fun hdigits =>
    .integer hdigits (fun d hd => by cases hd) fun h => by cases h
  rw [htext]
  refine .more ?_ (.more ?_ (.more .done (.more ?_ (.last ?_))))
  · refine .token (.reserved (by decide +kernel) hgap) (.blank hblank ?_)
    refine .token (.reserved (by decide +kernel) hgap) (.blank hblank ?_)
    refine .token hn (.blank hblank ?_)
    refine .token (.mark (by decide +kernel) (hhead (by decide +kernel))) (.blank hblank ?_)
    exact .token (hlast (by decide +kernel)) .done
  · refine .token (.reserved (by decide +kernel) hgap) (.blank hblank ?_)
    refine .token hn (.blank hblank ?_)
    refine .token (.mark (by decide +kernel) (hhead (by decide +kernel))) (.blank hblank ?_)
    refine .token (.integer (by decide +kernel) (hhead (by decide +kernel)) ?_)
      (.blank hblank (.comment (by decide +kernel)))
    exact fun h => absurd h (by decide +kernel)
  · refine .blank hblank (.blank hblank ?_)
    refine .token (.reserved (by decide +kernel) hgap) (.blank hblank ?_)
    refine .token hn (.blank hblank ?_)
    refine .token (.mark (by decide +kernel) (hhead (by decide +kernel))) (.blank hblank ?_)
    refine .token hn (.blank hblank ?_)
    refine .token (.mark (by decide +kernel) (hhead (by decide +kernel))) (.blank hblank ?_)
    exact .token (hlast (by decide +kernel)) .done
  · refine .token (.reserved (by decide +kernel) hgap) (.blank hblank ?_)
    exact .token (.reserved (by decide +kernel) fun d hd => by cases hd) .done

theorem countdown_spelt :
    SpellsRows {} (.statements countdownTree) (countdownRows.filter (· ≠ [])) countdownSight := by
  have hnumber : ∀ {names : Names} {t : Token} {k : Int64}, t.kind = .integer →
      Decimal.readInteger? t.lexeme = some k →
        Spells names .unary [t] (.literal (.integer k) Span.nowhere) := fun hkind hvalue =>
    .tighter rfl (.tighter rfl (.tighter rfl (.literal (.integer hkind hvalue))))
  have hn : ∀ {s : Sight} {place : Span}, s.lookup? "n" = some 0 →
      Spells s.names .suffixed [⟨.identifier, "n", place⟩] (.variableRef 0 "n" Span.nowhere) :=
    fun hfound => .tighter rfl (.named rfl hfound)
  have hdeclare : SpellsLine {} countdownRows[0] countdownTree[0] countdownSight := by
    refine .declare rfl (.builtin rfl rfl) (.last (.starting rfl rfl
      (.tighter rfl (.tighter rfl (.tighter rfl (.tighter rfl (.tighter rfl (.tighter rfl
        (hnumber rfl (by decide)))))))) ?_))
    exact fun found hfound => .inl (Option.some.inj hfound).symm
  have htest : Spells countdownSight.names .disjunction countdownRows[1].tail
      (.binary .greater (.variableRef 0 "n" Span.nowhere) (.literal (.integer 0) Span.nowhere)
        Span.nowhere) := by
    refine .tighter rfl (.tighter rfl (.tighter rfl (.joined rfl .greater
      (.tighter rfl (.tighter rfl (.tighter rfl (.tighter rfl (.tighter rfl (hn ?_)))))) ?_)))
    · decide
    · exact .tighter rfl (.tighter rfl (hnumber rfl (by decide)))
  have hset : SpellsLine countdownSight.enter countdownRows[3]
      (.assign (.variableRef 0 "n" Span.nowhere) (.binary .subtract (.variableRef 0 "n" Span.nowhere)
        (.literal (.integer 1) Span.nowhere) Span.nowhere) Span.nowhere) countdownSight.enter := by
    have hplace : Spells countdownSight.enter.names .suffixed [countdownRows[3][1]]
        (.variableRef 0 "n" Span.nowhere) := hn (by decide)
    refine .assign rfl rfl hplace ?_
    refine .tighter rfl (.tighter rfl (.tighter rfl (.tighter rfl (.joined rfl .subtract
      (.tighter rfl (.tighter rfl (.tighter rfl (.tighter rfl (hn ?_))))) ?_))))
    · decide
    · exact .tighter rfl (hnumber rfl (by decide))
  have hbody : SpellsRows countdownSight (.block ⟨_, Span.nowhere⟩) [countdownRows[3]]
      countdownSight := .block (.more (.simple hset) .none)
  have hend : OfKinds [.kwEnd, .kwWhile] countdownRows[4] := rfl
  exact .more (.simple hdeclare) (.more (.whileLoop rfl htest hbody hend) .none)

theorem reads_spelling_countdown :
    (ofSource countdownText).1.statements.map Stmt.bare = countdownTree.map Stmt.bare ∧
      (ofSource countdownText).1.symbols.entries.toList.map (fun v => (v.name, v.type))
        = [("n", .integer)] ∧
      ∀ d ∈ (ofSource countdownText).2, d.kind = .semantic :=
  reads_spelling countdown_written countdown_spelt

end Program

end Primer
