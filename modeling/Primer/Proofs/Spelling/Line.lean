/-
Lines as they are read.

A row of tokens stands on a line of its own, and the line after it starts with a word that goes on
with no expression.  So what is spelled in a row is read up to its end, and the end of a statement
is found where the row ends.  The only problems that can come up are about what the row means.
-/
import Primer.Proofs.Progress.Program
import Primer.Proofs.Spelling.Reading
import Primer.Proofs.Spelling.Sight

namespace Primer.Grammar

variable {level : Level} {kind : TokenKind} {names : Names} {tokens : List Token} {e : Expr}

/-- What is spelled may still have no meaning. -/
def Problem.Semantic (p : Problem) : Prop := p.wording.kind = .semantic

/-! ### Steps that succeed -/

/-- The step gives a result, with `Q`. -/
def Succeeds {α : Type} (x : Read α) (r : Reader) (Q : α → Reader → Prop) : Prop :=
  ∃ a r', x r = .ok a r' ∧ Q a r'

namespace Succeeds

variable {α β : Type} {x : Read α} {r : Reader} {Q Q' : α → Reader → Prop} {P : β → Reader → Prop}

theorem pure {a : α} (h : Q a r) : Succeeds (Pure.pure a) r Q := ⟨a, r, rfl, h⟩

theorem mono (h : Succeeds x r Q) (hQ : ∀ a r', Q a r' → Q' a r') : Succeeds x r Q' := by
  obtain ⟨a, r', hx, ha⟩ := h
  exact ⟨a, r', hx, hQ a r' ha⟩

theorem bind {f : α → Read β} (h : Succeeds x r Q)
    (hf : ∀ a r', Q a r' → Succeeds (f a) r' P) : Succeeds (x >>= f) r P := by
  obtain ⟨a, r', hx, ha⟩ := h
  obtain ⟨b, r'', hb, hP⟩ := hf a r' ha
  exact ⟨b, r'', (read_bind hx).trans hb, hP⟩

theorem map {f : α → β} (h : Succeeds x r Q) (hf : ∀ a r', Q a r' → P (f a) r') :
    Succeeds (f <$> x) r P :=
  bind (f := fun a => Pure.pure (f a)) h fun a r' ha => .pure (hf a r' ha)

theorem get_bind {f : Reader → Read β} (h : Succeeds (f r) r P) : Succeeds (get >>= f) r P := h

theorem look_bind {g : Reader → α} {f : α → Read β} (h : Succeeds (f (g r)) r P) :
    Succeeds (look g >>= f) r P := h

theorem modify_bind {g : Reader → Reader} {f : PUnit → Read β} (h : Succeeds (f ⟨⟩) (g r) P) :
    Succeeds (modify g >>= f) r P := h

theorem modifyGet_bind {g : Reader → α × Reader} {f : α → Read β}
    (h : Succeeds (f (g r).1) (g r).2 P) : Succeeds (modifyGet g >>= f) r P := h

theorem attempt (h : Succeeds x r Q) :
    Succeeds (Grammar.attempt x) r fun found r' => ∃ a, found = some a ∧ Q a r' := by
  obtain ⟨a, r', hx, ha⟩ := h
  refine ⟨some a, r', ?_, a, rfl, ha⟩
  unfold Grammar.attempt
  rw [hx]

end Succeeds

/-! ### Where lines start and end -/

/-- How a statement can start. -/
def statementStarts : List TokenKind :=
  [.kwDeclare, .kwSet, .kwDisplay, .kwInput, .kwCall, .kwIf, .kwSelect, .kwWhile, .kwDo, .kwFor,
    .kwBreak, .kwContinue, .kwStop]

/-- How a line can start, or what stands after the last one. -/
def lineStarts : List TokenKind :=
  statementStarts ++ [.kwElse, .kwCase, .kwDefault, .kwLoop, .kwEnd, .endOfInput]

/-- How an expression can start. -/
def valueStarts : List TokenKind :=
  [.integer, .real, .text, .character, .kwTrue, .kwFalse, .kwNull, .identifier, .kwNew, .leftParen,
    .kwNot, .minus]

/-- The row has a line to itself, and `next` starts another line or stands at the end. -/
structure Alone (row : List Token) (next : Token) : Prop where
  line : ∀ t ∈ row, ∀ t' ∈ row, t.line = t'.line
  parted : next.kind ≠ .endOfInput → ∀ t ∈ row, next.line ≠ t.line
  starts : next.kind ∈ lineStarts

theorem ne_of_mem_starts {starts : List TokenKind} {other : TokenKind} (h : kind ∈ starts)
    (hother : other ∉ starts) : kind ≠ other := fun heq => hother (heq ▸ h)

theorem not_continues_of_lineStarts {inTest : Bool} (h : kind ∈ lineStarts) :
    ¬ Continues inTest kind := by
  have hall : ∀ inTest, ∀ kind ∈ lineStarts, ¬ Continues inTest kind := by decide
  exact hall inTest kind h

theorem Spells.valueStarts (h : Spells names level tokens e) :
    ∃ token more, tokens = token :: more ∧ token.kind ∈ valueStarts := by
  induction h with
  | tighter _ _ ih => exact ih
  | joined _ _ _ _ ih | field _ _ _ ih | index _ _ _ _ _ _ _ ih | moreIndices _ _ _ _ _ ih
  | methodCall _ _ _ _ _ _ _ ih | power _ _ _ ih =>
    obtain ⟨token, more, rfl, hstarts⟩ := ih
    exact ⟨token, _, rfl, hstarts⟩
  | not hkind | negate hkind | named hkind _ | call hkind | new hkind | grouping hkind =>
    exact ⟨_, _, rfl, by rw [hkind]; decide⟩
  | literal hvalue =>
    cases hvalue <;> exact ⟨_, _, rfl, by simp_all [Grammar.valueStarts]⟩

theorem Operator.loose {join : Expr → Expr → Span → Expr} (h : Operator level kind join) :
    Level.suffixed.bond < level.bond := by
  cases h <;> decide

/-- What follows a value that starts with a name.  A call is never the name alone. -/
theorem Spells.afterName (h : Spells names level tokens e)
    (hlevel : level.bond ≤ Level.suffixed.bond) :
    ∃ token more, tokens = token :: more ∧ (e.isCall = true → more ≠ []) ∧
      (token.kind = .identifier → ∀ next ∈ more.head?,
        next.kind = .leftParen ∨ next.kind = .dot ∨ next.kind = .leftBracket) := by
  have hafter : ∀ {token suffix : Token} {more rest : List Token},
      (token.kind = .identifier → ∀ next ∈ more.head?,
        next.kind = .leftParen ∨ next.kind = .dot ∨ next.kind = .leftBracket) →
      (suffix.kind = .dot ∨ suffix.kind = .leftBracket) →
      token.kind = .identifier → ∀ next ∈ (more ++ suffix :: rest).head?,
        next.kind = .leftParen ∨ next.kind = .dot ∨ next.kind = .leftBracket := by
    intro token suffix more rest hmore hsuffix hname next hnext
    cases more with
    | nil =>
      obtain rfl : suffix = next := Option.some.inj hnext
      exact .inr hsuffix
    | cons second more => exact hmore hname next hnext
  induction h with
  | tighter htighter _ ih =>
    exact ih (Nat.le_trans (Nat.le_of_lt (Level.bond_of_tighter? htighter).2) hlevel)
  | joined _ hop => exact absurd hlevel (Nat.not_le_of_lt hop.loose)
  | not | negate | power => exact absurd hlevel (by decide)
  | index hopening _ _ _ _ _ _ ih | moreIndices hopening _ _ _ _ ih =>
    obtain ⟨token, more, rfl, -, hnext⟩ := ih hlevel
    exact ⟨token, _, rfl, by simp, hafter hnext (.inr hopening)⟩
  | field hdot _ _ ih | methodCall hdot _ _ _ _ _ _ ih =>
    obtain ⟨token, more, rfl, -, hnext⟩ := ih hlevel
    exact ⟨token, _, rfl, by simp, hafter hnext (.inl hdot)⟩
  | literal | named => exact ⟨_, [], rfl, by simp [Expr.isCall], fun _ _ hmem => nomatch hmem⟩
  | call _ hopening =>
    refine ⟨_, _, rfl, by simp, fun _ next hmem => ?_⟩
    obtain rfl : _ = next := Option.some.inj hmem
    exact .inl hopening
  | new hword | grouping hword =>
    refine ⟨_, _, rfl, by simp [Expr.isCall], fun hname => ?_⟩
    rw [hword] at hname
    cases hname

/-! ### Tokens -/

section Tokens

variable {S : Problem → Prop} {r r' r₀ : Reader} {token next : Token} {row more rest : List Token}
  {kind : TokenKind}

theorem Reader.peekAt_of_rest {second : Token} (h : r.rest = token :: second :: more) :
    r.peekAt 1 = second := by
  have hfound : r.tokens.toList[r.cursor + 1]? = some second := by
    have hsecond : r.rest[1]? = some second := by rw [h]; rfl
    rwa [Reader.rest, List.getElem?_drop] at hsecond
  rw [Array.getElem?_toList] at hfound
  obtain ⟨hlt, hget⟩ := Array.getElem?_eq_some_iff.mp hfound
  unfold Reader.peekAt
  have hmin : min (r.cursor + 1) (r.tokens.size - 1) = r.cursor + 1 := by omega
  simpa only [hmin] using hget

theorem Reader.Moves.previous_mem (h : r.Moves S row r') (hrow : row ≠ []) : r'.previous ∈ row := by
  have hpos := List.length_pos_iff.mpr hrow
  have hindex : r'.cursor - 1 = r.cursor + (row.length - 1) := by
    rw [h.cursor]
    omega
  have hlast : r.rest[row.length - 1]? = row[row.length - 1]? := by
    rw [h.rest, List.getElem?_append_left (by omega)]
  rw [Reader.rest, List.getElem?_drop, ← hindex, ← h.tokens, Array.getElem?_toList,
    r'.tokens_previous] at hlast
  exact List.mem_of_getElem? hlast.symm

theorem advance_takes (h : r.rest = token :: more) (hkind : token.kind ≠ .endOfInput) :
    Succeeds advance r fun found r' => token = found ∧ r.Takes Problem.Semantic [token] r' :=
  ⟨token, r.step, advance_of_rest h hkind, rfl, Reader.takes_step _ h hkind⟩

theorem accept_takes (h : r.rest = token :: more) (hkind : token.kind = kind)
    (hend : kind ≠ .endOfInput) :
    Succeeds (accept kind) r fun found r' => found = true ∧ r.Takes Problem.Semantic [token] r' :=
  ⟨true, r.step, accept_of_rest h hkind hend, rfl, Reader.takes_step _ h (hkind ▸ hend)⟩

theorem accept_stays (h : r.rest = token :: more) (hkind : token.kind ≠ kind)
    (hend : kind ≠ .endOfInput) : Succeeds (accept kind) r fun found r' => found = false ∧ r' = r :=
  ⟨false, r, accept_other h hkind hend, rfl, rfl⟩

theorem expect_takes {problem : Problem} (h : r.rest = token :: more) (hkind : token.kind = kind)
    (hend : kind ≠ .endOfInput) :
    Succeeds (expect kind problem) r fun found r' =>
      token = found ∧ r.Takes Problem.Semantic [token] r' :=
  ⟨token, r.step, expect_of_rest h hkind hend, rfl, Reader.takes_step _ h (hkind ▸ hend)⟩

/-- Inside of a row the line goes on. -/
theorem onLine_within {first : Token} (halone : Alone row next) (hfirst : first ∈ row)
    (htoken : token ∈ row) (hkind : token.kind ≠ .endOfInput) (h : r.rest = token :: more) :
    r.onLine first.line = true := by
  unfold Reader.onLine
  rw [Reader.atEnd_of_rest h hkind, Reader.peek_of_rest h, halone.line token htoken first hfirst]
  simp

/-- After a row nothing is left on its line. -/
theorem onLine_after (halone : Alone row next) (htoken : token ∈ row) (h : r.rest = next :: rest) :
    r.onLine token.line = false := by
  unfold Reader.onLine Reader.atEnd
  rw [Reader.peek_of_rest h]
  by_cases hend : next.kind = .endOfInput
  · simp [hend]
  · simp [halone.parted hend token htoken]

/-- When a row has been taken, its statement ends. -/
theorem endOfStatement_stays (h : r₀.Moves S row r) (hrow : row ≠ []) (halone : Alone row next)
    (hrest : r₀.rest = row ++ next :: rest) : Succeeds endOfStatement r fun _ r' => r' = r := by
  have hafter := onLine_after halone (h.previous_mem hrow) (h.rest_eq hrest)
  unfold Reader.onLine at hafter
  refine .get_bind ?_
  split
  · exact .pure rfl
  · rename_i hmore
    split
    · rename_i hline
      simp_all
    · exact .pure rfl

theorem rowEnds {α : Type} {taken : List Token} {f : Unit → Read α} {Q : α → Reader → Prop}
    (h : r₀.Moves S taken r) (htaken : taken = row) (hrow : row ≠ []) (halone : Alone row next)
    (hrest : r₀.rest = row ++ next :: rest) (hf : r₀.Moves S row r → Succeeds (f ()) r Q) :
    Succeeds (endOfStatement >>= f) r Q := by
  subst htaken
  exact (endOfStatement_stays h hrow halone hrest).bind fun _ _ hstay => hstay ▸ hf h

end Tokens

/-! ### Expressions -/

section Expressions

variable {s : Sight} {r : Reader} {next : Token} {tokens rest : List Token} {e : Expr}

/-- What is in sight is what the reader finds. -/
theorem Reader.finds_of_shows (h : r.layout.Shows s) : r.Finds Problem.Semantic s.names :=
  ⟨h.lookup?, fun _ _ _ => .inr rfl⟩

theorem Spells.ahead {names : Names} (h : Spells names level tokens e)
    (hrest : r.rest = tokens ++ rest) :
    ∃ token after, r.rest = token :: after ∧ token ∈ tokens ∧ token.kind ∈ Grammar.valueStarts := by
  obtain ⟨token, more, rfl, hstarts⟩ := h.valueStarts
  exact ⟨token, more ++ rest, hrest, List.mem_cons_self, hstarts⟩

theorem expression_takes (hspelt : Spells s.names .disjunction tokens e)
    (hshows : r.layout.Shows s) (hrest : r.rest = tokens ++ next :: rest)
    (hnext : ¬ Continues r.inTest next.kind) :
    Succeeds expression r fun found r' =>
      found.bare = e.bare ∧ r.Takes Problem.Semantic tokens r' :=
  hspelt.readAt.expression (Reader.finds_of_shows hshows) hrest hnext

theorem target_takes (hspelt : Spells s.names .suffixed tokens e) (hshows : r.layout.Shows s)
    (hrest : r.rest = tokens ++ next :: rest)
    (hnext : Ends r.inTest Level.suffixed.bond next.kind) :
    Succeeds target r fun found r' =>
      found.bare = e.bare ∧ r.Takes Problem.Semantic tokens r' := by
  rw [target_unfold]
  exact hspelt.readAt.finish (Reader.finds_of_shows hshows) hrest hnext

theorem list_takes {items : Listing} (hspelt : SpellsList s.names items)
    (hshows : r.layout.Shows s) (hrest : r.rest = items.tokens ++ next :: rest)
    (hnext : ¬ Continues r.inTest next.kind) (hover : next.kind ≠ .comma) :
    Succeeds (commaSeparated expression) r fun found r' =>
      found.map Expr.bare = items.values.map Expr.bare ∧
        r.Takes Problem.Semantic items.tokens r' :=
  Listing.read hspelt.commas (fun part hpart => (hspelt.parts part hpart).readAt)
    (Reader.finds_of_shows hshows) hrest hnext hover

theorem report_succeeds {problem : Problem} {span : Span} (h : problem.Semantic) :
    Succeeds (report problem span) r fun _ r' => r.Takes Problem.Semantic [] r' := by
  obtain ⟨r', hread, htakes⟩ := report_takes h span r
  exact ⟨(), r', hread, htakes⟩

theorem checkAssignable_takes (place : Expr) :
    Succeeds (checkAssignable place) r fun _ r' => r.Takes Problem.Semantic [] r' := by
  fun_induction checkAssignable place with
  | case1 => exact .pure (.refl r)
  | case2 id name span =>
    refine .look_bind ?_
    split
    · exact report_succeeds rfl
    · exact .pure (.refl r)
  | case3 base _ _ ih => exact ih
  | case4 => exact .pure (.refl r)
  | case5 => exact report_succeeds rfl

end Expressions

/-- The step takes the row and gives the statement. -/
def ReadsRow (x : Read Stmt) (s : Sight) (row : List Token) (statement : Stmt) (s' : Sight) : Prop :=
  ∀ ⦃r next rest⦄, r.layout.Shows s → r.inTest = false → r.rest = row ++ next :: rest →
    Alone row next → Succeeds x r fun found r' => found.bare = statement.bare ∧
      r.Moves Problem.Semantic row r' ∧ r'.layout.Shows s'

/-! ### Declarations -/

section Declarations

variable {s s' : Sight} {r : Reader} {next name word : Token} {tokens rest : List Token}
  {type : TypeName} {d : Declaration} {e found : Expr} {ds : List Declaration}

theorem literalType?_bare (e : Expr) : e.bare.literalType? = e.literalType? := by
  fun_induction Expr.literalType? e with
  | case7 e => cases e <;> simp_all [Expr.bare, Expr.literalType?]
  | _ => simp_all [Expr.bare, Expr.literalType?]

theorem Fits.storable (h : Fits type e) (hbare : found.bare = e.bare) {literal : TypeName}
    (hliteral : found.literalType? = some literal) : storable type literal found = true := by
  have hsame : e.literalType? = some literal := by
    rw [← literalType?_bare, ← hbare, literalType?_bare, hliteral]
  rcases h literal hsame with rfl | ⟨rfl, rfl⟩ | ⟨rfl, rfl⟩ | ⟨rfl, text, span, rfl, hlength⟩
  · simp [Grammar.storable]
  · rfl
  · rfl
  · obtain rfl : TypeName.text = literal := Option.some.inj hsame
    cases found <;> simp only [Expr.bare] at hbare <;> cases hbare
    simp [Grammar.storable, hlength]

theorem literalMismatch_stays (h : Fits type e) (hbare : found.bare = e.bare) :
    Succeeds (literalMismatch type found) r fun mismatch r' => mismatch = false ∧ r' = r := by
  unfold literalMismatch
  split
  · exact .pure ⟨rfl, rfl⟩
  · rename_i literal hliteral
    rw [h.storable hbare hliteral]
    exact .pure ⟨rfl, rfl⟩

theorem declaredType?_takes (htype : SpellsType word type) (hrest : r.rest = word :: name :: rest)
    (hname : name.kind = .identifier) (hline : name.line = word.line) :
    Succeeds declaredType? r fun found r' =>
      found = some type ∧ r.Takes Problem.Semantic [word] r' := by
  have hpeek := Reader.peek_of_rest hrest
  have hsecond := Reader.peekAt_of_rest hrest
  have hstarts : r.startsType = true := by
    unfold Reader.startsType
    cases htype with
    | builtin hkind => simp [hpeek, hkind]
    | ofClass hkind => simp [hpeek, hsecond, hkind, hname, hline]
  have hend : word.kind ≠ .endOfInput := by cases htype <;> simp_all
  refine .look_bind ?_
  rw [if_pos hstarts]
  refine Succeeds.map (Q := fun found r' => found = type ∧ r.Takes Problem.Semantic [word] r') ?_
    fun found r' h => ⟨congrArg some h.1, h.2⟩
  refine (advance_takes hrest hend).bind fun token r₁ ⟨htoken, htaken⟩ => ?_
  subst htoken
  cases htype with
  | builtin hkind hword =>
    rw [if_pos hkind]
    exact .pure ⟨by rw [hword]; rfl, htaken⟩
  | ofClass hkind =>
    rw [if_neg (by rw [hkind]; decide)]
    obtain ⟨r₂, hdefer, htaken₂⟩ := deferType_takes word.lexeme word.span r₁
    refine Succeeds.bind (Q := fun _ r' => r₁.Takes Problem.Semantic [] r')
      ⟨_, r₂, hdefer, htaken₂⟩ fun _ r₃ htaken₃ => ?_
    exact .pure ⟨rfl, by simpa using htaken.trans htaken₃⟩

theorem sizes_stays (hrest : r.rest = next :: rest) (hnext : next.kind ≠ .leftBracket) :
    Succeeds sizes r fun found r' => found = [] ∧ r' = r := by
  refine ⟨[], r, iterate_over nextSizes_advancing ?_, rfl, rfl⟩
  unfold nextSizes
  rw [read_bind (accept_other hrest hnext (by decide))]
  rfl

theorem startingValue_takes {more : List Token} (hshows : r.layout.Shows s)
    (htest : r.inTest = false) (h : SpellsVariable type s (name :: more) d name)
    (hrest : r.rest = more ++ next :: rest) (hnext : next.kind ∈ .comma :: lineStarts)
    (token : Token) :
    Succeeds (startingValue token false) r fun found r' =>
      found.map Initializer.bare = d.init.map Initializer.bare ∧
        r.Takes Problem.Semantic more r' := by
  cases h with
  | alone =>
    refine .look_bind ?_
    have hequal : r.check .equal = false := by
      rw [Reader.check_of_rest hrest (by decide)]
      exact decide_eq_false (ne_of_mem_starts hnext (by decide))
    have hdouble : r.check .equalEqual = false := by
      rw [Reader.check_of_rest hrest (by decide)]
      exact decide_eq_false (ne_of_mem_starts hnext (by decide))
    rw [if_neg (by rw [hequal]; decide)]
    refine .look_bind ?_
    rw [if_neg (by rw [hdouble]; decide)]
    exact .pure ⟨rfl, .refl r⟩
  | @starting _ equal tokens value span hname hequal hvalue hfits =>
    refine .look_bind ?_
    rw [if_pos (by rw [Reader.check_of_rest hrest (by decide), hequal]; rfl)]
    refine (advance_takes hrest (by rw [hequal]; decide)).bind fun _ r₁ ⟨_, htaken⟩ => ?_
    have hrest₁ : r₁.rest = tokens ++ next :: rest := htaken.rest_eq hrest
    obtain ⟨first, others, rfl, hfirst⟩ := hvalue.valueStarts
    refine .look_bind ?_
    have hbracket : r₁.check .leftBracket = false := by
      rw [Reader.check_of_rest hrest₁ (by decide)]
      exact decide_eq_false (ne_of_mem_starts hfirst (by decide))
    rw [if_neg (by rw [hbracket]; decide)]
    have hends : ¬ Continues r₁.inTest next.kind := by
      rw [htaken.inTest, htest]
      rcases List.mem_cons.mp hnext with hcomma | hstarts
      · rw [hcomma]
        decide
      · exact not_continues_of_lineStarts hstarts
    refine (expression_takes hvalue (htaken.layout ▸ hshows) hrest₁ hends).bind
      fun found r₂ ⟨hbare, htaken₂⟩ => ?_
    refine .look_bind (.pure ⟨?_, htaken.trans htaken₂⟩)
    simp [Initializer.bare, hbare]

theorem declareName_succeeds (hshows : r.layout.Shows s) (name : Token) (type : TypeName) :
    Succeeds (declareName name type 0 .plain) r fun id r' => id = s.declared.length ∧
      r.Moves Problem.Semantic [] r' ∧ r'.layout.Shows (s.declare name.lexeme type) := by
  obtain ⟨hid, hshows'⟩ := hshows.declare name.lexeme type .plain name.span
  cases hdeclared : r.layout.declare name.lexeme type 0 .plain name.span with
  | mk id layout =>
    rw [hdeclared] at hid hshows'
    refine .look_bind (.modifyGet_bind ?_)
    simp only [hdeclared]
    split
    · refine Succeeds.bind (report_succeeds (by rfl)) fun _ r' htaken =>
        .pure ⟨hid, ?_, htaken.layout ▸ hshows'⟩
      exact ⟨htaken.tokens, htaken.cursor, htaken.rest, htaken.problems, htaken.inTest,
        htaken.openBlocks⟩
    · exact .pure ⟨hid, ⟨rfl, rfl, rfl, .refl r, rfl, rfl⟩, hshows'⟩

/-- A starting value that fits its type is kept. -/
theorem checkedInitializer_stays (h : SpellsVariable type s tokens d name)
    {init : Option Initializer} (hinit : init.map Initializer.bare = d.init.map Initializer.bare) :
    Succeeds (checkedInitializer type 0 init) r fun found r' => found = init ∧ r' = r := by
  cases h with
  | alone =>
    obtain rfl : init = none := Option.map_eq_none_iff.mp hinit
    exact .pure ⟨rfl, rfl⟩
  | starting _ _ _ hfits =>
    obtain ⟨start, rfl, hstart⟩ := Option.map_eq_some_iff.mp hinit
    cases start with
    | list items => simp [Initializer.bare] at hstart
    | one found =>
      have hbare : found.bare = _ := Initializer.one.inj hstart
      refine (literalMismatch_stays hfits hbare).bind fun mismatch r' ⟨hmismatch, hstay⟩ => ?_
      subst hmismatch
      exact .pure ⟨rfl, hstay⟩

theorem declarator_takes (h : SpellsVariable type s tokens d name) (hshows : r.layout.Shows s)
    (htest : r.inTest = false) (hrest : r.rest = tokens ++ next :: rest)
    (hnext : next.kind ∈ .comma :: lineStarts) (reported : Bool) :
    Succeeds (declarator .plain (some type) reported) r fun found r' =>
      found.1.bare = d.bare ∧ r.Moves Problem.Semantic tokens r' ∧
        r'.layout.Shows (s.declare name.lexeme type) := by
  obtain ⟨more, rfl, hname⟩ : ∃ more, tokens = name :: more ∧ name.kind = .identifier := by
    cases h with
    | alone hname => exact ⟨_, rfl, hname⟩
    | starting hname => exact ⟨_, rfl, hname⟩
  refine (expect_takes hrest hname (by decide)).bind fun token r₁ ⟨htoken, htaken₁⟩ => ?_
  subst htoken
  have hrest₁ : r₁.rest = more ++ next :: rest := htaken₁.rest_eq hrest
  obtain ⟨first, others, hfirst, hbracket⟩ : ∃ first others,
      more ++ next :: rest = first :: others ∧ first.kind ≠ .leftBracket := by
    cases h with
    | alone => exact ⟨next, rest, rfl, ne_of_mem_starts hnext (by decide)⟩
    | starting _ hequal => exact ⟨_, _, rfl, by rw [hequal]; decide⟩
  refine (sizes_stays (hrest₁.trans hfirst) hbracket).bind fun _ _ ⟨hsizes, hstay⟩ => ?_
  subst hsizes hstay
  refine (startingValue_takes (htaken₁.layout ▸ hshows) (htaken₁.inTest.trans htest) h hrest₁ hnext
    name).bind fun init r₂ ⟨hinit, htaken₂⟩ => ?_
  have htaken := htaken₁.trans htaken₂
  simp only [settleType, settleSizes, List.length_nil, pure_bind]
  refine (declareName_succeeds (htaken.layout ▸ hshows) name type).bind
    fun id r₃ ⟨hid, hmoves, hshows₃⟩ => ?_
  refine (checkedInitializer_stays h hinit).bind fun kept r₄ ⟨hkept, hstay⟩ => ?_
  subst hkept hstay
  refine .look_bind (.pure ⟨?_, ?_, hshows₃⟩)
  · cases h <;> simp [Declaration.bare, hid, hinit]
  · simpa using htaken.toMoves.trans hmoves

theorem nextDeclarator_over (hrest : r.rest = next :: rest) (hnext : next.kind ∈ lineStarts)
    (before : List Declaration × Bool) :
    nextDeclarator .plain (some type) before r = .ok none r := by
  obtain ⟨declarations, reported⟩ := before
  simp only [nextDeclarator]
  rw [read_bind (accept_other hrest (ne_of_mem_starts hnext (by decide)) (by decide))]
  rfl

/-- After a comma the loop takes another variable. -/
theorem moreDeclarators_comma {comma : Token} (hrest : r.rest = comma :: rest)
    (hcomma : comma.kind = .comma) (before : List Declaration) (reported : Bool) :
    iterate (nextDeclarator .plain (some type)) (before, reported) r = (do
      let (first, reported) ← declarator .plain (some type) reported
      iterate (nextDeclarator .plain (some type)) (first :: before, reported)) r.step := by
  rw [iterate_unfold nextDeclarator_advancing]
  simp only [nextDeclarator, bind_assoc]
  rw [read_bind (accept_of_rest hrest hcomma (by decide))]
  simp only [if_true, bind_assoc, pure_bind]

/-- The loop goes on as long as there are commas. -/
theorem moreDeclarators_take (h : SpellsVariables type s tokens ds s') (hshows : r.layout.Shows s)
    (htest : r.inTest = false) (hrest : r.rest = tokens ++ next :: rest)
    (hnext : next.kind ∈ lineStarts) (before : List Declaration) (reported : Bool) :
    Succeeds (do
      let (first, reported) ← declarator .plain (some type) reported
      iterate (nextDeclarator .plain (some type)) (first :: before, reported)) r fun found r' =>
        found.1.map Declaration.bare
          = (ds.map Declaration.bare).reverse ++ before.map Declaration.bare ∧
        r.Moves Problem.Semantic tokens r' ∧ r'.layout.Shows s' := by
  induction h generalizing r before reported with
  | last hvariable =>
    refine (declarator_takes hvariable hshows htest hrest (List.mem_cons_of_mem _ hnext)
      reported).bind fun first r₁ ⟨hbare, hmoves, hshows₁⟩ => ?_
    have hover : ∀ before, nextDeclarator .plain (some type) before r₁ = .ok none r₁ :=
      nextDeclarator_over (hmoves.rest_eq hrest) hnext
    refine ⟨_, r₁, iterate_over nextDeclarator_advancing (hover _), ?_, hmoves, hshows₁⟩
    simp [hbare]
  | @more s s' tokens tokens' d ds name comma hvariable hcomma _ ih =>
    rw [List.append_assoc, List.cons_append] at hrest
    refine (declarator_takes hvariable hshows htest hrest (by rw [hcomma]; exact List.mem_cons_self)
      reported).bind fun first r₁ ⟨hbare, hmoves, hshows₁⟩ => ?_
    have hrest₁ := hmoves.rest_eq hrest
    have hstep := Reader.takes_step Problem.Semantic hrest₁ (by rw [hcomma]; decide)
    obtain ⟨found, r', hread, hfound, hmoves', hshows'⟩ := ih (hstep.layout ▸ hshows₁)
      (hstep.inTest.trans (hmoves.inTest.trans htest)) (hstep.rest_eq hrest₁) (first.1 :: before)
      first.2
    refine ⟨found, r', (moreDeclarators_comma hrest₁ hcomma _ _).trans hread, ?_, ?_, hshows'⟩
    · simp [hfound, hbare]
    · exact hmoves.trans (hstep.toMoves.trans hmoves')

theorem SpellsVariables.first (h : SpellsVariables type s tokens ds s') :
    ∃ name more, tokens = name :: more ∧ name.kind = .identifier := by
  have hvariable : ∀ {tokens d name}, SpellsVariable type s tokens d name →
      ∃ name more, tokens = name :: more ∧ name.kind = .identifier := by
    rintro tokens d name (⟨hname⟩ | ⟨hname⟩)
    · exact ⟨name, _, rfl, hname⟩
    · exact ⟨name, _, rfl, hname⟩
  cases h with
  | last h => exact hvariable h
  | more h =>
    obtain ⟨name, more, rfl, hname⟩ := hvariable h
    exact ⟨name, _, rfl, hname⟩

theorem declarators_take (htype : SpellsType word type) (h : SpellsVariables type s tokens ds s')
    (hshows : r.layout.Shows s) (htest : r.inTest = false)
    (hrest : r.rest = word :: (tokens ++ next :: rest)) (hnext : next.kind ∈ lineStarts)
    (hline : ∀ t ∈ tokens, t.line = word.line) :
    Succeeds (declarators .plain) r fun found r' =>
      found.map Declaration.bare = ds.map Declaration.bare ∧
        r.Moves Problem.Semantic (word :: tokens) r' ∧ r'.layout.Shows s' := by
  obtain ⟨name, more, hfirst, hname⟩ := h.first
  have hrest' : r.rest = word :: name :: (more ++ next :: rest) := by rw [hrest, hfirst]; rfl
  refine (declaredType?_takes htype hrest' hname (hline name (by simp [hfirst]))).bind
    fun declared r₁ ⟨hdeclared, htaken⟩ => ?_
  subst hdeclared
  have hall := (moreDeclarators_take h (htaken.layout ▸ hshows) (htaken.inTest.trans htest)
    (htaken.rest_eq hrest) hnext [] false).map (f := fun found => found.1.reverse)
    (P := fun found r' => found.map Declaration.bare = ds.map Declaration.bare ∧
      r.Moves Problem.Semantic (word :: tokens) r' ∧ r'.layout.Shows s')
    fun found r' ⟨hfound, hmoves, hshows'⟩ =>
      ⟨by simp [hfound], htaken.toMoves.trans hmoves, hshows'⟩
  simpa only [map_eq_pure_bind, bind_assoc] using hall

end Declarations

/-! ### Simple statements -/

section Simple

variable {s s' : Sight} {keyword equal : Token} {tokens : List Token} {e : Expr} {span : Span}
  {statement : Stmt}

theorem declareStatement_takes {word : Token} {type : TypeName} {declarations : List Declaration}
    (hkeyword : keyword.kind = .kwDeclare) (htype : SpellsType word type)
    (h : SpellsVariables type s tokens declarations s') :
    ReadsRow (do
      let keyword ← advance
      declarationStatement .plain keyword.span) s (keyword :: word :: tokens)
      (.declare declarations span) s' := by
  intro r next rest hshows htest hrest halone
  refine (advance_takes hrest (by rw [hkeyword]; decide)).bind fun _ r₁ ⟨_, htaken⟩ => ?_
  refine (declarators_take htype h (htaken.layout ▸ hshows) (htaken.inTest.trans htest)
    (htaken.rest_eq hrest) halone.starts fun t ht => ?_).bind
    fun found r₂ ⟨hbare, hmoves, hshows₂⟩ => ?_
  · exact halone.line t (by simp [ht]) word (by simp)
  · refine .look_bind (rowEnds (htaken.toMoves.trans hmoves) rfl (by simp) halone hrest
      fun hrow => ?_)
    exact .pure ⟨by simp [hbare], hrow, hshows₂⟩

theorem assignmentOperator_takes {r : Reader} {rest : List Token} (hrest : r.rest = equal :: rest)
    (hequal : equal.kind = .equal) :
    Succeeds assignmentOperator r fun _ r' => r.Takes Problem.Semantic [equal] r' := by
  refine (accept_takes hrest hequal (by decide)).bind fun taken r₁ ⟨htaken, htakes⟩ => ?_
  subst htaken
  exact .pure htakes

/-- A target is followed by what goes on with no value. -/
theorem Ends.of_kind {inTest : Bool} {kind other : TokenKind} (h : kind = other)
    (hother : bond? false other = none) (htest : inTest = false) (bond : Nat) :
    Ends inTest bond kind := by
  intro k hk
  rw [h, htest, hother] at hk
  cases hk

theorem setStatement_takes {before after : List Token} {place value : Expr}
    (hkeyword : keyword.kind = .kwSet) (hequal : equal.kind = .equal)
    (hplace : Spells s.names .suffixed before place)
    (hvalue : Spells s.names .disjunction after value) :
    ReadsRow setStatement s (keyword :: (before ++ equal :: after)) (.assign place value span) s := by
  intro r next rest hshows htest hrest halone
  refine (advance_takes hrest (by rw [hkeyword]; decide)).bind fun _ r₁ ⟨_, h₁⟩ => ?_
  have hrest₁ : r₁.rest = before ++ equal :: (after ++ next :: rest) := by
    simpa using h₁.rest_eq hrest
  refine (target_takes hplace (h₁.layout ▸ hshows) hrest₁
    (.of_kind hequal rfl (h₁.inTest.trans htest) _)).bind fun found r₂ ⟨hfound, h₂⟩ => ?_
  have hrest₂ := h₂.rest_eq hrest₁
  refine (assignmentOperator_takes hrest₂ hequal).bind fun _ r₃ h₃ => ?_
  have hbefore := h₁.trans (h₂.trans h₃)
  refine (expression_takes hvalue (hbefore.layout ▸ hshows) (h₃.rest_eq hrest₂)
    (not_continues_of_lineStarts halone.starts)).bind fun found' r₄ ⟨hfound', h₄⟩ => ?_
  refine (checkAssignable_takes found).bind fun _ r₅ h₅ => ?_
  have hall := hbefore.trans (h₄.trans h₅)
  refine rowEnds hall.toMoves (by simp) (by simp) halone hrest fun hrow => ?_
  exact .pure ⟨by simp [hfound, hfound'], hrow, hall.layout ▸ hshows⟩

theorem displayStatement_takes {items : Option Listing} (hkeyword : keyword.kind = .kwDisplay)
    (hitems : ∀ l ∈ items, SpellsList s.names l) :
    ReadsRow displayStatement s (keyword :: Listing.tokensOf items)
      (.display (Listing.valuesOf items) span) s := by
  intro r next rest hshows htest hrest halone
  refine (advance_takes hrest (by rw [hkeyword]; decide)).bind fun _ r₁ ⟨hfirst, h₁⟩ => ?_
  subst hfirst
  have hrest₁ := h₁.rest_eq hrest
  have hends : ∀ (found : List Expr) (r₂ : Reader) (place : Span),
      found.map Expr.bare = (Listing.valuesOf items).map Expr.bare →
      r₁.Takes Problem.Semantic (Listing.tokensOf items) r₂ →
      Succeeds (do
        endOfStatement
        pure (Stmt.display found place)) r₂ fun found r' =>
          found.bare = (Stmt.display (Listing.valuesOf items) span).bare ∧
            r.Moves Problem.Semantic (keyword :: Listing.tokensOf items) r' ∧ r'.layout.Shows s := by
    intro found r₂ place hfound h₂
    have hall := h₁.trans h₂
    refine rowEnds hall.toMoves rfl (by simp) halone hrest fun hrow => ?_
    exact .pure ⟨by simp [hfound], hrow, hall.layout ▸ hshows⟩
  -- Whether there is anything to display is a matter of the line.
  refine .look_bind ?_
  dsimp only
  cases items with
  | none =>
    rw [onLine_after halone List.mem_cons_self hrest₁]
    exact hends [] r₁ _ rfl (.refl r₁)
  | some l =>
    have hspelt := hitems l rfl
    obtain ⟨token, after, hhead, htoken, hstarts⟩ :=
      (hspelt.parts l.first List.mem_cons_self).ahead
        (hrest₁.trans (List.append_assoc l.first.1 (Listing.moreTokens l.more) _))
    have hrow : token ∈ Listing.tokensOf (some l) := List.mem_append_left _ htoken
    rw [onLine_within halone List.mem_cons_self (List.mem_cons_of_mem _ hrow)
      (ne_of_mem_starts hstarts (by decide)) hhead, if_pos rfl]
    exact (list_takes hspelt (h₁.layout ▸ hshows) hrest₁
      (not_continues_of_lineStarts halone.starts) (ne_of_mem_starts halone.starts (by decide))).bind
      fun found r₂ ⟨hfound, h₂⟩ => hends found r₂ _ hfound h₂

theorem inputStatement_takes (hkeyword : keyword.kind = .kwInput)
    (hplace : Spells s.names .suffixed tokens e) :
    ReadsRow inputStatement s (keyword :: tokens) (.input e span) s := by
  intro r next rest hshows htest hrest halone
  refine (advance_takes hrest (by rw [hkeyword]; decide)).bind fun _ r₁ ⟨hfirst, h₁⟩ => ?_
  subst hfirst
  have hrest₁ : r₁.rest = tokens ++ next :: rest := h₁.rest_eq hrest
  obtain ⟨token, after, hhead, htoken, hstarts⟩ := hplace.ahead hrest₁
  refine .look_bind ?_
  rw [onLine_within halone List.mem_cons_self (List.mem_cons_of_mem _ htoken)
    (ne_of_mem_starts hstarts (by decide)) hhead, if_pos rfl]
  refine (target_takes hplace (h₁.layout ▸ hshows) hrest₁
    (ends_of_not_continues (not_continues_of_lineStarts halone.starts))).bind
    fun found r₂ ⟨hfound, h₂⟩ => ?_
  refine (checkAssignable_takes found).bind fun _ r₃ h₃ => ?_
  have hall := h₁.trans (h₂.trans h₃)
  refine rowEnds hall.toMoves (by simp) (by simp) halone hrest fun hrow => ?_
  exact .pure ⟨by simp [hfound], hrow, hall.layout ▸ hshows⟩

theorem isCall_bare (e : Expr) : e.bare.isCall = e.isCall := by
  cases e <;> simp [Expr.bare, Expr.isCall]

theorem callStatement_takes (hkeyword : keyword.kind = .kwCall)
    (hcall : Spells s.names .suffixed tokens e) (hshape : e.isCall = true) :
    ReadsRow callStatement s (keyword :: tokens) (.call e span) s := by
  intro r next rest hshows htest hrest halone
  refine (advance_takes hrest (by rw [hkeyword]; decide)).bind fun _ r₁ ⟨hfirst, h₁⟩ => ?_
  subst hfirst
  have hrest₁ : r₁.rest = tokens ++ next :: rest := h₁.rest_eq hrest
  have hbare : r₁.bareName = false := by
    obtain ⟨token, more, rfl, hmore, hsecond⟩ := hcall.afterName (Nat.le_refl _)
    obtain ⟨second, others, rfl⟩ := List.exists_cons_of_ne_nil (hmore hshape)
    unfold Reader.bareName
    rw [Reader.peekAt_of_rest hrest₁, Reader.check_of_rest hrest₁ (by decide)]
    by_cases hname : token.kind = .identifier
    · rcases hsecond hname second rfl with h | h | h <;> simp [h]
    · simp [hname]
  refine .look_bind ?_
  rw [if_neg (by rw [hbare]; decide)]
  refine (target_takes hcall (h₁.layout ▸ hshows) hrest₁
    (ends_of_not_continues (not_continues_of_lineStarts halone.starts))).bind
    fun found r₂ ⟨hfound, h₂⟩ => ?_
  have hfoundCall : found.isCall = true := by rw [← isCall_bare, hfound, isCall_bare, hshape]
  rw [if_pos hfoundCall]
  have hall := h₁.trans h₂
  refine rowEnds hall.toMoves rfl (by simp) halone hrest fun hrow => ?_
  exact .pure ⟨by simp [hfound], hrow, hall.layout ▸ hshows⟩

/-- Outside of a loop a jump is reported, and taken all the same. -/
theorem jumpStatement_takes (hend : keyword.kind ≠ .endOfInput)
    (hjump : ∀ span, (if keyword.kind = .kwBreak then Stmt.breakLoop span
      else Stmt.continueLoop span).bare = statement.bare) :
    ReadsRow jumpStatement s [keyword] statement s := by
  intro r next rest hshows htest hrest halone
  refine (advance_takes hrest hend).bind fun _ r₁ ⟨hfirst, h₁⟩ => ?_
  subst hfirst
  refine .look_bind ?_
  dsimp only
  by_cases hloop : r₁.loopDepth = 0
  · rw [if_pos hloop]
    refine Succeeds.bind (report_succeeds (by rfl)) fun _ r₂ h₂ => ?_
    have hall := h₁.trans h₂
    refine rowEnds hall.toMoves rfl (by simp) halone hrest fun hrow => ?_
    exact .pure ⟨hjump _, hrow, hall.layout ▸ hshows⟩
  · rw [if_neg hloop]
    refine rowEnds h₁.toMoves rfl (by simp) halone hrest fun hrow => ?_
    exact .pure ⟨hjump _, hrow, h₁.layout ▸ hshows⟩

theorem stopStatement_takes (hkeyword : keyword.kind = .kwStop) :
    ReadsRow stopStatement s [keyword] (.stop span) s := by
  intro r next rest hshows htest hrest halone
  refine (advance_takes hrest (by rw [hkeyword]; decide)).bind fun _ r₁ ⟨_, h₁⟩ => ?_
  refine rowEnds h₁.toMoves rfl (by simp) halone hrest fun hrow => ?_
  exact .pure ⟨by simp, hrow, h₁.layout ▸ hshows⟩

/-- **A row that spells a simple statement is read as that statement.** -/
theorem SpellsLine.reads {row : List Token} (h : SpellsLine s row statement s') (nested : Nested) :
    ReadsRow (statementOrAbandon nested) s row statement s' := by
  intro r next rest hshows htest hrest halone
  refine .get_bind ?_
  cases h with
  | declare hkeyword htype h =>
    rw [Reader.peek_of_rest hrest, hkeyword]
    exact declareStatement_takes hkeyword htype h hshows htest hrest halone
  | assign hkeyword hequal hplace hvalue =>
    rw [Reader.peek_of_rest hrest, hkeyword]
    exact setStatement_takes hkeyword hequal hplace hvalue hshows htest hrest halone
  | display hkeyword hitems =>
    rw [Reader.peek_of_rest hrest, hkeyword]
    exact displayStatement_takes hkeyword hitems hshows htest hrest halone
  | input hkeyword hplace =>
    rw [Reader.peek_of_rest hrest, hkeyword]
    exact inputStatement_takes hkeyword hplace hshows htest hrest halone
  | call hkeyword hcall hshape =>
    rw [Reader.peek_of_rest hrest, hkeyword]
    exact callStatement_takes hkeyword hcall hshape hshows htest hrest halone
  | breakLoop hkeyword =>
    rw [Reader.peek_of_rest hrest, hkeyword]
    exact jumpStatement_takes (by rw [hkeyword]; decide) (fun _ => by simp [hkeyword])
      hshows htest hrest halone
  | continueLoop hkeyword =>
    rw [Reader.peek_of_rest hrest, hkeyword]
    exact jumpStatement_takes (by rw [hkeyword]; decide) (fun _ => by simp [hkeyword])
      hshows htest hrest halone
  | stop hkeyword =>
    rw [Reader.peek_of_rest hrest, hkeyword]
    exact stopStatement_takes hkeyword hshows htest hrest halone

end Simple

end Primer.Grammar
