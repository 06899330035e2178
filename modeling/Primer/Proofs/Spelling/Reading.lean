/-
What is spelled is what is read.

The proof follows the derivation that a spelling has.  Levels whose operators group to the left are
read in a loop, so what is shown of a left operand is not that reading stops after it, but that the
loop stands right after it with the tree so far in hand: `ReadAt` says so for every level.
-/
import Primer.Proofs.Spelling.Levels

namespace Primer.Grammar

variable {names : Names} {tokens : List Token} {e : Expr}

/-! ### Reading what is spelled -/

/-- Wherever these tokens are followed by one that does not go on with their last part, an
expression of the level is read until it stands after them, with the tree of `e` in hand. -/
def ReadAt (S : Problem → Prop) (names : Names) (level : Level) (tokens : List Token) (e : Expr) :
    Prop :=
  ∀ ⦃r next rest⦄, r.Finds S names → r.rest = tokens ++ next :: rest →
    Ends r.inTest level.inside next.kind →
    ∃ found r', level.read r = iterate level.turn found r' ∧ found.bare = e.bare ∧
      r.Takes S tokens r'

section ReadAt

variable {S : Problem → Prop} {names : Names} {level : Level}
  {tokens rest after before : List Token} {next name dot : Token} {e found object left right : Expr}
  {r : Reader} {span place : Span} {opening closing : Token} {token : Token} {args : Option Listing}
  {indices : Listing} {base : Expr} {more : List (Token × List Token × Expr)} {value : Value}
  {id : VarId} {join : Expr → Expr → Span → Expr}

theorem ReadAt.finish (h : ReadAt S names level tokens e) (hnames : r.Finds S names)
    (hrest : r.rest = tokens ++ next :: rest) (hends : Ends r.inTest level.bond next.kind) :
    ∃ found r', level.read r = .ok found r' ∧ found.bare = e.bare ∧ r.Takes S tokens r' := by
  obtain ⟨found, r', hread, hbare, htakes⟩ := h hnames hrest (hends.mono level.inside_le)
  have hover := Level.turn_over (htakes.rest_eq hrest) (htakes.inTest ▸ hends) found
  exact ⟨found, r', hread.trans (iterate_over level.turn_advancing hover), hbare, htakes⟩

/-- At a level that takes nothing more, reading is over at once. -/
theorem ReadAt.of_ok (hturn : level.turn = fun _ => pure none)
    (h : ∀ ⦃r next rest⦄, r.Finds S names → r.rest = tokens ++ next :: rest →
      Ends r.inTest level.inside next.kind →
      ∃ found r', level.read r = .ok found r' ∧ found.bare = e.bare ∧ r.Takes S tokens r') :
    ReadAt S names level tokens e := by
  intro r next rest hnames hrest hends
  obtain ⟨found, r', hread, hbare, htakes⟩ := h hnames hrest hends
  refine ⟨found, r', hread.trans ?_, hbare, htakes⟩
  exact (iterate_over level.turn_advancing (by rw [hturn]; rfl)).symm

theorem ReadAt.expression (h : ReadAt S names .disjunction tokens e) (hnames : r.Finds S names)
    (hrest : r.rest = tokens ++ next :: rest) (hnext : ¬ Continues r.inTest next.kind) :
    ∃ found r', Inner.whole.expression r = .ok found r' ∧ found.bare = e.bare ∧
      r.Takes S tokens r' := by
  obtain ⟨found, r', hread, hfound⟩ := h.finish hnames hrest (ends_of_not_continues hnext)
  exact ⟨found, r', (congrFun expression_unfold r).trans hread, hfound⟩

/-! #### Lists -/

theorem nextItem_advancing : Advancing (nextItem Inner.whole.expression) :=
  .of_goes fun items r =>
    nextItem_goes (fun r' hr' => ((Inner.agree_self r).expression r' hr').anyhow) items

/-- The tokens of the commas and the items after them. -/
def Listing.moreTokens (more : List (Token × List Token × Expr)) : List Token :=
  more.flatMap fun item => item.1 :: item.2.1

theorem Listing.moreTokens_cons (item : Token × List Token × Expr)
    (more : List (Token × List Token × Expr)) :
    Listing.moreTokens (item :: more) = item.1 :: (item.2.1 ++ Listing.moreTokens more) := by
  simp [Listing.moreTokens]

/-- An item is followed by a comma or by what follows the list. -/
theorem Listing.followed {inTest : Bool} (hcommas : ∀ item ∈ more, item.1.kind = .comma)
    (hnext : ¬ Continues inTest next.kind) (rest : List Token) :
    ∃ token after, Listing.moreTokens more ++ next :: rest = token :: after ∧
      ¬ Continues inTest token.kind := by
  cases more with
  | nil => exact ⟨next, rest, rfl, hnext⟩
  | cons item more =>
    refine ⟨item.1, _, by rw [moreTokens_cons]; rfl, ?_⟩
    rw [hcommas item List.mem_cons_self]
    simp [Continues, bond?]

theorem moreItems_read (hcommas : ∀ item ∈ more, item.1.kind = .comma)
    (hread : ∀ item ∈ more, ReadAt S names .disjunction item.2.1 item.2.2)
    (hnames : r.Finds S names) (hrest : r.rest = Listing.moreTokens more ++ next :: rest)
    (hnext : ¬ Continues r.inTest next.kind) (hover : next.kind ≠ .comma) (before : List Expr) :
    ∃ found r', iterate (nextItem Inner.whole.expression) before r = .ok found r' ∧
      found.map Expr.bare = (more.map fun item => item.2.2.bare).reverse ++ before.map Expr.bare ∧
      r.Takes S (Listing.moreTokens more) r' := by
  induction more generalizing r before with
  | nil =>
    refine ⟨before, r, iterate_over nextItem_advancing ?_, rfl, .refl r⟩
    unfold nextItem
    rw [read_bind (accept_other hrest hover (by decide))]
    rfl
  | cons item more ih =>
    obtain ⟨hcomma, hcommas⟩ := List.forall_mem_cons.mp hcommas
    obtain ⟨hitem, hread⟩ := List.forall_mem_cons.mp hread
    rw [Listing.moreTokens_cons, List.cons_append, List.append_assoc] at hrest
    have hstep := Reader.takes_step S hrest (by rw [hcomma]; decide)
    have hrest₁ : r.step.rest = item.2.1 ++ (Listing.moreTokens more ++ next :: rest) :=
      hstep.rest_eq hrest
    obtain ⟨token, after, hafter, htoken⟩ :=
      Listing.followed hcommas (hstep.inTest.symm ▸ hnext) rest
    obtain ⟨found, r₂, hfound, hbare, htakes⟩ :=
      hitem.expression (hstep.finds hnames) (by rw [hrest₁, hafter]) htoken
    have hturn : nextItem Inner.whole.expression before r = .ok (some (found :: before)) r₂ := by
      unfold nextItem
      rw [read_bind (accept_of_rest hrest hcomma (by decide))]
      simp only [if_true]
      rw [read_bind hfound]
      rfl
    have hboth := hstep.trans htakes
    obtain ⟨all, r₃, hall, hbares, htakes₃⟩ := ih hcommas hread (hboth.finds hnames)
      (htakes.rest_eq hrest₁) (hboth.inTest.symm ▸ hnext) (found :: before)
    refine ⟨all, r₃, (iterate_on nextItem_advancing hturn).trans hall, ?_, ?_⟩
    · simp [hbares, hbare]
    · rw [Listing.moreTokens_cons]
      exact hboth.trans htakes₃

theorem Listing.read {l : Listing} (hcommas : l.Separated)
    (hread : ∀ part ∈ l.parts, ReadAt S names .disjunction part.1 part.2)
    (hnames : r.Finds S names)
    (hrest : r.rest = l.tokens ++ next :: rest) (hnext : ¬ Continues r.inTest next.kind)
    (hover : next.kind ≠ .comma) :
    ∃ found r', commaSeparated Inner.whole.expression r = .ok found r' ∧
      found.map Expr.bare = l.values.map Expr.bare ∧ r.Takes S l.tokens r' := by
  obtain ⟨hfirst, hmore⟩ := List.forall_mem_cons.mp hread
  have hrest' : r.rest = l.first.1 ++ (Listing.moreTokens l.more ++ next :: rest) := by
    rw [hrest, Listing.tokens, List.append_assoc]
    rfl
  obtain ⟨token, after, hafter, htoken⟩ := Listing.followed hcommas hnext rest
  obtain ⟨first, r₁, hread₁, hbare, htakes⟩ :=
    hfirst.expression hnames (by rw [hrest', hafter]) htoken
  obtain ⟨all, r₂, hread₂, hbares, htakes₂⟩ :=
    moreItems_read hcommas (fun item hitem => hmore item.2 (List.mem_map_of_mem hitem))
      (htakes.finds hnames) (htakes.rest_eq hrest') (htakes.inTest.symm ▸ hnext) hover [first]
  refine ⟨all.reverse, r₂, ?_, ?_, htakes.trans htakes₂⟩
  · unfold commaSeparated
    rw [read_bind hread₁, read_bind hread₂]
    rfl
  · simp [hbares, hbare, Listing.values, Listing.parts]

theorem arguments_read (hopening : opening.kind = .leftParen)
    (hclosing : closing.kind = .rightParen) (hcommas : ∀ l ∈ args, l.Separated)
    (hspelt : ∀ l ∈ args, ∀ part ∈ l.parts, Spells names .disjunction part.1 part.2)
    (hread : ∀ l ∈ args, ∀ part ∈ l.parts, ReadAt S names .disjunction part.1 part.2)
    (hnames : r.Finds S names)
    (hrest : r.rest = opening :: (Listing.tokensOf args ++ closing :: rest)) :
    ∃ found stop r', arguments .whole r = .ok (found, stop) r' ∧
      found.map Expr.bare = (Listing.valuesOf args).map Expr.bare ∧
      r.Takes S (opening :: (Listing.tokensOf args ++ [closing])) r' := by
  have hstep := Reader.takes_step S hrest (by rw [hopening]; decide)
  have hrest₁ := hstep.rest_eq hrest
  unfold arguments
  rw [read_bind (expect_of_rest hrest hopening (by decide))]
  have hclose : ∀ {r' : Reader}, r'.rest = closing :: rest →
      expect .rightParen .expectedArgumentsEnd r' = .ok closing r'.step ∧
        r'.Takes S [closing] r'.step := fun h =>
    ⟨expect_of_rest h hclosing (by decide), Reader.takes_step S h (by rw [hclosing]; decide)⟩
  cases args with
  | none =>
    rw [read_bind (check_eq hrest₁ (by decide)), hclosing]
    obtain ⟨hread₂, htakes₂⟩ := hclose hrest₁
    refine ⟨[], closing.span, _, ?_, rfl, hstep.trans htakes₂⟩
    simp only [decide_true, if_true, pure_bind]
    rw [read_bind hread₂]
    rfl
  | some l =>
    -- The first token of an argument is not a closing parenthesis.
    obtain ⟨token, more, hfirst, hstarts⟩ := (hspelt l rfl l.first List.mem_cons_self).starts
    have hrest₁' : r.step.rest = l.tokens ++ closing :: rest := hrest₁
    have hhead : r.step.rest =
        token :: (more ++ (Listing.moreTokens l.more ++ closing :: rest)) := by
      rw [hrest₁', Listing.tokens, hfirst, List.append_assoc]
      rfl
    rw [read_bind (check_eq hhead (by decide))]
    obtain ⟨found, r₂, hread₂, hbares, htakes₂⟩ := Listing.read (hcommas l rfl) (hread l rfl)
      (hstep.finds hnames) hrest₁' (by rw [hclosing]; simp [Continues, bond?])
      (by rw [hclosing]; decide)
    obtain ⟨hread₃, htakes₃⟩ := hclose (htakes₂.rest_eq hrest₁')
    refine ⟨found, closing.span, _, ?_, hbares, hstep.trans (htakes₂.trans htakes₃)⟩
    simp only [hstarts.1, decide_false, Bool.false_eq_true, if_false]
    rw [read_bind hread₂, read_bind hread₃]
    rfl

/-! #### Values -/

theorem primary_literal (hvalue : Literal token value) (hrest : r.rest = token :: rest) :
    primary .whole r = .ok (.literal value token.span) r.step ∧ r.Takes S [token] r.step := by
  have htake : ∀ {kind : TokenKind}, token.kind = kind → kind ≠ .endOfInput →
      advance r = .ok token r.step ∧ r.Takes S [token] r.step := fun hkind hend =>
    ⟨advance_of_rest hrest (hkind ▸ hend), Reader.takes_step S hrest (hkind ▸ hend)⟩
  unfold primary Grammar.peek
  rw [read_look_bind, Reader.peek_of_rest hrest]
  cases hvalue with
  | integer hkind hnumber =>
    obtain ⟨htaken, htakes⟩ := htake hkind (by decide)
    simp only [hkind]
    rw [read_bind htaken, integerLiteral, hnumber]
    exact ⟨rfl, htakes⟩
  | real hkind hnumber =>
    obtain ⟨htaken, htakes⟩ := htake hkind (by decide)
    simp only [hkind, literalValue?, hnumber]
    rw [read_bind htaken]
    exact ⟨rfl, htakes⟩
  | character hkind hchar =>
    obtain ⟨htaken, htakes⟩ := htake hkind (by decide)
    simp only [hkind, literalValue?, hchar]
    rw [read_bind htaken]
    exact ⟨rfl, htakes⟩
  | text hkind | yes hkind | no hkind | null hkind =>
    obtain ⟨htaken, htakes⟩ := htake hkind (by decide)
    simp only [hkind, literalValue?]
    rw [read_bind htaken]
    exact ⟨rfl, htakes⟩

theorem ReadAt.literal (hvalue : Literal token value) :
    ReadAt S names .primary [token] (.literal value span) := by
  refine .of_ok rfl fun r next rest _ hrest _ => ?_
  obtain ⟨hread, htakes⟩ := primary_literal hvalue hrest
  exact ⟨_, _, hread, rfl, htakes⟩

theorem ReadAt.named (hkind : token.kind = .identifier)
    (hfound : names.lookup? token.lexeme = some id) :
    ReadAt S names .primary [token] (.variableRef id token.lexeme span) := by
  refine .of_ok rfl fun r next rest hnames hrest hends => ?_
  have htakes := Reader.takes_step S hrest (by rw [hkind]; decide)
  have hnext : next.kind ≠ .leftParen := hends.ne (k := 0) rfl (Nat.le_refl _)
  have hseen : r.step.layout.lookup? token.lexeme = some id := by
    rw [htakes.layout, hnames.lookup, hfound]
  refine ⟨.variableRef id token.lexeme token.span, r.step, ?_, rfl, htakes⟩
  show primary .whole r = _
  unfold primary Grammar.peek
  rw [read_look_bind, Reader.peek_of_rest hrest]
  simp only [hkind]
  rw [read_bind (advance_of_rest hrest (by rw [hkind]; decide)),
    read_bind (check_eq (htakes.rest_eq hrest) (by decide))]
  simp only [hnext, decide_false, Bool.false_eq_true, if_false]
  rw [variableReference, read_get_bind, hseen]
  rfl

theorem deferCall_takes (name : String) (target : CallTarget) (args : List Expr) (span : Span)
    (r : Reader) : ∃ r', deferCall name target args span r = .ok () r' ∧ r.Takes S [] r' :=
  ⟨_, rfl, ⟨rfl, rfl, rfl, .refl r, rfl, rfl⟩, rfl⟩

theorem deferType_takes (name : String) (span : Span) (r : Reader) :
    ∃ r', deferType name span r = .ok () r' ∧ r.Takes S [] r' :=
  ⟨_, rfl, ⟨rfl, rfl, rfl, .refl r, rfl, rfl⟩, rfl⟩

theorem ReadAt.call (hname : name.kind = .identifier) (hopening : opening.kind = .leftParen)
    (hclosing : closing.kind = .rightParen) (hcommas : ∀ l ∈ args, l.Separated)
    (hspelt : ∀ l ∈ args, ∀ part ∈ l.parts, Spells names .disjunction part.1 part.2)
    (hread : ∀ l ∈ args, ∀ part ∈ l.parts, ReadAt S names .disjunction part.1 part.2) :
    ReadAt S names .primary (name :: opening :: (Listing.tokensOf args ++ [closing]))
      (.call name.lexeme (Listing.valuesOf args) span) := by
  refine .of_ok rfl fun r next rest hnames hrest hends => ?_
  have hrest : r.rest = name :: opening :: (Listing.tokensOf args ++ closing :: next :: rest) := by
    simpa using hrest
  have hstep := Reader.takes_step S hrest (by rw [hname]; decide)
  obtain ⟨found, stop, r₂, hargs, hbares, htakes⟩ := arguments_read hopening hclosing hcommas hspelt
    hread (hstep.finds hnames) (hstep.rest_eq hrest)
  obtain ⟨r₃, hdefer, htakes₃⟩ := deferCall_takes name.lexeme
    (.routine r₂.layout.currentClass) found (name.span.cover stop) r₂
  refine ⟨.call name.lexeme found (name.span.cover stop), r₃, ?_, ?_, ?_⟩
  · show primary .whole r = _
    unfold primary Grammar.peek
    rw [read_look_bind, Reader.peek_of_rest hrest]
    simp only [hname]
    rw [read_bind (advance_of_rest hrest (by rw [hname]; decide)),
      read_bind (check_eq (hstep.rest_eq hrest) (by decide))]
    simp only [hopening, decide_true, if_true]
    rw [read_bind hargs]
    unfold routineCall
    rw [read_look_bind, read_bind hdefer]
    rfl
  · simp [Expr.bare, hbares]
  · simpa using hstep.trans (htakes.trans htakes₃)

theorem ReadAt.new {word : Token} (hword : word.kind = .kwNew) (hname : name.kind = .identifier)
    (hopening : opening.kind = .leftParen) (hclosing : closing.kind = .rightParen)
    (hcommas : ∀ l ∈ args, l.Separated)
    (hspelt : ∀ l ∈ args, ∀ part ∈ l.parts, Spells names .disjunction part.1 part.2)
    (hread : ∀ l ∈ args, ∀ part ∈ l.parts, ReadAt S names .disjunction part.1 part.2) :
    ReadAt S names .primary (word :: name :: opening :: (Listing.tokensOf args ++ [closing]))
      (.new name.lexeme (Listing.valuesOf args) span) := by
  refine .of_ok rfl fun r next rest hnames hrest hends => ?_
  have hrest : r.rest =
      word :: name :: opening :: (Listing.tokensOf args ++ closing :: next :: rest) := by
    simpa using hrest
  have hstep := Reader.takes_step S hrest (by rw [hword]; decide)
  have hstep₂ := Reader.takes_step S (hstep.rest_eq hrest) (by rw [hname]; decide)
  obtain ⟨r₃, hdefer, htakes₃⟩ := deferType_takes name.lexeme name.span r.step.step
  have hbefore := (hstep.trans hstep₂).trans htakes₃
  have hrest₃ := hbefore.rest_eq hrest
  obtain ⟨found, stop, r₄, hargs, hbares, htakes₄⟩ := arguments_read hopening hclosing hcommas
    hspelt hread (hbefore.finds hnames) hrest₃
  obtain ⟨r₅, hdefer₅, htakes₅⟩ := deferCall_takes name.lexeme .constructor found
    (word.span.cover stop) r₄
  refine ⟨.new name.lexeme found (word.span.cover stop), r₅, ?_, ?_, ?_⟩
  · show primary .whole r = _
    unfold primary Grammar.peek
    rw [read_look_bind, Reader.peek_of_rest hrest]
    simp only [hword]
    unfold newObject
    rw [read_bind (advance_of_rest hrest (by rw [hword]; decide)),
      read_bind (expect_of_rest (hstep.rest_eq hrest) hname (by decide)), read_bind hdefer,
      read_bind (check_eq hrest₃ (by decide))]
    simp only [hopening, decide_true, if_true]
    rw [read_bind hargs]
    simp only []
    rw [read_bind hdefer₅]
    rfl
  · simp [Expr.bare, hbares]
  · simpa using hbefore.trans (htakes₄.trans htakes₅)

theorem ReadAt.grouping (hopening : opening.kind = .leftParen)
    (hclosing : closing.kind = .rightParen) (h : ReadAt S names .disjunction tokens e) :
    ReadAt S names .primary (opening :: (tokens ++ [closing])) (.grouping e span) := by
  refine .of_ok rfl fun r next rest hnames hrest hends => ?_
  have hrest : r.rest = opening :: (tokens ++ closing :: next :: rest) := by simpa using hrest
  have hstep := Reader.takes_step S hrest (by rw [hopening]; decide)
  obtain ⟨found, r₂, hread, hbare, htakes⟩ := h.expression (hstep.finds hnames)
    (hstep.rest_eq hrest) (by rw [hclosing]; simp [Continues, bond?])
  have hrest₂ := htakes.rest_eq (hstep.rest_eq hrest)
  refine ⟨.grouping found (opening.span.cover closing.span), r₂.step, ?_, ?_, ?_⟩
  · show primary .whole r = _
    unfold primary Grammar.peek
    rw [read_look_bind, Reader.peek_of_rest hrest]
    simp only [hopening]
    rw [read_bind (advance_of_rest hrest (by rw [hopening]; decide)), read_bind hread,
      read_bind (expect_of_rest hrest₂ hclosing (by decide))]
    rfl
  · simp [Expr.bare, hbare]
  · exact hstep.trans (htakes.trans (Reader.takes_step S hrest₂ (by rw [hclosing]; decide)))

/-! #### What follows a value -/

/-- A value that has been read goes on with what one more turn takes. -/
theorem ReadAt.suffix (hbase : ReadAt S names .suffixed tokens base)
    (hkind : ∀ inTest, bond? inTest token.kind = some Level.suffixed.bond)
    (h : ∀ ⦃r found next rest⦄, r.Finds S names → r.rest = token :: (after ++ next :: rest) →
      Ends r.inTest Level.suffixed.inside next.kind → found.bare = base.bare →
      ∃ all r', Grammar.suffix .whole found r = .ok (some all) r' ∧ all.bare = e.bare ∧
        r.Takes S (token :: after) r') :
    ReadAt S names .suffixed (tokens ++ token :: after) e := by
  intro r next rest hnames hrest hends
  rw [List.append_assoc, List.cons_append] at hrest
  obtain ⟨found, r₁, hread, hbare, htakes⟩ :=
    hbase hnames hrest (ends_of_bond? (hkind _) rfl (by decide))
  obtain ⟨all, r₂, hturn, hall, htakes₂⟩ :=
    h (htakes.finds hnames) (htakes.rest_eq hrest) (htakes.inTest.symm ▸ hends) hbare
  refine ⟨all, r₂, hread.trans (iterate_on Level.suffixed.turn_advancing hturn), hall, ?_⟩
  exact htakes.trans htakes₂

theorem variableRef_of_bare {name : String} (h : found.bare = base.bare)
    (hfound : found = .variableRef id name place) :
    ∃ place', base = .variableRef id name place' := by
  subst hfound
  cases base <;> simp only [Expr.bare] at h <;> cases h
  exact ⟨_, rfl⟩

theorem index_of_bare {inside : Expr} {indices : List Expr} (h : found.bare = base.bare)
    (hbase : base = .index inside indices place) :
    ∃ inside' indices' place', found = .index inside' indices' place' ∧
      inside'.bare = inside.bare ∧ indices'.map Expr.bare = indices.map Expr.bare := by
  subst hbase
  cases found <;> simp [Expr.bare] at h
  exact ⟨_, _, _, rfl, h.1, h.2⟩

theorem report_takes {problem : Problem} (h : S problem) (span : Span) (r : Reader) :
    ∃ r', report problem span r = .ok () r' ∧ r.Takes S [] r' := by
  refine ⟨_, rfl, ⟨rfl, rfl, rfl, ⟨#[(problem, span)], rfl, ?_⟩, rfl, rfl⟩, rfl⟩
  simpa using h

theorem checkIndexable_takes
    (h : ∀ id name place, base = .variableRef id name place → names.isArray id = true)
    (hnames : r.Finds S names) : ∃ r', checkIndexable base r = .ok () r' ∧ r.Takes S [] r' := by
  cases base with
  | variableRef id name span =>
    simp only [checkIndexable, read_look_bind]
    split
    · exact ⟨r, rfl, .refl r⟩
    · rename_i hscalar
      exact report_takes ((hnames.arrays id name (h id name span rfl)).resolve_left hscalar) span r
  | _ => exact ⟨r, rfl, .refl r⟩

theorem suffix_index (found : Expr) (hopening : opening.kind = .leftBracket)
    (hclosing : closing.kind = .rightBracket) (hcommas : indices.Separated)
    (hindices : ∀ part ∈ indices.parts, ReadAt S names .disjunction part.1 part.2)
    (harray : ∀ id name place, found = .variableRef id name place → names.isArray id = true)
    (hnames : r.Finds S names)
    (hrest : r.rest = opening :: ((indices.tokens ++ [closing]) ++ next :: rest)) :
    ∃ all stop r', suffix .whole found r = .ok (some (indexed found all stop)) r' ∧
      all.map Expr.bare = indices.values.map Expr.bare ∧
      r.Takes S (opening :: (indices.tokens ++ [closing])) r' := by
  rw [List.append_assoc] at hrest
  have hstep := Reader.takes_step S hrest (by rw [hopening]; decide)
  have hrest₁ : r.step.rest = indices.tokens ++ closing :: next :: rest := hstep.rest_eq hrest
  obtain ⟨all, r₂, hread, hbares, htakes⟩ := Listing.read hcommas hindices
    (hstep.finds hnames) hrest₁ (by rw [hclosing]; simp [Continues, bond?])
    (by rw [hclosing]; decide)
  have hrest₂ := htakes.rest_eq hrest₁
  have htakes₂ := hstep.trans (htakes.trans (Reader.takes_step S hrest₂ (by rw [hclosing]; decide)))
  obtain ⟨r₃, hcheck, htakes₃⟩ := checkIndexable_takes harray (htakes₂.finds hnames)
  refine ⟨all, found.span.cover closing.span, r₃, ?_, hbares, by simpa using htakes₂.trans htakes₃⟩
  unfold suffix
  rw [read_bind (accept_of_rest hrest hopening (by decide))]
  simp only [if_true]
  rw [read_bind hread, read_bind (expect_of_rest hrest₂ hclosing (by decide)), read_bind hcheck]
  rfl

theorem ReadAt.index (hopening : opening.kind = .leftBracket)
    (hclosing : closing.kind = .rightBracket) (hbase : ReadAt S names .suffixed tokens base)
    (hfirst : ¬ Indexed base)
    (harray : ∀ id name place, base = .variableRef id name place → names.isArray id = true)
    (hcommas : indices.Separated)
    (hindices : ∀ part ∈ indices.parts, ReadAt S names .disjunction part.1 part.2) :
    ReadAt S names .suffixed (tokens ++ opening :: (indices.tokens ++ [closing]))
      (.index base indices.values span) := by
  refine hbase.suffix (fun _ => by rw [hopening]; rfl) ?_
  intro r found next rest hnames hrest _ hbare
  have harray' : ∀ id name place, found = .variableRef id name place → names.isArray id = true := by
    intro id name place heq
    obtain ⟨place', hplace⟩ := variableRef_of_bare hbare heq
    exact harray id name place' hplace
  obtain ⟨all, stop, r', hturn, hbares, htakes⟩ :=
    suffix_index found hopening hclosing hcommas hindices harray' hnames hrest
  refine ⟨_, r', hturn, ?_, htakes⟩
  have hplain : indexed found all stop = .index found all stop := by
    cases found with
    | index inside earlier place =>
      -- `base` has the same shape, but no indices.
      obtain ⟨inside', earlier', place', hsame, -⟩ := index_of_bare hbare.symm rfl
      exact absurd ⟨inside', earlier', place', hsame⟩ hfirst
    | _ => rfl
  simp [hplain, Expr.bare, hbare, hbares]

theorem ReadAt.moreIndices {earlier : List Expr} (hopening : opening.kind = .leftBracket)
    (hclosing : closing.kind = .rightBracket)
    (hbase : ReadAt S names .suffixed tokens (.index base earlier place))
    (hcommas : indices.Separated)
    (hindices : ∀ part ∈ indices.parts, ReadAt S names .disjunction part.1 part.2) :
    ReadAt S names .suffixed (tokens ++ opening :: (indices.tokens ++ [closing]))
      (.index base (earlier ++ indices.values) span) := by
  refine hbase.suffix (fun _ => by rw [hopening]; rfl) ?_
  intro r found next rest hnames hrest _ hbare
  obtain ⟨inside, before, stop, rfl, hinside, hbefore⟩ := index_of_bare hbare rfl
  obtain ⟨all, stop, r', hturn, hbares, htakes⟩ :=
    suffix_index (.index inside before stop) hopening hclosing hcommas hindices nofun hnames hrest
  refine ⟨_, r', hturn, ?_, htakes⟩
  simp [indexed, Expr.bare, hinside, hbefore, hbares]

theorem ReadAt.field (hdot : dot.kind = .dot) (hname : name.kind = .identifier)
    (hobject : ReadAt S names .suffixed tokens object) :
    ReadAt S names .suffixed (tokens ++ [dot, name]) (.field object name.lexeme span) := by
  refine hobject.suffix (fun _ => by rw [hdot]; rfl) ?_
  intro r found next rest _ hrest hends hbare
  have hstep := Reader.takes_step S hrest (by rw [hdot]; decide)
  have hstep₂ := Reader.takes_step S (hstep.rest_eq hrest) (by rw [hname]; decide)
  have hboth := hstep.trans hstep₂
  have hnext : next.kind ≠ .leftParen := hends.ne (k := 0) rfl (Nat.le_refl _)
  refine ⟨.field found name.lexeme (found.span.cover name.span), _, ?_, ?_, hboth⟩
  · unfold Grammar.suffix
    rw [read_bind (accept_other hrest (by rw [hdot]; decide) (by decide))]
    simp only [Bool.false_eq_true, if_false]
    rw [read_bind (accept_of_rest hrest hdot (by decide))]
    simp only [if_true]
    rw [read_bind (expect_of_rest (hstep.rest_eq hrest) hname (by decide)),
      read_bind (check_eq (hboth.rest_eq hrest) (by decide))]
    simp only [hnext, decide_false, Bool.false_eq_true, if_false]
    rfl
  · simp [Expr.bare, hbare]

theorem ReadAt.methodCall (hdot : dot.kind = .dot) (hname : name.kind = .identifier)
    (hopening : opening.kind = .leftParen) (hclosing : closing.kind = .rightParen)
    (hobject : ReadAt S names .suffixed tokens object) (hcommas : ∀ l ∈ args, l.Separated)
    (hspelt : ∀ l ∈ args, ∀ part ∈ l.parts, Spells names .disjunction part.1 part.2)
    (hread : ∀ l ∈ args, ∀ part ∈ l.parts, ReadAt S names .disjunction part.1 part.2) :
    ReadAt S names .suffixed
      (tokens ++ dot :: name :: opening :: (Listing.tokensOf args ++ [closing]))
      (.methodCall object name.lexeme (Listing.valuesOf args) span) := by
  refine hobject.suffix (fun _ => by rw [hdot]; rfl) ?_
  intro r found next rest hnames hrest hends hbare
  have hrest : r.rest =
      dot :: name :: opening :: (Listing.tokensOf args ++ closing :: next :: rest) := by
    simpa using hrest
  have hstep := Reader.takes_step S hrest (by rw [hdot]; decide)
  have hstep₂ := Reader.takes_step S (hstep.rest_eq hrest) (by rw [hname]; decide)
  have hboth := hstep.trans hstep₂
  have hrest₂ := hboth.rest_eq hrest
  obtain ⟨all, stop, r₃, hargs, hbares, htakes⟩ := arguments_read hopening hclosing hcommas hspelt
    hread (hboth.finds hnames) hrest₂
  -- A call on a plain variable is left to be checked later.
  obtain ⟨r₄, hdefer, hplain, htakes₄⟩ : ∃ r₄,
      (∀ className, receiverClass? r₃ found = some className →
        deferCall name.lexeme (.method className) all (found.span.cover stop) r₃ = .ok () r₄) ∧
      (receiverClass? r₃ found = none → r₄ = r₃) ∧ r₃.Takes S [] r₄ := by
    cases receiverClass? r₃ found with
    | some className =>
      obtain ⟨r₄, hdefer, htakes₄⟩ :=
        deferCall_takes name.lexeme (.method className) all (found.span.cover stop) r₃
      refine ⟨r₄, fun other hother => ?_, (fun hnone => by cases hnone), htakes₄⟩
      cases hother
      exact hdefer
    | none => exact ⟨r₃, (fun _ hsome => by cases hsome), fun _ => rfl, .refl r₃⟩
  refine ⟨.methodCall found name.lexeme all (found.span.cover stop), r₄, ?_, ?_, ?_⟩
  · unfold Grammar.suffix
    rw [read_bind (accept_other hrest (by rw [hdot]; decide) (by decide))]
    simp only [Bool.false_eq_true, if_false]
    rw [read_bind (accept_of_rest hrest hdot (by decide))]
    simp only [if_true]
    rw [read_bind (expect_of_rest (hstep.rest_eq hrest) hname (by decide)),
      read_bind (check_eq hrest₂ (by decide))]
    simp only [hopening, decide_true, if_true]
    rw [read_bind hargs]
    rw [read_look_bind]
    cases hclass : receiverClass? r₃ found with
    | some className => exact read_bind (hdefer className hclass)
    | none =>
      rw [hplain hclass]
      rfl
  · simp [Expr.bare, hbare, hbares]
  · simpa using hboth.trans (htakes.trans htakes₄)

/-! #### Operators -/

theorem Operator.bare {kind : TokenKind} {left' right' : Expr} {span' : Span}
    (h : Operator level kind join) (hleft : left.bare = left'.bare)
    (hright : right.bare = right'.bare) :
    (join left right span).bare = (join left' right' span').bare := by
  cases h <;> simp [Expr.bare, hleft, hright]

theorem ReadAt.joined {operand : Level} (hlevel : level.tighter? = some operand)
    (hop : Operator level token.kind join) (hleft : ReadAt S names level before left)
    (hright : ReadAt S names operand after right) :
    ReadAt S names level (before ++ token :: after) (join left right span) := by
  intro r next rest hnames hrest hends
  rw [List.append_assoc, List.cons_append] at hrest
  obtain ⟨hbond, hloop⟩ := hop.bond?_eq r.inTest
  obtain ⟨found, r₁, hread, hbare, htakes⟩ := hleft hnames hrest (ends_of_bond? hbond rfl hloop)
  have hrest₁ := htakes.rest_eq hrest
  obtain ⟨operator?, hturn, htaken⟩ := hop.taken hlevel hrest₁ rfl
  have hstep := Reader.takes_step S hrest₁ (by
    intro hkind
    rw [hkind] at hbond
    cases hbond)
  have hboth := htakes.trans hstep
  obtain ⟨found', r₂, hread₂, hbare₂, htakes₂⟩ := hright.finish (hboth.finds hnames)
    (hstep.rest_eq hrest₁)
    (hboth.inTest.symm ▸ hends.mono (Level.bond_of_tighter? hlevel).1)
  refine ⟨join found found' (found.span.cover found'.span), r₂, ?_, hop.bare hbare hbare₂, ?_⟩
  · refine hread.trans (iterate_on level.turn_advancing ?_)
    rw [hturn, nextOperand, read_bind htaken]
    simp only []
    rw [read_bind hread₂]
    rfl
  · simpa using hboth.trans htakes₂

theorem ReadAt.not (hkind : token.kind = .kwNot) (h : ReadAt S names .negation tokens e) :
    ReadAt S names .negation (token :: tokens) (.unary .not e span) := by
  refine .of_ok rfl fun r next rest hnames hrest hends => ?_
  have hstep := Reader.takes_step S hrest (by rw [hkind]; decide)
  obtain ⟨found, r', (hread : negation .whole r.step = _), hbare, htakes⟩ :=
    h.finish (hstep.finds hnames) (hstep.rest_eq hrest) (hstep.inTest.symm ▸ hends)
  refine ⟨.unary .not found (token.span.cover found.span), r', ?_, ?_, hstep.trans htakes⟩
  · show negation .whole r = _
    unfold negation
    rw [read_bind (acceptAny?_of_rest hrest hkind (by decide))]
    simp only [negated]
    rw [Inner.negation_whole, read_bind hread]
    rfl
  · simp [Expr.bare, hbare]

theorem ReadAt.negate (hkind : token.kind = .minus) (h : ReadAt S names .unary tokens e) :
    ReadAt S names .unary (token :: tokens) (.unary .negate e span) := by
  refine .of_ok rfl fun r next rest hnames hrest hends => ?_
  have hstep := Reader.takes_step S hrest (by rw [hkind]; decide)
  obtain ⟨found, r', (hread : unary .whole r.step = _), hbare, htakes⟩ :=
    h.finish (hstep.finds hnames) (hstep.rest_eq hrest) (hstep.inTest.symm ▸ hends)
  refine ⟨.unary .negate found (token.span.cover found.span), r', ?_, ?_, hstep.trans htakes⟩
  · show unary .whole r = _
    unfold unary
    rw [read_bind (acceptAny?_of_rest hrest hkind (by decide))]
    simp only []
    rw [Inner.unary_whole, read_bind hread]
    rfl
  · simp [Expr.bare, hbare]

theorem ReadAt.power {exponent : Expr} (hkind : token.kind = .caret)
    (hbase : ReadAt S names .suffixed before base)
    (hexponent : ReadAt S names .unary after exponent) :
    ReadAt S names .power (before ++ token :: after) (.binary .power base exponent span) := by
  refine .of_ok rfl fun r next rest hnames hrest hends => ?_
  rw [List.append_assoc, List.cons_append] at hrest
  have hbond : bond? r.inTest token.kind = some Level.power.bond := by rw [hkind]; rfl
  obtain ⟨found, r₁, (hread : suffixed .whole r = _), hbare, htakes⟩ :=
    hbase.finish hnames hrest (ends_of_bond? hbond rfl (by decide))
  have hrest₁ := htakes.rest_eq hrest
  have hstep := Reader.takes_step S hrest₁ (by rw [hkind]; decide)
  have hboth := htakes.trans hstep
  obtain ⟨found', r₂, (hread₂ : unary .whole r₁.step = _), hbare₂, htakes₂⟩ :=
    hexponent.finish (hboth.finds hnames) (hstep.rest_eq hrest₁)
      (hboth.inTest.symm ▸ hends.sign)
  refine ⟨.binary .power found found' (found.span.cover found'.span), r₂, ?_, ?_, ?_⟩
  · show Grammar.power .whole r = _
    unfold Grammar.power
    rw [read_bind hread, read_bind (accept_of_rest hrest₁ hkind (by decide))]
    simp only [if_true]
    rw [Inner.unary_whole, read_bind hread₂]
    rfl
  · simp [Expr.bare, hbare, hbare₂]
  · simpa using hboth.trans htakes₂

/-! #### Levels -/

/-- Where its own first token does not stand, a level is read like the next tighter one. -/
theorem ReadAt.tighter {next : Level} (hlevel : level.tighter? = some next)
    (hspelt : Spells names next tokens e) (h : ReadAt S names next tokens e) :
    ReadAt S names level tokens e := by
  obtain ⟨first, more, hfirst, hstarts⟩ := hspelt.starts
  intro r token rest hnames hrest hends
  obtain ⟨found, r', hread, hbare, htakes⟩ :=
    h.finish hnames hrest (hends.mono (Level.bond_of_tighter? hlevel).1)
  refine ⟨found, r', ?_, hbare, htakes⟩
  have hhead : r.rest = first :: (more ++ token :: rest) := by rw [hrest, hfirst]; rfl
  have hsingle : level.turn = (fun _ => pure none) →
      level.read r = .ok found r' → level.read r = iterate level.turn found r' :=
    fun hturn hlevel =>
      hlevel.trans (iterate_over level.turn_advancing (by rw [hturn]; rfl)).symm
  cases level with
  | disjunction | conjunction | comparison | additive | multiplicative | suffixed =>
    cases hlevel
    exact read_bind hread
  | negation =>
    cases hlevel
    refine hsingle rfl ?_
    show negation .whole r = _
    unfold negation
    rw [read_bind (acceptAny?_other hhead (hstarts.2.1 (by decide)) (by decide))]
    exact hread
  | unary =>
    cases hlevel
    refine hsingle rfl ?_
    show unary .whole r = _
    unfold unary
    rw [read_bind (acceptAny?_other hhead (hstarts.2.2 (by decide)) (by decide))]
    exact hread
  | power =>
    cases hlevel
    have hcaret : token.kind ≠ .caret := hends.ne (k := 2) rfl (Nat.le_refl _)
    refine hsingle rfl ((read_bind hread).trans ?_)
    rw [read_bind (accept_other (htakes.rest_eq hrest) hcaret (by decide))]
    rfl
  | primary => cases hlevel

end ReadAt

/-- Whatever is spelled is read. -/
theorem Spells.readAt {level : Level} (h : Spells names level tokens e) :
    ReadAt S names level tokens e := by
  induction h with
  | tighter hlevel hspelt ih => exact ih.tighter hlevel hspelt
  | joined hlevel hop _ _ hleft hright => exact .joined hlevel hop hleft hright
  | not hkind _ ih => exact ih.not hkind
  | negate hkind _ ih => exact ih.negate hkind
  | power hkind _ _ hbase hexponent => exact .power hkind hbase hexponent
  | index hopening hclosing _ hfirst harray hcommas _ hbase hindices =>
    exact hbase.index hopening hclosing hfirst harray hcommas hindices
  | moreIndices hopening hclosing _ hcommas _ hbase hindices =>
    exact hbase.moreIndices hopening hclosing hcommas hindices
  | field hdot hname _ ih => exact ih.field hdot hname
  | methodCall hdot hname hopening hclosing _ hcommas hspelt hobject hargs =>
    exact hobject.methodCall hdot hname hopening hclosing hcommas hspelt hargs
  | literal hvalue => exact .literal hvalue
  | named hkind hfound => exact .named hkind hfound
  | call hname hopening hclosing hcommas hspelt hargs =>
    exact .call hname hopening hclosing hcommas hspelt hargs
  | new hword hname hopening hclosing hcommas hspelt hargs =>
    exact .new hword hname hopening hclosing hcommas hspelt hargs
  | grouping hopening hclosing _ ih => exact ih.grouping hopening hclosing

/--
**What is spelled is read back.**  Before the spelling of an expression, when the token after it
cannot go on with it, `expression` gives the tree of that expression, stops right after the
spelling and objects to nothing.
-/
theorem expression_reads_spelling {r : Reader} {tokens rest : List Token} {next : Token} {e : Expr}
    (hspelt : Spells r.names .disjunction tokens e) (hrest : r.rest = tokens ++ next :: rest)
    (hnext : ¬ Continues r.inTest next.kind) :
    ∃ found r', expression r = .ok found r' ∧ found.bare = e.bare ∧
      r'.tokens = r.tokens ∧ r'.cursor = r.cursor + tokens.length ∧ r'.problems = r.problems := by
  obtain ⟨found, r', hread, hbare, htakes⟩ :=
    (hspelt.readAt (S := fun _ => False)).expression r.finds_names hrest hnext
  exact ⟨found, r', hread, hbare, htakes.tokens, htakes.cursor, htakes.problems.problems_eq⟩

/-- A value by itself is an expression. -/
theorem Spells.ofPrimary (h : Spells names .primary tokens e) :
    Spells names .disjunction tokens e :=
  .tighter rfl (.tighter rfl (.tighter rfl (.tighter rfl (.tighter rfl (.tighter rfl (.tighter rfl
    (.tighter rfl (.tighter rfl h))))))))

/-- `-x ^ 2 == row[x][1]` -/
def powerTest : List Token :=
  [⟨.minus, "-", Span.nowhere⟩, ⟨.identifier, "x", Span.nowhere⟩, ⟨.caret, "^", Span.nowhere⟩,
    ⟨.integer, "2", Span.nowhere⟩, ⟨.equalEqual, "==", Span.nowhere⟩,
    ⟨.identifier, "row", Span.nowhere⟩, ⟨.leftBracket, "[", Span.nowhere⟩,
    ⟨.identifier, "x", Span.nowhere⟩, ⟨.rightBracket, "]", Span.nowhere⟩,
    ⟨.leftBracket, "[", Span.nowhere⟩, ⟨.integer, "1", Span.nowhere⟩,
    ⟨.rightBracket, "]", Span.nowhere⟩]

/-- A reader before the test, where `x` is a number and `row` an array. -/
def beforePowerTest : Reader :=
  { Reader.ofTokens (powerTest ++ [⟨.kwThen, "Then", Span.nowhere⟩]) with
    layout :=
      let (_, l) := ({} : Layout).declare "x" .integer 0 .plain Span.nowhere
      (l.declare "row" .integer 2 .plain Span.nowhere).2
    inTest := true }

theorem powerTest_read : ∃ found r', expression beforePowerTest = .ok found r' ∧
    found.bare = .binary .equal
      (.unary .negate
        (.binary .power (.variableRef 0 "x" Span.nowhere) (.literal (.integer 2) Span.nowhere)
          Span.nowhere) Span.nowhere)
      (.index (.variableRef 1 "row" Span.nowhere)
        [.variableRef 0 "x" Span.nowhere, .literal (.integer 1) Span.nowhere] Span.nowhere)
      Span.nowhere ∧
    r'.cursor = 12 ∧ r'.problems = #[] := by
  have hx : Spells beforePowerTest.names .primary [⟨.identifier, "x", Span.nowhere⟩]
      (.variableRef 0 "x" Span.nowhere) := .named rfl (by decide +kernel)
  have hrow : Spells beforePowerTest.names .primary [⟨.identifier, "row", Span.nowhere⟩]
      (.variableRef 1 "row" Span.nowhere) := .named rfl (by decide +kernel)
  have hone : Spells beforePowerTest.names .primary [⟨.integer, "1", Span.nowhere⟩]
      (.literal (.integer 1) Span.nowhere) := .literal (.integer rfl (by decide +kernel))
  have htwo : Spells beforePowerTest.names .primary [⟨.integer, "2", Span.nowhere⟩]
      (.literal (.integer 2) Span.nowhere) := .literal (.integer rfl (by decide +kernel))
  have hpower : Spells beforePowerTest.names .unary (powerTest.take 4) (.unary .negate
      (.binary .power (.variableRef 0 "x" Span.nowhere) (.literal (.integer 2) Span.nowhere)
        Span.nowhere) Span.nowhere) :=
    .negate rfl (.tighter rfl (.power rfl (.tighter rfl hx)
      (.tighter rfl (.tighter rfl (.tighter rfl htwo)))))
  have hopening : (⟨.leftBracket, "[", Span.nowhere⟩ : Token).kind = .leftBracket := rfl
  have hclosing : (⟨.rightBracket, "]", Span.nowhere⟩ : Token).kind = .rightBracket := rfl
  have hat : ∀ {tokens e}, Spells beforePowerTest.names .primary tokens e →
      ∀ part ∈ Listing.parts ⟨(tokens, e), []⟩,
        Spells beforePowerTest.names .disjunction part.1 part.2 := by
    intro tokens e h part hpart
    obtain rfl := List.mem_singleton.mp hpart
    exact h.ofPrimary
  have hcommas : ∀ {part}, Listing.Separated ⟨part, []⟩ := fun _ h => absurd h List.not_mem_nil
  have hfirst : Spells beforePowerTest.names .suffixed ((powerTest.drop 5).take 4)
      (.index (.variableRef 1 "row" Span.nowhere) [.variableRef 0 "x" Span.nowhere] Span.nowhere) :=
    .index hopening hclosing (.tighter rfl hrow) nofun (by rintro _ _ _ ⟨⟩; decide +kernel) hcommas
      (hat hx)
  have hindex : Spells beforePowerTest.names .suffixed (powerTest.drop 5)
      (.index (.variableRef 1 "row" Span.nowhere)
        [.variableRef 0 "x" Span.nowhere, .literal (.integer 1) Span.nowhere] Span.nowhere) :=
    .moreIndices hopening hclosing hfirst hcommas (hat hone)
  have htest : Spells beforePowerTest.names .disjunction powerTest
      (.binary .equal _ _ Span.nowhere) :=
    .tighter rfl (.tighter rfl (.tighter rfl (.joined rfl .equal
      (.tighter rfl (.tighter rfl (.tighter rfl hpower)))
      (.tighter rfl (.tighter rfl (.tighter rfl (.tighter rfl hindex)))))))
  have hrest : beforePowerTest.rest =
      powerTest ++ ⟨.kwThen, "Then", Span.nowhere⟩ :: beforePowerTest.rest.drop 13 := by
    decide +kernel
  obtain ⟨found, r', hread, hbare, -, hcursor, hproblems⟩ :=
    expression_reads_spelling htest hrest (by decide)
  exact ⟨found, r', hread, hbare, hcursor, hproblems⟩

end Primer.Grammar
