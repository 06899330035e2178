/-
Levels as they are read.

A reader takes tokens from what lies ahead of it.  Each level of the grammar is read by one
function, and the levels whose operators group to the left go on turn by turn: a turn takes an
operator of the level with its right operand, or an index or member, and whether there is another
one depends on the next token alone.
-/
import Primer.Proofs.Progress.Expression
import Primer.Proofs.Spelling.Expression

namespace Primer.Grammar

/-! ### What lies ahead of a reader -/

theorem read_bind {α β : Type} {x : Read α} {f : α → Read β} {r r' : Reader} {a : α}
    (h : x r = .ok a r') : (x >>= f) r = f a r' := by
  simp only [Bind.bind, EStateM.bind, h]

theorem read_get_bind {α : Type} {f : Reader → Read α} {r : Reader} : (get >>= f) r = f r r := rfl

theorem read_look_bind {α β : Type} {g : Reader → α} {f : α → Read β} {r : Reader} :
    (look g >>= f) r = f (g r) r := rfl

namespace Reader

/-- The tokens that have not been taken. -/
def rest (r : Reader) : List Token := r.tokens.toList.drop r.cursor

/-- The names that can be seen from where the reader stands. -/
def names (r : Reader) : Names where
  lookup? := r.layout.lookup?
  isArray := fun id => (r.variableAt id).isArray

/-- Between the two readers nothing but problems that `S` allows was recorded. -/
def Adds (S : Problem → Prop) (r r' : Reader) : Prop :=
  ∃ added : Array (Problem × Span), r'.problems = r.problems ++ added ∧ ∀ found ∈ added, S found.1

/-- The reader has taken these tokens and is otherwise where it was. -/
structure Moves (S : Problem → Prop) (r : Reader) (taken : List Token) (r' : Reader) : Prop where
  tokens : r'.tokens = r.tokens
  cursor : r'.cursor = r.cursor + taken.length
  rest : r.rest = taken ++ r'.rest
  problems : r.Adds S r'
  inTest : r'.inTest = r.inTest
  openBlocks : r'.openBlocks = r.openBlocks

/-- The reader has taken these tokens and sees what it saw before. -/
structure Takes (S : Problem → Prop) (r : Reader) (taken : List Token) (r' : Reader) : Prop
    extends r.Moves S taken r' where
  layout : r'.layout = r.layout

/-- The names stand for what the reader sees.  An index on a variable that the reader knows to be no
array is a matter of what problems are allowed. -/
structure Finds (S : Problem → Prop) (names : Names) (r : Reader) : Prop where
  lookup : r.layout.lookup? = names.lookup?
  arrays : ∀ id name, names.isArray id = true →
    (r.variableAt id).isArray = true ∨ S (.notAnArray name)

variable {S : Problem → Prop} {names : Names} {r r' r'' : Reader} {token : Token}
  {more taken taken' : List Token}

theorem Adds.refl (r : Reader) : r.Adds S r := ⟨#[], by simp, by simp⟩

theorem Adds.trans (h : r.Adds S r') (h' : r'.Adds S r'') : r.Adds S r'' := by
  obtain ⟨added, hadded, hS⟩ := h
  obtain ⟨added', hadded', hS'⟩ := h'
  refine ⟨added ++ added', by rw [hadded', hadded, Array.append_assoc], fun found hfound => ?_⟩
  exact (Array.mem_append.mp hfound).elim (hS found) (hS' found)

/-- Where no problem is allowed there is none. -/
theorem Adds.problems_eq (h : r.Adds (fun _ => False) r') : r'.problems = r.problems := by
  obtain ⟨added, hadded, hnone⟩ := h
  obtain rfl : added = #[] := Array.eq_empty_iff_forall_not_mem.mpr fun found => hnone found
  rw [hadded, Array.append_empty]

theorem Moves.refl (r : Reader) : r.Moves S [] r := ⟨rfl, rfl, rfl, .refl r, rfl, rfl⟩

theorem Moves.trans (h : r.Moves S taken r') (h' : r'.Moves S taken' r'') :
    r.Moves S (taken ++ taken') r'' where
  tokens := h'.tokens.trans h.tokens
  cursor := by rw [h'.cursor, h.cursor, List.length_append, Nat.add_assoc]
  rest := by rw [h.rest, h'.rest, List.append_assoc]
  problems := h.problems.trans h'.problems
  inTest := h'.inTest.trans h.inTest
  openBlocks := h'.openBlocks.trans h.openBlocks

theorem Takes.refl (r : Reader) : r.Takes S [] r := ⟨.refl r, rfl⟩

theorem Takes.trans (h : r.Takes S taken r') (h' : r'.Takes S taken' r'') :
    r.Takes S (taken ++ taken') r'' :=
  ⟨h.toMoves.trans h'.toMoves, h'.layout.trans h.layout⟩

theorem Moves.rest_eq (h : r.Moves S taken r') (hrest : r.rest = taken ++ more) : r'.rest = more :=
  List.append_cancel_left (h.rest.symm.trans hrest)

theorem finds_names (r : Reader) : r.Finds S r.names := ⟨rfl, fun _ _ h => .inl h⟩

theorem Takes.finds (h : r.Takes S taken r') (hfinds : r.Finds S names) : r'.Finds S names := by

  refine ⟨by rw [h.layout, hfinds.lookup], fun id name harray => ?_⟩
  unfold Reader.variableAt
  rw [h.layout]
  exact hfinds.arrays id name harray

theorem peek_of_rest (h : r.rest = token :: more) : r.peek = token := by
  have hfound : r.tokens.toList[r.cursor]? = some token := by
    rw [← List.head?_drop]
    exact congrArg List.head? h
  rw [Array.getElem?_toList, Array.getElem?_eq_getElem r.inside] at hfound
  exact Option.some.inj hfound

theorem atEnd_of_rest (h : r.rest = token :: more) (hkind : token.kind ≠ .endOfInput) :
    r.atEnd = false := by
  rw [atEnd, peek_of_rest h]
  exact decide_eq_false hkind

theorem check_of_rest (h : r.rest = token :: more) {kind : TokenKind} (hkind : kind ≠ .endOfInput) :
    r.check kind = decide (token.kind = kind) := by
  rw [check, atEnd, peek_of_rest h]
  by_cases heq : token.kind = kind
  · simp [heq, hkind]
  · simp [heq]

theorem takes_step (S : Problem → Prop) (h : r.rest = token :: more)
    (hkind : token.kind ≠ .endOfInput) :
    r.Takes S [token] r.step := by
  have hend := atEnd_of_rest h hkind
  have hstep : r.step.cursor = r.cursor + 1 := by simp [step, hend]
  have htokens : r.step.tokens = r.tokens := r.reaches_step.tokens
  have hproblems : r.step.problems = r.problems := by simp [step, hend]
  refine ⟨⟨htokens, hstep, ?_, ⟨#[], by simp [hproblems], by simp⟩, ?_, ?_⟩, ?_⟩
  · have htail : r.step.rest = r.rest.tail := by
      rw [rest, rest, hstep, htokens, List.tail_drop]
    rw [htail, h]
    rfl
  · simp [step, hend]
  · simp [step, hend]
  · simp [step, hend]

end Reader

section Tokens

variable {r : Reader} {token : Token} {more : List Token} {kind : TokenKind}

theorem advance_of_rest (h : r.rest = token :: more) (hkind : token.kind ≠ .endOfInput) :
    advance r = .ok token r.step := by
  unfold advance
  rw [Reader.previous_step (Reader.atEnd_of_rest h hkind), Reader.peek_of_rest h]

theorem accept_of_rest (h : r.rest = token :: more) (hkind : token.kind = kind)
    (hend : kind ≠ .endOfInput) : accept kind r = .ok true r.step := by
  unfold accept
  rw [Reader.check_of_rest h hend, hkind]
  simp

theorem accept_other (h : r.rest = token :: more) (hkind : token.kind ≠ kind)
    (hend : kind ≠ .endOfInput) : accept kind r = .ok false r := by
  unfold accept
  rw [Reader.check_of_rest h hend]
  simp [hkind]

theorem acceptAny?_of_rest (h : r.rest = token :: more) (hkind : token.kind = kind)
    (hend : kind ≠ .endOfInput) : acceptAny? [kind] r = .ok (some token) r.step := by
  unfold acceptAny? Reader.checkAny
  simp [Reader.check_of_rest h hend, hkind, Reader.peek_of_rest h]

theorem acceptAny?_other (h : r.rest = token :: more) (hkind : token.kind ≠ kind)
    (hend : kind ≠ .endOfInput) : acceptAny? [kind] r = .ok none r := by
  unfold acceptAny? Reader.checkAny
  simp [Reader.check_of_rest h hend, hkind]

theorem check_eq (h : r.rest = token :: more) (hend : kind ≠ .endOfInput) :
    check kind r = .ok (decide (token.kind = kind)) r := by
  unfold check look
  exact congrArg (EStateM.Result.ok · r) (Reader.check_of_rest h hend)

theorem expect_of_rest {problem : Problem} (h : r.rest = token :: more) (hkind : token.kind = kind)
    (hend : kind ≠ .endOfInput) : expect kind problem r = .ok token r.step := by
  unfold expect
  rw [read_bind (check_eq h hend), hkind]
  simpa using advance_of_rest h (hkind ▸ hend)

end Tokens

/-! ### Levels and how they are read -/

section Loops

variable {α : Type} {turn : α → Read (Option α)} {a b : α} {r r' : Reader}

theorem iterate_over (h : Advancing turn) (hturn : turn a r = .ok none r') :
    iterate turn a r = .ok a r' := by
  rw [iterate_unfold h, read_bind hturn]
  rfl

theorem iterate_on (h : Advancing turn) (hturn : turn a r = .ok (some b) r') :
    iterate turn a r = iterate turn b r' := by
  rw [iterate_unfold h, read_bind hturn]

end Loops

namespace Level

/-- How an expression of the level is read. -/
def read : Level → Read Expr
  | disjunction => Grammar.disjunction .whole
  | conjunction => Grammar.conjunction .whole
  | negation => Grammar.negation .whole
  | comparison => Grammar.comparison .whole
  | additive => Grammar.additive .whole
  | multiplicative => Grammar.multiplicative .whole
  | unary => Grammar.unary .whole
  | power => Grammar.power .whole
  | suffixed => Grammar.suffixed .whole
  | primary => Grammar.primary .whole

/-- How reading goes on after an expression of the level; most levels take nothing more. -/
def turn : Level → Expr → Read (Option Expr)
  | disjunction => nextOperand conjunction.read (logicalOperator? .kwOr .or)
  | conjunction => nextOperand negation.read (logicalOperator? .kwAnd .and)
  | comparison => nextOperand additive.read comparisonOperator?
  | additive => nextOperand multiplicative.read (operatorIn? additiveOps)
  | multiplicative => nextOperand unary.read (operatorIn? multiplicativeOps)
  | suffixed => suffix .whole
  | _ => fun _ => pure none

/-- The loosest bond that can still go on with the last part of an expression of the level. -/
def inside : Level → Nat
  | disjunction => 8
  | conjunction => 7
  | comparison => 5
  | additive => 4
  | multiplicative => 3
  | suffixed => 0
  | level => level.bond

theorem bond_of_tighter? {level next : Level} (h : level.tighter? = some next) :
    next.bond ≤ level.inside ∧ next.bond < level.bond := by
  cases level <;> cases h <;> decide

theorem inside_le (level : Level) : level.inside ≤ level.bond := by
  cases level <;> decide

theorem turn_advancing (level : Level) : Advancing level.turn := by
  have hself := Inner.agree_self
  refine .of_goes fun e r => ?_
  cases level with
  | disjunction =>
    exact nextOperand_goes (fun r' _ => conjunction_goes (hself r'))
      (logicalOperator?_operates _ _) e
  | conjunction =>
    exact nextOperand_goes (fun r' _ => negation_goes (hself r'))
      (logicalOperator?_operates _ _) e
  | comparison =>
    exact nextOperand_goes (fun r' _ => additive_goes (hself r')) comparisonOperator?_operates e
  | additive =>
    exact nextOperand_goes (fun r' _ => multiplicative_goes (hself r')) (operatorIn?_operates rfl) e
  | multiplicative =>
    exact nextOperand_goes (fun r' _ => unary_goes (hself r')) (operatorIn?_operates rfl) e
  | suffixed => exact suffix_goes (hself r) e
  | negation | unary | power | primary => exact .pure nofun

end Level

/-! ### Tokens that end an expression -/

section Ends

variable {inTest : Bool} {bond bond' k : Nat} {kind other : TokenKind}

theorem Ends.mono (h : Ends inTest bond kind) (hle : bond' ≤ bond) : Ends inTest bond' kind :=
  fun k hk => Nat.lt_of_le_of_lt hle (h k hk)

theorem Ends.ne (h : Ends inTest bond kind) (hother : bond? inTest other = some k)
    (hle : k ≤ bond) : kind ≠ other := by
  rintro rfl
  exact absurd (h k hother) (Nat.not_lt_of_le hle)

theorem ends_of_not_continues (h : ¬ Continues inTest kind) : Ends inTest bond kind := by
  intro k hk
  exact absurd (by rw [Continues, hk]; rfl) h

theorem ends_of_bond? (h : bond? inTest other = some k) (hkind : kind = other) (hlt : bond < k) :
    Ends inTest bond kind := by
  rintro k' hk'
  rw [hkind, h] at hk'
  exact Option.some.inj hk' ▸ hlt

/-- No token goes on at the level of a sign only. -/
theorem Ends.sign (h : Ends inTest Level.power.bond kind) : Ends inTest Level.unary.bond kind := by
  intro k hk
  have hlt := h k hk
  refine Nat.lt_of_le_of_ne hlt ?_
  rintro rfl
  unfold bond? at hk
  split at hk <;> simp [Level.bond] at hk

end Ends

theorem lookup_eq_none {table : List (TokenKind × BinaryOp)} {kind : TokenKind}
    (h : ∀ entry ∈ table, kind ≠ entry.1) : table.lookup kind = none := by
  rw [List.lookup_eq_none_iff]
  exact fun entry hentry => bne_iff_ne.mpr (h entry hentry)

section Turns

variable {r : Reader} {next : Token} {rest : List Token}

theorem nextOperand_over {operand : Read Expr} {r' : Reader}
    {operator? : Read (Option (Expr → Expr → Span → Expr))} (h : operator? r = .ok none r')
    (e : Expr) : nextOperand operand operator? e r = .ok none r' := by
  unfold nextOperand
  rw [read_bind h]
  rfl

theorem logicalOperator?_over {word : TokenKind} {op : LogicalOp} (hrest : r.rest = next :: rest)
    (hkind : next.kind ≠ word) (hword : word ≠ .endOfInput) :
    logicalOperator? word op r = .ok none r := by
  unfold logicalOperator?
  rw [read_bind (accept_other hrest hkind hword)]
  rfl

theorem operatorIn?_over {table : List (TokenKind × BinaryOp)} (hrest : r.rest = next :: rest)
    (h : ∀ entry ∈ table, next.kind ≠ entry.1) : operatorIn? table r = .ok none r := by
  unfold operatorIn?
  rw [Reader.peek_of_rest hrest, lookup_eq_none h]

theorem comparisonOperator?_over (hrest : r.rest = next :: rest)
    (hends : Ends r.inTest Level.comparison.bond next.kind) :
    comparisonOperator? r = .ok none r := by
  have htest : (r.inTest && decide (r.peek.kind = .equal)) = false := by
    rw [Reader.peek_of_rest hrest]
    cases hin : r.inTest with
    | false => rfl
    | true =>
      rw [hin] at hends
      exact decide_eq_false (hends.ne (k := 6) rfl (Nat.le_refl _))
  unfold comparisonOperator?
  rw [read_get_bind, htest]
  refine operatorIn?_over hrest ?_
  simp only [comparisonOps, List.forall_mem_cons]
  refine ⟨?_, ?_, ?_, ?_, ?_, ?_, nofun⟩ <;> exact hends.ne (k := 6) rfl (Nat.le_refl _)

theorem suffix_over (hrest : r.rest = next :: rest)
    (hends : Ends r.inTest Level.suffixed.bond next.kind) (e : Expr) :
    suffix .whole e r = .ok none r := by
  have hbracket : next.kind ≠ .leftBracket := hends.ne (k := 1) rfl (Nat.le_refl _)
  have hdot : next.kind ≠ .dot := hends.ne (k := 1) rfl (Nat.le_refl _)
  unfold suffix
  rw [read_bind (accept_other hrest hbracket (by decide))]
  simp only [Bool.false_eq_true, if_false]
  rw [read_bind (accept_other hrest hdot (by decide))]
  rfl

/-- Before a token that ends expressions of the level, nothing more is taken. -/
theorem Level.turn_over {level : Level} (hrest : r.rest = next :: rest)
    (hends : Ends r.inTest level.bond next.kind) (e : Expr) :
    level.turn e r = .ok none r := by
  cases level with
  | disjunction =>
    have hword : next.kind ≠ .kwOr := hends.ne (k := 9) rfl (Nat.le_refl _)
    exact nextOperand_over (logicalOperator?_over hrest hword (by decide)) e
  | conjunction =>
    have hword : next.kind ≠ .kwAnd := hends.ne (k := 8) rfl (Nat.le_refl _)
    exact nextOperand_over (logicalOperator?_over hrest hword (by decide)) e
  | comparison => exact nextOperand_over (comparisonOperator?_over hrest hends) e
  | additive =>
    refine nextOperand_over (operatorIn?_over hrest ?_) e
    simp only [additiveOps, List.forall_mem_cons]
    refine ⟨?_, ?_, nofun⟩ <;> exact hends.ne (k := 5) rfl (Nat.le_refl _)
  | multiplicative =>
    refine nextOperand_over (operatorIn?_over hrest ?_) e
    simp only [multiplicativeOps, List.forall_mem_cons]
    refine ⟨?_, ?_, ?_, nofun⟩ <;> exact hends.ne (k := 4) rfl (Nat.le_refl _)
  | suffixed => exact suffix_over hrest hends e
  | negation | unary | power | primary => rfl

/-- An operator of the level is taken for what it is. -/
theorem Operator.taken {level operand : Level} {kind : TokenKind}
    {join : Expr → Expr → Span → Expr} (h : Operator level kind join)
    (hlevel : level.tighter? = some operand) (hrest : r.rest = next :: rest)
    (hkind : next.kind = kind) :
    ∃ operator?, level.turn = nextOperand operand.read operator? ∧
      operator? r = .ok (some join) r.step := by
  have hlogical : ∀ {word op}, next.kind = word → word ≠ .endOfInput →
      logicalOperator? word op r = .ok (some (.logical op)) r.step := by
    intro word op hword hend
    unfold logicalOperator?
    rw [read_bind (accept_of_rest hrest hword hend)]
    rfl
  have hin : ∀ {table op}, table.lookup next.kind = some op →
      operatorIn? table r = .ok (some (.binary op)) r.step := by
    intro table op hfound
    unfold operatorIn?
    rw [Reader.peek_of_rest hrest, hfound]
  have hcomparison : ∀ {op}, next.kind ≠ .equal → comparisonOps.lookup next.kind = some op →
      comparisonOperator? r = .ok (some (.binary op)) r.step := by
    intro op hne hfound
    unfold comparisonOperator?
    rw [read_get_bind, Reader.peek_of_rest hrest]
    simpa [hne] using hin hfound
  cases h with
  | or | and =>
    cases hlevel
    exact ⟨_, rfl, hlogical hkind (by decide)⟩
  | equal | notEqual | less | lessEqual | greater | greaterEqual =>
    cases hlevel
    exact ⟨_, rfl, hcomparison (by rw [hkind]; decide) (by rw [hkind]; rfl)⟩
  | add | subtract | multiply | divide | modulo =>
    cases hlevel
    exact ⟨_, rfl, hin (by rw [hkind]; rfl)⟩

theorem Operator.bond?_eq {level : Level} {kind : TokenKind} {join : Expr → Expr → Span → Expr}
    (h : Operator level kind join) (inTest : Bool) :
    bond? inTest kind = some level.bond ∧ level.inside < level.bond := by
  cases h <;> exact ⟨rfl, by decide⟩

end Turns

/-! ### Where an expression starts -/

/-- A token of this kind can be the first one of an expression of the level. -/
def Starts (level : Level) (kind : TokenKind) : Prop :=
  kind ≠ .rightParen ∧ (level.bond < Level.negation.bond → kind ≠ .kwNot) ∧
    (level.bond < Level.unary.bond → kind ≠ .minus)

instance (level : Level) (kind : TokenKind) : Decidable (Starts level kind) :=
  inferInstanceAs (Decidable (_ ∧ _ ∧ _))

theorem Starts.looser {level next : Level} {kind : TokenKind} (h : Starts next kind)
    (hlt : next.bond < level.bond) : Starts level kind :=
  ⟨h.1, fun hloose => h.2.1 (Nat.lt_trans hlt hloose),
    fun hloose => h.2.2 (Nat.lt_trans hlt hloose)⟩

theorem Spells.starts {names : Names} {level : Level} {tokens : List Token} {e : Expr}
    (h : Spells names level tokens e) :
    ∃ token more, tokens = token :: more ∧ Starts level token.kind := by
  have hat : ∀ {level : Level} {token : Token} {kind : TokenKind} {more : List Token},
      token.kind = kind → Starts level kind →
      ∃ first rest, token :: more = first :: rest ∧ Starts level first.kind := by
    intro level token kind more hkind hstarts
    exact ⟨token, more, rfl, hkind ▸ hstarts⟩
  induction h with
  | tighter hlevel _ ih =>
    obtain ⟨token, more, rfl, hstarts⟩ := ih
    exact ⟨token, more, rfl, hstarts.looser (Level.bond_of_tighter? hlevel).2⟩
  | joined _ _ _ _ ih | field _ _ _ ih | index _ _ _ _ _ _ _ ih | moreIndices _ _ _ _ _ ih
  | methodCall _ _ _ _ _ _ _ ih =>
    obtain ⟨token, more, rfl, hstarts⟩ := ih
    exact ⟨token, _, rfl, hstarts⟩
  | power _ _ _ ih =>
    obtain ⟨token, more, rfl, hstarts⟩ := ih
    exact ⟨token, _, rfl, hstarts.looser (by decide)⟩
  | not hkind | negate hkind | named hkind _ | call hkind | new hkind | grouping hkind =>
    exact hat hkind (by decide)
  | literal hvalue =>
    cases hvalue <;> exact hat ‹_› (by decide)

end Primer.Grammar
