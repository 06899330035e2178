/-
Expressions take tokens.

Every expression that is read takes at least one token, and whatever stands inside of it is read
after a token was taken.  So the levels of nesting that `expression` starts with are enough: it
reads like the grammar that has no levels at all, which is `Inner.whole`.
-/
import Primer.Proofs.Progress.Rules

namespace Primer.Grammar

/-- Beyond `r`, both ways to read what is inside an expression do the same and take a token. -/
structure Inner.Agree (r : Reader) (inner inner' : Inner) : Prop where
  expression : ∀ r', r.Passes r' →
    Goes inner.expression inner'.expression r' fun _ r'' => r'.Passes r''
  negation : ∀ r', r.Passes r' →
    Goes inner.negation inner'.negation r' fun _ r'' => r'.Passes r''
  unary : ∀ r', r.Passes r' →
    Goes inner.unary inner'.unary r' fun _ r'' => r'.Passes r''

variable {inner inner' : Inner} {r r' : Reader}

theorem Inner.Agree.from (h : inner.Agree r inner') (hr : r.Reaches r') : inner.Agree r' inner' where
  expression := fun r'' hr'' => h.expression r'' (hr.passes hr'')
  negation := fun r'' hr'' => h.negation r'' (hr.passes hr'')
  unary := fun r'' hr'' => h.unary r'' (hr.passes hr'')

/-! ### Single values -/

theorem expectedValue_goes {P : Expr → Reader → Prop} : Forward expectedValue r P :=
  .get_bind abandon_goes

theorem deferCall_goes {name : String} {target : CallTarget} {args : List Expr} {span : Span} :
    Forward (deferCall name target args span) r Anyhow :=
  modify_goes ⟨rfl, rfl⟩

theorem deferType_goes {name : String} {span : Span} : Forward (deferType name span) r Anyhow :=
  modify_goes ⟨rfl, rfl⟩

theorem routineCall_goes {name : Token} {args : List Expr} {stop : Span} :
    Forward (routineCall name args stop) r Anyhow :=
  .look_bind (deferCall_goes.last)

theorem variableReference_goes {name : Token} : Forward (variableReference name) r Anyhow := by
  refine .get_bind ?_
  split
  · exact .pure trivial
  · exact report_goes.last

theorem arguments_goes (h : inner.Agree r inner') :
    Goes (arguments inner) (arguments inner') r r.Taken := by
  refine expect_goes.bind fun _ r₁ _ htaken => .look_bind ?_
  have hclose : ∀ args r₂, r₁.Reaches r₂ →
      Forward (do let close ← expect .rightParen .expectedArgumentsEnd; pure (args, close.span)) r₂
        fun (_ : List Expr × Span) r' => r.Passes r' := fun args r₂ hr₂ =>
    expect_goes.bind fun _ _ hr₃ _ => .pure (htaken.trans (hr₂.trans hr₃))
  split
  · exact hclose [] r₁ (.refl r₁)
  · refine (commaSeparated_goes fun r' hr' => ?_).bind fun args r₂ hr₂ _ => hclose args r₂ hr₂
    exact (h.expression r' (htaken.trans hr')).anyhow

theorem newObject_goes (h : inner.Agree r inner') (hend : r.atEnd = false) :
    Goes (newObject inner) (newObject inner') r r.Taken := by
  refine .beyondWord hend fun keyword r₁ htaken => ?_
  refine expect_goes.bind fun name r₂ hr₂ _ => deferType_goes.bind fun _ r₃ hr₃ _ => .look_bind ?_
  split
  · refine (arguments_goes (h.from ((htaken.trans hr₂).trans hr₃).reaches)).bind fun _ _ _ _ => ?_
    exact deferCall_goes.last
  · exact report_goes.bind fun _ _ _ _ => deferCall_goes.bind fun _ _ _ _ => .pure trivial

theorem negated_goes (h : inner.Agree r inner') (hr : r.Passes r') {keyword : Token} :
    Goes (negated inner keyword) (negated inner' keyword) r' fun _ r'' => r.Passes r'' :=
  (h.negation r' hr).bind fun _ _ hreach _ => .pure (hr.trans hreach)

theorem integerLiteral_goes {token : Token} : Forward (integerLiteral token) r Anyhow := by
  unfold integerLiteral
  split
  · exact .pure trivial
  · exact report_goes.last

theorem kind_ne_endOfInput_of_literalValue? {token : Token} {value : Value}
    (h : literalValue? token = some value) : token.kind ≠ .endOfInput := by
  intro hkind
  simp [literalValue?, hkind] at h

theorem primary_goes (h : inner.Agree r inner') :
    Goes (primary inner) (primary inner') r r.Taken := by
  refine .look_bind ?_
  split
  · rename_i hkind
    refine (advance_passes (Reader.not_atEnd_of_kind hkind (by decide))).bind fun _ _ _ htaken => ?_
    exact integerLiteral_goes.beyond htaken
  · rename_i hkind
    refine (advance_passes (Reader.not_atEnd_of_kind hkind (by decide))).bind fun _ _ _ htaken => ?_
    exact negated_goes h htaken
  · rename_i hkind
    refine (advance_passes (Reader.not_atEnd_of_kind hkind (by decide))).bind fun _ r₁ _ htaken => ?_
    refine (h.expression r₁ htaken).bind fun _ r₂ hr₂ _ => ?_
    exact expect_goes.bind fun _ _ hr₃ _ => .pure (htaken.trans (hr₂.trans hr₃))
  · rename_i hkind
    exact newObject_goes h (Reader.not_atEnd_of_kind hkind (by decide))
  · rename_i hkind
    refine (advance_passes (Reader.not_atEnd_of_kind hkind (by decide))).bind fun _ r₁ _ htaken => ?_
    refine .look_bind ?_
    split
    · refine (arguments_goes (h.from htaken.reaches)).bind fun _ r₂ hr₂ _ => ?_
      exact routineCall_goes.beyond (htaken.trans hr₂)
    · exact variableReference_goes.beyond htaken
  · exact advance_goes.bind fun _ _ _ _ => abandon_goes
  · split
    · rename_i hvalue
      have hend : r.atEnd = false := by
        simpa [Reader.atEnd] using kind_ne_endOfInput_of_literalValue? hvalue
      exact (advance_passes hend).bind fun _ _ _ htaken => .pure htaken
    · exact expectedValue_goes

/-! ### Values with what follows them -/

theorem checkIndexable_goes {base : Expr} : Forward (checkIndexable base) r Anyhow := by
  unfold checkIndexable
  split
  · refine .look_bind ?_
    split
    · exact .pure trivial
    · exact report_goes
  · exact .pure trivial

theorem suffix_goes (h : inner.Agree r inner') (base : Expr) :
    Goes (suffix inner base) (suffix inner' base) r r.TakesTurn := by
  refine accept_goes.bind fun found r₁ hr₁ hfound => ?_
  split
  · rename_i hbracket
    have htaken := hfound hbracket
    refine Goes.mono (Q := r.TakesTurn) (Goes.beyond (P := Anyhow) ?_ htaken) fun _ _ _ hpass _ => hpass
    refine (commaSeparated_goes fun r' hr' => (h.expression r' (htaken.trans hr')).anyhow).bind
      fun _ _ _ _ => ?_
    exact expect_goes.bind fun _ _ _ _ => checkIndexable_goes.last
  · refine accept_goes.bind fun found r₂ hr₂ hfound => ?_
    split
    · rename_i hdot
      have htaken : r.Passes r₂ := hr₁.passes (hfound hdot)
      refine Goes.mono (Q := r.TakesTurn) (Goes.beyond (P := Anyhow) ?_ htaken)
        fun _ _ _ hpass _ => hpass
      refine expect_goes.bind fun _ r₃ hr₃ _ => .look_bind ?_
      split
      · refine (arguments_goes (h.from (htaken.trans hr₃).reaches)).bind fun _ _ _ _ => .look_bind ?_
        split
        · exact deferCall_goes.last
        · exact .pure trivial
      · exact .pure trivial
    · exact .pure nofun

theorem suffixed_goes (h : inner.Agree r inner') :
    Goes (suffixed inner) (suffixed inner') r r.Taken := by
  refine (primary_goes h).bind fun _ r₁ _ htaken => Goes.beyond (Goes.iterate ?_) htaken
  exact fun base r₂ hr₂ => (suffix_goes (h.from (htaken.trans hr₂).reaches) base).anyhow

theorem power_goes (h : inner.Agree r inner') :
    Goes (power inner) (power inner') r r.Taken := by
  refine (suffixed_goes h).bind fun _ r₁ _ htaken => accept_goes.bind fun _ r₂ hr₂ _ => ?_
  have htaken₂ := htaken.trans hr₂
  split
  · exact (h.unary r₂ htaken₂).bind fun _ _ hr₃ _ => .pure (htaken₂.trans hr₃)
  · exact .pure htaken₂

theorem unary_goes (h : inner.Agree r inner') :
    Goes (unary inner) (unary inner') r r.Taken := by
  refine acceptAny?_goes.bind fun sign r₁ hr₁ hsign => ?_
  split
  · have htaken := hsign rfl
    exact (h.unary r₁ htaken).bind fun _ _ hr₂ _ => .pure (htaken.trans hr₂)
  · exact (power_goes (h.from hr₁)).mono fun _ _ _ hpass => hr₁.passes hpass

/-! ### Operators -/

/-- Wherever it is tried, an operator takes a token or is not there. -/
def Operates (operator? : Read (Option (Expr → Expr → Span → Expr))) : Prop :=
  ∀ r, Goes operator? operator? r r.TakesTurn

theorem operatorIn?_operates {table : List (TokenKind × BinaryOp)}
    (h : table.lookup .endOfInput = none) : Operates (operatorIn? table) := by
  intro r
  refine ⟨rfl, ?_⟩
  unfold Yields operatorIn?
  cases hfound : table.lookup r.peek.kind with
  | none => exact ⟨.refl r, nofun⟩
  | some op =>
    have hend : r.atEnd = false := by
      by_contra hend
      have hkind : r.peek.kind = .endOfInput := by simpa [Reader.atEnd] using hend
      rw [hkind, h] at hfound
      cases hfound
    exact ⟨r.reaches_step, fun _ => Reader.passes_step hend⟩

theorem logicalOperator?_operates (word : TokenKind) (op : LogicalOp) :
    Operates (logicalOperator? word op) := by
  intro r
  refine accept_goes.bind fun found r' _ hfound => ?_
  split
  · rename_i htaken
    exact .pure fun _ => hfound htaken
  · exact .pure nofun

theorem comparisonOperator?_operates : Operates comparisonOperator? := by
  intro r
  refine .get_bind ?_
  split
  · rename_i htest
    have hkind : r.peek.kind = .equal := by simpa using (Bool.and_eq_true_iff.mp htest).2
    have hend : r.atEnd = false := Reader.not_atEnd_of_kind hkind (by decide)
    refine report_goes.bind fun _ r₁ hr₁ _ => ?_
    rcases hr₁.passes_or_peek with hpass | ⟨-, hsame⟩
    · exact advance_goes.bind fun _ _ hr₂ _ => .pure fun _ => hpass.trans hr₂
    · refine (advance_passes (hsame.trans hend)).bind fun _ _ _ htaken => ?_
      exact .pure fun _ => hr₁.passes htaken
  · exact operatorIn?_operates rfl r

theorem nextOperand_goes {operand operand' : Read Expr}
    {operator? : Read (Option (Expr → Expr → Span → Expr))}
    (h : ∀ r', r.Reaches r' → Goes operand operand' r' r'.Taken)
    (ho : Operates operator?) (left : Expr) :
    Goes (nextOperand operand operator? left) (nextOperand operand' operator? left) r
      r.TakesTurn := by
  refine (ho r).bind fun join r₁ hr₁ htaken => ?_
  split
  · exact (h r₁ hr₁).bind fun _ _ hr₂ _ => .pure fun _ => (htaken rfl).trans hr₂
  · exact .pure nofun

theorem leftGrouped_goes {operand operand' : Read Expr}
    {operator? : Read (Option (Expr → Expr → Span → Expr))}
    (h : ∀ r', r.Reaches r' → Goes operand operand' r' r'.Taken)
    (ho : Operates operator?) :
    Goes (leftGrouped operand operator?) (leftGrouped operand' operator?) r
      r.Taken := by
  refine (h r (.refl r)).bind fun _ r₁ hr₁ htaken => Goes.beyond (Goes.iterate ?_) htaken
  exact fun left r₂ hr₂ =>
    (nextOperand_goes (fun r₃ hr₃ => h r₃ (hr₁.trans (hr₂.trans hr₃))) ho left).anyhow

theorem multiplicative_goes (h : inner.Agree r inner') :
    Goes (multiplicative inner) (multiplicative inner') r r.Taken :=
  leftGrouped_goes (fun _ hr => unary_goes (h.from hr)) (operatorIn?_operates rfl)

theorem additive_goes (h : inner.Agree r inner') :
    Goes (additive inner) (additive inner') r r.Taken :=
  leftGrouped_goes (fun _ hr => multiplicative_goes (h.from hr)) (operatorIn?_operates rfl)

theorem comparison_goes (h : inner.Agree r inner') :
    Goes (comparison inner) (comparison inner') r r.Taken :=
  leftGrouped_goes (fun _ hr => additive_goes (h.from hr)) comparisonOperator?_operates

theorem negation_goes (h : inner.Agree r inner') :
    Goes (negation inner) (negation inner') r r.Taken := by
  refine acceptAny?_goes.bind fun keyword r₁ hr₁ hkeyword => ?_
  split
  · exact negated_goes h (hkeyword rfl)
  · exact (comparison_goes (h.from hr₁)).mono fun _ _ _ hpass => hr₁.passes hpass

theorem conjunction_goes (h : inner.Agree r inner') :
    Goes (conjunction inner) (conjunction inner') r r.Taken :=
  leftGrouped_goes (fun _ hr => negation_goes (h.from hr)) (logicalOperator?_operates _ _)

theorem disjunction_goes (h : inner.Agree r inner') :
    Goes (disjunction inner) (disjunction inner') r r.Taken :=
  leftGrouped_goes (fun _ hr => conjunction_goes (h.from hr)) (logicalOperator?_operates _ _)

/-! ### Levels -/

/-- As many levels as there are tokens beyond the next one do what any more of them do. -/
theorem Inner.agree_level : ∀ n m r, n ≤ m → r.remaining ≤ n + 1 →
    (Inner.level n).Agree r (Inner.level m) := by
  intro n
  induction n with
  | zero =>
    -- Nothing lies beyond the only token.
    intro m r _ hr
    have hnone : ∀ r', ¬ r.Passes r' := by
      intro r' hpass
      have hpos := r'.remaining_pos
      have hlt := hpass.remaining_lt
      omega
    exact ⟨fun r' h => absurd h (hnone r'), fun r' h => absurd h (hnone r'),
      fun r' h => absurd h (hnone r')⟩
  | succ n ih =>
    intro m r hm hr
    obtain ⟨m, rfl⟩ : ∃ k, m = k + 1 := ⟨m - 1, by omega⟩
    have hnext : ∀ r', r.Passes r' → (Inner.level n).Agree r' (Inner.level m) := by
      intro r' hpass
      have hlt := hpass.remaining_lt
      exact ih m r' (by omega) (by omega)
    exact ⟨fun r' h => disjunction_goes (hnext r' h), fun r' h => negation_goes (hnext r' h),
      fun r' h => unary_goes (hnext r' h)⟩

/-- Expressions without a bound on their depth. -/
def Inner.whole : Inner where
  expression := Grammar.expression
  negation := fun r => Grammar.negation (Inner.level r.remaining) r
  unary := fun r => Grammar.unary (Inner.level r.remaining) r

theorem Inner.agree_whole (r : Reader) : (Inner.level r.remaining).Agree r Inner.whole := by
  obtain ⟨n, hn⟩ : ∃ n, r.remaining = n + 1 := ⟨r.remaining - 1, by have := r.remaining_pos; omega⟩
  have hsame : ∀ r', r.Passes r' → (Inner.level n).Agree r' (Inner.level r'.remaining) := by
    intro r' hpass
    have hlt := hpass.remaining_lt
    have hagree := Inner.agree_level r'.remaining n r' (by omega) (by omega)
    exact ⟨fun _ h => (hagree.expression _ h).symm, fun _ h => (hagree.negation _ h).symm,
      fun _ h => (hagree.unary _ h).symm⟩
  rw [hn]
  exact ⟨fun r' h => (disjunction_goes (hsame r' h)).of_eq rfl rfl,
    fun r' h => (negation_goes (hsame r' h)).of_eq rfl rfl,
    fun r' h => (unary_goes (hsame r' h)).of_eq rfl rfl⟩

/-- **Reading an expression is reading it by the grammar without levels.** -/
theorem expression_unfold : expression = disjunction Inner.whole :=
  funext fun r => (disjunction_goes (Inner.agree_whole r)).1

theorem Inner.negation_whole : Inner.whole.negation = Grammar.negation Inner.whole :=
  funext fun r => (negation_goes (Inner.agree_whole r)).1

theorem Inner.unary_whole : Inner.whole.unary = Grammar.unary Inner.whole :=
  funext fun r => (unary_goes (Inner.agree_whole r)).1

theorem target_unfold : target = suffixed Inner.whole :=
  funext fun r => (suffixed_goes (Inner.agree_whole r)).1

theorem Inner.agree_self (r : Reader) : Inner.whole.Agree r Inner.whole where
  expression := fun r' _ =>
    (disjunction_goes (Inner.agree_whole r')).of_eq rfl (congrFun expression_unfold r')
  negation := fun r' _ =>
    (negation_goes (Inner.agree_whole r')).of_eq rfl (congrFun Inner.negation_whole r')
  unary := fun r' _ => (unary_goes (Inner.agree_whole r')).of_eq rfl (congrFun Inner.unary_whole r')

theorem expression_goes : Forward expression r r.Taken :=
  (disjunction_goes (Inner.agree_whole r)).of_eq rfl (congrFun expression_unfold r)

theorem target_goes : Forward target r r.Taken :=
  (suffixed_goes (Inner.agree_whole r)).of_eq rfl (congrFun target_unfold r)

end Primer.Grammar
