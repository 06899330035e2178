/-
Declarations and parameters take tokens.

A declaration is read once its name has been taken, and a list in brackets once its bracket has.
The lists inside a list are read after a token, so the levels that `initializerList` starts with
are enough.
-/
import Primer.Grammar.Routine
import Primer.Proofs.Progress.Expression

namespace Primer.Grammar

variable {r : Reader} {kind : DeclarationKind} {init : Option Initializer} {name : Token}
  {declared : Option TypeName} {rank : Nat}

/-! ### Types -/

theorem typeName_goes : Forward typeName r Anyhow := by
  refine advance_goes.bind fun token _ _ _ => ?_
  split
  · exact .pure trivial
  · exact deferType_goes.last

theorem declaredType?_goes : Forward declaredType? r Anyhow := by
  refine .look_bind ?_
  split
  · exact typeName_goes.map fun _ _ _ => trivial
  · refine .look_bind ?_
    split
    · exact .pure trivial
    · exact .look_bind abandon_goes

/-! ### Starting values -/

theorem expressionItem_goes : Forward (Initializer.one <$> expression) r r.Taken :=
  expression_goes.map fun _ _ hpass => hpass

/-- As many levels of lists as there are tokens do what any more of them do. -/
theorem listWithin_goes : ∀ n m r, n ≤ m → r.remaining ≤ n →
    Goes (listWithin n) (listWithin m) r r.Taken := by
  intro n
  induction n with
  | zero => exact fun _ r _ hr => absurd r.remaining_pos (by omega)
  | succ n ih =>
    intro m r hm hr
    obtain ⟨m, rfl⟩ : ∃ k, m = k + 1 := ⟨m - 1, by omega⟩
    refine expect_goes.bind fun _ r₁ _ htaken => Goes.beyond (P := Anyhow) (.look_bind ?_) htaken
    have hclose : ∀ items r₂,
        Forward (do let _ ← expect .rightBracket .expectedListEnd; pure (Initializer.list items)) r₂
          Anyhow := fun _ _ => expect_goes.last
    split
    · exact hclose [] r₁
    · refine (commaSeparated_goes fun r₂ hr₂ => .look_bind ?_).bind fun items r₃ _ _ => hclose items r₃
      split
      · have hlt := (htaken.trans hr₂).remaining_lt
        exact (ih m r₂ (by omega) (by omega)).anyhow
      · exact expressionItem_goes.anyhow

theorem initializerList_goes : Forward initializerList r r.Taken :=
  (listWithin_goes r.remaining r.remaining r (Nat.le_refl _) (Nat.le_refl _)).of_eq rfl rfl

theorem initializerItem_goes : Forward initializerItem r r.Taken := by
  refine .look_bind ?_
  split
  · exact initializerList_goes
  · exact expressionItem_goes

theorem initializer_goes {isArray : Bool} : Forward (initializer isArray) r r.Taken := by
  refine .look_bind ?_
  split
  · refine .look_bind (initializerList_goes.bind fun _ r₁ _ htaken => ?_)
    split
    · exact .pure htaken
    · exact report_goes.bind fun _ _ hr₂ _ => .pure (htaken.trans hr₂)
  · refine expression_goes.bind fun _ r₁ _ htaken => .look_bind (Goes.beyond (P := Anyhow) ?_ htaken)
    split
    · refine (Goes.iterate fun items r₂ _ => (nextItem_goes ?_ items).anyhow).last
      exact fun _ _ => initializerItem_goes.anyhow
    · exact .pure trivial

theorem startingValue_goes {isArray : Bool} :
    Forward (startingValue name isArray) r Anyhow := by
  refine .look_bind ?_
  split
  · exact advance_goes.bind fun _ _ _ _ => initializer_goes.anyhow
  · refine .look_bind ?_
    split
    · refine .look_bind (report_goes.bind fun _ _ _ _ => advance_goes.bind fun _ _ _ _ => ?_)
      exact initializer_goes.anyhow
    · exact .pure trivial

theorem literalMismatch_goes {declared : TypeName} {value : Expr} :
    Forward (literalMismatch declared value) r Anyhow := by
  unfold literalMismatch
  split
  · exact .pure trivial
  · split
    · exact .pure trivial
    · exact report_goes.last

theorem checkedInitializer_goes {declared : TypeName} :
    Forward (checkedInitializer declared rank init) r Anyhow := by
  unfold checkedInitializer
  split
  · refine .bind literalMismatch_goes fun _ _ _ _ => ?_
    split
    · exact .pure trivial
    · exact .pure trivial
  · exact .pure trivial

/-! ### Sizes -/

theorem sizeGroup_goes : Forward sizeGroup r Anyhow := by
  refine .look_bind ?_
  split
  · exact expect_goes.last
  · have hsizes := commaSeparated_goes (r := r) (x := expression) fun _ _ => expression_goes.anyhow
    exact (hsizes.map (R := Anyhow) fun _ _ _ => trivial).bind fun _ _ _ _ =>
      expect_goes.last

theorem nextSizes_advancing : Advancing nextSizes := by
  refine .of_goes fun sizes r => ?_
  refine accept_goes.bind fun found r₁ _ hfound => ?_
  split
  · rename_i hbracket
    have htaken := hfound hbracket
    exact .bind sizeGroup_goes fun _ _ hr₂ _ => .pure fun _ => htaken.trans hr₂
  · exact .pure nofun

theorem sizes_goes : Forward sizes r Anyhow :=
  .iterate fun sizes r' _ => Advancing.goes nextSizes_advancing sizes r'

theorem settleSize_goes {size : Option Expr} :
    Forward (settleSize rank init name size) r Anyhow := by
  have hmissing : Forward (settleSize.missing name) r Anyhow :=
    report_goes.last
  unfold settleSize
  split
  · exact .pure trivial
  · split
    · split
      · exact .pure trivial
      · exact hmissing
    · exact hmissing

theorem settleSizes_goes :
    ∀ {r : Reader} (given : List (Option Expr)), Forward (settleSizes rank init name given) r Anyhow
  | _, [] => .pure trivial
  | _, _ :: rest => .bind settleSize_goes fun _ _ _ _ =>
      (settleSizes_goes rest).last

/-! ### Declared names -/

theorem declareName_goes {type : TypeName} :
    Forward (declareName name type rank kind) r Anyhow := by
  refine .look_bind (Goes.bind (P := Anyhow) ⟨rfl, ⟨rfl, Nat.le_refl _⟩, trivial⟩ fun _ _ _ _ => ?_)
  split
  · exact report_goes.last
  · exact .pure trivial

theorem settleType_goes {reported : Bool} :
    Forward (settleType declared reported init name) r Anyhow := by
  unfold settleType
  split
  · exact .pure trivial
  · split
    · exact .pure trivial
    · exact report_goes.last

theorem declarator_goes {reported : Bool} :
    Forward (declarator kind declared reported) r r.Taken := by
  refine expect_goes.bind fun name r₁ _ htaken => Goes.beyond (P := Anyhow) ?_ htaken
  refine .bind sizes_goes fun given _ _ _ => .bind startingValue_goes fun init _ _ _ => ?_
  refine .bind settleType_goes fun type _ _ _ => (settleSizes_goes given).bind fun dims _ _ _ => ?_
  refine .bind declareName_goes fun id r₂ _ _ => ?_
  have hfinish : ∀ r : Reader, Goes (do
      let init ← checkedInitializer type.1 given.length init
      let last ← look Reader.previous
      pure (({ id, dims, init, span := name.span.cover last.span } : Declaration), type.2)) (do
      let init ← checkedInitializer type.1 given.length init
      let last ← look Reader.previous
      pure ({ id, dims, init, span := name.span.cover last.span }, type.2)) r Anyhow := fun _ =>
    .bind checkedInitializer_goes fun _ _ _ _ => .look_bind (.pure trivial)
  split
  · exact report_goes.bind fun _ _ _ _ => hfinish _
  · exact hfinish _

theorem nextDeclarator_advancing :
    Advancing (nextDeclarator kind declared) := by
  refine .of_goes fun found r => ?_
  refine accept_goes.bind fun comma r₁ _ hcomma => ?_
  split
  · rename_i htaken
    exact .bind declarator_goes fun _ _ hr₂ _ => .pure fun _ => (hcomma htaken).trans hr₂
  · exact .pure nofun

theorem declarators_goes : Forward (declarators kind) r r.Taken := by
  refine .bind declaredType?_goes fun declared r₁ hr₁ _ => ?_
  refine .bind declarator_goes fun _ r₂ _ htaken => Goes.beyond (P := Anyhow) ?_ (hr₁.passes htaken)
  refine (Goes.iterate fun found r' _ => Advancing.goes nextDeclarator_advancing found r').bind
    fun _ _ _ _ => ?_
  exact .pure trivial

theorem declarationStatement_goes {start : Span} :
    Forward (declarationStatement kind start) r r.Taken :=
  .bind declarators_goes fun _ _ _ htaken =>
    .look_bind (endOfStatement_goes.bind fun _ _ hr _ => .pure (htaken.trans hr))

/-! ### Parameters -/

theorem parameterType_goes : Forward parameterType r Anyhow := by
  refine acceptAny?_goes.bind fun mark _ _ _ => ?_
  split
  · refine .look_bind ?_
    split
    · exact report_goes.bind fun _ _ _ _ => typeName_goes.last
    · refine .look_bind ?_
      split
      · exact report_goes.last
      · exact .look_bind abandon_goes
  · refine .look_bind ?_
    split
    · exact typeName_goes.last
    · refine .look_bind ?_
      split
      · exact .look_bind (report_goes.last)
      · exact .look_bind abandon_goes

theorem refMark_goes {marked : Bool} : Forward (refMark marked) r Anyhow := by
  refine acceptAny?_goes.bind fun mark _ _ _ => ?_
  split
  · split
    · exact report_goes.last
    · exact .pure trivial
  · exact .pure trivial

theorem nextBrackets_advancing {type : TypeName} :
    Advancing (nextBrackets type name) := by
  refine .of_goes fun rank r => ?_
  refine accept_goes.bind fun found r₁ _ hfound => ?_
  split
  · rename_i hbracket
    have htaken := hfound hbracket
    have hclose : ∀ r₂, r₁.Reaches r₂ →
        Forward (do let _ ← expect .rightBracket .expectedParameterSizeEnd; pure (some (rank + 1))) r₂
          r.TakesTurn := fun r₂ hr₂ =>
      expect_goes.bind fun _ _ hr₃ _ => .pure fun _ => htaken.trans (hr₂.trans hr₃)
    refine .look_bind ?_
    split
    · exact hclose r₁ (.refl r₁)
    · refine .look_bind (report_goes.bind fun _ r₂ hr₂ _ => ?_)
      refine (skipWhile_goes fun r h => ?_).bind fun _ r₃ hr₃ _ => hclose r₃ (hr₂.trans hr₃)
      exact Reader.not_atEnd_of_onLine (Bool.and_eq_true_iff.mp h).1
  · exact .pure nofun

theorem parameter_goes : Forward parameter r Anyhow := by
  refine .bind parameterType_goes fun type _ _ _ => .bind refMark_goes fun _ _ _ _ => ?_
  refine expect_goes.bind fun name _ _ _ => ?_
  refine (Goes.iterate fun rank r' _ => Advancing.goes nextBrackets_advancing rank r').bind
    fun _ _ _ _ => ?_
  exact declareName_goes

theorem parameterOrSkip_goes {line : Nat} {params : List VarId} :
    Forward (parameterOrSkip line params) r Anyhow := by
  refine .bind (.attempt parameter_goes) fun found _ _ _ => ?_
  split
  · exact .pure trivial
  · refine (skipWhile_goes fun r h => ?_).last
    simp only [Bool.and_eq_true] at h
    exact Reader.not_atEnd_of_onLine h.1.1

theorem nextParameter_advancing {line : Nat} : Advancing (nextParameter line) := by
  refine .of_goes fun params r => ?_
  refine accept_goes.bind fun found r₁ _ hfound => ?_
  split
  · rename_i hcomma
    exact (Goes.beyond parameterOrSkip_goes (hfound hcomma)).map fun _ _ hpass _ => hpass
  · exact .pure nofun

theorem parameters_goes {keyword : Token} : Forward (parameters keyword) r Anyhow := by
  refine accept_goes.bind fun _ r₁ _ _ => ?_
  split
  · have hclose : ∀ (params : List VarId) (r : Reader), Forward (do
        if ← accept .rightParen then pure ()
        else report .expectedParametersEnd (← look Reader.errorSpan)
        pure params.reverse) r Anyhow := by
      intro params r
      refine accept_goes.bind fun _ _ _ _ => ?_
      split
      · exact .pure trivial
      · exact .look_bind (report_goes.last)
    refine .look_bind ?_
    split
    · exact hclose [] r₁
    · refine .bind parameterOrSkip_goes fun first _ _ _ => ?_
      refine (Goes.iterate fun params r' _ => Advancing.goes nextParameter_advancing params r').bind
        fun params r₂ _ _ => hclose params r₂
  · exact reportMissing_goes.last

end Primer.Grammar
