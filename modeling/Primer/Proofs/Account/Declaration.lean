/-
Declarations account for themselves, and so do the headers of routines.

A declaration adds a variable to the scope at hand, whose span is that of its name.
-/
import Primer.Grammar.Routine
import Primer.Proofs.Account.Expression
import Primer.Proofs.Grammar.Declaration

namespace Primer.Grammar

variable {K : Course} {tokens : Array Token} {fails : Prop} {old : Prop → Prop}
  {init : Option Initializer} {kind : DeclarationKind} {name : Token} {flawed : Prop} {rank : Nat}

/-! ### Adding a variable -/

namespace Reader

/-- What is added to a scope leaves its parent. -/
theorem parents_modify (scopes : Array Scope) (s : ScopeId) (f : Scope → Scope)
    (hf : ∀ scope, (f scope).parent = scope.parent) :
    (scopes.modify s f).toList.map (·.parent) = scopes.toList.map (·.parent) := by
  refine List.ext_getElem? fun i => ?_
  simp only [Array.toList_modify, List.getElem?_map, List.getElem?_modify, Array.getElem?_toList]
  cases scopes[i]? with
  | none => rfl
  | some scope => by_cases h : s = i <;> simp [h, hf]

variable (name : Token) (type : TypeName) (rank : Nat) (kind : DeclarationKind)

theorem outerClasses_nextPlace (l : Layout) :
    (l.nextPlace kind).2.2.classes.tail = l.classes.tail := by
  cases kind with
  | field => cases hc : l.classes <;> simp [Layout.nextPlace, Layout.nextStatic, hc]
  | plain => cases hr : l.routines <;> simp [Layout.nextPlace, Layout.nextStatic, hr]
  | constant => cases hr : l.routines <;> simp [Layout.nextPlace, Layout.nextStatic, hr]
  | parameter b => cases hr : l.routines <;> simp [Layout.nextPlace, Layout.nextStatic, hr]

theorem plain_declaring (r : Reader) (hname : Place r.tokens name.span) :
    r.Plain (r.declaring name type rank kind) where
  toSameContext := ⟨rfl, rfl, rfl⟩
  scope := (r.layout.counted_nextPlace kind).scope
  saved := (r.layout.counted_nextPlace kind).saved
  routine := by
    have hids := congrArg List.head? (r.layout.counted_nextPlace kind).routines
    rw [List.head?_map, List.head?_map] at hids
    exact hids
  outerRoutines := (r.layout.counted_nextPlace kind).outer
  classAtHand := by
    have hclasses := congrArg List.head? (r.layout.counted_nextPlace kind).classes
    rw [List.head?_map, List.head?_map] at hclasses
    exact hclasses
  outerClasses := outerClasses_nextPlace kind r.layout
  tokens := rfl
  errors := Nat.le_refl _
  record := by
    intro flawed h
    refine ⟨h.problems, fun v hv => ?_, h.routines, h.classes, h.pendingTypes, h.pendingCalls⟩
    have hentries : v ∈ (r.layout.nextPlace kind).2.2.table.entries.push
        (r.layout.declared name.lexeme type rank kind name.span) := hv
    rw [(r.layout.counted_nextPlace kind).entries] at hentries
    rcases Array.mem_push.mp hentries with hv | rfl
    · exact h.entries v hv
    · exact hname
  parents := by
    show ((r.layout.nextPlace kind).2.2.table.scopes.modify _ _).toList.map (·.parent) = _
    rw [(r.layout.counted_nextPlace kind).scopes]
    exact parents_modify _ _ _ fun _ => rfl
  routines := rfl
  classes := rfl

end Reader

theorem declareName_gives {type : TypeName} (hname : name ∈ tokens) :
    Gives K tokens fails old (declareName name type rank kind) Whatever := by
  refine .single fun count r htokens _ _ => ?_
  have hdeclaring : r.Plain (r.declaring name type rank kind) :=
    r.plain_declaring name type rank kind (htokens ▸ .token hname)
  refine Yields.look_bind (Yields.modifyGet_bind ?_)
  cases r.layout.firstDeclaration? name.lexeme with
  | some line =>
    refine ⟨K.plain (hdeclaring.trans (Reader.plain_report _ _ ?_)), fun _ _ => trivial⟩
    exact htokens ▸ .token hname
  | none => exact ⟨K.plain hdeclaring, fun _ _ => trivial⟩

/-! ### Types and starting values -/

theorem typeName_gives : Gives K tokens fails old typeName Whatever := by
  refine advance_gives.known fun token htoken => ?_
  split
  · exact .done
  · exact (deferType_gives (.token htoken)).known fun _ _ => .done

theorem declaredType?_gives : Gives K tokens True old declaredType? Whatever := by
  refine looks_gives.known fun _ _ => ?_
  split
  · exact typeName_gives.map fun _ _ _ => trivial
  · refine check_gives.known fun _ _ => ?_
    split
    · exact .done
    · exact errorSpan_gives.known fun _ hspan => abandon_gives hspan rfl

/-- Every expression of a starting value is grounded. -/
def GroundedInitializer (tokens : Array Token) (flawed : Prop) (init : Initializer) : Prop :=
  init.Each (GroundedNode tokens flawed)

theorem groundedInitializer_one {e : Expr} (h : Grounded tokens flawed e) :
    GroundedInitializer tokens flawed (.one e) := by
  intro e' he'
  obtain rfl : e' = e := by simpa [Initializer.flatten] using he'
  exact h

theorem groundedInitializer_list {items : List Initializer}
    (h : ∀ item ∈ items, GroundedInitializer tokens flawed item) :
    GroundedInitializer tokens flawed (.list items) := by
  intro e he
  rw [Initializer.flatten] at he
  obtain ⟨item, hitem, he⟩ := Initializer.mem_flattenAll.mp he
  exact h item hitem e he

theorem initializerOne_gives :
    Gives K tokens True old (Initializer.one <$> expression) (GroundedInitializer tokens) :=
  expression_gives.map fun _ _ h => groundedInitializer_one h

theorem listWithin_gives (n : Nat) : ∀ {old},
    Gives K tokens True old (listWithin n) (GroundedInitializer tokens) := by
  induction n with
  | zero =>
    intro old
    exact (expect_gives rfl).known fun _ _ => .pure fun _ _ => groundedInitializer_list (by simp)
  | succ n ih =>
    intro old
    refine (expect_gives rfl).known fun _ _ => check_gives.known fun _ _ => ?_
    extract_lets finish
    have hfinish : ∀ items old,
        (∀ flawed, old flawed → ∀ item ∈ items, GroundedInitializer tokens flawed item) →
        Gives K tokens True old (finish items) (GroundedInitializer tokens) := fun items old hitems =>
      (expect_gives rfl).known fun _ _ => .pure fun flawed h => groundedInitializer_list (hitems flawed h)
    split
    · exact hfinish [] _ (by simp)
    · refine (commaSeparated_gives (Q := GroundedInitializer tokens) ?_).bind fun items =>
        hfinish items _ fun _ h => h.1
      intro old
      refine check_gives.known fun _ _ => ?_
      split
      · exact ih
      · exact initializerOne_gives

theorem initializerList_gives : Gives K tokens True old initializerList (GroundedInitializer tokens) :=
  .choose (fun r => listWithin r.remaining) (fun _ => rfl) fun r => listWithin_gives r.remaining

theorem initializerItem_gives : Gives K tokens True old initializerItem (GroundedInitializer tokens) := by
  refine check_gives.known fun _ _ => ?_
  split
  · exact initializerList_gives
  · exact initializerOne_gives

/-- A starting value is grounded if there is one. -/
def GroundedOption (tokens : Array Token) (flawed : Prop) (init : Option Initializer) : Prop :=
  ∀ i ∈ init, GroundedInitializer tokens flawed i

theorem groundedOption_none : GroundedOption tokens flawed none := by
  simp [GroundedOption]

theorem groundedOption_some {init : Initializer} (h : GroundedInitializer tokens flawed init) :
    GroundedOption tokens flawed (some init) := by
  rintro i ⟨⟩
  exact h

theorem initializer_gives {isArray : Bool} :
    Gives K tokens True old (initializer isArray) (GroundedOption tokens) := by
  refine check_gives.known fun _ _ => ?_
  split
  · refine peek_gives.known fun opening hopening => initializerList_gives.bind fun list => ?_
    split
    · exact .pure fun _ h => groundedOption_some h.1
    · exact (remark_gives (.token hopening)).known fun _ _ => .pure fun _ _ => groundedOption_none
  · refine expression_gives.bind fun first => check_gives.known fun _ _ => ?_
    split
    · refine .bind (.iterate
        (Q := fun flawed items => ∀ item ∈ items, GroundedInitializer tokens flawed item)
        ?_ fun items => ?_) fun items => .pure ?_
      · rintro flawed h item hitem
        obtain rfl := List.mem_singleton.mp hitem
        exact groundedInitializer_one h.1
      · refine accept_gives.known fun _ _ => ?_
        split
        · refine initializerItem_gives.bind fun next => .pure ?_
          rintro flawed ⟨hnext, hitems, -⟩ item hitem
          rcases List.mem_cons.mp hitem with rfl | hitem
          · exact hnext
          · exact hitems item hitem
        · exact .pure fun _ _ => trivial
      · intro flawed h
        refine groundedOption_some (groundedInitializer_list fun item hitem => ?_)
        exact h.1 item (List.mem_reverse.mp hitem)
    · exact .pure fun _ h => groundedOption_some (groundedInitializer_one h.1)

theorem startingValue_gives {isArray : Bool} :
    Gives K tokens True old (startingValue name isArray) (GroundedOption tokens) := by
  refine check_gives.known fun _ _ => ?_
  split
  · exact advance_gives.known fun _ _ => initializer_gives
  · refine check_gives.known fun _ _ => ?_
    split
    · exact peek_gives.known fun _ hmark => (remark_gives (.token hmark)).known fun _ _ =>
        advance_gives.known fun _ _ => initializer_gives
    · exact .pure fun _ _ => groundedOption_none

theorem literalMismatch_gives {declared : TypeName} {value : Expr}
    (hvalue : ∀ flawed, old flawed → Grounded tokens flawed value) :
    Gives K tokens fails old (literalMismatch declared value) Whatever := by
  refine .given (fun flawed h => (hvalue flawed h).span) fun hspan => ?_
  unfold literalMismatch
  split
  · exact .done
  · split
    · exact .done
    · exact (remark_gives hspan).known fun _ _ => .done

theorem checkedInitializer_gives {declared : TypeName}
    (hinit : ∀ flawed, old flawed → GroundedOption tokens flawed init) :
    Gives K tokens fails old (checkedInitializer declared rank init) (GroundedOption tokens) := by
  unfold checkedInitializer
  split
  · rename_i value
    refine (literalMismatch_gives fun flawed h => ?_).known fun _ _ => ?_
    · exact hinit flawed h _ rfl value (by simp [Initializer.flatten])
    · split
      · exact .pure fun _ _ => groundedOption_none
      · exact .pure hinit
  · exact .pure hinit

/-! ### Sizes -/

/-- The sizes that are given are grounded. -/
def GroundedSizes (tokens : Array Token) (flawed : Prop) (sizes : List (Option Expr)) : Prop :=
  ∀ e, some e ∈ sizes → Grounded tokens flawed e

theorem sizeGroup_gives : Gives K tokens True old sizeGroup (GroundedSizes tokens) := by
  refine check_gives.known fun _ _ => ?_
  extract_lets finish
  have hfinish : ∀ sizes old, (∀ flawed, old flawed → GroundedSizes tokens flawed sizes) →
      Gives K tokens True old (finish sizes) (GroundedSizes tokens) :=
    fun sizes old hsizes => (expect_gives rfl).known fun _ _ => .pure hsizes
  split
  · exact hfinish [none] _ (by simp [GroundedSizes])
  · refine Accounts.bind (Q := GroundedSizes tokens) ?_ fun sizes => hfinish sizes _ fun _ h => h.1
    refine (commaSeparated_gives expression_gives).map fun flawed found h e he => ?_
    obtain ⟨e', he', heq⟩ := List.mem_map.mp he
    obtain rfl : e' = e := by simpa using heq
    exact h e' he'

theorem sizes_gives : Gives K tokens True old sizes (GroundedSizes tokens) := by
  refine .iterate (by simp [GroundedSizes]) fun sizes => accept_gives.known fun _ _ => ?_
  split
  · refine sizeGroup_gives.bind fun group => .pure ?_
    rintro flawed ⟨hgroup, hsizes, -⟩ e he
    rcases List.mem_append.mp he with he | he
    · exact hsizes e he
    · exact hgroup e he
  · exact .pure fun _ _ => trivial

theorem settleSize_gives {size : Option Expr} (hname : name ∈ tokens)
    (hsize : ∀ flawed, old flawed → ∀ e ∈ size, Grounded tokens flawed e) :
    Gives K tokens fails old (settleSize rank init name size) (Grounded tokens) := by
  have hmissing : Gives K tokens fails old (settleSize.missing name) (Grounded tokens) :=
    (remark_gives (.token hname)).known fun _ _ =>
      .pure fun _ _ => GroundedNode.valid (.token hname) rfl
  unfold settleSize
  split
  · exact .pure fun flawed h => hsize flawed h _ rfl
  · split
    · split
      · exact .pure fun _ _ => GroundedNode.valid (.token hname) rfl
      · exact hmissing
    · exact hmissing

theorem settleSizes_gives (hname : name ∈ tokens) (given : List (Option Expr)) :
    ∀ {old}, (∀ flawed, old flawed → GroundedSizes tokens flawed given) →
      Gives K tokens fails old (settleSizes rank init name given)
        fun flawed dims => ∀ e ∈ dims, Grounded tokens flawed e := by
  induction given with
  | nil => exact fun {old} _ => .pure fun _ _ => by simp
  | cons size rest ih =>
    intro old hgiven
    refine (settleSize_gives hname fun flawed h e he => ?_).bind fun first => ?_
    · obtain rfl : size = some e := by simpa using he
      exact hgiven flawed h e List.mem_cons_self
    · refine (ih fun flawed h e he => ?_).bind fun others => .pure ?_
      · exact hgiven flawed h.2 e (List.mem_cons_of_mem _ he)
      · rintro flawed ⟨hothers, hfirst, -⟩ e he
        rcases List.mem_cons.mp he with rfl | he
        · exact hfirst
        · exact hothers e he

/-! ### Declarations -/

theorem settleType_gives {declared : Option TypeName} {reported : Bool} (hname : name ∈ tokens) :
    Gives K tokens fails old (settleType declared reported init name) Whatever := by
  unfold settleType
  split
  · exact .done
  · split
    · exact .done
    · exact (remark_gives (.token hname)).known fun _ _ => .done

theorem declarator_gives {declared : Option TypeName} {reported : Bool} :
    Gives K tokens True old (declarator kind declared reported)
      fun flawed found => GroundedDeclaration tokens flawed found.1 := by
  refine (expect_gives rfl).known fun name hname => sizes_gives.bind fun given => ?_
  refine startingValue_gives.bind fun init => (settleType_gives hname).known fun settled _ => ?_
  refine (settleSizes_gives hname given fun _ h => h.2.1).bind fun dims => ?_
  refine (declareName_gives hname).known fun id _ => ?_
  extract_lets finish
  have hfinish : ∀ u old,
      (∀ flawed, old flawed → (∀ e ∈ dims, Grounded tokens flawed e) ∧ GroundedOption tokens flawed init) →
      Gives K tokens True old (finish u) fun flawed found => GroundedDeclaration tokens flawed found.1 := by
    intro u old hold
    refine (checkedInitializer_gives fun flawed h => (hold flawed h).2).bind fun kept => ?_
    refine previous_gives.known fun last hlast => .pure fun flawed h => ?_
    exact ⟨.cover (.token hname) (.token hlast), (hold flawed h.2).1, h.1⟩
  split
  · exact (remark_gives (.token hname)).known fun u _ => hfinish u _ fun _ h => ⟨h.1, h.2.1⟩
  · exact hfinish () _ fun _ h => ⟨h.1, h.2.1⟩

theorem declarators_gives :
    Gives K tokens True old (declarators kind)
      fun flawed ds => ∀ d ∈ ds, GroundedDeclaration tokens flawed d := by
  refine declaredType?_gives.known fun declared _ => declarator_gives.bind fun first => ?_
  refine .bind (.iterate
    (Q := fun flawed (found : List Declaration × Bool) =>
      ∀ d ∈ found.1, GroundedDeclaration tokens flawed d) ?_ fun found => ?_) fun found => ?_
  · rintro flawed h d hd
    obtain rfl := List.mem_singleton.mp hd
    exact h.1
  · refine accept_gives.known fun _ _ => ?_
    split
    · refine declarator_gives.bind fun next => .pure ?_
      rintro flawed ⟨hnext, hfound, -⟩ d hd
      rcases List.mem_cons.mp hd with rfl | hd
      · exact hnext
      · exact hfound d hd
    · exact .pure fun _ _ => trivial
  · exact .pure fun flawed h d hd => h.1 d (List.mem_reverse.mp hd)

theorem declarationStatement_gives {start : Span} (hstart : Place tokens start) :
    Gives K tokens True old (declarationStatement kind start) (GroundedSimple tokens) :=
  .bind declarators_gives fun _ => previous_gives.known fun _ hlast =>
    endOfStatement_gives.known fun _ _ => .pure fun _ h => ⟨⟨.cover hstart (.token hlast), h.1⟩, rfl⟩

/-! ### Headers of routines -/

theorem parameterType_gives : Gives K tokens True old parameterType Whatever := by
  refine acceptAny?_gives.known fun mark hmark => ?_
  split
  · rename_i refToken
    have hspan : Place tokens refToken.span := .token (hmark _ rfl)
    refine looks_gives.known fun _ _ => ?_
    split
    · exact (remark_gives hspan).known fun _ _ => typeName_gives.known fun _ _ =>
        .done
    · refine check_gives.known fun _ _ => ?_
      split
      · exact (remark_gives hspan).known fun _ _ => .done
      · exact errorSpan_gives.known fun _ hspan => abandon_gives hspan rfl
  · refine looks_gives.known fun _ _ => ?_
    split
    · exact typeName_gives.known fun _ _ => .done
    · refine check_gives.known fun _ _ => ?_
      split
      · exact peek_gives.known fun _ hname => (remark_gives (.token hname)).known fun _ _ =>
          .done
      · exact errorSpan_gives.known fun _ hspan => abandon_gives hspan rfl

theorem refMark_gives {marked : Bool} : Gives K tokens fails old (refMark marked) Whatever := by
  refine acceptAny?_gives.known fun mark hmark => ?_
  split
  · extract_lets finish
    split
    · exact (remark_gives (.token (hmark _ rfl))).known fun _ _ => .done
    · exact .done
  · exact .done

theorem parameterRank_gives {type : TypeName} :
    Gives K tokens True old (parameterRank type name) Whatever := by
  refine .iterate (fun _ _ => trivial) fun rank => accept_gives.known fun _ _ => ?_
  split
  · refine check_gives.known fun _ _ => ?_
    extract_lets finish
    have hfinish : ∀ u (old : Prop → Prop), Gives K tokens True old (finish u)
        fun _ next => next.elim True fun _ => True :=
      fun _ _ => (expect_gives rfl).known fun _ _ => .pure fun _ _ => trivial
    split
    · exact hfinish () _
    · exact peek_gives.known fun _ hspan => (remark_gives (.token hspan)).known fun _ _ =>
        skipWhile_gives.known fun u _ => hfinish u _
  · exact .pure fun _ _ => trivial

theorem parameter_gives : Gives K tokens True old parameter Whatever :=
  .known parameterType_gives fun _ _ => .known refMark_gives fun _ _ =>
    .known (expect_gives rfl) fun _ hname => .known parameterRank_gives fun _ _ =>
      declareName_gives hname

theorem parameterOrSkip_accounts {line : Nat} {params : List VarId} :
    Accounts K tokens fails old (do let id ← parameter; pure (id :: params))
      (parameterOrSkip line params) Whatever :=
  .recover (.insist parameter_gives) (fun _ => .done)
    (skipWhile_gives.known fun _ _ => .done)

theorem parameters_gives {keyword : Token} :
    Gives K tokens fails old (parameters keyword) Whatever := by
  refine accept_gives.known fun _ _ => ?_
  split
  · refine check_gives.known fun _ _ => ?_
    extract_lets finish
    have hfinish : ∀ params (old : Prop → Prop), Gives K tokens fails old (finish params) Whatever := by
      intro params old
      refine accept_gives.known fun _ _ => ?_
      extract_lets give
      split
      · exact .done
      · exact errorSpan_gives.known fun _ hspan => (remark_gives hspan).known fun _ _ =>
          .done
    split
    · exact hfinish [] _
    · refine .known (.alone parameterOrSkip_accounts) fun first _ => ?_
      refine Accounts.known (P := fun _ => True) (.iterate (fun _ _ => trivial) fun params => ?_)
        fun params _ => hfinish params _
      refine accept_gives.known fun _ _ => ?_
      split
      · exact .map (.alone parameterOrSkip_accounts) fun _ _ _ => trivial
      · exact .pure fun _ _ => trivial
  · exact (reportMissing_gives rfl).bind fun _ => .done

theorem returnType_gives {kind : RoutineKind} : Gives K tokens fails old (returnType kind) Whatever := by
  unfold returnType
  split
  · exact .done
  · refine looks_gives.known fun _ _ => ?_
    split
    · exact typeName_gives.map fun _ _ _ => trivial
    · exact (reportMissing_gives rfl).bind fun _ => .done

theorem definedName_gives {keyword : Token} {problem : Problem} (hkeyword : keyword ∈ tokens) :
    Gives K tokens fails old (definedName keyword problem) fun _ found => Place tokens found.2 := by
  refine check_gives.known fun _ _ => ?_
  split
  · exact advance_gives.known fun _ hname => .pure fun _ _ => .token hname
  · exact errorSpan_gives.known fun _ hspan => (remark_gives hspan).known fun _ _ =>
      .pure fun _ _ => .token hkeyword

end Primer.Grammar
