/-
Expressions account for themselves.

An expression covers the tokens it was put together from, and a name that is bound to nothing is
reported before a node is put in its place.
-/
import Primer.Proofs.Account.Rules

namespace Primer.Grammar

variable {K : Course} {tokens : Array Token} {fails : Prop} {old : Prop → Prop} {inner : Inner}
  {span : Span} {base : Expr}

/-- The expressions inside an expression account for themselves. -/
structure Inner.Gives (K : Course) (tokens : Array Token) (inner : Inner) : Prop where
  expression : ∀ old, Grammar.Gives K tokens True old inner.expression (Grounded tokens)
  negation : ∀ old, Grammar.Gives K tokens True old inner.negation (Grounded tokens)
  unary : ∀ old, Grammar.Gives K tokens True old inner.unary (Grounded tokens)

/-- Several expressions, and where the last of them ends. -/
def GroundedArguments (tokens : Array Token) (flawed : Prop) (found : List Expr × Span) : Prop :=
  (∀ e ∈ found.1, Grounded tokens flawed e) ∧ Place tokens found.2

theorem expectedValue_gives : Gives K tokens True old expectedValue (Grounded tokens) :=
  get_gives.known fun r htokens => abandon_gives (htokens ▸ r.place_errorSpan) rfl

theorem deferType_gives {name : String} (hspan : Place tokens span) :
    Gives K tokens fails old (deferType name span) Whatever :=
  .single fun _ r htokens _ _ =>
    ⟨K.plain (r.plain_deferType name (htokens ▸ hspan)), fun _ _ => trivial⟩

theorem deferCall_gives {name : String} {target : CallTarget} {args : List Expr}
    (hspan : Place tokens span)
    (hargs : ∀ flawed, old flawed → ∀ e ∈ args, Grounded tokens flawed e) :
    Gives K tokens fails old (deferCall name target args span) Whatever := by
  refine .single fun _ r htokens _ hold => ⟨K.plain (r.plain_deferCall ?_ ?_), fun _ _ => trivial⟩
  · exact htokens ▸ hspan
  · intro arg harg
    obtain ⟨e, he, rfl⟩ := List.mem_map.mp harg
    exact htokens ▸ (hold.imp hargs True (fun _ => trivial) e he).span

theorem routineCall_gives {name : Token} {args : List Expr} {stop : Span} (hname : name ∈ tokens)
    (hargs : ∀ flawed, old flawed → GroundedArguments tokens flawed (args, stop)) :
    Gives K tokens fails old (routineCall name args stop) (Grounded tokens) := by
  refine .given (fun flawed h => (hargs flawed h).2) fun hstop => ?_
  have hspan : Place tokens (name.span.cover stop) := .cover (.token hname) hstop
  refine looks_gives.known fun _ _ => ?_
  refine (deferCall_gives hspan fun flawed h => (hargs flawed h).1).known fun _ _ => ?_
  exact .pure fun flawed h => ⟨.valid hspan rfl, Expr.eachIn_iff.mpr (hargs flawed h).1⟩

/-- **A name that is bound to nothing is reported.** -/
theorem variableReference_gives {name : Token} (hname : name ∈ tokens) :
    Gives K tokens fails old (variableReference name) (Grounded tokens) := by
  refine get_gives.known fun r _ => ?_
  split
  · exact .pure fun _ _ => GroundedNode.valid (.token hname) rfl
  · refine (report_gives (.token hname) rfl).bind fun _ => .pure fun flawed h => ?_
    exact ⟨.token hname, fun _ => h.1⟩

theorem arguments_gives (hi : inner.Gives K tokens) :
    Gives K tokens True old (arguments inner) (GroundedArguments tokens) := by
  refine (expect_gives rfl).known fun _ _ => check_gives.known fun empty _ => ?_
  extract_lets finish
  have hfinish : ∀ args old, (∀ flawed, old flawed → ∀ e ∈ args, Grounded tokens flawed e) →
      Gives K tokens True old (finish args) (GroundedArguments tokens) := fun args old hargs =>
    (expect_gives rfl).known fun close hclose => .pure fun flawed h => ⟨hargs flawed h, .token hclose⟩
  split
  · exact hfinish [] _ (by simp)
  · exact (commaSeparated_gives (hi.expression _)).bind fun args => hfinish args _ fun _ h => h.1

theorem newObject_gives (hi : inner.Gives K tokens) :
    Gives K tokens True old (newObject inner) (Grounded tokens) := by
  refine advance_gives.known fun keyword hkeyword => (expect_gives rfl).known fun name hname => ?_
  refine (deferType_gives (.token hname)).known fun _ _ => check_gives.known fun _ _ => ?_
  extract_lets finish
  have hfinish : ∀ found old, (∀ flawed, old flawed → GroundedArguments tokens flawed found) →
      Gives K tokens True old (finish found) (Grounded tokens) := by
    intro found old hfound
    refine .given (fun flawed h => (hfound flawed h).2) fun hstop => ?_
    have hspan : Place tokens (keyword.span.cover found.2) := .cover (.token hkeyword) hstop
    refine (deferCall_gives hspan fun flawed h => (hfound flawed h).1).known fun _ _ => .pure ?_
    exact fun flawed h => ⟨.valid hspan rfl, Expr.eachIn_iff.mpr (hfound flawed h).1⟩
  split
  · exact (arguments_gives hi).bind fun found => hfinish found _ fun _ h => h.1
  · refine (remark_gives (.token hname)).known fun _ _ => hfinish ([], name.span) _ fun _ _ => ?_
    exact ⟨by simp, .token hname⟩

theorem negated_gives (hi : inner.Gives K tokens) {keyword : Token} (hkeyword : keyword ∈ tokens) :
    Gives K tokens True old (negated inner keyword) (Grounded tokens) :=
  (hi.negation _).bind fun _ => .pure fun _ h =>
    ⟨.valid (.cover (.token hkeyword) h.1.span) rfl, h.1⟩

theorem integerLiteral_gives {token : Token} (htoken : token ∈ tokens) :
    Gives K tokens fails old (integerLiteral token) (Grounded tokens) := by
  unfold integerLiteral
  split
  · exact .pure fun _ _ => GroundedNode.valid (.token htoken) rfl
  · exact (remark_gives (.token htoken)).known fun _ _ =>
      .pure fun _ _ => GroundedNode.valid (.token htoken) rfl

theorem primary_gives (hi : inner.Gives K tokens) :
    Gives K tokens True old (primary inner) (Grounded tokens) := by
  refine peek_gives.known fun token htoken => ?_
  split
  · exact advance_gives.known fun _ _ => integerLiteral_gives htoken
  · exact advance_gives.known fun _ hkeyword => negated_gives hi hkeyword
  · refine advance_gives.known fun _ _ => (hi.expression _).bind fun content => ?_
    refine (expect_gives rfl).known fun close hclose => .pure fun _ h => ?_
    exact ⟨.valid (.cover (.token htoken) (.token hclose)) rfl, h.1⟩
  · exact newObject_gives hi
  · refine advance_gives.known fun _ _ => check_gives.known fun _ _ => ?_
    split
    · exact (arguments_gives hi).bind fun found => routineCall_gives htoken fun _ h => h.1
    · exact variableReference_gives htoken
  · exact advance_gives.known fun _ _ => abandon_gives (.token htoken) rfl
  · split
    · exact advance_gives.known fun _ _ => .pure fun _ _ => GroundedNode.valid (.token htoken) rfl
    · exact expectedValue_gives

theorem checkIndexable_gives (hbase : ∀ flawed, old flawed → Grounded tokens flawed base) :
    Gives K tokens fails old (checkIndexable base) Whatever := by
  unfold checkIndexable
  split
  · refine .given (fun flawed h => (hbase flawed h).span) fun hspan => ?_
    refine looks_gives.known fun _ _ => ?_
    split
    · exact .done
    · exact remark_gives hspan
  · exact .done

theorem grounded_indexed {flawed : Prop} {indices : List Expr} (hbase : Grounded tokens flawed base)
    (hindices : ∀ e ∈ indices, Grounded tokens flawed e) (hspan : Place tokens span) :
    Grounded tokens flawed (indexed base indices span) := by
  unfold indexed
  split
  · obtain ⟨-, hinside, hearlier⟩ := hbase
    refine ⟨.valid hspan rfl, hinside, Expr.eachIn_iff.mpr fun e he => ?_⟩
    rcases List.mem_append.mp he with he | he
    · exact Expr.eachIn_iff.mp hearlier e he
    · exact hindices e he
  · exact ⟨.valid hspan rfl, hbase, Expr.eachIn_iff.mpr hindices⟩

theorem suffix_gives (hi : inner.Gives K tokens)
    (hbase : ∀ flawed, old flawed → Grounded tokens flawed base) :
    Gives K tokens True old (suffix inner base)
      fun flawed next => next.elim True (Grounded tokens flawed) := by
  refine accept_gives.known fun _ _ => ?_
  split
  · refine (commaSeparated_gives (hi.expression _)).bind fun indices => ?_
    refine (expect_gives rfl).known fun close hclose => ?_
    refine (checkIndexable_gives fun flawed h => hbase flawed h.2).known fun _ _ => .pure ?_
    intro flawed h
    have hgrounded := hbase flawed h.2
    exact grounded_indexed hgrounded h.1 (.cover hgrounded.span (.token hclose))
  · refine accept_gives.known fun _ _ => ?_
    split
    · refine (expect_gives rfl).known fun name hname => check_gives.known fun _ _ => ?_
      split
      · refine (arguments_gives hi).bind fun found => ?_
        refine .given (P := Place tokens (base.span.cover found.2)) ?_ fun hspan => ?_
        · exact fun flawed h => .cover (hbase flawed h.2).span h.1.2
        refine looks_gives.known fun _ _ => ?_
        have hcall : ∀ flawed, GroundedArguments tokens flawed found ∧ old flawed →
            Grounded tokens flawed (.methodCall base name.lexeme found.1 (base.span.cover found.2)) :=
          fun flawed h => ⟨.valid hspan rfl, hbase flawed h.2, Expr.eachIn_iff.mpr h.1.1⟩
        split
        · exact (deferCall_gives hspan fun _ h => h.1.1).known fun _ _ => .pure hcall
        · exact .pure hcall
      · refine .pure fun flawed h => ?_
        have hgrounded := hbase flawed h
        exact ⟨.valid (.cover hgrounded.span (.token hname)) rfl, hgrounded⟩
    · exact .pure fun _ _ => trivial

theorem suffixed_gives (hi : inner.Gives K tokens) :
    Gives K tokens True old (suffixed inner) (Grounded tokens) :=
  (primary_gives hi).bind fun _ => .iterate (fun _ h => h.1) fun _ => suffix_gives hi fun _ h => h.1

theorem power_gives (hi : inner.Gives K tokens) :
    Gives K tokens True old (power inner) (Grounded tokens) := by
  refine (suffixed_gives hi).bind fun base => accept_gives.known fun _ _ => ?_
  split
  · refine (hi.unary _).bind fun exponent => .pure ?_
    rintro flawed ⟨hexponent, hbase, -⟩
    exact ⟨.valid (.cover hbase.span hexponent.span) rfl, hbase, hexponent⟩
  · exact .pure fun _ h => h.1

theorem unary_gives (hi : inner.Gives K tokens) :
    Gives K tokens True old (unary inner) (Grounded tokens) := by
  refine acceptAny?_gives.known fun sign hsign => ?_
  split
  · exact (hi.unary _).bind fun _ => .pure fun _ h =>
      ⟨.valid (.cover (.token (hsign _ rfl)) h.1.span) rfl, h.1⟩
  · exact power_gives hi

/-! ### Operators -/

/-- Joining two expressions adds no flaw of its own. -/
def JoinsGrounded (tokens : Array Token) (join : Expr → Expr → Span → Expr) : Prop :=
  ∀ {flawed left right span}, Grounded tokens flawed left → Grounded tokens flawed right →
    Place tokens span → Grounded tokens flawed (join left right span)

/-- A step that takes an operator, if there is one. -/
def GivesOperator (K : Course) (tokens : Array Token)
    (operator? : Read (Option (Expr → Expr → Span → Expr))) : Prop :=
  ∀ {old}, Gives K tokens True old operator? fun _ found => ∀ join ∈ found, JoinsGrounded tokens join

theorem leftGrouped_gives {operand : Read Expr}
    {operator? : Read (Option (Expr → Expr → Span → Expr))}
    (h : ∀ {old}, Gives K tokens True old operand (Grounded tokens))
    (ho : GivesOperator K tokens operator?) :
    Gives K tokens True old (leftGrouped operand operator?) (Grounded tokens) := by
  refine h.bind fun first => .iterate (fun _ h => h.1) fun left => ?_
  refine Accounts.known ho fun found hfound => ?_
  split
  · refine h.bind fun right => .pure ?_
    rintro flawed ⟨hright, hleft, -⟩
    exact hfound _ rfl hleft hright (.cover hleft.span hright.span)
  · exact .pure fun _ _ => trivial

theorem joinsGrounded_binary (op : BinaryOp) : JoinsGrounded tokens (Expr.binary op) :=
  fun hleft hright hspan => ⟨.valid hspan rfl, hleft, hright⟩

theorem joinsGrounded_logical (op : LogicalOp) : JoinsGrounded tokens (Expr.logical op) :=
  fun hleft hright hspan => ⟨.valid hspan rfl, hleft, hright⟩

theorem operatorIn?_gives (table : List (TokenKind × BinaryOp)) :
    GivesOperator K tokens (operatorIn? table) := by
  refine .single fun _ r _ _ _ => ?_
  unfold Yields operatorIn?
  cases table.lookup r.peek.kind with
  | some op =>
    refine ⟨K.plain r.plain_step, fun _ _ join hjoin => ?_⟩
    obtain rfl : Expr.binary op = join := by simpa using hjoin
    exact joinsGrounded_binary op
  | none => exact ⟨K.refl r, fun _ _ => by simp⟩

theorem logicalOperator?_gives (word : TokenKind) (op : LogicalOp) :
    GivesOperator K tokens (logicalOperator? word op) := by
  refine accept_gives.known fun _ _ => ?_
  split
  · refine .pure fun _ _ join hjoin => ?_
    obtain rfl : Expr.logical op = join := by simpa using hjoin
    exact joinsGrounded_logical op
  · exact .pure fun _ _ => by simp

theorem comparisonOperator?_gives : GivesOperator K tokens comparisonOperator? := by
  refine get_gives.known fun r htokens => ?_
  split
  · refine (remark_gives (htokens ▸ .token r.peek_mem)).known fun _ _ => ?_
    refine advance_gives.known fun _ _ => .pure fun _ _ join hjoin => ?_
    obtain rfl : Expr.binary .equal = join := by simpa using hjoin
    exact joinsGrounded_binary .equal
  · exact operatorIn?_gives comparisonOps

theorem multiplicative_gives (hi : inner.Gives K tokens) :
    Gives K tokens True old (multiplicative inner) (Grounded tokens) :=
  leftGrouped_gives (unary_gives hi) (operatorIn?_gives _)

theorem additive_gives (hi : inner.Gives K tokens) :
    Gives K tokens True old (additive inner) (Grounded tokens) :=
  leftGrouped_gives (multiplicative_gives hi) (operatorIn?_gives _)

theorem comparison_gives (hi : inner.Gives K tokens) :
    Gives K tokens True old (comparison inner) (Grounded tokens) :=
  leftGrouped_gives (additive_gives hi) comparisonOperator?_gives

theorem negation_gives (hi : inner.Gives K tokens) :
    Gives K tokens True old (negation inner) (Grounded tokens) := by
  refine acceptAny?_gives.known fun keyword hkeyword => ?_
  split
  · exact negated_gives hi (hkeyword _ rfl)
  · exact comparison_gives hi

theorem conjunction_gives (hi : inner.Gives K tokens) :
    Gives K tokens True old (conjunction inner) (Grounded tokens) :=
  leftGrouped_gives (negation_gives hi) (logicalOperator?_gives _ _)

theorem disjunction_gives (hi : inner.Gives K tokens) :
    Gives K tokens True old (disjunction inner) (Grounded tokens) :=
  leftGrouped_gives (conjunction_gives hi) (logicalOperator?_gives _ _)

/-- Expressions of every depth. -/
theorem Inner.gives_level (K : Course) (tokens : Array Token) (n : Nat) :
    (Inner.level n).Gives K tokens := by
  induction n with
  | zero => exact ⟨fun _ => expectedValue_gives, fun _ => expectedValue_gives,
      fun _ => expectedValue_gives⟩
  | succ n ih => exact ⟨fun _ => disjunction_gives ih, fun _ => negation_gives ih,
      fun _ => unary_gives ih⟩

theorem expression_gives : Gives K tokens True old expression (Grounded tokens) :=
  .choose (fun r => disjunction (Inner.level r.remaining)) (fun _ => rfl) fun r =>
    disjunction_gives (Inner.gives_level K tokens r.remaining)

theorem target_gives : Gives K tokens True old target (Grounded tokens) :=
  .choose (fun r => suffixed (Inner.level r.remaining)) (fun _ => rfl) fun r =>
    suffixed_gives (Inner.gives_level K tokens r.remaining)

end Primer.Grammar
