/-
Expressions say only what is in order where they stand.

A name in an expression is bound by a lookup, a call is left to be checked, and every other part of
an expression is put together from parts that were read before.
-/
import Primer.Proofs.Grammar.Reads

namespace Primer.Grammar

variable {home : Home} {fails : Prop} {old : List Note} {inner : Inner} {args : List Expr}
  {span : Span} {name : String} {base : Expr}

/-- The expressions inside an expression are in order. -/
structure Inner.Sound (home : Home) (inner : Inner) : Prop where
  expression : ∀ old, Reads home True old inner.expression Expr.notes
  negation : ∀ old, Reads home True old inner.negation Expr.notes
  unary : ∀ old, Reads home True old inner.unary Expr.notes

/-- **A name is bound to a variable that can be seen.** -/
theorem variableReference_reads {name : Token} :
    Reads home fails old (variableReference name) Expr.notes := by
  rintro known r ⟨homes, hknown, hr⟩ hold
  refine Yields.get_bind ?_
  split
  · rename_i id hfound
    refine ⟨Reader.Leads.refl r, ⟨homes, hknown, hr⟩, fun v hv => ?_⟩
    obtain rfl : v = .mention id := by simpa [Expr.notes] using hv
    exact Or.inl (hr.layout.table.seen_of_lookup? hr.layout.here hfound)
  · refine (report_reads.bind fun _ => .pure ?_) known r ⟨homes, hknown, hr⟩ hold
    simp [Expr.notes]

theorem expectedValue_reads : Reads home True old expectedValue Expr.notes :=
  get_reads.bind fun _ => abandon_reads

theorem Reader.quiet_deferCall (r : Reader) (call : PendingCall) :
    r.Quiet { r with pendingCalls := r.pendingCalls.push call } :=
  ⟨⟨⟨rfl, rfl, rfl, rfl⟩, rfl, fun _ hp => hp, fun _ hc => Array.mem_push_of_mem _ hc⟩,
    rfl, rfl, rfl⟩

theorem deferCall_reads {target : CallTarget} :
    Reads home fails old (deferCall name target args span) (fun _ => []) :=
  modify_reads fun r => r.quiet_deferCall _

theorem deferConstructor_reads :
    Reads home fails old (deferCall name .constructor args span)
      (fun _ => [.made name args span]) := by
  rintro known r ⟨homes, hknown, hr⟩ _
  have hq := r.quiet_deferCall ⟨name, .constructor, argumentPlaces args, span⟩
  refine ⟨hq.leads, ⟨homes, hknown, hr.quiet hq⟩, fun n hn => ?_⟩
  obtain rfl := List.mem_singleton.mp hn
  exact Or.inl Array.mem_push_self

theorem deferType_reads :
    Reads home fails old (deferType name span) (fun _ => []) :=
  modify_reads fun _ => ⟨⟨⟨rfl, rfl, rfl, rfl⟩, rfl, fun _ hp => hp, fun _ hc => hc⟩, rfl, rfl, rfl⟩

/-- **A call is left to be checked as one from the class it is written in.** -/
theorem routineCall_reads {name : Token} {stop : Span} (h : ∀ v ∈ Expr.notesAll args, v ∈ old) :
    Reads home fails old (routineCall name args stop) Expr.notes := by
  rintro known r ⟨homes, hknown, hr⟩ hold
  have hq := r.quiet_deferCall
    ⟨name.lexeme, .routine r.layout.currentClass, argumentPlaces args, name.span.cover stop⟩
  refine ⟨hq.leads, ⟨homes, hknown, hr.quiet hq⟩, fun n hn => ?_⟩
  rcases List.mem_cons.mp hn with rfl | hn
  · refine Or.inl ?_
    rw [Reader.Allows, hr.layout.fields]
    exact Array.mem_push_self
  · exact (hold n (h n hn)).leads hq.leads

theorem arguments_reads (hi : inner.Sound home) :
    Reads home True old (arguments inner) (fun found => Expr.notesAll found.1) := by
  refine expect_reads.bind fun _ => check_reads.bind fun empty => ?_
  extract_lets finish
  have hfinish : ∀ args old, (∀ v ∈ Expr.notesAll args, v ∈ old) →
      Reads home True old (finish args) (fun found => Expr.notesAll found.1) :=
    fun args old hargs => expect_reads.bind fun _ => .pure hargs
  split
  · exact hfinish [] _ (by simp [Expr.notesAll])
  · exact (commaSeparated_reads (hi.expression _)).bind fun args => hfinish args _ (by grind)

theorem newObject_reads (hi : inner.Sound home) :
    Reads home True old (newObject inner) Expr.notes := by
  refine advance_reads.bind fun _ => expect_reads.bind fun _ => deferType_reads.bind fun _ => ?_
  refine check_reads.bind fun _ => ?_
  extract_lets finish
  have hfinish : ∀ found old, (∀ v ∈ Expr.notesAll found.1, v ∈ old) →
      Reads home True old (finish found) Expr.notes :=
    fun found old hargs => deferConstructor_reads.bind fun _ => .pure (by
      simpa [Expr.notes] using fun v hv => Or.inr (hargs v hv))
  split
  · exact (arguments_reads hi).bind fun found => hfinish found _ (by simp +contextual)
  · exact report_reads.bind fun _ => hfinish ([], _) _ (by simp [Expr.notesAll])

theorem negated_reads (hi : inner.Sound home) {keyword : Token} :
    Reads home True old (negated inner keyword) Expr.notes :=
  (hi.negation _).bind fun _ => .pure (by simp +contextual [Expr.notes])

theorem integerLiteral_reads {token : Token} :
    Reads home fails old (integerLiteral token) Expr.notes := by
  unfold integerLiteral
  split
  · exact .pure (by simp [Expr.notes])
  · exact report_reads.bind fun _ => .pure (by simp [Expr.notes])

theorem primary_reads (hi : inner.Sound home) :
    Reads home True old (primary inner) Expr.notes := by
  refine peek_reads.bind fun token => ?_
  split
  · exact advance_reads.bind fun _ => integerLiteral_reads
  · exact advance_reads.bind fun _ => negated_reads hi
  · refine advance_reads.bind fun _ => (hi.expression _).bind fun content => ?_
    exact expect_reads.bind fun _ => .pure (by simp +contextual [Expr.notes])
  · exact newObject_reads hi
  · refine advance_reads.bind fun _ => check_reads.bind fun _ => ?_
    split
    · exact (arguments_reads hi).bind fun _ => routineCall_reads (by simp +contextual)
    · exact variableReference_reads
  · exact advance_reads.bind fun _ => abandon_reads
  · split
    · exact advance_reads.bind fun _ => .pure (by simp [Expr.notes])
    · exact expectedValue_reads

theorem checkIndexable_reads :
    Reads home fails old (checkIndexable base) (fun _ => []) := by
  unfold checkIndexable
  split
  · refine look_reads.bind fun _ => ?_
    split
    · exact .pure (by simp)
    · exact report_reads
  · exact .pure (by simp)

theorem notes_indexed {indices : List Expr} {v : Note} :
    v ∈ (indexed base indices span).notes ↔
      v ∈ base.notes ∨ v ∈ Expr.notesAll indices := by
  unfold indexed
  split
  · simp [Expr.notes, Expr.mem_notesAll, or_and_right, exists_or, or_assoc]
  · simp [Expr.notes]

theorem suffix_reads (hi : inner.Sound home) (hbase : ∀ v ∈ base.notes, v ∈ old) :
    Reads home True old (suffix inner base) (·.elim [] Expr.notes) := by
  refine accept_reads.bind fun _ => ?_
  split
  · refine (commaSeparated_reads (hi.expression _)).bind fun indices => ?_
    refine expect_reads.bind fun _ => checkIndexable_reads.bind fun _ => .pure ?_
    intro v hv
    simp only [Option.elim_some, notes_indexed, Expr.mem_notesAll] at hv
    grind
  · refine accept_reads.bind fun _ => ?_
    split
    · refine expect_reads.bind fun _ => check_reads.bind fun _ => ?_
      split
      · refine (arguments_reads hi).bind fun found => look_reads.bind fun receiver => ?_
        split
        · exact deferCall_reads.bind fun _ => .pure (by grind [Expr.notes])
        · exact .pure (by grind [Expr.notes])
      · exact .pure (by grind [Expr.notes])
    · exact .pure (by simp)

theorem suffixed_reads (hi : inner.Sound home) :
    Reads home True old (suffixed inner) Expr.notes :=
  (primary_reads hi).bind fun _ => .iterate (by simp +contextual) fun _ =>
    suffix_reads hi (by simp +contextual)

theorem power_reads (hi : inner.Sound home) :
    Reads home True old (power inner) Expr.notes := by
  refine (suffixed_reads hi).bind fun base => accept_reads.bind fun _ => ?_
  split
  · exact (hi.unary _).bind fun exponent => .pure (by grind [Expr.notes])
  · exact .pure (by simp +contextual)

theorem unary_reads (hi : inner.Sound home) :
    Reads home True old (unary inner) Expr.notes := by
  refine acceptAny?_reads.bind fun sign => ?_
  split
  · exact (hi.unary _).bind fun _ => .pure (by simp +contextual [Expr.notes])
  · exact power_reads hi

/-! ### Operators -/

/-- Joining two expressions adds nothing to what they say. -/
def Joins (join : Expr → Expr → Span → Expr) : Prop :=
  ∀ left right span, (join left right span).notes = left.notes ++ right.notes

/-- A step that takes an operator, if there is one. -/
def TakesOperator (operator? : Read (Option (Expr → Expr → Span → Expr))) : Prop :=
  ∀ r, Yields operator? r (fun found r' => r.Quiet r' ∧ ∀ join ∈ found, Joins join) (fun _ => False)

theorem leftGrouped_reads {operand : Read Expr}
    {operator? : Read (Option (Expr → Expr → Span → Expr))}
    (h : ∀ {old}, Reads home True old operand Expr.notes) (ho : TakesOperator operator?) :
    Reads home True old (leftGrouped operand operator?) Expr.notes := by
  refine h.bind fun first => .iterate (by simp +contextual) fun left => ?_
  refine .quietly ho fun found hfound => ?_
  split
  · rename_i join
    refine h.bind fun right => .pure ?_
    have hjoin := hfound join rfl left right
    grind
  · exact .pure (by simp)

theorem joins_binary (op : BinaryOp) : ∀ join ∈ some (Expr.binary op), Joins join := by
  rintro join ⟨⟩ left right span
  simp [Expr.notes]

theorem joins_logical (op : LogicalOp) : ∀ join ∈ some (Expr.logical op), Joins join := by
  rintro join ⟨⟩ left right span
  simp [Expr.notes]

theorem operatorIn?_takes (table : List (TokenKind × BinaryOp)) :
    TakesOperator (operatorIn? table) := by
  intro r
  unfold Yields operatorIn?
  cases table.lookup r.peek.kind with
  | some op => exact ⟨r.quiet_step, joins_binary op⟩
  | none => exact ⟨.refl r, by simp⟩

theorem logicalOperator?_takes (word : TokenKind) (op : LogicalOp) :
    TakesOperator (logicalOperator? word op) := by
  intro r
  refine Yields.bind ?_
  unfold Yields accept
  cases r.check word with
  | true => exact ⟨r.quiet_step, joins_logical op⟩
  | false => exact ⟨.refl r, by simp⟩

theorem comparisonOperator?_takes : TakesOperator comparisonOperator? := by
  intro r
  refine Yields.get_bind ?_
  split
  · exact ⟨(Reader.quiet_report _ _).trans (Reader.quiet_step _), joins_binary .equal⟩
  · exact operatorIn?_takes comparisonOps r

theorem multiplicative_reads (hi : inner.Sound home) :
    Reads home True old (multiplicative inner) Expr.notes :=
  leftGrouped_reads (unary_reads hi) (operatorIn?_takes _)

theorem additive_reads (hi : inner.Sound home) :
    Reads home True old (additive inner) Expr.notes :=
  leftGrouped_reads (multiplicative_reads hi) (operatorIn?_takes _)

theorem comparison_reads (hi : inner.Sound home) :
    Reads home True old (comparison inner) Expr.notes :=
  leftGrouped_reads (additive_reads hi) comparisonOperator?_takes

theorem negation_reads (hi : inner.Sound home) :
    Reads home True old (negation inner) Expr.notes := by
  refine acceptAny?_reads.bind fun keyword => ?_
  split
  · exact negated_reads hi
  · exact comparison_reads hi

theorem conjunction_reads (hi : inner.Sound home) :
    Reads home True old (conjunction inner) Expr.notes :=
  leftGrouped_reads (negation_reads hi) (logicalOperator?_takes _ _)

theorem disjunction_reads (hi : inner.Sound home) :
    Reads home True old (disjunction inner) Expr.notes :=
  leftGrouped_reads (conjunction_reads hi) (logicalOperator?_takes _ _)

/-- Expressions of every depth. -/
theorem Inner.sound_level (home : Home) (n : Nat) : (Inner.level n).Sound home := by
  induction n with
  | zero => exact ⟨fun _ => expectedValue_reads, fun _ => expectedValue_reads,
      fun _ => expectedValue_reads⟩
  | succ n ih => exact ⟨fun _ => disjunction_reads ih, fun _ => negation_reads ih,
      fun _ => unary_reads ih⟩

theorem expression_reads : Reads home True old expression Expr.notes :=
  .choose (fun r => disjunction (Inner.level r.remaining)) (fun _ => rfl) fun r =>
    disjunction_reads (Inner.sound_level home r.remaining)

theorem target_reads : Reads home True old target Expr.notes :=
  .choose (fun r => suffixed (Inner.level r.remaining)) (fun _ => rfl) fun r =>
    suffixed_reads (Inner.sound_level home r.remaining)

end Primer.Grammar
