/-
Rules for what a step of reading accounts for.

`Accounts K tokens fails old x y Q` says of a step `y`: it keeps to the course `K`, it gives its
part up only if `fails` and after reporting an error, and `Q` holds of what it gives.  `Q` may depend
on whether there is a flaw, and a flaw may be counted on once an error has been reported;
`old` is what is known in that sense of the parts read before.  Beside it runs a second step `x` that
may give up where `y` goes on: it does the same as `y`, unless `y` has reported an error.

There is one rule for each way in which the grammar puts steps together, so that the proof for a
construct follows its definition.
-/
import Primer.Proofs.Account.Record
import Primer.Proofs.Grammar.Reads

namespace Primer.Grammar

/-- What holds if a flaw may be counted on as soon as more than `count` errors were reported. -/
def Reader.Sure (r : Reader) (count : Nat) (p : Prop → Prop) : Prop :=
  ∀ flawed : Prop, (count < r.errors → flawed) → p flawed

namespace Reader.Sure

variable {r r' : Reader} {count : Nat} {p q : Prop → Prop}

theorem later (h : r.Sure count p) (herrors : r.errors ≤ r'.errors) : r'.Sure count p :=
  fun flawed hflawed => h flawed fun hlt => hflawed (Nat.lt_of_lt_of_le hlt herrors)

theorem imp (h : r.Sure count p) (hpq : ∀ flawed, p flawed → q flawed) : r.Sure count q :=
  fun flawed hflawed => hpq flawed (h flawed hflawed)

/-- A flaw is an error. -/
theorem flaw (h : r.Sure count fun flawed => flawed) : count < r.errors := h _ id

end Reader.Sure

/-- A step that accounts for what it gives, and one beside it that does the same unless an error is
reported. -/
def Accounts (K : Course) (tokens : Array Token) (fails : Prop) (old : Prop → Prop) (x y : Read α)
    (Q : Prop → α → Prop) : Prop :=
  ∀ count r, r.tokens = tokens → count ≤ r.errors → r.Sure count old →
    Yields y r
      (fun a r' => (x r = .ok a r' ∨ count < r'.errors) ∧ K.leads count r r' ∧ r'.Sure count (Q · a))
      (fun r' => K.leads count r r' ∧ fails ∧ count < r'.errors)

/-- The same of a single step. -/
abbrev Gives (K : Course) (tokens : Array Token) (fails : Prop) (old : Prop → Prop) (x : Read α)
    (Q : Prop → α → Prop) : Prop :=
  Accounts K tokens fails old x x Q

/-- Nothing is known. -/
abbrev Nothing : Prop → Prop := fun _ => True

/-- Nothing is known of a result. -/
abbrev Whatever : Prop → α → Prop := fun _ _ => True

theorem Yields.with_result {x : Read α} {r : Reader} {Q : α → Reader → Prop} {E : Reader → Prop}
    (h : Yields x r Q E) : Yields x r (fun a r' => x r = .ok a r' ∧ Q a r') E := by
  unfold Yields at h ⊢
  cases hx : x r with
  | ok a r' => rw [hx] at h; exact ⟨rfl, h⟩
  | error _ r' => rw [hx] at h; exact h

namespace Accounts

variable {α β : Type} {K : Course} {tokens : Array Token} {fails : Prop} {old old' : Prop → Prop}
  {x y : Read α} {Q Q' : Prop → α → Prop}

/-- A step that is its own companion. -/
theorem single
    (h : ∀ count r, r.tokens = tokens → count ≤ r.errors → r.Sure count old →
      Yields x r (fun a r' => K.leads count r r' ∧ r'.Sure count (Q · a))
        (fun r' => K.leads count r r' ∧ fails ∧ count < r'.errors)) :
    Gives K tokens fails old x Q := by
  intro count r htokens hcount hold
  refine (h count r htokens hcount hold).with_result.mono ?_ (fun _ he => he)
  rintro a r' ⟨hx, hleads, hgood⟩
  exact ⟨Or.inl hx, hleads, hgood⟩

theorem pure {a : α} (h : ∀ flawed, old flawed → Q flawed a) :
    Gives K tokens fails old (Pure.pure a) Q :=
  single fun _ r _ _ hold => ⟨K.refl r, hold.imp h⟩

/-- Nothing is left to do. -/
theorem done {a : α} : Gives K tokens fails old (Pure.pure a) Whatever := pure fun _ _ => trivial

/-- A part is given up because of a flaw that was met before. -/
theorem throw {e : Abandoned} (h : ∀ flawed, old flawed → flawed) :
    Gives K tokens True old (MonadExcept.throw e : Read α) Q :=
  single fun _ r _ _ hold => ⟨K.refl r, trivial, (hold.imp h).flaw⟩

theorem bind {f g : α → Read β} {R : Prop → β → Prop} (hx : Accounts K tokens fails old x y Q)
    (hf : ∀ a, Accounts K tokens fails (fun flawed => Q flawed a ∧ old flawed) (f a) (g a) R) :
    Accounts K tokens fails old (x >>= f) (y >>= g) R := by
  intro count r htokens hcount hold
  refine Yields.bind ((hx count r htokens hcount hold).mono ?_ (fun _ he => he))
  rintro a r' ⟨hsame, hleads, hgood⟩
  have htraced := K.traced hleads
  have hknown : r'.Sure count fun flawed => Q flawed a ∧ old flawed :=
    fun flawed hflawed => ⟨hgood flawed hflawed, hold.later htraced.errors flawed hflawed⟩
  refine (hf a count r' (htraced.tokens.trans htokens) (Nat.le_trans hcount htraced.errors)
    hknown).mono ?_ ?_
  · rintro b r'' ⟨hsame', hleads', hnext⟩
    refine ⟨?_, K.trans hleads hleads', hnext⟩
    rcases hsame with hsame | hlt
    · rcases hsame' with hsame' | hlt
      · refine Or.inl ?_
        simp only [Bind.bind, EStateM.bind, hsame]
        exact hsame'
      · exact Or.inr hlt
    · exact Or.inr (Nat.lt_of_lt_of_le hlt (K.traced hleads').errors)
  · rintro r'' ⟨hleads', hfails⟩
    exact ⟨K.trans hleads hleads', hfails⟩

/-- The same step after more is known. -/
theorem after (h : Accounts K tokens fails old x y Q)
    (hold : ∀ flawed, old' flawed → old flawed) : Accounts K tokens fails old' x y Q :=
  fun count r htokens hcount hknown => h count r htokens hcount (hknown.imp hold)

/-- The same step, of whose result less is asked. -/
theorem result (h : Accounts K tokens fails old x y Q)
    (hgood : ∀ flawed a, Q flawed a → Q' flawed a) :
    Accounts K tokens fails old x y Q' := by
  intro count r htokens hcount hold
  refine (h count r htokens hcount hold).mono ?_ (fun _ he => he)
  rintro a r' ⟨hsame, hleads, ha⟩
  exact ⟨hsame, hleads, ha.imp fun flawed => hgood flawed a⟩

/-- What was known before is known still. -/
theorem keeping (h : Accounts K tokens fails old x y Q) :
    Accounts K tokens fails old x y fun flawed a => Q flawed a ∧ old flawed := by
  intro count r htokens hcount hold
  refine (h count r htokens hcount hold).mono ?_ (fun _ he => he)
  rintro a r' ⟨hsame, hleads, ha⟩
  exact ⟨hsame, hleads, fun flawed hflawed =>
    ⟨ha flawed hflawed, hold.later (K.traced hleads).errors flawed hflawed⟩⟩

/-- A turn of a loop, of which less is asked in view of what is known. -/
theorem turn {x y : Read (Option α)}
    (h : Accounts K tokens fails old x y fun flawed next => next.elim True (Q flawed))
    (hQ : ∀ flawed a, old flawed → Q flawed a → Q' flawed a) :
    Accounts K tokens fails old x y fun flawed next => next.elim True (Q' flawed) := by
  refine h.keeping.result fun flawed next hnext => ?_
  cases next with
  | none => trivial
  | some a => exact hQ flawed a hnext.2 hnext.1

/-- What is known whether there is a flaw or not. -/
theorem given {P : Prop} (hP : ∀ flawed, old flawed → P)
    (h : P → Accounts K tokens fails old x y Q) : Accounts K tokens fails old x y Q :=
  fun count r htokens hcount hold =>
    h (hP True (hold True fun _ => trivial)) count r htokens hcount hold

/-- What is known of the result of the first step does not depend on a flaw. -/
theorem known {P : α → Prop} {f g : α → Read β} {R : Prop → β → Prop}
    (hx : Accounts K tokens fails old x y fun _ => P)
    (hf : ∀ a, P a → Accounts K tokens fails old (f a) (g a) R) :
    Accounts K tokens fails old (x >>= f) (y >>= g) R := by
  refine hx.bind fun a count r htokens hcount hold => ?_
  exact hf a (hold True fun _ => trivial).1 count r htokens hcount (hold.imp fun _ h => h.2)

theorem map {f : α → β} {R : Prop → β → Prop} (h : Accounts K tokens fails old x y Q)
    (hf : ∀ flawed a, Q flawed a → R flawed (f a)) :
    Accounts K tokens fails old (f <$> x) (f <$> y) R :=
  h.bind (f := fun a => Pure.pure (f a)) (g := fun a => Pure.pure (f a)) fun a =>
    pure fun flawed hold => hf flawed a hold.1

/-- A part that may be given up, by a step whose companion goes on with the part. -/
theorem optional {z : Read (Option α)} (hz : ∀ {r a r'}, x r = .ok a r' → z r = .ok (some a) r')
    (h : Accounts K tokens True old x y Q) :
    Accounts K tokens fails old z (Grammar.attempt y)
      fun flawed found => found.elim flawed (Q flawed) := by
  intro count r htokens hcount hold
  have hy := h count r htokens hcount hold
  unfold Yields at hy ⊢
  unfold Grammar.attempt
  cases hres : y r with
  | ok a r' =>
    rw [hres] at hy
    obtain ⟨hsame, hrest⟩ := hy
    exact ⟨hsame.imp_left hz, hrest⟩
  | error _ r' =>
    rw [hres] at hy
    exact ⟨Or.inr hy.2.2, hy.1, fun flawed hflawed => hflawed hy.2.2⟩

/-- A part that may be given up; then there is a flaw. -/
theorem attempt (h : Accounts K tokens True old x y Q) :
    Accounts K tokens fails old (Grammar.attempt x) (Grammar.attempt y)
      fun flawed found => found.elim flawed (Q flawed) :=
  h.optional fun hx => by rw [Grammar.attempt, hx]

/-- A loop keeps what each of its turns keeps. -/
theorem iterate {turn turn' : α → Read (Option α)} {start : α}
    (hstart : ∀ flawed, old flawed → Q flawed start)
    (h : ∀ a, Accounts K tokens fails (fun flawed => Q flawed a ∧ old flawed) (turn a) (turn' a)
      fun flawed next => next.elim True (Q flawed)) :
    Accounts K tokens fails old (Grammar.iterate turn start) (Grammar.iterate turn' start) Q := by
  have hturns : ∀ turns a, Accounts K tokens fails (fun flawed => Q flawed a ∧ old flawed)
      (iterateFor turn turns a) (iterateFor turn' turns a) Q := by
    intro turns
    induction turns with
    | zero => exact fun a => pure fun _ hold => hold.1
    | succ turns ih =>
      intro a
      refine (h a).bind fun next => ?_
      cases next with
      | none => exact pure fun _ hold => hold.2.1
      | some b => exact (ih b).after fun _ hold => ⟨hold.1, hold.2.2⟩
  intro count r htokens hcount hold
  exact hturns r.remaining start count r htokens hcount (hold.imp fun flawed h => ⟨hstart flawed h, h⟩)

/-- A step that depends on the reader it starts from. -/
theorem choose (step step' : Reader → Read α) (hx : ∀ r, x r = step r r) (hy : ∀ r, y r = step' r r)
    (h : ∀ r, r.tokens = tokens → Accounts K tokens fails old (step r) (step' r) Q) :
    Accounts K tokens fails old x y Q := by
  intro count r htokens hcount hold
  refine Yields.of_eq (hy r) ?_
  rw [hx r]
  exact h r htokens count r htokens hcount hold

/-- A step that looks at the reader it starts from, which its companion need not do. -/
theorem get_right {f : Reader → Read α}
    (h : ∀ r, r.tokens = tokens → Accounts K tokens fails old x (f r) Q) :
    Accounts K tokens fails old x (get >>= f) Q :=
  choose (fun _ => x) f (fun _ => rfl) (fun _ => rfl) h

theorem look_right {p : Reader → β} {f : β → Read α}
    (h : ∀ r, r.tokens = tokens → Accounts K tokens fails old x (f (p r)) Q) :
    Accounts K tokens fails old x (look p >>= f) Q :=
  choose (fun _ => x) (fun r => f (p r)) (fun _ => rfl) (fun _ => rfl) h

/-- After a flaw, the companion does not matter. -/
theorem apart (h : Gives K tokens fails old y fun flawed a => flawed ∧ Q flawed a) :
    Accounts K tokens fails old x y Q := by
  intro count r htokens hcount hold
  refine (h count r htokens hcount hold).mono ?_ (fun _ he => he)
  rintro a r' ⟨-, hleads, ha⟩
  exact ⟨Or.inr (ha.imp fun _ h => h.1).flaw, hleads, ha.imp fun _ h => h.2⟩

/-- A companion that gives up where the step itself goes on without its part. -/
theorem insist (h : Accounts K tokens True old x y Q) :
    Accounts K tokens fails old (some <$> x) (Grammar.attempt y)
      fun flawed found => found.elim flawed (Q flawed) :=
  h.optional fun hx => by simp only [Functor.map, EStateM.map, hx]

/-- A step that goes on without a part that was given up, and its companion that does not. -/
theorem recover {found : Read (Option α)} {f : α → Read β} {g : Option α → Read β}
    {R : Prop → β → Prop}
    (hx : Accounts K tokens fails old (some <$> x) found
      fun flawed found => found.elim flawed (Q flawed))
    (hsome : ∀ a, Accounts K tokens fails (fun flawed => Q flawed a ∧ old flawed) (f a) (g (some a)) R)
    (hnone : Gives K tokens fails (fun flawed => flawed ∧ old flawed) (g none) R) :
    Accounts K tokens fails old (x >>= f) (found >>= g) R := by
  have hinsist : (x >>= f) = (some <$> x) >>= fun found => found.elim (g none) f := by
    rw [bind_map_left]
    rfl
  rw [hinsist]
  refine hx.bind fun found => ?_
  cases found with
  | none => exact hnone
  | some a => exact hsome a

/-- The same for a step that gives its part as it is. -/
theorem fallBack {found : Read (Option α)} {g : Option α → Read α}
    (hx : Accounts K tokens fails old (some <$> x) found
      fun flawed found => found.elim flawed (Q flawed))
    (hsome : ∀ a, g (some a) = Pure.pure a)
    (hnone : Gives K tokens fails (fun flawed => flawed ∧ old flawed) (g none) Q) :
    Accounts K tokens fails old x (found >>= g) Q := by
  rw [← bind_pure x]
  refine hx.recover (fun a => ?_) hnone
  rw [hsome a]
  exact pure fun _ h => h.1

/-- The step by itself. -/
theorem alone (h : Accounts K tokens fails old x y Q) : Gives K tokens fails old y Q :=
  single fun count r htokens hcount hold =>
    (h count r htokens hcount hold).mono (fun _ _ ha => ha.2) fun _ he => he

end Accounts

/-- A single step that depends on the reader it starts from. -/
theorem Gives.choose {K : Course} {tokens : Array Token} {fails : Prop} {old : Prop → Prop}
    {x : Read α} {Q : Prop → α → Prop} (step : Reader → Read α) (hx : ∀ r, x r = step r r)
    (h : ∀ r, Gives K tokens fails old (step r) Q) : Gives K tokens fails old x Q :=
  Accounts.choose step step hx hx fun r _ => h r

/-! ### Places -/

namespace Reader

variable {tokens : Array Token} {r : Reader}

theorem peek_mem (r : Reader) : r.peek ∈ r.tokens := Array.getElem_mem _

theorem peekAt_mem (r : Reader) (distance : Nat) : r.peekAt distance ∈ r.tokens := Array.getElem_mem _

theorem previous_mem (r : Reader) : r.previous ∈ r.tokens := Array.getElem_mem _

theorem place_missingSpan (r : Reader) : Place r.tokens r.missingSpan := by
  unfold missingSpan
  split
  · exact .token r.peek_mem
  · exact .after r.previous_mem

theorem place_errorSpan (r : Reader) : Place r.tokens r.errorSpan := by
  unfold errorSpan
  split
  · exact r.place_missingSpan
  · exact .token r.peek_mem

/-! ### Single steps -/

@[simp] theorem step_tokens (r : Reader) : r.step.tokens = r.tokens := by
  unfold step
  split <;> rfl

theorem plain_step (r : Reader) : r.Plain r.step := by
  unfold step
  split
  · exact .refl r
  · exact ⟨⟨⟨rfl, rfl, rfl⟩, rfl, rfl, rfl, rfl, rfl, rfl⟩, rfl, Nat.le_refl _,
      fun _ h => ⟨h.1, h.2, h.3, h.4, h.5, h.6⟩, rfl, rfl, rfl⟩

theorem errors_report (r : Reader) (problem : Problem) (span : Span) :
    errors { r with problems := r.problems.push (problem, span) }
      = r.errors + if problem.isError then 1 else 0 := by
  simp [errors, Array.countP_push]

theorem plain_report (r : Reader) (problem : Problem) {span : Span} (hspan : Place r.tokens span) :
    r.Plain { r with problems := r.problems.push (problem, span) } where
  tokens := rfl
  errors := by
    rw [errors_report]
    exact Nat.le_add_right _ _
  record := by
    intro flawed h
    refine ⟨fun found hfound => ?_, h.entries, h.routines, h.classes, h.pendingTypes, h.pendingCalls⟩
    rcases Array.mem_push.mp hfound with hfound | rfl
    · exact h.problems found hfound
    · exact hspan
  toStays := ⟨⟨rfl, rfl, rfl⟩, rfl, rfl, rfl, rfl, rfl, rfl⟩
  parents := rfl
  routines := rfl
  classes := rfl

theorem plain_deferType (r : Reader) (name : String) {span : Span} (hspan : Place r.tokens span) :
    r.Plain { r with pendingTypes := r.pendingTypes.push (name, span) } where
  tokens := rfl
  errors := Nat.le_refl _
  record := by
    intro flawed h
    refine ⟨h.problems, h.entries, h.routines, h.classes, fun pending hpending => ?_, h.pendingCalls⟩
    rcases Array.mem_push.mp hpending with hpending | rfl
    · exact h.pendingTypes pending hpending
    · exact hspan
  toStays := ⟨⟨rfl, rfl, rfl⟩, rfl, rfl, rfl, rfl, rfl, rfl⟩
  parents := rfl
  routines := rfl
  classes := rfl

theorem plain_deferCall (r : Reader) {call : PendingCall} (hspan : Place r.tokens call.span)
    (hargs : ∀ arg ∈ call.args, Place r.tokens arg.2) :
    r.Plain { r with pendingCalls := r.pendingCalls.push call } where
  tokens := rfl
  errors := Nat.le_refl _
  record := by
    intro flawed h
    refine ⟨h.problems, h.entries, h.routines, h.classes, h.pendingTypes, fun found hfound => ?_⟩
    rcases Array.mem_push.mp hfound with hfound | rfl
    · exact h.pendingCalls found hfound
    · exact ⟨hspan, hargs⟩
  toStays := ⟨⟨rfl, rfl, rfl⟩, rfl, rfl, rfl, rfl, rfl, rfl⟩
  parents := rfl
  routines := rfl
  classes := rfl

end Reader

section Tokens

variable {α : Type} {K : Course} {tokens : Array Token} {fails : Prop} {old : Prop → Prop}
  {problem : Problem} {kind : TokenKind} {span : Span}

theorem look_gives {f : Reader → α} {P : α → Prop} (h : ∀ r, r.tokens = tokens → P (f r)) :
    Gives K tokens fails old (look f) fun _ => P :=
  .single fun _ r htokens _ _ => ⟨K.refl r, fun _ _ => h r htokens⟩

/-- Nothing is asked of what is seen just now. -/
theorem looks_gives {f : Reader → α} : Gives K tokens fails old (look f) Whatever :=
  look_gives fun _ _ => trivial

theorem get_gives : Gives K tokens fails old (get : Read Reader) fun _ r => r.tokens = tokens :=
  .single fun _ r htokens _ _ => ⟨K.refl r, fun _ _ => htokens⟩

theorem peek_gives : Gives K tokens fails old peek fun _ t => t ∈ tokens :=
  look_gives fun r htokens => htokens ▸ r.peek_mem

theorem check_gives : Gives K tokens fails old (check kind) Whatever := looks_gives

theorem onLine_gives {line : Nat} : Gives K tokens fails old (onLine line) Whatever := looks_gives

theorem previous_gives : Gives K tokens fails old (look Reader.previous) fun _ t => t ∈ tokens :=
  look_gives fun r htokens => htokens ▸ r.previous_mem

theorem missingSpan_gives : Gives K tokens fails old (look Reader.missingSpan) fun _ => Place tokens :=
  look_gives fun r htokens => htokens ▸ r.place_missingSpan

theorem errorSpan_gives : Gives K tokens fails old (look Reader.errorSpan) fun _ => Place tokens :=
  look_gives fun r htokens => htokens ▸ r.place_errorSpan

theorem advance_gives : Gives K tokens fails old advance fun _ t => t ∈ tokens := by
  refine .single fun _ r htokens _ _ => ⟨K.plain r.plain_step, fun _ _ => ?_⟩
  rw [← htokens, ← r.step_tokens]
  exact r.step.previous_mem

theorem accept_gives : Gives K tokens fails old (accept kind) Whatever := by
  refine .single fun _ r _ _ _ => ?_
  unfold Yields accept
  by_cases hcheck : r.check kind
  · rw [if_pos hcheck]
    exact ⟨K.plain r.plain_step, fun _ _ => trivial⟩
  · rw [if_neg hcheck]
    exact ⟨K.refl r, fun _ _ => trivial⟩

theorem acceptAny?_gives {kinds : List TokenKind} :
    Gives K tokens fails old (acceptAny? kinds) fun _ found => ∀ t ∈ found, t ∈ tokens := by
  refine .single fun _ r htokens _ _ => ?_
  unfold Yields acceptAny?
  by_cases hcheck : r.checkAny kinds
  · rw [if_pos hcheck]
    refine ⟨K.plain r.plain_step, fun _ _ t ht => ?_⟩
    obtain rfl : r.peek = t := by simpa using ht
    exact htokens ▸ r.peek_mem
  · rw [if_neg hcheck]
    exact ⟨K.refl r, fun _ _ => by simp⟩

/-- A report of any problem. -/
theorem remark_gives (hspan : Place tokens span) :
    Gives K tokens fails old (report problem span) Whatever :=
  .single fun _ r htokens _ _ =>
    ⟨K.plain (r.plain_report problem (htokens ▸ hspan)), fun _ _ => trivial⟩

/-- Once an error is reported, there is a flaw. -/
theorem report_gives (hspan : Place tokens span) (herror : problem.isError = true) :
    Gives K tokens fails old (report problem span) fun flawed _ => flawed := by
  refine .single fun count r htokens hcount _ => ?_
  refine ⟨K.plain (r.plain_report problem (htokens ▸ hspan)), fun flawed hflawed => hflawed ?_⟩
  rw [Reader.errors_report, if_pos herror]
  exact Nat.lt_succ_of_le hcount

theorem abandon_gives {Q : Prop → α → Prop} (hspan : Place tokens span)
    (herror : problem.isError = true) :
    Gives K tokens True old (abandon problem span) Q :=
  (report_gives hspan herror).bind fun _ => .throw fun _ hold => hold.1

theorem reportMissing_gives (herror : problem.isError = true) :
    Gives K tokens fails old (reportMissing problem) fun flawed _ => flawed :=
  missingSpan_gives.known fun _ hspan => report_gives hspan herror

theorem expect_gives (herror : problem.isError = true) :
    Gives K tokens True old (expect kind problem) fun _ t => t ∈ tokens := by
  refine check_gives.known fun present _ => ?_
  split
  · exact advance_gives
  · exact errorSpan_gives.known fun _ hspan => abandon_gives hspan herror

theorem skipWhile_gives {more : Reader → Bool} : Gives K tokens fails old (skipWhile more) Whatever := by
  refine .iterate (fun _ _ => trivial) fun _ => ?_
  refine looks_gives.known fun again _ => ?_
  split
  · exact advance_gives.known fun _ _ => .pure fun _ _ => trivial
  · exact .pure fun _ _ => trivial

theorem skipLine_gives {line : Nat} : Gives K tokens fails old (skipLine line) Whatever :=
  skipWhile_gives

/-- What holds of its items holds of a list. -/
theorem commaSeparated_gives {item : Read α} {Q : Prop → α → Prop}
    (h : ∀ {old}, Gives K tokens fails old item Q) :
    Gives K tokens fails old (commaSeparated item) fun flawed items => ∀ a ∈ items, Q flawed a := by
  refine h.bind fun first => ?_
  refine .bind (.iterate (Q := fun flawed items => ∀ a ∈ items, Q flawed a) ?_ fun items => ?_)
    fun items => ?_
  · rintro flawed ⟨hfirst, -⟩ a ha
    obtain rfl := List.mem_singleton.mp ha
    exact hfirst
  · refine accept_gives.known fun more _ => ?_
    split
    · refine h.bind fun next => .pure ?_
      rintro flawed ⟨hnext, hitems, -⟩ a ha
      rcases List.mem_cons.mp ha with rfl | ha
      · exact hnext
      · exact hitems a ha
    · exact .pure fun _ _ => trivial
  · exact .pure fun flawed hold a ha => hold.1 a (List.mem_reverse.mp ha)

theorem endOfStatement_gives : Gives K tokens fails old endOfStatement Whatever := by
  refine get_gives.known fun r htokens => ?_
  split
  · exact .done
  · split
    · exact (remark_gives (htokens ▸ .token r.peek_mem)).known fun _ _ => skipLine_gives
    · exact .done

theorem expectEnd_gives {kind : BlockKind} {opener : Token} (hopener : opener ∈ tokens) :
    Gives K tokens fails old (expectEnd kind opener) Whatever := by
  unfold expectEnd
  split
  · exact .done
  · refine get_gives.known fun r htokens => ?_
    split
    · exact remark_gives (.token hopener)
    · split
      rename_i close sameLine next hcloser
      have hclose : Place tokens close.span := by
        obtain rfl : r.peek = close := congrArg Prod.fst hcloser
        exact htokens ▸ .token r.peek_mem
      have hnext : Place tokens next.span := by
        obtain rfl : r.peekAt 1 = next := congrArg (·.2.2) hcloser
        exact htokens ▸ .token (r.peekAt_mem 1)
      split
      · exact advance_gives.known fun _ _ => advance_gives.known fun _ _ => endOfStatement_gives
      · split
        · exact remark_gives hclose
        · split
          · exact (remark_gives (.cover hclose hnext)).known fun _ _ =>
              advance_gives.known fun _ _ => advance_gives.known fun _ _ => endOfStatement_gives
          · exact (remark_gives hclose).known fun _ _ => advance_gives.known fun _ _ =>
              endOfStatement_gives

end Tokens

end Primer.Grammar
