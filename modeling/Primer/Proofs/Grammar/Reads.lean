/-
Rules for what a step of reading does.

`Reads home fails old x m` says of a step `x`, begun by a reader that stands at `home`: it
comes back to where it was, it gives its part up only if `fails`, and everything in `m a`, the
notes of its result `a`, is in order where the reader stands.  The notes in `old` are those already
taken by the steps before.  There is one rule for each way in which the grammar puts steps together,
so that the proof for a construct follows its definition.
-/
import Primer.Proofs.Grammar.Standing

namespace Primer.Grammar

/-- What holds after a step of reading: `Q` of its result, or `E` when it gave up. -/
def Yields (x : Read α) (r : Reader) (Q : α → Reader → Prop) (E : Reader → Prop) : Prop :=
  match x r with
  | .ok a r' => Q a r'
  | .error _ r' => E r'

namespace Yields

variable {α β : Type} {x : Read α} {r : Reader} {Q Q' : α → Reader → Prop} {E E' : Reader → Prop}

theorem mono (h : Yields x r Q E) (hQ : ∀ a r', Q a r' → Q' a r') (hE : ∀ r', E r' → E' r') :
    Yields x r Q' E' := by
  unfold Yields at h ⊢
  cases hx : x r with
  | ok a r' => rw [hx] at h; exact hQ a r' h
  | error _ r' => rw [hx] at h; exact hE r' h

theorem bind {f : α → Read β} {P : β → Reader → Prop}
    (h : Yields x r (fun a r' => Yields (f a) r' P E) E) : Yields (x >>= f) r P E := by
  unfold Yields at h ⊢
  simp only [Bind.bind, EStateM.bind]
  cases hx : x r with
  | ok a r' => rw [hx] at h; exact h
  | error _ r' => rw [hx] at h; exact h

theorem of_eq {y : Read α} (hxy : x r = y r) (h : Yields y r Q E) : Yields x r Q E := by
  unfold Yields at h ⊢
  rw [hxy]
  exact h

theorem pure {a : α} (h : Q a r) : Yields (Pure.pure a) r Q E := h

theorem get_bind {f : Reader → Read β} {P : β → Reader → Prop} (h : Yields (f r) r P E) :
    Yields (get >>= f) r P E := h

theorem look_bind {g : Reader → α} {f : α → Read β} {P : β → Reader → Prop}
    (h : Yields (f (g r)) r P E) : Yields (look g >>= f) r P E := h

theorem modify_bind {g : Reader → Reader} {f : PUnit → Read β} {P : β → Reader → Prop}
    (h : Yields (f ⟨⟩) (g r) P E) : Yields (modify g >>= f) r P E := h

theorem modifyGet_bind {g : Reader → α × Reader} {f : α → Read β} {P : β → Reader → Prop}
    (h : Yields (f (g r).1) (g r).2 P E) : Yields (modifyGet g >>= f) r P E := h

/-- A loop keeps an invariant that each of its turns keeps. -/
theorem iterate {I : α → Reader → Prop} {turn : α → Read (Option α)} {start : α}
    (hstart : I start r)
    (h : ∀ a r, I a r → Yields (turn a) r (fun next r' => I (next.getD a) r') E) :
    Yields (Grammar.iterate turn start) r I E := by
  have hturns : ∀ turns a r, I a r → Yields (iterateFor turn turns a) r I E := by
    intro turns
    induction turns with
    | zero => exact fun a r ha => ha
    | succ turns ih =>
      intro a r ha
      refine bind ((h a r ha).mono ?_ (fun _ he => he))
      intro next r' hnext
      cases next with
      | none => exact hnext
      | some b => exact ih b r' hnext
  exact hturns r.remaining start r hstart

end Yields

/-- A step that comes back to where it was, with a result whose notes are in order. -/
def Reads (home : Home) (fails : Prop) (old : List Note) (x : Read α) (m : α → List Note) : Prop :=
  ∀ known r, r.Stands known home → (∀ v ∈ old, r.Permits home v) →
    Yields x r
      (fun a r' => r.Leads r' ∧ r'.Stands known home ∧ ∀ v ∈ m a, r'.Permits home v)
      (fun r' => r.Leads r' ∧ r'.Stands known home ∧ fails)

namespace Reads

variable {α β : Type} {home : Home} {fails : Prop} {old : List Note} {x : Read α}
  {m m' : α → List Note}

theorem pure {a : α} (h : ∀ v ∈ m a, v ∈ old) : Reads home fails old (Pure.pure a) m :=
  fun _ r hr hold => ⟨Reader.Leads.refl r, hr, fun v hv => hold v (h v hv)⟩

theorem throw {e : Abandoned} : Reads home True old (MonadExcept.throw e : Read α) m :=
  fun _ r hr _ => ⟨Reader.Leads.refl r, hr, trivial⟩

theorem bind {f : α → Read β} {n : β → List Note} (hx : Reads home fails old x m)
    (hf : ∀ a, Reads home fails (m a ++ old) (f a) n) : Reads home fails old (x >>= f) n := by
  intro known r hr hold
  refine Yields.bind ((hx known r hr hold).mono ?_ (fun _ h => h))
  intro a r' hstep
  obtain ⟨hleads, hr', hm⟩ := hstep
  have hsees : ∀ v ∈ m a ++ old, r'.Permits home v := by
    intro v hv
    rcases List.mem_append.mp hv with hv | hv
    · exact hm v hv
    · exact (hold v hv).leads hleads
  refine (hf a known r' hr' hsees).mono ?_ ?_
  · rintro b r'' ⟨hleads', hrest⟩
    exact ⟨hleads.trans hleads', hrest⟩
  · rintro r'' ⟨hleads', hrest⟩
    exact ⟨hleads.trans hleads', hrest⟩

/-- The same step, of whose result less is asked. -/
theorem result (h : Reads home fails old x m) (hm : ∀ a, ∀ v ∈ m' a, v ∈ m a) :
    Reads home fails old x m' := by
  intro known r hr hold
  refine (h known r hr hold).mono ?_ (fun _ h => h)
  rintro a r' ⟨hleads, hr', hsees⟩
  exact ⟨hleads, hr', fun v hv => hsees v (hm a v hv)⟩

/-- A step that is followed by a change of its result. -/
theorem map {f : α → β} {n : β → List Note} (h : Reads home fails old x m)
    (hf : ∀ a, ∀ v ∈ n (f a), v ∈ m a) : Reads home fails old (f <$> x) n := by
  refine h.bind (f := fun a => Pure.pure (f a)) fun a => pure fun v hv => ?_
  exact List.mem_append_left _ (hf a v hv)

/-- A part that may be given up. -/
theorem attempt (h : Reads home True old x m) :
    Reads home fails old (Grammar.attempt x) (·.elim [] m) := by
  intro known r hr hold
  have hx := h known r hr hold
  unfold Yields at hx ⊢
  unfold Grammar.attempt
  cases hres : x r with
  | ok a r' => rw [hres] at hx; exact hx
  | error _ r' =>
    rw [hres] at hx
    exact ⟨hx.1, hx.2.1, by simp⟩

/-- A loop keeps what each of its turns keeps. -/
theorem iterate {turn : α → Read (Option α)} {start : α} (hstart : ∀ v ∈ m start, v ∈ old)
    (h : ∀ a, Reads home fails (m a ++ old) (turn a) (·.elim [] m)) :
    Reads home fails old (Grammar.iterate turn start) m := by
  have hturns : ∀ turns a old', (∀ v ∈ old, v ∈ old') → (∀ v ∈ m a, v ∈ old') →
      Reads home fails old' (iterateFor turn turns a) m := by
    intro turns
    induction turns with
    | zero => exact fun a old' _ ha => pure ha
    | succ turns ih =>
      intro a old' hold ha known r hr hsees
      refine (bind (f := fun next => match next with
        | some b => iterateFor turn turns b
        | none => Pure.pure a) (m := (·.elim [] m)) ?_ ?_) known r hr hsees
      · intro known r hr hsees
        refine h a known r hr fun v hv => hsees v ?_
        rcases List.mem_append.mp hv with hv | hv
        · exact ha v hv
        · exact hold v hv
      · intro next
        cases next with
        | none => exact pure fun v hv => ha v hv
        | some b =>
          exact ih b _ (fun v hv => List.mem_append_right _ (hold v hv))
            (fun v hv => List.mem_append_left _ hv)
  exact fun known r hr hsees => hturns r.remaining start old (fun _ hv => hv) hstart known r hr hsees

/-- A step that depends on the reader it starts from. -/
theorem choose (step : Reader → Read α) (hx : ∀ r, x r = step r r)
    (h : ∀ r, Reads home fails old (step r) m) : Reads home fails old x m :=
  fun known r hr hold => (h r known r hr hold).of_eq (hx r)

/-- A step that moves the cursor and takes notes, and nothing more. -/
theorem quiet (h : ∀ r, ∃ a r', x r = .ok a r' ∧ r.Quiet r') :
    Reads home fails old x (fun _ => []) := by
  rintro known r ⟨homes, hknown, hr⟩ _
  obtain ⟨a, r', hx, hq⟩ := h r
  unfold Yields
  rw [hx]
  exact ⟨hq.leads, ⟨homes, hknown, hr.quiet hq⟩, by simp⟩

/-- Such a step, when something is known of its result. -/
theorem quietly {f : α → Read β} {n : β → List Note} {P : α → Prop}
    (h : ∀ r, Yields x r (fun a r' => r.Quiet r' ∧ P a) (fun _ => False))
    (hf : ∀ a, P a → Reads home fails old (f a) n) : Reads home fails old (x >>= f) n := by
  rintro known r ⟨homes, hknown, hr⟩ hold
  refine Yields.bind ((h r).mono ?_ (fun _ h => h.elim))
  rintro a r' ⟨hq, hP⟩
  refine (hf a hP known r' ⟨homes, hknown, hr.quiet hq⟩
    (fun v hv => (hold v hv).leads hq.leads)).mono ?_ ?_
  · rintro b r'' ⟨hleads, hrest⟩
    exact ⟨hq.leads.trans hleads, hrest⟩
  · rintro r'' ⟨hleads, hrest⟩
    exact ⟨hq.leads.trans hleads, hrest⟩

/-- A step that comes back to where it was, before one that does not. -/
theorem next {f : α → Read β} {known : List Home} {r₀ r : Reader} {P : β → Reader → Prop}
    {E : Reader → Prop} (hx : Reads home fails [] x m) (h₀ : r₀.Leads r)
    (hr : r.Stands known home)
    (hf : ∀ a r', r₀.Leads r' → r'.Stands known home → (∀ n ∈ m a, r'.Permits home n) →
      Yields (f a) r' P E)
    (hE : fails → ∀ r', r₀.Leads r' → r'.Stands known home → E r') :
    Yields (x >>= f) r P E := by
  refine Yields.bind ((hx known r hr (by simp)).mono ?_ ?_)
  · rintro a r' ⟨hleads, hr', hm⟩
    exact hf a r' (h₀.trans hleads) hr' hm
  · rintro r' ⟨hleads, hr', hfails⟩
    exact hE hfails r' (h₀.trans hleads) hr'

end Reads

/-! ### Parts with something else around them -/

/-- Reading a part with something else around the cursor, which is taken away again after it. -/
theorem around_yields {home : Home} {inner : List Note} {part : Read α} {m : α → List Note}
    (h : Reads home False inner part m) {known : List Home} {r r₁ : Reader} {after : Reader → Reader}
    (hr : r.Stands known home) (hbefore : r.Still r₁) (hinner : ∀ v ∈ inner, r₁.Permits home v)
    (hafter : ∀ r₂ : Reader, r₂.Still (after r₂))
    (hback : ∀ r₂, r₁.SameContext r₂ → r.SameContext (after r₂)) :
    Yields (do let result ← part; modify after; pure result) r₁
      (fun a r' => r.Leads r' ∧ r'.Stands known home ∧
        ∃ r₂ : Reader, r₁.Leads r₂ ∧ r₂.Extends r' ∧ ∀ v ∈ m a, r₂.Permits home v)
      (fun _ => False) := by
  obtain ⟨homes, hknown, hsound⟩ := hr
  refine Yields.bind ((h known r₁ ⟨homes, hknown, hsound.still hbefore⟩ hinner).mono ?_
    (fun _ he => he.2.2))
  rintro a r₂ ⟨hleads, ⟨homes', hknown', hsound'⟩, hpermits⟩
  refine Yields.modify_bind ⟨?_, ⟨homes', hknown', hsound'.still (hafter r₂)⟩, ?_⟩
  · exact hleads.around hbefore (hafter r₂) (hback r₂ hleads.toSameContext)
  · exact ⟨r₂, hleads, (hafter r₂).extends, hpermits⟩

/-! ### Single tokens

Nothing is noted of steps that only look, move on or report.
-/

section Tokens

variable {α : Type} {home : Home} {fails : Prop} {old : List Note} {problem : Problem}
  {kind : TokenKind}

theorem Reader.Quiet.refl (r : Reader) : r.Quiet r := 
  ⟨⟨⟨rfl, rfl, rfl, rfl⟩, rfl, fun _ hp => hp, fun _ hc => hc⟩, .refl r⟩

theorem Reader.quiet_step (r : Reader) : r.Quiet r.step := by
  unfold Reader.step
  split
  · exact .refl _
  · exact ⟨⟨⟨rfl, rfl, rfl, rfl⟩, rfl, fun _ hp => hp, fun _ hc => hc⟩, rfl, rfl, rfl⟩

theorem Reader.quiet_report (r : Reader) (found : Problem × Span) :
    r.Quiet { r with problems := r.problems.push found } :=
  ⟨⟨⟨rfl, rfl, rfl, rfl⟩, rfl, fun _ hp => Array.mem_push_of_mem _ hp, fun _ hc => hc⟩, rfl, rfl, rfl⟩

theorem Reader.Quiet.trans {r r' r'' : Reader} (h : r.Quiet r') (h' : r'.Quiet r'') :
    r.Quiet r'' where
  routines := h'.routines.trans h.routines
  classes := h'.classes.trans h.classes
  routineIndex := h'.routineIndex.trans h.routineIndex
  classIndex := h'.classIndex.trans h.classIndex
  layout := h'.layout.trans h.layout
  problems := fun p hp => h'.problems p (h.problems p hp)
  pendingCalls := fun c hc => h'.pendingCalls c (h.pendingCalls c hc)
  toSameContext := h.toSameContext.trans h'.toSameContext

theorem look_reads {f : Reader → α} : Reads home fails old (look f) (fun _ => []) :=
  .quiet fun r => ⟨f r, r, rfl, .refl r⟩

theorem get_reads : Reads home fails old (get : Read Reader) (fun _ => []) :=
  .quiet fun _ => ⟨_, _, rfl, .refl _⟩

theorem peek_reads : Reads home fails old peek (fun _ => []) := look_reads

theorem check_reads : Reads home fails old (check kind) (fun _ => []) := look_reads

theorem onLine_reads {line : Nat} : Reads home fails old (onLine line) (fun _ => []) := look_reads

theorem advance_reads : Reads home fails old advance (fun _ => []) :=
  .quiet fun r => ⟨_, _, rfl, r.quiet_step⟩

theorem accept_reads : Reads home fails old (accept kind) (fun _ => []) := by
  refine .quiet fun r => ?_
  unfold accept
  split
  · exact ⟨_, _, rfl, r.quiet_step⟩
  · exact ⟨_, _, rfl, .refl r⟩

theorem acceptAny?_reads {kinds : List TokenKind} :
    Reads home fails old (acceptAny? kinds) (fun _ => []) := by
  refine .quiet fun r => ?_
  unfold acceptAny?
  split
  · exact ⟨_, _, rfl, r.quiet_step⟩
  · exact ⟨_, _, rfl, .refl r⟩

/-- A change of the reader's notes. -/
theorem modify_reads {f : Reader → Reader} (h : ∀ r : Reader, r.Quiet (f r)) :
    Reads home fails old (modify f) (fun _ => []) :=
  .quiet fun r => ⟨⟨⟩, f r, rfl, h r⟩

theorem report_reads {span : Span} :
    Reads home fails old (report problem span) (fun _ => []) :=
  modify_reads fun r => r.quiet_report (problem, span)

theorem abandon_reads {span : Span} {m : α → List Note} :
    Reads home True old (abandon problem span) m :=
  report_reads.bind fun _ => .throw

theorem reportMissing_reads :
    Reads home fails old (reportMissing problem) (fun _ => []) :=
  look_reads.bind fun _ => report_reads

theorem expect_reads :
    Reads home True old (expect kind problem) (fun _ => []) := by
  refine check_reads.bind fun present => ?_
  split
  · exact advance_reads
  · exact look_reads.bind fun _ => abandon_reads

theorem skipWhile_reads {more : Reader → Bool} :
    Reads home fails old (skipWhile more) (fun _ => []) := by
  refine .iterate (by simp) fun _ => look_reads.bind fun again => ?_
  split
  · exact advance_reads.bind fun _ => .pure (by simp)
  · exact .pure (by simp)

theorem skipLine_reads {line : Nat} : Reads home fails old (skipLine line) (fun _ => []) :=
  skipWhile_reads

/-- The notes of a list are those of its items. -/
theorem commaSeparated_reads {item : Read α} {m : α → List Note}
    (h : ∀ {old}, Reads home fails old item m) :
    Reads home fails old (commaSeparated item) (·.flatMap m) := by
  refine h.bind fun first => ?_
  refine .bind (.iterate (m := (·.flatMap m)) (by simp +contextual) fun items => ?_) fun items => ?_
  · refine accept_reads.bind fun more => ?_
    split
    · refine h.bind fun next => .pure (by grind)
    · exact .pure (by simp)
  · exact .pure (by grind)

theorem endOfStatement_reads : Reads home fails old endOfStatement (fun _ => []) := by
  refine get_reads.bind fun r => ?_
  split
  · exact .pure (by simp)
  · split
    · exact report_reads.bind fun _ => skipLine_reads
    · exact .pure (by simp)

theorem expectEnd_reads {kind : BlockKind} {opener : Token} :
    Reads home fails old (expectEnd kind opener) (fun _ => []) := by
  unfold expectEnd
  split
  · exact .pure (by simp)
  · refine get_reads.bind fun r => ?_
    split
    · exact report_reads
    · split
      split
      · exact advance_reads.bind fun _ => advance_reads.bind fun _ => endOfStatement_reads
      · split
        · exact report_reads
        · split
          · exact report_reads.bind fun _ =>
              advance_reads.bind fun _ => advance_reads.bind fun _ => endOfStatement_reads
          · exact report_reads.bind fun _ => advance_reads.bind fun _ => endOfStatement_reads

end Tokens

end Primer.Grammar
