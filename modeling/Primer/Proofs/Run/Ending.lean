/-
How a visit ends.

As long as a run goes on, no fatal problem has been recorded, every routine that was called was let
in, and there are no more frames than the limit on calls allows.  When the run is stopped, the last
problem is the only one that may be fatal, and there is a reason for the stop.  `Contract.ending`
says so of every step; for a whole visit it is `calm_or_broken`.
-/
import Primer.Proofs.Run.Erasure

namespace Primer

/-- No problem that was recorded ends the run. -/
def Machine.NoFatal (m : Machine σ) : Prop := ∀ q ∈ m.problems, q.1.isFatal = false

theorem Machine.NoFatal.pop {m : Machine σ} (h : m.NoFatal) :
    ∀ q ∈ m.problems.pop, q.1.isFatal = false := by
  intro q hq
  obtain ⟨i, hi, rfl⟩ := Array.getElem_of_mem hq
  rw [Array.getElem_pop]
  exact h _ (Array.getElem_mem _)

/-- There are no more frames than the limit allows, nor more than active calls. -/
def Machine.Bounded (limit : Nat) (m : Machine σ) : Prop :=
  m.stack.depth ≤ limit ∧ m.stack.depth ≤ m.calls.size

def Stage.Bounded (limit : Nat) (g : Stage) : Prop :=
  g.shape.frames.length ≤ limit ∧ g.shape.frames.length ≤ g.calls.size

theorem Machine.At.bounded {g : Stage} {m : Machine σ} {limit : Nat} (hm : m.At g)
    (h : g.Bounded limit) : m.Bounded limit := by
  have hframes : m.stack.frames = g.shape.frames := congrArg Shape.frames hm.shape
  unfold Machine.Bounded Stack.depth
  rw [hframes, hm.calls]
  exact h

/-- The states that are noted are bounded. -/
def Event.Bounded (limit : Nat) : Event σ → Prop
  | .begun _ m => m.Bounded limit
  | .ended _ _ after => after.Bounded limit

namespace Engine

/-- The problem that a call beyond the limit is. -/
def depthProblem (engine : Engine σ) (call : Call) : Machine.Problem × Span :=
  (.callDepth engine.settings.callDepth (engine.program.routine call.routine).name, call.span)

/-- What is known while a run goes on. -/
structure Calm (engine : Engine σ) (m : Machine (Recording σ)) : Prop where
  problems : m.NoFatal
  bounded : ∀ event ∈ m.outside.state.journal, event.Bounded engine.settings.callDepth
  admitted : ∀ call s, .begun (.run call) s ∈ m.outside.state.journal →
    s.calls.size < engine.settings.callDepth

/-- What is known when a run has been stopped. -/
structure Halted (engine : Engine σ) (m : Machine (Recording σ)) : Prop where
  last : ∀ q ∈ m.problems.pop, q.1.isFatal = false
  /-- A call that was not let in was the end of the run. -/
  refused : ∀ call s, .begun (.run call) s ∈ m.outside.state.journal →
    engine.settings.callDepth ≤ s.calls.size →
      s.NoFatal ∧ m.problems = s.problems.push (engine.depthProblem call)
  reason : (∃ q ∈ m.problems, q.1.isFatal) ∨
    (∃ span s, .begun (.exec (.stop span)) s ∈ m.outside.state.journal ∧ s.outside.stop = false) ∨
      m.outside.stop

/-- What is known when a run has been interrupted. -/
structure Broken (engine : Engine σ) (e : Interrupt) (m : Machine (Recording σ)) : Prop where
  bounded : ∀ event ∈ m.outside.state.journal, event.Bounded engine.settings.callDepth
  stopped : e = .stopped → engine.Halted m
  outOfFuel : e = .outOfFuel → m.NoFatal

variable {engine : Engine σ} {e : Interrupt} {m m' : Machine (Recording σ)}

theorem Calm.of_eq (h : engine.Calm m) (hproblems : m'.problems = m.problems)
    (hjournal : m'.outside.state.journal = m.outside.state.journal) : engine.Calm m' where
  problems := fun q hq => h.problems q (hproblems ▸ hq)
  bounded := fun event hevent => h.bounded event (hjournal ▸ hevent)
  admitted := fun call s hevent => h.admitted call s (hjournal ▸ hevent)

theorem Calm.note (h : engine.Calm m) {event : Event σ}
    (hbounded : event.Bounded engine.settings.callDepth)
    (hadmitted : ∀ call s, event = .begun (.run call) s →
      s.calls.size < engine.settings.callDepth) : engine.Calm (m.note event) where
  problems := h.problems
  bounded := List.forall_mem_cons.mpr ⟨hbounded, h.bounded⟩
  admitted := by
    intro call s hevent
    rcases List.mem_cons.mp hevent with heq | hevent
    · exact hadmitted call s heq.symm
    · exact h.admitted call s hevent

/-- Nothing that was noted was refused, so a run that goes on may be stopped for a reason. -/
theorem Calm.halted (h : engine.Calm m) (hlast : ∀ q ∈ m'.problems.pop, q.1.isFatal = false)
    (hjournal : m'.outside.state.journal = m.outside.state.journal)
    (hreason : (∃ q ∈ m'.problems, q.1.isFatal) ∨
      (∃ span s, .begun (.exec (.stop span)) s ∈ m'.outside.state.journal ∧
        s.outside.stop = false) ∨ m'.outside.stop) : engine.Halted m' where
  last := hlast
  refused := by
    intro call s hevent hlimit
    have := h.admitted call s (hjournal ▸ hevent)
    omega
  reason := hreason

/-- The problem that was recorded last is not counted. -/
theorem Calm.last_push (h : engine.Calm m) (q : Machine.Problem × Span) :
    ∀ q' ∈ (m.problems.push q).pop, q'.1.isFatal = false := by
  rw [Array.pop_push]
  exact h.problems

theorem Broken.of_eq (h : engine.Broken e m) (hproblems : m'.problems = m.problems)
    (houtside : m'.outside = m.outside) : engine.Broken e m' where
  bounded := houtside ▸ h.bounded
  stopped := by
    intro he
    obtain ⟨hlast, hrefused, hreason⟩ := h.stopped he
    refine ⟨hproblems ▸ hlast, fun call s => ?_, ?_⟩
    · rw [hproblems, houtside]
      exact hrefused call s
    · rw [hproblems, houtside]
      exact hreason
  outOfFuel := fun he q hq => h.outOfFuel he q (hproblems ▸ hq)

/-- To note how something ended says nothing new about how the run ended. -/
theorem Broken.note (h : engine.Broken e m) {task : Task} {before after : Machine σ}
    (hbounded : after.Bounded engine.settings.callDepth) :
    engine.Broken e (m.note (.ended task before after)) where
  bounded := List.forall_mem_cons.mpr ⟨hbounded, h.bounded⟩
  stopped := by
    intro he
    obtain ⟨hlast, hrefused, hreason⟩ := h.stopped he
    refine ⟨hlast, fun call s hevent => hrefused call s ?_, ?_⟩
    · simpa [Machine.note, Outside.note] using hevent
    · simpa [Machine.note, Outside.note] using hreason
  outOfFuel := h.outOfFuel

/-- What acts on a calm machine leaves it calm. -/
theorem Calm.acts (h : engine.Calm m) (ha : engine.recording.Acts m m') : engine.Calm m' := by
  cases ha with
  | report hfatal span =>
    refine ⟨fun q hq => ?_, h.bounded, h.admitted⟩
    rcases Array.mem_push.mp hq with hq | rfl
    · exact h.problems q hq
    · exact hfatal
  | _ => exact h.of_eq rfl rfl

theorem Calm.stops (h : engine.Calm m) (hs : engine.recording.Stops e m m') : engine.Broken e m' := by
  have hbounded : ∀ event ∈ m'.outside.state.journal, event.Bounded engine.settings.callDepth :=
    fun event hevent => h.bounded event (hs.journal ▸ hevent)
  cases hs with
  | fatal hfatal _ _ span =>
    refine ⟨hbounded, fun _ => h.halted (h.last_push _) rfl ?_, nofun⟩
    exact Or.inl ⟨_, Array.mem_push_self, hfatal⟩
  | host hstop _ span =>
    refine ⟨hbounded, fun _ => h.halted (h.last_push _) rfl ?_, nofun⟩
    exact Or.inl ⟨_, Array.mem_push_self, rfl⟩
  | again hstop _ =>
    exact ⟨hbounded, fun _ => h.halted h.problems.pop rfl (Or.inr (Or.inr hstop)), nofun⟩
  | fuel => exact ⟨hbounded, nofun, fun _ => h.problems⟩

end Engine

theorem Machine.problems_write (m : Machine σ) (place : Place) (v : Value) :
    (m.write place v).problems = m.problems := by
  unfold Machine.write
  split <;> rfl

/-- The contract that a run is calm until it is interrupted, and then broken off. -/
def Contract.ending (engine : Engine σ) : Contract engine.recording where
  Holds := fun g m => g.Bounded engine.settings.callDepth ∧ engine.Calm m
  Leads := fun _ _ _ => True
  Fails := fun _ e _ m' => engine.Broken e m'
  refl := fun _ _ => trivial
  trans := fun _ _ => trivial
  interrupted := fun _ h => h
  widen := by
    intro g g' hshape hcalls _
    refine ⟨fun m h => ⟨?_, h.2⟩, fun _ _ _ => trivial, fun _ _ _ h => h⟩
    unfold Stage.Bounded
    rw [hshape, hcalls]
    exact h.1
  acts := fun _ h ha => ⟨⟨h.1, h.2.acts ha⟩, trivial⟩
  stops := fun _ h hs => h.2.stops hs
  stores := fun {_ m place _ v} _ _ h _ _ _ =>
    ⟨⟨h.1, h.2.of_eq (m.problems_write place v) (by rw [m.outside_write place v])⟩, trivial⟩
  misses := fun _ _ h _ _ _ => ⟨⟨h.1, h.2.of_eq rfl rfl⟩, trivial⟩
  makes := by
    intro g m c object _ h _
    refine ⟨⟨h.1.1, ?_⟩, h.2.of_eq rfl rfl⟩
    show g.shape.frames.length ≤ (g.calls.push (some object)).size
    rw [Array.size_push]
    exact Nat.le_succ_of_le h.1.2
  made := fun _ h _ h' _ => ⟨⟨h.1, h'.2.of_eq rfl rfl⟩, trivial⟩
  unmade := fun _ _ _ h => h.of_eq rfl rfl

namespace Engine

variable {engine : Engine σ}

theorem bounded_forget {g : Stage} {m : Machine (Recording σ)} {limit : Nat} (hm : m.At g)
    (h : g.Bounded limit) : m.forget.Bounded limit := hm.bounded h

theorem notes_ending (engine : Engine σ) (task : Task) : (Contract.ending engine).Notes task where
  begun := by
    intro g m _ _ h hlimit
    have hbounded := bounded_forget h.stays h.holds.1
    refine ⟨h.holds.1, h.holds.2.note hbounded fun call s heq => ?_⟩
    cases heq
    exact hlimit
  ended := by
    intro g m m' _ _ h hkeeps hm' _ _
    have hstays := Task.at_stage.mp hkeeps.stays
    have hbounded := bounded_forget hstays h.holds.1
    exact ⟨⟨h.holds.1, hm'.2.note hbounded nofun⟩, trivial⟩
  cut := by
    intro g m m' e _ _ h hkeeps hm'
    have hstays := Task.at_stage.mp hkeeps.stays
    exact Broken.note hm' (bounded_forget hstays h.holds.1)
  starved := by
    intro g m _ _ h
    have hbounded := bounded_forget h.stays h.holds.1
    exact ⟨List.forall_mem_cons.mpr ⟨hbounded, h.holds.2.bounded⟩, nofun, fun _ => h.holds.2.problems⟩

theorem journals_ending (engine : Engine σ) : (Contract.ending engine).Journals where
  fits := Program.fits_of_forall (fun _ _ => trivial) _
  notes := notes_ending engine
  declares := fun _ _ => trivial
  stop := by
    intro g m span _ h hflag
    have hbounded := bounded_forget h.stays h.holds.1
    have hcalm : engine.Calm (m.note (.begun (.exec (.stop span)) m.forget)) :=
      h.holds.2.note hbounded nofun
    refine ⟨hcalm.bounded, fun _ => hcalm.halted hcalm.problems.pop rfl ?_, nofun⟩
    exact Or.inr (Or.inl ⟨span, m.forget, List.mem_cons_self, hflag⟩)
  refused := by
    intro g m call _ _ h hlimit
    have hbounded := bounded_forget h.stays h.holds.1
    refine ⟨List.forall_mem_cons.mpr ⟨hbounded, h.holds.2.bounded⟩, fun _ => ⟨?_, ?_, ?_⟩, nofun⟩
    · exact h.holds.2.last_push (engine.depthProblem call)
    · intro other s hevent hfull
      rcases List.mem_cons.mp hevent with heq | hevent
      · cases heq
        exact ⟨h.holds.2.problems, rfl⟩
      · have := h.holds.2.admitted other s hevent
        omega
    · exact Or.inl ⟨engine.depthProblem call, Array.mem_push_self, rfl⟩
  enter := by
    intro g m call inside _ _ _ h hlimit _
    have hbounded := bounded_forget h.stays h.holds.1
    have hcalls : g.calls.size < engine.settings.callDepth := h.stays.calls ▸ hlimit
    have hframes := h.holds.1.2
    have hcalm : engine.Calm (m.note (.begun (.run call) m.forget)) := by
      refine h.holds.2.note hbounded fun other s heq => ?_
      cases heq
      exact hlimit
    refine ⟨⟨?_, ?_⟩, hcalm.of_eq rfl rfl⟩
    · show g.shape.frames.length + 1 ≤ engine.settings.callDepth
      omega
    · show g.shape.frames.length + 1 ≤ (g.calls.push call.this).size
      rw [Array.size_push]
      omega
  leave := fun _ _ h _ hstep => ⟨⟨h.holds.1, hstep.holds.2.of_eq rfl rfl⟩, trivial⟩
  unwound := fun _ _ _ _ hcut => Broken.of_eq hcut.fails rfl rfl

/-- **A visit is calm up to its end, or broken off.** -/
theorem calm_or_broken (hp : engine.program.Sound) {m : Machine σ} (hm : m.AtRest engine.program)
    {visit : Visit σ} {o : Outcome} (ho : (engine.visitBy engine.level visit m).1 = some o) :
    ∃ last, engine.EndedIn visit m o last ∧
      ((o.ending = .completed ∧ engine.Calm last) ∨
        (o.ending = .stopped ∧ engine.Broken .stopped last) ∨
          o.ending = .outOfFuel ∧ engine.Broken .outOfFuel last) := by
  have hK := journals_ending engine
  have hstage : (Stage.rest engine.program).Bounded engine.settings.callDepth :=
    ⟨Nat.zero_le _, Nat.zero_le _⟩
  have hcalm : engine.Calm m.record := by
    refine ⟨fun q hq => ?_, List.forall_mem_nil _, fun _ _ hevent => by cases hevent⟩
    have hq : q ∈ m.problems := hq
    simp [hm.problems] at hq
  have hopening : engine.Calm (engine.recording.opening visit.recording m.record) := by
    cases visit with
    | program fuel => exact hcalm.of_eq rfl rfl
    | routine fuel name args => exact hcalm
    | between change => exact hcalm
  obtain ⟨last, hlast, hend⟩ := endedIn_recordedVisit hK.fits (honours_watchedLevel hK hp) hp
    ⟨atRest_recordedOpening hm visit, hstage, hopening⟩ ho
  refine ⟨last, hlast, ?_⟩
  rcases hend with ⟨hcompleted, hstep⟩ | ⟨hstopped, hcut⟩ | ⟨hfuel, hcut⟩
  · exact Or.inl ⟨hcompleted, hstep.holds.2⟩
  · exact Or.inr (Or.inl ⟨hstopped, hcut.fails⟩)
  · exact Or.inr (Or.inr ⟨hfuel, hcut.fails⟩)

end Engine

end Primer
