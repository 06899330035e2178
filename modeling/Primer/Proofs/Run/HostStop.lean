/-
Runs that the host stops.

The host may ask at any time that a run be stopped: while it waits, while it reads or writes, while
one of its routines is run.  The request is found before a statement or between two turns of a loop.
The run then ends, and a problem says so, but only if none has said so before since the program was
last run: a latch is set when the problem is recorded, and only a run of the whole program clears it.
So the second of two routines that are stopped in a row ends without a word.

`Contract.latched` says what a run has to do with the latch, and `stopReported_session` what the latch
has to do with the visits before.
-/
import Mathlib.Data.List.Induction
import Primer.Proofs.Run.Ending

namespace Primer

/-- A statement that stops the run is about to be executed, and the host has not asked for a stop. -/
def Event.stops : Event σ → Bool
  | .begun (.exec (.stop _)) m => !m.outside.stop
  | _ => false

/-- No statement that was noted has stopped the run. -/
def Machine.Unstopped (m : Machine (Recording σ)) : Prop :=
  ∀ event ∈ m.outside.state.journal, event.stops = false

/-- No fatal problem was recorded, and the latch is as it was. -/
structure Machine.Quiet (reported : Bool) (m : Machine σ) : Prop where
  problems : m.NoFatal
  latch : m.stopReported = reported

/-- Why a run was interrupted, when the latch was `reported` at its start. -/
inductive Machine.Cause (reported : Bool) : Interrupt → Machine (Recording σ) → Prop
  | statement {m : Machine (Recording σ)} {event : Event σ}
      (h : event ∈ m.outside.state.journal) (hstops : event.stops) (hquiet : m.Quiet reported) :
    Cause reported .stopped m
  | problem {m : Machine (Recording σ)} {q : Machine.Problem × Span} (hq : q ∈ m.problems)
      (hfatal : q.1.isFatal) (hown : ∀ q ∈ m.problems, q.1 ≠ .hostStop)
      (hlatch : m.stopReported = reported) : Cause reported .stopped m
  /-- The host asked for it, and the problem is recorded. -/
  | first {m : Machine (Recording σ)} {before : Array (Machine.Problem × Span)} {span : Span}
      (hasked : m.outside.stop) (hnew : reported = false) (hlatch : m.stopReported = true)
      (hbefore : ∀ q ∈ before, q.1.isFatal = false)
      (hproblems : m.problems = before.push (.hostStop, span)) (hunstopped : m.Unstopped) :
    Cause reported .stopped m
  /-- The host asked for it, and the problem was recorded in another run. -/
  | again {m : Machine (Recording σ)} (hasked : m.outside.stop) (hold : reported = true)
      (hquiet : m.Quiet reported) (hunstopped : m.Unstopped) : Cause reported .stopped m
  | fuel {m : Machine (Recording σ)} (hquiet : m.Quiet reported) : Cause reported .outOfFuel m

section

variable {reported : Bool} {e : Interrupt}

theorem Machine.Quiet.of_eq {m m' : Machine σ} (h : m.Quiet reported)
    (hproblems : m'.problems = m.problems) (hlatch : m'.stopReported = m.stopReported) :
    m'.Quiet reported :=
  ⟨fun q hq => h.problems q (hproblems ▸ hq), hlatch.trans h.latch⟩

/-- A quiet run has recorded no stop by the host. -/
theorem Machine.Quiet.ne_hostStop {m : Machine σ} (h : m.Quiet reported) :
    ∀ q ∈ m.problems, q.1 ≠ .hostStop := by
  intro q hq heq
  have hfatal := h.problems q hq
  rw [heq] at hfatal
  cases hfatal

variable {m m' : Machine (Recording σ)}

theorem Machine.Unstopped.note (h : m.Unstopped) {event : Event σ} (hevent : event.stops = false) :
    (m.note event).Unstopped :=
  List.forall_mem_cons.mpr ⟨hevent, h⟩

/-- The cause does not change while frames are dropped. -/
theorem Machine.Cause.of_eq (h : m.Cause reported e) (hproblems : m'.problems = m.problems)
    (hlatch : m'.stopReported = m.stopReported) (houtside : m'.outside = m.outside) :
    m'.Cause reported e := by
  cases h with
  | statement hevent hstops hquiet =>
    exact .statement (houtside ▸ hevent) hstops (hquiet.of_eq hproblems hlatch)
  | problem hq hfatal hown hlatched =>
    exact .problem (hproblems ▸ hq) hfatal (hproblems ▸ hown) (hlatch.trans hlatched)
  | first hasked hnew hlatched hbefore hlast hunstopped =>
    refine .first (houtside ▸ hasked) hnew (hlatch.trans hlatched) hbefore (hproblems.trans hlast) ?_
    unfold Machine.Unstopped
    rw [houtside]
    exact hunstopped
  | again hasked hold hquiet hunstopped =>
    refine .again (houtside ▸ hasked) hold (hquiet.of_eq hproblems hlatch) ?_
    unfold Machine.Unstopped
    rw [houtside]
    exact hunstopped
  | fuel hquiet => exact .fuel (hquiet.of_eq hproblems hlatch)

/-- Nor does it while it is noted how things ended. -/
theorem Machine.Cause.note (h : m.Cause reported e) {event : Event σ} (hevent : event.stops = false) :
    (m.note event).Cause reported e := by
  cases h with
  | statement hold hstops hquiet =>
    exact .statement (List.mem_cons_of_mem event hold) hstops (hquiet.of_eq rfl rfl)
  | problem hq hfatal hown hlatched => exact .problem hq hfatal hown hlatched
  | first hasked hnew hlatched hbefore hlast hunstopped =>
    exact .first hasked hnew hlatched hbefore hlast (hunstopped.note hevent)
  | again hasked hold hquiet hunstopped =>
    exact .again hasked hold (hquiet.of_eq rfl rfl) (hunstopped.note hevent)
  | fuel hquiet => exact .fuel (hquiet.of_eq rfl rfl)

/-- A problem of the run itself is no stop by the host. -/
theorem Machine.Quiet.failed (h : m.Quiet reported) {problem : Machine.Problem}
    (hfatal : problem.isFatal) (hown : problem ≠ .hostStop) (span : Span) :
    (m.report problem span).Cause reported .stopped := by
  refine .problem Array.mem_push_self hfatal (fun q hq => ?_) h.latch
  rcases Array.mem_push.mp hq with hq | rfl
  · exact h.ne_hostStop q hq
  · exact hown

variable {engine : Engine σ}

theorem Machine.Quiet.acts (h : m.Quiet reported) (ha : engine.recording.Acts m m') :
    m'.Quiet reported := by
  cases ha with
  | report hfatal span =>
    refine ⟨fun q hq => ?_, h.latch⟩
    rcases Array.mem_push.mp hq with hq | rfl
    · exact h.problems q hq
    · exact hfatal
  | _ => exact h.of_eq rfl rfl

theorem Machine.Quiet.stops (h : m.Quiet reported) (hunstopped : m.Unstopped)
    (hs : engine.recording.Stops e m m') : m'.Cause reported e := by
  cases hs with
  | fatal hfatal hown _ span => exact h.failed hfatal hown span
  | host hasked hnew span =>
    exact .first hasked (h.latch.symm.trans hnew) rfl h.problems rfl hunstopped
  | again hasked hold => exact .again hasked (h.latch.symm.trans hold) h hunstopped
  | fuel => exact .fuel h

end

theorem Machine.stopReported_write (m : Machine σ) (place : Place) (v : Value) :
    (m.write place v).stopReported = m.stopReported := by
  unfold Machine.write
  split <;> rfl

/-- The contract that a run leaves the latch alone, unless it is the first that the host stops. -/
def Contract.latched (engine : Engine σ) (reported : Bool) : Contract engine.recording where
  Holds := fun _ m => m.Quiet reported ∧ m.Unstopped
  Leads := fun _ _ _ => True
  Fails := fun _ e _ m' => m'.Cause reported e
  refl := fun _ _ => trivial
  trans := fun _ _ => trivial
  interrupted := fun _ h => h
  widen := fun _ _ _ => ⟨fun _ h => h, fun _ _ _ => trivial, fun _ _ _ h => h⟩
  acts := fun _ h ha =>
    ⟨⟨h.1.acts ha, fun event hevent => h.2 event (ha.journal ▸ hevent)⟩, trivial⟩
  stops := fun _ h hs => h.1.stops h.2 hs
  stores := by
    intro g m place _ v _ _ h _ _ _
    refine ⟨⟨h.1.of_eq (m.problems_write place v) (m.stopReported_write place v), ?_⟩, trivial⟩
    unfold Machine.Unstopped
    rw [m.outside_write place v]
    exact h.2
  misses := fun _ _ h _ _ _ => ⟨⟨h.1.of_eq rfl rfl, h.2⟩, trivial⟩
  makes := fun _ _ _ h _ => ⟨h.1.of_eq rfl rfl, h.2⟩
  made := fun _ _ _ h _ => ⟨⟨h.1.of_eq rfl rfl, h.2⟩, trivial⟩
  unmade := fun _ _ _ h => h.of_eq rfl rfl rfl

namespace Engine

variable {engine : Engine σ} {reported : Bool}

/-- What goes on is not a statement that stops the run. -/
theorem stops_begun {task : Task} {limit : Nat} {m : Machine (Recording σ)}
    (h : task.GoesOn limit m) : (Event.begun task m.forget).stops = false := by
  cases task with
  | exec s =>
    cases s with
    | stop span =>
      show (!m.outside.stop) = false
      rw [show m.outside.stop = true from h]
      rfl
    | _ => rfl
  | _ => rfl

theorem notes_latched (engine : Engine σ) (reported : Bool) (task : Task) :
    (Contract.latched engine reported).Notes task where
  begun := fun _ _ h hgoes => ⟨h.holds.1.of_eq rfl rfl, h.holds.2.note (stops_begun hgoes)⟩
  ended := fun _ _ _ _ hm' _ _ => ⟨⟨hm'.1.of_eq rfl rfl, hm'.2.note rfl⟩, trivial⟩
  cut := fun _ _ _ _ hm' => hm'.note rfl
  starved := fun _ _ h => .fuel (h.holds.1.of_eq rfl rfl)

theorem journals_latched (engine : Engine σ) (reported : Bool) :
    (Contract.latched engine reported).Journals where
  fits := Program.fits_of_forall (fun _ _ => trivial) _
  notes := notes_latched engine reported
  declares := fun _ _ => trivial
  stop := by
    intro g m span _ h hflag
    refine .statement List.mem_cons_self ?_ (h.holds.1.of_eq rfl rfl)
    show (!m.outside.stop) = true
    rw [hflag]
    rfl
  refused := by
    intro g m call _ _ h _
    have hquiet : (m.note (.begun (.run call) m.forget)).Quiet reported := h.holds.1.of_eq rfl rfl
    exact hquiet.failed (by rfl) (by intro hc; cases hc) call.span
  enter := fun _ _ _ h _ _ => ⟨h.holds.1.of_eq rfl rfl, h.holds.2.note rfl⟩
  leave := fun _ _ _ _ hstep => ⟨⟨hstep.holds.1.of_eq rfl rfl, hstep.holds.2⟩, trivial⟩
  unwound := fun _ _ _ _ hcut => hcut.fails.of_eq rfl rfl rfl

/-- **A visit is quiet up to its end, or there is a cause for its interruption.** -/
theorem quiet_or_cause (hp : engine.program.Sound) {m : Machine σ} (hm : m.AtRest engine.program)
    {visit : Visit σ} {o : Outcome} (ho : (engine.visitBy engine.level visit m).1 = some o) :
    ∃ last, engine.EndedIn visit m o last ∧
      ((o.ending ≠ .stopped ∧ last.Quiet (engine.opening visit m).stopReported) ∨
        (o.ending = .stopped ∧ last.Cause (engine.opening visit m).stopReported .stopped)) := by
  have hK := journals_latched engine (engine.opening visit m).stopReported
  have hopening : (engine.recording.opening visit.recording m.record).Quiet
      (engine.opening visit m).stopReported := by
    have hproblems := (atRest_recordedOpening hm visit).problems
    refine ⟨fun q hq => ?_, ?_⟩
    · rw [hproblems] at hq
      exact absurd hq (Array.not_mem_empty q)
    · cases visit <;> rfl
  have hunstopped : (engine.recording.opening visit.recording m.record).Unstopped := by
    cases visit <;> exact List.forall_mem_nil _
  obtain ⟨last, hlast, hend⟩ := endedIn_recordedVisit hK.fits (honours_watchedLevel hK hp) hp
    ⟨atRest_recordedOpening hm visit, hopening, hunstopped⟩ ho
  refine ⟨last, hlast, ?_⟩
  rcases hend with ⟨hcompleted, hstep⟩ | ⟨hstopped, hcut⟩ | ⟨hfuel, hcut⟩
  · exact Or.inl ⟨by rw [hcompleted]; nofun, hstep.holds.1⟩
  · exact Or.inr ⟨hstopped, hcut.fails⟩
  · refine Or.inl ⟨by rw [hfuel]; nofun, ?_⟩
    cases hcut.fails with
    | fuel hquiet => exact hquiet

end Engine

/-! ### From visit to visit -/

/-- The run says that the host stopped it. -/
def Outcome.ReportsStop (o : Outcome) : Prop := ∃ span, (.hostStop, span) ∈ o.problems

/-- The fatal problems of a run, in words. -/
def Outcome.fatals (o : Outcome) : List Diagnostic := o.diagnostics.filter (·.kind == .fatal)

namespace Engine

/-- The run ended because the host was found to ask for it.  No statement has stopped it, and it has
recorded no fatal problem of its own. -/
structure StoppedByHost (engine : Engine σ) (visit : Visit σ) (m : Machine σ) (o : Outcome) :
    Prop where
  stopped : o.ending = .stopped
  statement : ∀ event ∈ engine.noted visit m, event.stops = false
  problem : ∀ q ∈ o.problems, q.1.isFatal → q.1 = .hostStop

variable {engine : Engine σ} {visit : Visit σ} {m : Machine σ} {o : Outcome}
  {last : Machine (Recording σ)}

/-- How a visit ended that came to `o`. -/
inductive Came (engine : Engine σ) (visit : Visit σ) (m : Machine σ) (o : Outcome) : Prop
  /-- The host did not stop it. -/
  | otherwise (hother : ¬ engine.StoppedByHost visit m o) (hreports : ¬ o.ReportsStop)
      (hlatch : (engine.visitBy engine.level visit m).2.stopReported
        = (engine.opening visit m).stopReported)
  | first (hhost : engine.StoppedByHost visit m o)
      (hasked : (engine.visitBy engine.level visit m).2.outside.stop)
      (hnew : (engine.opening visit m).stopReported = false)
      (hlatch : (engine.visitBy engine.level visit m).2.stopReported = true)
      (hreports : o.ReportsStop)
      (hfatals : ∃ span, o.fatals = [Machine.Problem.hostStop.wording.at span])
  | again (hhost : engine.StoppedByHost visit m o)
      (hasked : (engine.visitBy engine.level visit m).2.outside.stop)
      (hold : (engine.opening visit m).stopReported = true)
      (hlatch : (engine.visitBy engine.level visit m).2.stopReported = true)
      (hreports : ¬ o.ReportsStop) (hfatals : o.fatals = [])

theorem EndedIn.stopReported (h : engine.EndedIn visit m o last) :
    (engine.visitBy engine.level visit m).2.stopReported = last.stopReported := by
  rw [h.final]
  rfl

theorem EndedIn.not_reportsStop (h : engine.EndedIn visit m o last)
    (hnone : ∀ q ∈ last.problems, q.1 ≠ .hostStop) : ¬ o.ReportsStop := by
  rintro ⟨span, hspan⟩
  rw [h.problems, Array.mem_toList_iff] at hspan
  exact hnone _ hspan rfl

theorem EndedIn.fatals_eq (h : engine.EndedIn visit m o last) :
    o.fatals = (last.problems.toList.filter (·.1.isFatal)).map fun q => q.1.wording.at q.2 := by
  unfold Outcome.fatals Outcome.diagnostics
  rw [h.problems, List.filter_map]
  rfl

/-- Problems that are not fatal are no fatal diagnostics. -/
theorem filter_isFatal_eq_nil {problems : Array (Machine.Problem × Span)}
    (h : ∀ q ∈ problems, q.1.isFatal = false) : problems.toList.filter (·.1.isFatal) = [] := by
  rw [List.filter_eq_nil_iff]
  intro q hq
  rw [h q (Array.mem_toList_iff.mp hq)]
  exact Bool.false_ne_true

theorem EndedIn.statement (h : engine.EndedIn visit m o last) (hunstopped : last.Unstopped) :
    ∀ event ∈ engine.noted visit m, event.stops = false := by
  rw [h.journal]
  exact hunstopped

theorem came_of_atRest (hp : engine.program.Sound) (hm : m.AtRest engine.program)
    (ho : (engine.visitBy engine.level visit m).1 = some o) : engine.Came visit m o := by
  obtain ⟨last, hlast, hend⟩ := quiet_or_cause hp hm ho
  rcases hend with ⟨hgoes, hquiet⟩ | ⟨hstopped, hcause⟩
  · exact .otherwise (fun hhost => hgoes hhost.stopped) (hlast.not_reportsStop hquiet.ne_hostStop)
      (hlast.stopReported.trans hquiet.latch)
  generalize hlatch : (engine.opening visit m).stopReported = reported at hcause
  cases hcause with
  | statement hevent hstops hquiet =>
    refine .otherwise (fun hhost => ?_) (hlast.not_reportsStop hquiet.ne_hostStop)
      (hlast.stopReported.trans (hquiet.latch.trans hlatch.symm))
    have hnot := hhost.statement _ (hlast.journal ▸ hevent)
    rw [hstops] at hnot
    cases hnot
  | problem hq hfatal hown hlatched =>
    refine .otherwise (fun hhost => ?_) (hlast.not_reportsStop hown)
      (hlast.stopReported.trans (hlatched.trans hlatch.symm))
    refine hown _ hq (hhost.problem _ ?_ hfatal)
    rw [hlast.problems, Array.mem_toList_iff]
    exact hq
  | first hasked hnew hlatched hbefore hproblems hunstopped =>
    rename_i before span
    refine .first ⟨hstopped, hlast.statement hunstopped, fun q hq hfatal => ?_⟩ ?_ (hlatch.trans hnew)
      (hlast.stopReported.trans hlatched) ⟨span, ?_⟩ ⟨span, ?_⟩
    · rw [hlast.problems, Array.mem_toList_iff, hproblems] at hq
      rcases Array.mem_push.mp hq with hq | rfl
      · rw [hbefore q hq] at hfatal
        cases hfatal
      · rfl
    · rw [hlast.final]
      exact hasked
    · rw [hlast.problems, hproblems, Array.mem_toList_iff]
      exact Array.mem_push_self
    · rw [hlast.fatals_eq, hproblems, Array.toList_push, List.filter_append,
        filter_isFatal_eq_nil hbefore]
      rfl
  | again hasked hold hquiet hunstopped =>
    refine .again ⟨hstopped, hlast.statement hunstopped, fun q hq hfatal => ?_⟩ ?_ (hlatch.trans hold)
      (hlast.stopReported.trans (hquiet.latch.trans hold)) (hlast.not_reportsStop hquiet.ne_hostStop) ?_
    · rw [hlast.problems, Array.mem_toList_iff] at hq
      rw [hquiet.problems q hq] at hfatal
      cases hfatal
    · rw [hlast.final]
      exact hasked
    · rw [hlast.fatals_eq, filter_isFatal_eq_nil hquiet.problems]
      rfl

/-- A run that ended since the program was last run has said that the host stopped it, or the last run
of the program itself has. -/
def Reported (engine : Engine σ) (outside : Outside σ) (history : List (Visit σ)) : Prop :=
  ∃ before visit after o, history = before ++ visit :: after ∧ (∀ later ∈ after, ¬ later.Restarts) ∧
    (engine.visitBy engine.level visit (engine.session outside before).2).1 = some o ∧ o.ReportsStop

theorem reported_concat {outside : Outside σ} {history : List (Visit σ)} :
    engine.Reported outside (history ++ [visit]) ↔
      (∃ o, (engine.visitBy engine.level visit (engine.session outside history).2).1 = some o ∧
        o.ReportsStop) ∨ (¬ visit.Restarts ∧ engine.Reported outside history) := by
  constructor
  · rintro ⟨before, reporting, after, o, hsplit, hafter, ho, hreports⟩
    rcases List.eq_nil_or_concat after with rfl | ⟨middle, last, rfl⟩
    · obtain ⟨rfl, hlast⟩ := List.append_inj' hsplit rfl
      obtain rfl : visit = reporting := List.singleton_inj.mp hlast
      exact Or.inl ⟨o, ho, hreports⟩
    · rw [List.concat_eq_append] at hsplit hafter
      have hsplit : history ++ [visit] = (before ++ reporting :: middle) ++ [last] := by
        rw [hsplit, List.append_assoc]
        rfl
      obtain ⟨rfl, hlast⟩ := List.append_inj' hsplit rfl
      obtain rfl : visit = last := List.singleton_inj.mp hlast
      refine Or.inr ⟨hafter visit (by simp), before, reporting, middle, o, rfl, ?_, ho, hreports⟩
      exact fun later hlater => hafter later (List.mem_append_left _ hlater)
  · rintro (⟨o, ho, hreports⟩ | ⟨hgoes, before, reporting, after, o, rfl, hafter, ho, hreports⟩)
    · exact ⟨history, visit, [], o, rfl, List.forall_mem_nil _, ho, hreports⟩
    · refine ⟨before, reporting, after ++ [visit], o, ?_, ?_, ho, hreports⟩
      · rw [List.append_assoc]
        rfl
      · intro later hlater
        rcases List.mem_append.mp hlater with hlater | hlater
        · exact hafter later hlater
        · rw [List.mem_singleton.mp hlater]
          exact hgoes

/-- A run of the program finds the latch cleared. -/
theorem stopReported_opening (h : visit.Restarts) : (engine.opening visit m).stopReported = false := by
  cases visit with
  | program fuel => rfl
  | routine fuel name args => exact h.elim
  | between change => exact h.elim

/-- The latch at the start of a visit, if it was set before. -/
theorem stopReported_opening_iff (engine : Engine σ) (visit : Visit σ) (m : Machine σ) :
    (engine.opening visit m).stopReported = true ↔ ¬ visit.Restarts ∧ m.stopReported = true := by
  constructor
  · intro hset
    have hgoes : ¬ visit.Restarts := by
      intro hrestarts
      rw [stopReported_opening hrestarts] at hset
      cases hset
    rw [opening_of_not_restarts hgoes] at hset
    exact ⟨hgoes, hset⟩
  · rintro ⟨hgoes, hset⟩
    rw [opening_of_not_restarts hgoes]
    exact hset

/-- **The latch is set exactly if a run has said, since the program was last run, that the host
stopped it.** -/
theorem stopReported_session (hp : engine.program.Sound) (outside : Outside σ)
    (history : List (Visit σ)) : (engine.session outside history).2.stopReported = true ↔
      engine.Reported outside history := by
  induction history using List.reverseRecOn with
  | nil =>
    constructor
    · intro hset
      cases hset
    · rintro ⟨before, visit, after, o, hsplit, -⟩
      simp at hsplit
  | append_singleton history visit ih =>
    have hrest := (atRest_session hp outside history).1
    rw [session_concat, reported_concat, ← ih, ← stopReported_opening_iff engine]
    cases ho : (engine.visitBy engine.level visit (engine.session outside history).2).1 with
    | none =>
      cases visit with
      | between change => simp [visitBy, opening]
      | program fuel => cases ho
      | routine fuel name args => cases ho
    | some o =>
      have hreports : (∃ o', some o = some o' ∧ o'.ReportsStop) ↔ o.ReportsStop := by simp
      rw [hreports]
      cases came_of_atRest hp hrest ho with
      | otherwise _ hsilent hlatch => rw [hlatch]; simp [hsilent]
      | first _ _ _ hlatch hreports _ => simp [hlatch, hreports]
      | again _ _ hold hlatch _ _ => simp [hlatch, hold]

/-- What the outcome of a visit has to do with the wishes of the host. -/
structure ReportsStops (engine : Engine σ) (outside : Outside σ) (history : List (Visit σ))
    (visit : Visit σ) (o : Outcome) : Prop where
  asked : engine.StoppedByHost visit (engine.session outside history).2 o →
    (engine.visitBy engine.level visit (engine.session outside history).2).2.outside.stop
  /-- The first stop since the program was last run is reported, and it is the only fatal problem. -/
  once : engine.StoppedByHost visit (engine.session outside history).2 o →
    visit.Restarts ∨ ¬ engine.Reported outside history →
      ∃ span, o.fatals = [Machine.Problem.hostStop.wording.at span]
  /-- The others are not. -/
  silent : engine.StoppedByHost visit (engine.session outside history).2 o → ¬ visit.Restarts →
    engine.Reported outside history → o.fatals = []
  /-- Nothing else is reported as a stop by the host. -/
  only : o.ReportsStop → engine.StoppedByHost visit (engine.session outside history).2 o

/-- **A stop by the host is reported once, until the program is run again.** -/
theorem host_stop_reported_once (tokens : List Token) (settings : Settings) (host : Host σ)
    (outside : Outside σ) (history : List (Visit σ)) (visit : Visit σ) (o : Outcome)
    (ho : ((ofTokens tokens settings host).visitBy (ofTokens tokens settings host).level visit
      ((ofTokens tokens settings host).session outside history).2).1 = some o) :
    (ofTokens tokens settings host).ReportsStops outside history visit o := by
  have hp := sound_ofTokens tokens settings host
  have hrest := (atRest_session hp outside history).1
  have hopening := stopReported_opening_iff (ofTokens tokens settings host) visit
    ((ofTokens tokens settings host).session outside history).2
  rw [stopReported_session hp] at hopening
  cases came_of_atRest hp hrest ho with
  | otherwise hother hsilent _ =>
    exact ⟨fun h => absurd h hother, fun h => absurd h hother, fun h => absurd h hother,
      fun h => absurd h hsilent⟩
  | first hhost hasked hnew _ _ hfatals =>
    refine ⟨fun _ => hasked, fun _ _ => hfatals, fun _ hgoes hreported => ?_, fun _ => hhost⟩
    rw [hopening.mpr ⟨hgoes, hreported⟩] at hnew
    cases hnew
  | again hhost hasked hold _ hsilent hfatals =>
    obtain ⟨hgoes, hreported⟩ := hopening.mp hold
    refine ⟨fun _ => hasked, fun _ hfirst => ?_, fun _ _ _ => hfatals, fun h => absurd h hsilent⟩
    rcases hfirst with hrestarts | hnew
    · exact absurd hrestarts hgoes
    · exact absurd hreported hnew

/-- A program with a routine that displays a number. -/
def counting : Engine Buffer :=
  ofTokens (scan
    "Module m()
    Display 1
End Module
Call m()
").1 {} (Buffer.host [])

/-- The host asks that runs be stopped. -/
def askStop : Visit Buffer := .between fun heap o => (heap, { o with stop := true })

theorem host_stop_reported_once_counting :
    ∃ o, (counting.visitBy counting.level (.program 5)
        (counting.session ⟨{}, false⟩ [askStop]).2).1 = some o ∧
      counting.StoppedByHost (.program 5) (counting.session ⟨{}, false⟩ [askStop]).2 o ∧
      ∃ span, o.fatals = [Machine.Problem.hostStop.wording.at span] := by
  have houtcome : ∃ o ∈ (counting.visitBy counting.level (.program 5)
      (counting.session ⟨{}, false⟩ [askStop]).2).1, ∃ q ∈ o.problems,
        (match q.1 with | .hostStop => true | _ => false) = true := by
    decide +kernel
  obtain ⟨o, ho, ⟨problem, span⟩, hq, hproblem⟩ := houtcome
  obtain rfl : problem = .hostStop := by
    cases problem with
    | hostStop => rfl
    | _ => cases hproblem
  have hreports := host_stop_reported_once _ _ _ _ _ _ o ho
  have hhost := hreports.only ⟨span, hq⟩
  exact ⟨o, ho, hhost, hreports.once hhost (Or.inl trivial)⟩

/-- The second routine that is stopped in a row says nothing. -/
theorem second_stop_unreported :
    ∃ o, (counting.visitBy counting.level (.routine 5 "m" [])
        (counting.session ⟨{}, false⟩ [askStop, .routine 5 "m" []]).2).1 = some o ∧
      counting.StoppedByHost (.routine 5 "m" [])
        (counting.session ⟨{}, false⟩ [askStop, .routine 5 "m" []]).2 o ∧ o.diagnostics = [] := by
  have houtcome : ∃ o ∈ (counting.visitBy counting.level (.routine 5 "m" [])
      (counting.session ⟨{}, false⟩ [askStop, .routine 5 "m" []]).2).1,
        o.ending = .stopped ∧ o.problems.length = 0 := by
    decide +kernel
  have hnoted : ∀ event ∈ counting.noted (.routine 5 "m" [])
      (counting.session ⟨{}, false⟩ [askStop, .routine 5 "m" []]).2, event.stops = false := by
    decide +kernel
  obtain ⟨o, ho, hstopped, hlength⟩ := houtcome
  have hproblems := List.length_eq_zero_iff.mp hlength
  refine ⟨o, ho, ⟨hstopped, hnoted, ?_⟩, ?_⟩
  · rw [hproblems]
    exact List.forall_mem_nil _
  · rw [Outcome.diagnostics, hproblems]
    rfl

end Engine

end Primer
