/-
Forgetting the journal.

A run with a journal follows the run without one: it gives the same results and, the journal aside,
goes through the same states, also when it is interrupted.  So every level, watched, follows the
level itself, and a session with a journal comes to what the session comes to.
-/
import Primer.Proofs.Run.Following
import Primer.Proofs.Run.Journal

namespace Primer

/-- The journal aside, the states are the same. -/
def Likeness.forgetting : Likeness (Recording σ) σ :=
  .linked Outside.forget (fun _ => rfl) fun _ => False

/-- Runs that differ in the journal only never part. -/
theorem Likeness.not_parted_forgetting {m : Machine (Recording σ)} :
    ¬ Likeness.forgetting.Parted m := fun ⟨_, _, h⟩ => h

theorem Host.alike_recording (host : Host σ) :
    host.recording.Alike Likeness.forgetting host :=
  ⟨fun _ => rfl, fun _ _ => rfl, fun _ _ _ _ => rfl⟩

theorem Visit.alike_recording (visit : Visit σ) : visit.recording.Alike Outside.forget visit := by
  cases visit with
  | program fuel => rfl
  | routine fuel name args => exact ⟨rfl, rfl, rfl⟩
  | between change => exact fun _ _ => rfl

/-- Nothing is lost by watching. -/
theorem Follows.watch {α : Type} {x : Run (Recording σ) α} {y : Run σ α}
    (hx : Follows .forgetting x y) (task : Task) : Follows .forgetting (task.watch x) y := by
  intro m
  have hvia : (m.note (.begun task m.forget)).via Likeness.forgetting.link =
    m.via Likeness.forgetting.link := rfl
  have hbegun : ∀ {m' : Machine (Recording σ)} (event : Event σ),
      (m.note (.begun task m.forget)).Continues m' → m.Continues (m'.note event) :=
    fun _ hm => ⟨hm.frames, hm.problems⟩
  rcases (hx (m.note (.begun task m.forget))).cases with
    ⟨a, m', hxm, hym, hm⟩ | ⟨e, m', n', hxm, hym, hm, hleft⟩ | ⟨-, hparted⟩
  · rw [hvia] at hym
    rw [Task.watch, hxm, hym]
    exact .ok (m := m'.note (.ended task m.forget m'.forget)) a (hbegun _ hm)
  · rw [hvia] at hym
    rw [Task.watch, hxm, hym]
    exact .error e (hbegun _ hm) hleft
  · exact absurd hparted Likeness.not_parted_forgetting

theorem Inner.Follows.watched {inner : Inner (Recording σ)} {plain : Inner σ}
    (h : inner.Follows .forgetting plain) : inner.watched.Follows .forgetting plain :=
  ⟨fun e => (h.eval e).watch _, fun s => (h.exec s).watch _, fun call => (h.run call).watch _⟩

namespace Engine

variable {engine : Engine σ}

/-- **A level that is watched follows the level itself.** -/
theorem follows_watchedLevel (n : Nat) :
    (engine.watchedLevel n).Follows .forgetting (engine.level n) := by
  induction n with
  | zero => exact Inner.Follows.watched ⟨fun _ => .throw, fun _ => .throw, fun _ => .throw⟩
  | succ n ih =>
    have hsettings : engine.recording.settings.Alike (fun _ => False) engine.settings :=
      engine.settings.alike_self
    exact Inner.Follows.watched ⟨evaluate_linked hsettings ih engine.host.alike_recording,
      execute_follows ih hsettings engine.host.alike_recording n, runRoutine_linked hsettings ih⟩

/-- What a visit or a session with a journal comes to without it. -/
def forgetPair (found : α × Machine (Recording σ)) : α × Machine σ := (found.1, found.2.forget)

theorem visitBy_mirrors (visit : Visit σ) (m : Machine (Recording σ)) :
    forgetPair (engine.recording.visitBy engine.watchedLevel visit.recording m) =
      engine.visitBy engine.level visit m.forget := by
  have hsettings : engine.recording.settings.Alike (fun _ => False) engine.settings :=
    engine.settings.alike_self
  refine ((visitBy_linked hsettings follows_watchedLevel engine.host visit.alike_recording
    m).resolve_left ?_).symm
  rintro ⟨_, _, _, _, hparts⟩
  exact hparts

theorem sessionBy_mirrors (visits : List (Visit σ)) (m : Machine (Recording σ)) :
    forgetPair (engine.recording.sessionBy engine.watchedLevel (visits.map Visit.recording) m) =
      engine.sessionBy engine.level visits m.forget := by
  have hsettings : engine.recording.settings.Alike (fun _ => False) engine.settings :=
    engine.settings.alike_self
  have hvisits : (visits.map Visit.recording).Forall₂ (Visit.Alike Outside.forget) visits := by
    rw [List.forall₂_map_left_iff, List.forall₂_same]
    exact fun visit _ => visit.alike_recording
  refine ((sessionBy_linked hsettings follows_watchedLevel hvisits m).resolve_left ?_).symm
  rintro ⟨_, _, _, _, hparts⟩
  exact hparts

/-- **Keeping a journal changes nothing about a session.** -/
theorem recordedSession_mirrors (engine : Engine σ) (outside : Outside σ) (visits : List (Visit σ)) :
    forgetPair (engine.recordedSession outside visits) = engine.session outside visits :=
  sessionBy_mirrors visits _

end Engine

/-! ### The journal of one visit -/

/-- The machine with an empty journal. -/
def Machine.record (m : Machine σ) : Machine (Recording σ) where
  stack := m.stack
  heap := m.heap
  calls := m.calls
  problems := m.problems
  stopReported := m.stopReported
  misses := m.misses
  outside := ⟨⟨m.outside.state, []⟩, m.outside.stop⟩

namespace Engine

/-- A visit with a journal of its own. -/
def recordedVisit (engine : Engine σ) (visit : Visit σ) (m : Machine σ) :
    Option Outcome × Machine (Recording σ) :=
  engine.recording.visitBy engine.watchedLevel visit.recording m.record

/-- All that is noted in a visit, the latest first. -/
def noted (engine : Engine σ) (visit : Visit σ) (m : Machine σ) : List (Event σ) :=
  (engine.recordedVisit visit m).2.outside.state.journal

theorem recordedVisit_mirrors (engine : Engine σ) (visit : Visit σ) (m : Machine σ) :
    forgetPair (engine.recordedVisit visit m) = engine.visitBy engine.level visit m :=
  visitBy_mirrors visit m.record

/-- A visit comes to the same with a journal of its own. -/
theorem outcome_recordedVisit (engine : Engine σ) (visit : Visit σ) (m : Machine σ) :
    (engine.recordedVisit visit m).1 = (engine.visitBy engine.level visit m).1 :=
  congrArg Prod.fst (recordedVisit_mirrors engine visit m)

/-- The states of these events: before and after what is run, and in the frame of every routine that
is let in. -/
inductive Met (engine : Engine σ) (events : List (Event σ)) : Machine σ → Prop
  | begun {task : Task} {s : Machine σ} (h : .begun task s ∈ events) : Met engine events s
  | entered {call : Call} {s : Machine σ} (h : .begun (.run call) s ∈ events)
      (hlimit : s.calls.size < engine.settings.callDepth) :
    Met engine events (s.enter call.this call.args (engine.program.routine call.routine).localCount)
  | ended {task : Task} {before after : Machine σ} (h : .ended task before after ∈ events) :
    Met engine events after

/-- The states that are met in a visit, the one at its end among them. -/
inductive MetIn (engine : Engine σ) (visit : Visit σ) (m : Machine σ) : Machine σ → Prop
  | noted {s : Machine σ} (h : engine.Met (engine.noted visit m) s) : MetIn engine visit m s
  | rested : MetIn engine visit m (engine.visitBy engine.level visit m).2

/-- The state in which a visit ended, before its problems were handed over. -/
structure EndedIn (engine : Engine σ) (visit : Visit σ) (m : Machine σ) (o : Outcome)
    (last : Machine (Recording σ)) : Prop where
  machine : (engine.recordedVisit visit m).2 = { last with problems := #[] }
  problems : o.problems = last.problems.toList

variable {engine : Engine σ} {visit : Visit σ} {m : Machine σ} {o : Outcome}

/-- Nothing is noted while nothing is run. -/
theorem noted_eq_nil (h : (engine.visitBy engine.level visit m).1 = none) :
    engine.noted visit m = [] := by
  cases visit with
  | program fuel => cases h
  | routine fuel name args => cases h
  | between change => rfl

theorem EndedIn.journal {last : Machine (Recording σ)} (h : engine.EndedIn visit m o last) :
    engine.noted visit m = last.outside.state.journal := by
  unfold noted
  rw [h.machine]

theorem EndedIn.final {last : Machine (Recording σ)} (h : engine.EndedIn visit m o last) :
    (engine.visitBy engine.level visit m).2 = { last with problems := #[] }.forget := by
  rw [← recordedVisit_mirrors engine visit m]
  show (engine.recordedVisit visit m).2.forget = _
  rw [h.machine]

theorem atRest_recordedOpening (hm : m.AtRest engine.program) (visit : Visit σ) :
    (engine.recording.opening visit.recording m.record).AtRest engine.program := by
  have hrecord : m.record.AtRest engine.recording.program :=
    ⟨⟨hm.stays.shape, hm.stays.calls⟩, hm.problems⟩
  exact atRest_opening hrecord visit.recording

/-- **A visit with a journal of its own ends as a contract says.** -/
theorem endedIn_recordedVisit {K : Contract engine.recording} (hfits : engine.program.Fits K.Fits)
    (hlevels : ∀ n, (engine.watchedLevel n).Honours K) (hp : engine.program.Sound)
    (hstart : K.Rests (engine.recording.opening visit.recording m.record))
    (ho : (engine.visitBy engine.level visit m).1 = some o) :
    ∃ last, engine.EndedIn visit m o last ∧
      (o.ending = .completed ∧ K.Step (Stage.rest engine.program)
          (engine.recording.opening visit.recording m.record) last ∨
        o.ending = .stopped ∧ K.Cut (Stage.rest engine.program) .stopped
          (engine.recording.opening visit.recording m.record) last ∨
        o.ending = .outOfFuel ∧ K.Cut (Stage.rest engine.program) .outOfFuel
          (engine.recording.opening visit.recording m.record) last) := by
  have hp' : engine.recording.program.Sound := hp
  rw [← outcome_recordedVisit] at ho
  have hends := ends_visitBy hp' hfits hlevels hstart ho
  generalize hfinal : (engine.recording.visitBy engine.watchedLevel visit.recording m.record).2 =
    final at hends
  cases hends with
  | completed h => exact ⟨_, ⟨hfinal, rfl⟩, Or.inl ⟨rfl, h⟩⟩
  | stopped h => exact ⟨_, ⟨hfinal, rfl⟩, Or.inr (Or.inl ⟨rfl, h⟩)⟩
  | outOfFuel h => exact ⟨_, ⟨hfinal, rfl⟩, Or.inr (Or.inr ⟨rfl, h⟩)⟩

/-- All that is noted in a visit is sound. -/
theorem sound_noted (hp : engine.program.Sound) (hm : m.AtRest engine.program) (visit : Visit σ) :
    ∀ event ∈ engine.noted visit m, event.Sound engine.program := by
  have hK := journals_soundJournal engine
  have hstart : (engine.recording.opening visit.recording m.record).SoundJournal engine.program := by
    cases visit <;> exact List.forall_mem_nil _
  cases ho : (engine.visitBy engine.level visit m).1 with
  | none =>
    rw [noted_eq_nil ho]
    exact List.forall_mem_nil _
  | some o =>
    obtain ⟨last, hlast, hend⟩ := endedIn_recordedVisit hK.fits (honours_watchedLevel hK hp) hp
      ⟨atRest_recordedOpening hm visit, hstart⟩ ho
    rw [hlast.journal]
    rcases hend with ⟨-, hstep⟩ | ⟨-, hcut⟩ | ⟨-, hcut⟩
    · exact hstep.holds
    · exact hcut.fails
    · exact hcut.fails

end Engine

end Primer
