/-
A journal of everything that is run in a session.

To speak about every call that is made and every state that is met in a session, the session is
run with a host that keeps a journal.  Each time an expression, a statement or a routine is run,
the state before and the state after it are noted.  Nothing else differs: the parts of the program
are run by the same functions, and `Proofs/Run/Erasure.lean` shows that forgetting the journal gives
the session as it is without one.
-/
import Primer.Proofs.Run.Session

namespace Primer

variable {engine : Engine σ} {m : Machine σ}

/-- A part of a program that is run. -/
inductive Task where
  | eval (e : Expr)
  | exec (s : Stmt)
  | run (call : Call)

inductive Event (σ : Type) where
  | begun (task : Task) (m : Machine σ)
  | ended (task : Task) (before after : Machine σ)

/-- The state in which the event was noted. -/
def Event.state : Event σ → Machine σ
  | .begun _ m => m
  | .ended _ _ after => after

/-- The state of a host that keeps a journal. -/
structure Recording (σ : Type) where
  state : σ
  /-- What has been noted, the latest first. -/
  journal : List (Event σ) := []

/-! ### Keeping a journal -/

namespace Outside

def forget (o : Outside (Recording σ)) : Outside σ := ⟨o.state.state, o.stop⟩

/-- What the host without a journal has come to, with the journal as it was. -/
def carry (o : Outside (Recording σ)) (plain : Outside σ) : Outside (Recording σ) :=
  ⟨⟨plain.state, o.state.journal⟩, plain.stop⟩

def note (event : Event σ) (o : Outside (Recording σ)) : Outside (Recording σ) :=
  { o with state := { o.state with journal := event :: o.state.journal } }

end Outside

def Machine.forget (m : Machine (Recording σ)) : Machine σ where
  stack := m.stack
  heap := m.heap
  calls := m.calls
  problems := m.problems
  stopReported := m.stopReported
  misses := m.misses
  outside := m.outside.forget

def Machine.note (event : Event σ) (m : Machine (Recording σ)) : Machine (Recording σ) :=
  { m with outside := m.outside.note event }

def Host.recording (host : Host σ) : Host (Recording σ) where
  readLine o :=
    let (line, plain) := host.readLine o.forget
    (line, o.carry plain)
  writeLine line o := o.carry (host.writeLine line o.forget)
  invoke name args heap o :=
    let (answer, heap, plain) := host.invoke name args heap o.forget
    (answer, heap, o.carry plain)

def Visit.recording : Visit σ → Visit (Recording σ)
  | .program fuel => .program fuel
  | .routine fuel name args => .routine fuel name args
  | .between change => .between fun heap o =>
    let (heap, plain) := change heap o.forget
    (heap, o.carry plain)

/-- Run a part of a program and note the states before and after it. -/
def Task.watch (task : Task) (x : Run (Recording σ) α) : Run (Recording σ) α := fun m =>
  match x (m.note (.begun task m.forget)) with
  | .ok a m' => .ok a (m'.note (.ended task m.forget m'.forget))
  | .error e m' => .error e (m'.note (.ended task m.forget m'.forget))

def Inner.watched (inner : Inner (Recording σ)) : Inner (Recording σ) where
  eval e := (Task.eval e).watch (inner.eval e)
  exec s := (Task.exec s).watch (inner.exec s)
  run call := (Task.run call).watch (inner.run call)

namespace Engine

def recording (engine : Engine σ) : Engine (Recording σ) :=
  ⟨engine.program, engine.settings, engine.host.recording⟩

/-- The levels of a program, all of them watched. -/
def watchedLevel (engine : Engine σ) : Nat → Inner (Recording σ)
  | 0 => (engine.recording.level 0).watched
  | n + 1 => Inner.watched
    { eval := fun e m => engine.recording.evaluate (engine.watchedLevel n) e m
      exec := fun s m => engine.recording.execute (engine.watchedLevel n) n s m
      run := fun call m => engine.recording.runRoutine (engine.watchedLevel n) call m }

/-- A session with a journal. -/
def recordedSession (engine : Engine σ) (outside : Outside σ) (visits : List (Visit σ)) :
    List Outcome × Machine (Recording σ) :=
  engine.recording.sessionBy engine.watchedLevel (visits.map Visit.recording)
    (engine.recording.start ⟨⟨outside.state, []⟩, outside.stop⟩)

/-- All that is noted in a session. -/
def journal (engine : Engine σ) (outside : Outside σ) (visits : List (Visit σ)) :
    List (Event σ) :=
  (engine.recordedSession outside visits).2.outside.state.journal

end Engine

/-! ### What is noted -/

/-- The part of the program may be run on the stage. -/
def Task.Fits (p : Program) (g : Stage) : Task → Prop
  | .eval e => g.Knows p e.notes
  | .exec s => g.Knows p s.notes ∧ (s.declared ≠ [] → g.home.HoldsStatements)
  | .run call => g.Callable p call

/-- The stage that the part of the program keeps. -/
def Task.stage (g : Stage) : Task → Stage
  | .run call => g.during call
  | _ => g

/-- The part of the program is not the end of the run as soon as it is begun: a routine is let in, and
a statement is not one that stops the run unless the host does so before. -/
def Task.GoesOn (limit : Nat) (m : Machine σ) : Task → Prop
  | .run _ => m.calls.size < limit
  | .exec (.stop _) => m.outside.stop
  | _ => True

theorem Task.at_stage {task : Task} {g : Stage} : m.At (task.stage g) ↔ m.At g := by
  cases task <;> exact ⟨fun h => ⟨h.shape, h.calls⟩, fun h => ⟨h.shape, h.calls⟩⟩

/-- Only a statement that stops the run ends it as soon as it is begun. -/
theorem Task.ends_exec {s : Stmt} {limit : Nat} (h : ¬ (Task.exec s).GoesOn limit m) :
    ∃ span, s = .stop span ∧ m.outside.stop = false := by
  cases s with
  | stop span => exact ⟨span, rfl, Bool.eq_false_iff.mpr h⟩
  | _ => exact absurd trivial h

/-- A statement that stops the run does nothing else. -/
theorem Engine.execute_stop {inner : Inner σ} {turns : Nat} {span : Span}
    (h : m.outside.stop = false) :
    engine.execute inner turns (.stop span) m = .error .stopped m := by
  have hheed : Run.heedHost (Stmt.stop span).span m = .ok () m := by
    simp only [Run.heedHost, Run.look, Bind.bind, EStateM.bind, h, Bool.false_eq_true, if_false]
    rfl
  exact Run.bind_of_ok hheed

/-! ### Contracts and the journal -/

section

variable {engine : Engine σ} {K : Contract engine.recording} {g : Stage} {m m' : Machine (Recording σ)}

theorem Stage.Keeps.note {p : Program} (h : g.Keeps p m m') (event : Event σ) :
    g.Keeps p m (m'.note event) :=
  h.trans (.of_stack h.stays rfl rfl rfl)

theorem Stage.Keeps.forget {p : Program} (h : g.Keeps p m m') : g.Keeps p m.forget m'.forget :=
  ⟨⟨h.stays.shape, h.stays.calls⟩, h.cells, h.problems⟩

/-- What is noted before and after a part of the program is run is a pair of brackets around it. -/
theorem Obeys.watch {α : Type} {x : Run (Recording σ) α} {Q : α → Machine (Recording σ) → Prop}
    (task : Task) (hm : m.At g) (hx : Obeys K g (m.note (.begun task m.forget)) x Q)
    (hended : ∀ a m', K.Step g (m.note (.begun task m.forget)) m' → Q a m' →
      K.Holds g (m'.note (.ended task m.forget m'.forget)) ∧
        K.Leads g m (m'.note (.ended task m.forget m'.forget)))
    (hcut : ∀ e m', K.Cut g e (m.note (.begun task m.forget)) m' →
      K.Fails g e m (m'.note (.ended task m.forget m'.forget))) :
    Obeys K g m (task.watch x) Anything := by
  have hbegun := (Stage.Keeps.refl (p := engine.program) hm).note (.begun task m.forget)
  cases hres : x (m.note (.begun task m.forget)) with
  | ok a m' =>
    obtain ⟨hstep, hQ⟩ := hx.ok hres
    obtain ⟨hholds, hleads⟩ := hended a m' hstep hQ
    refine .of_ok (a := a) ?_ ⟨(hbegun.trans hstep.keeps).note _, hholds, hleads⟩ trivial
    simp only [Task.watch, hres]
  | error e m' =>
    have hcut' := hx.error hres
    refine .of_error ?_ ⟨(hbegun.trans hcut'.keeps).note _, hcut e m' hcut'⟩
    simp only [Task.watch, hres]

end

/-- What a contract for runs with a journal has to do with noting that something is run.  What the
fuel does not suffice for is noted too. -/
structure Contract.Notes {engine : Engine σ} (K : Contract engine.recording) (task : Task) : Prop where
  begun : ∀ {g : Stage} {m : Machine (Recording σ)}, g.Ready engine.program →
    task.Fits engine.program g → K.Here g m → task.GoesOn engine.settings.callDepth m →
      K.Holds g (m.note (.begun task m.forget))
  ended : ∀ {g : Stage} {m m' : Machine (Recording σ)}, g.Ready engine.program →
    task.Fits engine.program g → K.Here g m → (task.stage g).Keeps engine.program m m' →
    K.Holds g m' → K.Leads g (m.note (.begun task m.forget)) m' →
    (∀ s, task = .exec s → ∀ x ∈ s.declared, K.Declared g m' x) →
      K.Holds g (m'.note (.ended task m.forget m'.forget)) ∧
        K.Leads g m (m'.note (.ended task m.forget m'.forget))
  cut : ∀ {g : Stage} {m m' : Machine (Recording σ)} {e : Interrupt},
    g.Ready engine.program → task.Fits engine.program g → K.Here g m →
    (task.stage g).Keeps engine.program m m' → K.Fails g e (m.note (.begun task m.forget)) m' →
      K.Fails g e m (m'.note (.ended task m.forget m'.forget))
  starved : ∀ {g : Stage} {m : Machine (Recording σ)}, g.Ready engine.program →
    task.Fits engine.program g → K.Here g m →
      K.Fails g .outOfFuel (m.note (.begun task m.forget)) (m.note (.begun task m.forget))

/-- What it has to do with calls, when the bodies of the routines obey this contract.  A call that is
not let in is noted too. -/
structure Contract.Calls {engine : Engine σ} (K body : Contract engine.recording) : Prop where
  refused : ∀ {g : Stage} {m : Machine (Recording σ)} {call : Call}, g.Ready engine.program →
    g.Callable engine.program call → K.Here g m → engine.settings.callDepth ≤ m.calls.size →
      K.Fails g .stopped (m.note (.begun (.run call) m.forget))
        ((m.note (.begun (.run call) m.forget)).report (.callDepth engine.settings.callDepth
          (engine.program.routine call.routine).name) call.span)
  enter : ∀ {g : Stage} {m : Machine (Recording σ)} {call : Call} {inside : Option ClassId},
    g.Ready engine.program → g.Callable engine.program call → K.Owned g m call → K.Here g m →
    m.calls.size < engine.settings.callDepth → engine.program.Around call.routine inside →
      body.Holds (g.enter engine.program call inside)
        ((m.note (.begun (.run call) m.forget)).enter call.this call.args
          (engine.program.routine call.routine).localCount)
  leave : ∀ {g : Stage} {m m' : Machine (Recording σ)} {call : Call} {inside : Option ClassId},
    g.Ready engine.program → g.Callable engine.program call → K.Here g m →
    m.calls.size < engine.settings.callDepth →
    body.Step (g.enter engine.program call inside)
      ((m.note (.begun (.run call) m.forget)).enter call.this call.args
        (engine.program.routine call.routine).localCount) m' →
      K.Holds g m'.leave ∧ K.Leads g (m.note (.begun (.run call) m.forget)) m'.leave
  unwound : ∀ {g : Stage} {m m' : Machine (Recording σ)} {call : Call} {inside : Option ClassId}
    {e : Interrupt}, g.Ready engine.program → g.Callable engine.program call → K.Here g m →
    m.calls.size < engine.settings.callDepth →
    body.Cut (g.enter engine.program call inside) e
      ((m.note (.begun (.run call) m.forget)).enter call.this call.args
        (engine.program.routine call.routine).localCount) m' →
      K.Fails g e (m.note (.begun (.run call) m.forget)) m'.leave

/-- What it has to do with noting, declaring, stopping and calling. -/
structure Contract.Journals {engine : Engine σ} (K : Contract engine.recording) : Prop
    extends K.Calls K where
  fits : engine.program.Fits K.Fits
  notes : ∀ task, K.Notes task
  declares : ∀ {g : Stage} {m : Machine (Recording σ)} {s : Stmt} {x : VarId},
    K.Fits g.home.routine? s → x ∈ s.declared → K.Assigns g m x
  stop : ∀ {g : Stage} {m : Machine (Recording σ)} {span : Span}, g.Ready engine.program →
    K.Here g m → m.outside.stop = false →
      K.Fails g .stopped (m.note (.begun (.exec (.stop span)) m.forget))
        (m.note (.begun (.exec (.stop span)) m.forget))

namespace Contract

variable {engine : Engine σ} {K body : Contract engine.recording} {g : Stage}
  {m : Machine (Recording σ)} {task : Task} {α : Type} {x : Run (Recording σ) α}

/-- A part of the program that is watched. -/
theorem Notes.watch (hK : K.Notes task) (ready : g.Ready engine.program)
    (hfits : task.Fits engine.program g) (h : K.Here g m)
    (hx : Obeys K (task.stage g) (m.note (.begun task m.forget)) x
      fun _ m' => ∀ s, task = .exec s → ∀ x ∈ s.declared, K.Declared g m' x) :
    Obeys K (task.stage g) m (task.watch x) Anything := by
  have hstage : m.At (task.stage g) := Task.at_stage.mpr h.stays
  have hbegun := (Stage.Keeps.refl (p := engine.program) hstage).note (.begun task m.forget)
  -- The stage that the part keeps differs from the one it is run at in what may be written only.
  obtain ⟨hshape, hcalls, hhome⟩ : (task.stage g).shape = g.shape ∧
      (task.stage g).calls = g.calls ∧ (task.stage g).home = g.home := by
    cases task <;> exact ⟨rfl, rfl, rfl⟩
  obtain ⟨hholds, hleads, hfails⟩ := K.widen hshape hcalls hhome
  obtain ⟨hholds', hleads', hfails'⟩ := K.widen hshape.symm hcalls.symm hhome.symm
  refine .watch task hstage hx (fun _ m' hstep hdeclared => ?_) fun e m' hcut => ?_
  · obtain ⟨hend, hlead⟩ := hK.ended ready hfits h (hbegun.trans hstep.keeps)
      (hholds' _ hstep.holds) (hleads' _ _ hstep.leads) hdeclared
    exact ⟨hholds _ hend, hleads _ _ hlead⟩
  · exact hfails _ _ _ (hK.cut ready hfits h (hbegun.trans hcut.keeps) (hfails' _ _ _ hcut.fails))

theorem Notes.starve (hK : K.Notes task) (ready : g.Ready engine.program)
    (hfits : task.Fits engine.program g) (h : K.Here g m) :
    Obeys K (task.stage g) m (task.watch (throw .outOfFuel : Run (Recording σ) α)) Anything := by
  refine hK.watch ready hfits h (.of_error rfl ⟨.refl ?_, ?_⟩)
  · exact Task.at_stage.mpr ⟨h.stays.shape, h.stays.calls⟩
  · have hstarved := hK.starved ready hfits h
    cases task with
    | eval e => exact hstarved
    | exec s => exact hstarved
    | run call => exact (K.during g call).2.2 _ _ _ hstarved

theorem Notes.here (hK : K.Notes task) (ready : g.Ready engine.program)
    (hfits : task.Fits engine.program g) (h : K.Here g m)
    (hgoes : task.GoesOn engine.settings.callDepth m) : K.Here g (m.note (.begun task m.forget)) :=
  ⟨⟨h.stays.shape, h.stays.calls⟩, hK.begun ready hfits h hgoes⟩

theorem Calls.watchRoutine (hK : K.Calls body) {call : Call} (hnotes : K.Notes (.run call))
    (hfits : engine.program.Fits body.Fits) (hp : engine.program.Sound)
    {inner : Inner (Recording σ)} (hinner : inner.Honours body) (ready : g.Ready engine.program)
    (h : K.Here g m) (hcall : g.Callable engine.program call) (howned : K.Owned g m call) :
    Obeys K (g.during call) (m.note (.begun (.run call) m.forget))
      (engine.recording.runRoutine inner call) Anything := by
  by_cases hlimit : engine.settings.callDepth ≤ m.calls.size
  · have hstage : (m.note (.begun (.run call) m.forget)).At (g.during call) :=
      ⟨h.stays.shape, h.stays.calls⟩
    refine .of_error (Engine.runRoutine_refused hlimit)
      ⟨.report hstage (fun _ => Or.inr (Or.inl ⟨_, _, rfl⟩)) call.span, ?_⟩
    exact (K.during g call).2.2 _ _ _ (hK.refused ready hcall h hlimit)
  · have hlimit := Nat.lt_of_not_le hlimit
    have hbegun : K.Here g (m.note (.begun (.run call) m.forget)) := hnotes.here ready hcall h hlimit
    have hp : engine.recording.program.Sound := hp
    exact Engine.runRoutine_obeys hp hinner ready hbegun hcall (hfits.bodies _ hcall.routine)
      (fun inside haround _ => hK.enter ready hcall howned h hlimit haround)
      (fun inside m' hstep => hK.leave ready hcall h hlimit hstep)
      fun inside e m' hcut => hK.unwound ready hcall h hlimit hcut

end Contract

namespace Engine

variable {engine : Engine σ} {K body : Contract engine.recording}

/-- Without fuel nothing is evaluated and no routine is run. -/
theorem answers_watchedLevel_zero (hnotes : ∀ task, (∀ s, task ≠ .exec s) → K.Notes task) :
    (engine.watchedLevel 0).Answers K :=
  ⟨fun {_ _ e} ready h he => (hnotes (.eval e) fun _ => nofun).starve ready he h,
    fun {_ _ call} ready h hcall _ => (hnotes (.run call) fun _ => nofun).starve ready hcall h⟩

/-- Expressions and calls obey a contract if they do so on the level below, and if the bodies of the
routines obey theirs. -/
theorem answers_watchedLevel_succ (hnotes : ∀ task, (∀ s, task ≠ .exec s) → K.Notes task)
    (hcalls : K.Calls body) (hfits : engine.program.Fits body.Fits) (hp : engine.program.Sound)
    {n : Nat} (hanswers : (engine.watchedLevel n).Answers K)
    (hbody : (engine.watchedLevel n).Honours body) : (engine.watchedLevel (n + 1)).Answers K := by
  have hp' : engine.recording.program.Sound := hp
  refine ⟨fun {_ _ e} ready h he => ?_, fun {_ _ call} ready h hcall howned => ?_⟩
  · have hK := hnotes (.eval e) fun _ => nofun
    have h' := hK.here ready he h trivial
    exact hK.watch ready he h ((evaluate_obeys hp' hanswers ready h' he).mono fun _ _ _ _ _ => nofun)
  · have hK := hnotes (.run call) fun _ => nofun
    exact hK.watch ready hcall h ((hcalls.watchRoutine hK hfits hp hbody ready h hcall howned).mono
      fun _ _ _ _ _ => nofun)

/-- **Every level that is watched obeys a contract that goes with a journal.** -/
theorem honours_watchedLevel (hK : K.Journals) (hp : engine.program.Sound) (n : Nat) :
    (engine.watchedLevel n).Honours K := by
  have hp' : engine.recording.program.Sound := hp
  have hnotes : ∀ task, (∀ s, task ≠ .exec s) → K.Notes task := fun task _ => hK.notes task
  induction n with
  | zero =>
    exact ⟨answers_watchedLevel_zero hnotes,
      fun {_ _ s} ready h hhome hs _ => (hK.notes (.exec s)).starve ready ⟨hs, fun _ => hhome⟩ h⟩
  | succ n ih =>
    refine ⟨answers_watchedLevel_succ hnotes hK.toCalls hK.fits hp ih.toAnswers ih,
      fun {_ m s} ready h hhome hs hfits => ?_⟩
    have hfit : (Task.exec s).Fits engine.program _ := ⟨hs, fun _ => hhome⟩
    refine (hK.notes (.exec s)).watch ready hfit h ?_
    by_cases hgoes : (Task.exec s).GoesOn engine.settings.callDepth m
    · have h' := (hK.notes (.exec s)).here ready hfit h hgoes
      refine (execute_obeys hp' ih ready h' hhome hs hfits (fun x hx => hK.declares hfits.self hx)
        ?_).mono fun _ _ _ hdone other heq => ?_
      · rintro span rfl hflag
        exact hK.stop ready h hflag
      · cases heq
        exact hdone
    · obtain ⟨span, rfl, hflag⟩ := Task.ends_exec hgoes
      exact .of_error (execute_stop hflag) ⟨.refl ⟨h.stays.shape, h.stays.calls⟩, hK.stop ready h hflag⟩

end Engine

/-! ### What is noted -/

/-- What is noted happened on a stage that was set for it, and was kept to that stage. -/
def Event.Sound (p : Program) : Event σ → Prop
  | .begun task m => ∃ g : Stage, g.Ready p ∧ task.Fits p g ∧ m.At g
  | .ended task before after => ∃ g : Stage, g.Ready p ∧ task.Fits p g ∧ before.At g ∧
    (task.stage g).Keeps p before after

/-- All that has been noted is sound. -/
def Machine.SoundJournal (p : Program) (m : Machine (Recording σ)) : Prop :=
  ∀ event ∈ m.outside.state.journal, event.Sound p

theorem Machine.SoundJournal.note {p : Program} {m : Machine (Recording σ)} (h : m.SoundJournal p)
    {event : Event σ} (hevent : event.Sound p) : (m.note event).SoundJournal p :=
  List.forall_mem_cons.mpr ⟨hevent, h⟩

/-- What is done at one go leaves the journal alone. -/
theorem Engine.Acts.journal {m m' : Machine (Recording σ)} (h : engine.recording.Acts m m') :
    m'.outside.state.journal = m.outside.state.journal := by
  cases h <;> rfl

theorem Engine.Stops.journal {e : Interrupt} {m m' : Machine (Recording σ)}
    (h : engine.recording.Stops e m m') : m'.outside.state.journal = m.outside.state.journal := by
  cases h <;> rfl

theorem Machine.outside_write (m : Machine σ) (place : Place) (v : Value) :
    (m.write place v).outside = m.outside := by
  unfold Machine.write
  split <;> rfl

/-- The contract that the journal is sound. -/
def Contract.soundJournal (engine : Engine σ) : Contract engine.recording where
  Holds := fun _ m => m.SoundJournal engine.program
  Leads := fun _ _ _ => True
  Fails := fun _ _ _ m' => m'.SoundJournal engine.program
  refl := fun _ _ => trivial
  trans := fun _ _ => trivial
  interrupted := fun _ h => h
  widen := fun _ _ _ => ⟨fun _ h => h, fun _ _ _ => trivial, fun _ _ _ h => h⟩
  acts := fun _ h ha => ⟨fun event hevent => h event (ha.journal ▸ hevent), trivial⟩
  stops := fun _ h hs => fun event hevent => h event (hs.journal ▸ hevent)
  stores := fun {_ m place _ v} _ _ h _ _ _ =>
    ⟨fun event hevent => h event (m.outside_write place v ▸ hevent), trivial⟩
  misses := fun _ _ h _ _ _ => ⟨h, trivial⟩
  makes := fun _ _ _ h _ => h
  made := fun _ _ _ h _ => ⟨h, trivial⟩
  unmade := fun _ _ _ h => h

namespace Engine

variable {engine : Engine σ}

theorem notes_soundJournal (engine : Engine σ) (task : Task) :
    (Contract.soundJournal engine).Notes task where
  begun := fun ready hfits h _ =>
    h.holds.note ⟨_, ready, hfits, h.stays.shape, h.stays.calls⟩
  ended := fun ready hfits h hkeeps hm' _ _ =>
    ⟨hm'.note ⟨_, ready, hfits, ⟨h.stays.shape, h.stays.calls⟩, hkeeps.forget⟩, trivial⟩
  cut := fun ready hfits h hkeeps hm' =>
    hm'.note ⟨_, ready, hfits, ⟨h.stays.shape, h.stays.calls⟩, hkeeps.forget⟩
  starved := fun ready hfits h => h.holds.note ⟨_, ready, hfits, h.stays.shape, h.stays.calls⟩

theorem journals_soundJournal (engine : Engine σ) : (Contract.soundJournal engine).Journals where
  fits := Program.fits_of_forall (fun _ _ => trivial) _
  notes := notes_soundJournal engine
  declares := fun _ _ => trivial
  stop := fun ready h _ =>
    h.holds.note ⟨_, ready, ⟨List.forall_mem_nil _, fun h => absurd rfl h⟩, h.stays.shape, h.stays.calls⟩
  refused := fun ready hcall h _ =>
    h.holds.note ⟨_, ready, hcall, h.stays.shape, h.stays.calls⟩
  enter := fun ready hcall _ h _ _ => h.holds.note ⟨_, ready, hcall, h.stays.shape, h.stays.calls⟩
  leave := fun _ _ _ _ hstep => ⟨hstep.holds, trivial⟩
  unwound := fun _ _ _ _ hcut => hcut.fails

/-- **All that is noted in a session is sound.** -/
theorem sound_journal (hp : engine.program.Sound) (outside : Outside σ) (visits : List (Visit σ)) :
    ∀ event ∈ engine.journal outside visits, event.Sound engine.program := by
  have hp' : engine.recording.program.Sound := hp
  have hK := journals_soundJournal engine
  refine (rests_sessionBy hp' hK.fits (honours_watchedLevel hK hp) ?_ ?_ ?_).1.holds
  · exact ⟨fun h => h, fun h => h, fun _ h => h⟩
  · intro visit hvisit
    obtain ⟨plain, -, rfl⟩ := List.mem_map.mp hvisit
    cases plain with
    | program fuel => exact trivial
    | routine fuel name args => exact trivial
    | between change => exact fun _ h => h
  · exact ⟨atRest_start _, List.forall_mem_nil _⟩

end Engine

end Primer
