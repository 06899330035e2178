/-
A log of everything that passes between a program and its host.

Hosts are functions of what they keep, so two runs that leave a host with the same state need not have
asked it for the same things.  To speak about what a host is asked for, the host is made to keep a log:
the lines that were read and written, the routines that were run for the program, with the arrays and
objects before and after, and what the host changed between visits.  As with the journal, nothing else
differs, and `loggedSession_mirrors` says so.
-/
import Primer.Proofs.Run.Following

namespace Primer

/-- Something that passes between a program and its host. -/
inductive Interaction where
  | read (line : Option String)
  | wrote (line : String)
  | invoked (name : String) (args : List Value) (before : Heap) (answer : Option Value) (after : Heap)
  /-- The host changes what it shares with the program while the program does not run. -/
  | changed (before after : Heap)

/-- The state of a host that keeps a log. -/
structure Logged (σ : Type) where
  state : σ
  /-- What has passed, the latest first. -/
  log : List Interaction := []

namespace Outside

def unlogged (o : Outside (Logged σ)) : Outside σ := ⟨o.state.state, o.stop⟩

/-- What the host without a log has come to, with one more line in the log. -/
def logging (o : Outside (Logged σ)) (plain : Outside σ) (i : Interaction) : Outside (Logged σ) :=
  ⟨⟨plain.state, i :: o.state.log⟩, plain.stop⟩

/-- The host begins to keep a log. -/
def withLog (o : Outside σ) : Outside (Logged σ) := ⟨⟨o.state, []⟩, o.stop⟩

end Outside

def Host.logging (host : Host σ) : Host (Logged σ) where
  readLine o :=
    let (line, plain) := host.readLine o.unlogged
    (line, o.logging plain (.read line))
  writeLine line o := o.logging (host.writeLine line o.unlogged) (.wrote line)
  invoke name args heap o :=
    let (answer, after, plain) := host.invoke name args heap o.unlogged
    (answer, after, o.logging plain (.invoked name args heap answer after))

def Visit.logging : Visit σ → Visit (Logged σ)
  | .program fuel => .program fuel
  | .routine fuel name args => .routine fuel name args
  | .between change => .between fun heap o =>
    let (after, plain) := change heap o.unlogged
    (after, o.logging plain (.changed heap after))

/-- The log aside, the states are the same. -/
def Likeness.unlogging : Likeness (Logged σ) σ :=
  .linked Outside.unlogged (fun _ => rfl) fun _ => False

theorem Host.alike_logging (host : Host σ) : host.logging.Alike Likeness.unlogging host :=
  ⟨fun _ => rfl, fun _ _ => rfl, fun _ _ _ _ => rfl⟩

theorem Visit.alike_logging (visit : Visit σ) : visit.logging.Alike Outside.unlogged visit := by
  cases visit with
  | program fuel => rfl
  | routine fuel name args => exact ⟨rfl, rfl, rfl⟩
  | between change => exact fun _ _ => rfl

namespace Engine

def logging (engine : Engine σ) : Engine (Logged σ) :=
  ⟨engine.program, engine.settings, engine.host.logging⟩

/-- A session with a log. -/
def loggedSession (engine : Engine σ) (outside : Outside σ) (visits : List (Visit σ)) :
    List Outcome × Machine (Logged σ) :=
  engine.logging.session outside.withLog (visits.map Visit.logging)

/-- All that passes between program and host in a session, the latest first. -/
def interactions (engine : Engine σ) (outside : Outside σ) (visits : List (Visit σ)) :
    List Interaction :=
  (engine.loggedSession outside visits).2.outside.state.log

/-- **Keeping a log changes nothing about a session.** -/
theorem loggedSession_mirrors (engine : Engine σ) (outside : Outside σ) (visits : List (Visit σ)) :
    engine.session outside visits =
      linkedPair Outside.unlogged (engine.loggedSession outside visits) := by
  have hsettings : engine.logging.settings.Alike (fun _ => False) engine.settings :=
    engine.settings.alike_self
  have hvisits : (visits.map Visit.logging).Forall₂ (Visit.Alike Outside.unlogged) visits := by
    rw [List.forall₂_map_left_iff, List.forall₂_same]
    exact fun visit _ => visit.alike_logging
  refine (sessionBy_linked hsettings (level_linked hsettings engine.host.alike_logging) hvisits
    (engine.logging.start outside.withLog)).resolve_left ?_
  rintro ⟨_, _, _, _, hparts⟩
  exact hparts

end Engine

end Primer
