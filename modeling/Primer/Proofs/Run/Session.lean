/-
Sessions: what a host does with a program, one thing after another.

A host runs the program, calls routines of it by name, and in between does as it likes with
what it shares with the program.  Between two visits the machine is at rest: no call is active
and the stack holds the statics alone.  A visit brings the machine back to rest however it
ends, so what one visit needs is there for every visit of a session.
-/
import Primer.Proofs.Program.Reading
import Primer.Proofs.Run.Statement
import Primer.Session

namespace Primer

/-- One thing that a host does with a program. -/
inductive Visit (σ : Type) where
  /-- Run the program. -/
  | program (fuel : Nat)
  /-- Call a routine by name. -/
  | routine (fuel : Nat) (name : String) (args : List Value)
  /-- Change what is shared with the program while it does not run. -/
  | between (change : Heap → Outside σ → Heap × Outside σ)

namespace Engine

/-- What runs the program in a list of tokens. -/
def ofTokens (tokens : List Token) (settings : Settings) (host : Host σ) : Engine σ :=
  ⟨(Program.ofTokens tokens).1, settings, host⟩

theorem sound_ofTokens (tokens : List Token) (settings : Settings) (host : Host σ) :
    (ofTokens tokens settings host).program.Sound := by
  have hfinished := finished_readFrom tokens
  exact ⟨hfinished.wellAddressed, hfinished.wellLinked,
    fun _ hhome x hx => hfinished.sees (hfinished.allows hhome (.mention x) hx),
    fun _ hhome x rank hx => (hfinished.allows hhome (.sized x rank) hx).2,
    fun _ hid _ hinside _ hc => hfinished.around_eq hid hinside hc,
    fun _ _ _ hslot => hfinished.slot_lt hslot⟩

/-- Make a visit, with `levels` to run the parts of the program. -/
def visitBy (engine : Engine σ) (levels : Nat → Inner σ) :
    Visit σ → Machine σ → Option Outcome × Machine σ
  | .program fuel, m =>
    let (outcome, m) := engine.runProgramBy (levels fuel) m
    (some outcome, m)
  | .routine fuel name args, m =>
    let (outcome, m) := engine.callRoutineBy (levels fuel) name args m
    (some outcome, m)
  | .between change, m =>
    let (heap, outside) := change m.heap m.outside
    (none, { m with heap, outside })

/-- The state in which a visit begins. -/
def opening (engine : Engine σ) : Visit σ → Machine σ → Machine σ
  | .program _, m => engine.fresh m
  | _, m => m

/-- Make visits one after another.  It gives what the runs among them came to. -/
def sessionBy (engine : Engine σ) (levels : Nat → Inner σ) :
    List (Visit σ) → Machine σ → List Outcome × Machine σ
  | [], m => ([], m)
  | visit :: rest, m =>
    let (outcome, m) := engine.visitBy levels visit m
    let (outcomes, m) := engine.sessionBy levels rest m
    (outcome.toList ++ outcomes, m)

/-- A session of the program, from its very start. -/
def session (engine : Engine σ) (outside : Outside σ) (visits : List (Visit σ)) :
    List Outcome × Machine σ :=
  engine.sessionBy engine.level visits (engine.start outside)

/-- The last visit of a session finds what the visits before have left. -/
theorem session_concat (engine : Engine σ) (outside : Outside σ) (visits : List (Visit σ))
    (visit : Visit σ) : (engine.session outside (visits ++ [visit])).2
      = (engine.visitBy engine.level visit (engine.session outside visits).2).2 := by
  unfold session
  generalize engine.start outside = m
  induction visits generalizing m with
  | nil => rfl
  | cons first rest ih => exact ih _

end Engine

/-- The stage between visits. -/
def Stage.rest (p : Program) : Stage where
  shape := (Stack.withStatics p.symbols.staticCount).shape
  calls := #[]
  home := none
  writable := fun _ => True

theorem Stage.ready_rest (p : Program) : (Stage.rest p).Ready p where
  good := by
    have haliases : ∀ (t : Nat) place,
        (Stage.rest p).shape.aliases[t]? ≠ some (some place) := by
      intro t place hget
      simp [Stage.rest, Stack.shape, Stack.withStatics, Cell.alias?, default,
        Array.getElem?_replicate] at hget
    refine ⟨?_, fun f hf => ?_, .nil, fun t place hget => absurd hget (haliases t place)⟩
    · simp [Stage.rest, Stack.shape, Stack.withStatics, Shape.size]
    · simp [Stage.rest, Stack.shape, Stack.withStatics] at hf
  statics := rfl
  housed := trivial
  outermost := fun _ => rfl
  frame := fun _ hr => by cases hr
  object := fun _ _ hc => by cases hc
  writable := fun _ _ => trivial

/-- All statements of the program may stand where they are. -/
structure Program.Fits (p : Program) (P : Option RoutineId → Stmt → Prop) : Prop where
  statements : Stmt.EveryIn (P none) p.statements
  bodies : ∀ r < p.routines.size, Stmt.EveryBlock (P (some r)) (p.routine r).body

theorem Program.fits_of_forall {P : Option RoutineId → Stmt → Prop} (h : ∀ r s, P r s)
    (p : Program) : p.Fits P :=
  ⟨Stmt.everyIn_of_forall (h none) _, fun r _ => Stmt.everyBlock_of_forall (h (some r)) _⟩

namespace Engine

variable {engine : Engine σ} {inner : Inner σ} {K : Contract engine} {g : Stage} {m : Machine σ}

section Parts

variable (hp : engine.program.Sound) (hinner : inner.Honours K) (ready : g.Ready engine.program)
  (h : K.Here g m)

include hp hinner ready h

/-- A routine that a name stands for needs no object. -/
theorem run_named_obeys {id : RoutineId} {name : String} {args : List Cell} {span : Span}
    (hid : engine.program.routineIndex[name]? = some id)
    (hargs : (engine.program.routine id).params.Forall₂
      (fun x c => K.Binds g (engine.program.symbols.variableAt x) c m) args) :
    Obeys K g m (inner.run { routine := id, this := none, args, span }) Anything := by
  have hclass := hp.routineIndex name id hid
  refine run_obeys hinner.toAnswers ready h (hp.inBounds.routineIndex name id hid) (fun hsome => ?_)
    (fun _ => hclass ▸ .none) hargs
  rw [hclass] at hsome
  cases hsome

theorem wholeProgram_obeys (hhome : g.home = none)
    (hfits : Stmt.EveryIn (K.Fits none) engine.program.statements) :
    Obeys K g m (engine.wholeProgram inner) Anything := by
  have hstatements : g.Knows engine.program (Stmt.notesAll engine.program.statements) := by
    have hself : g.Knows engine.program (engine.program.notesAt g.home) := Stage.knows_self
    rwa [hhome] at hself
  have hroutine : g.home.routine? = none := by rw [hhome]; rfl
  refine (statements_obeys hinner ready h (by rw [hhome]; intro c hc; cases hc) hstatements
    (hroutine ▸ hfits)).discard.bind fun _ m' hstep _ => ?_
  split
  · split
    · rename_i id hid
      extract_lets main
      split
      · rename_i hparams
        refine (run_named_obeys hp hinner ready hstep.here hid ?_).discard
        rw [List.isEmpty_iff.mp hparams]
        exact .nil
      · exact .pure hstep.here trivial
    · exact .pure hstep.here trivial
  · exact .pure hstep.here trivial

omit hp hinner ready in
theorem givenArguments_obeys {span : Span} {params : List VarId} {args : List Value} :
    Obeys K g m (engine.givenArguments span params args) fun cells m' =>
      params.Forall₂ (fun x c => K.Binds g (engine.program.symbols.variableAt x) c m') cells := by
  induction params generalizing args m with
  | nil => exact .pure h .nil
  | cons x params ih =>
    have hfirst : Obeys K g m
        (givenArgument (engine.program.symbols.variableAt x) span args.head?)
        (K.Binds g (engine.program.symbols.variableAt x)) :=
      (Obeys.coerce h).bind fun _ _ hstep _ => .pure hstep.here binds_direct
    refine hfirst.bind fun c m' hstep hc => ?_
    exact (ih hstep.here).bind fun cells _ hstep' hcells =>
      .pure hstep'.here (.cons (hc.later hstep'.leads) hcells)

theorem routineOn_obeys (name : String) (args : List Value) :
    Obeys K g m (engine.routineOn inner name args) Anything := by
  unfold routineOn
  split
  · rename_i id hid
    exact (givenArguments_obeys h).bind fun cells _ hstep hcells =>
      run_named_obeys hp hinner ready hstep.here hid hcells
  · exact .report_bind h rfl fun _ hstep => .pure hstep.here trivial

end Parts

end Engine

/-! ### Visits -/

/-- No visit is going on. -/
structure Machine.AtRest (p : Program) (m : Machine σ) : Prop where
  stays : m.At (Stage.rest p)
  problems : m.problems = #[]

/-- The visit runs the program, so that the statics start afresh. -/
def Visit.Restarts : Visit σ → Prop
  | .program _ => True
  | _ => False

/-- All that went wrong may go wrong. -/
def Outcome.AllowedBy (p : Program) (o : Outcome) : Prop := ∀ q ∈ o.problems, p.Allows q.1

namespace Contract

variable {engine : Engine σ}

/-- What a contract says goes on to hold between visits. -/
structure Lasts (K : Contract engine) : Prop where
  fresh : ∀ {m : Machine σ}, K.Holds (Stage.rest engine.program) m →
    K.Holds (Stage.rest engine.program) (engine.fresh m)
  handed : ∀ {m : Machine σ}, K.Holds (Stage.rest engine.program) m →
    K.Holds (Stage.rest engine.program) { m with problems := #[] }
  cut : ∀ {e : Interrupt} {m m' : Machine σ}, K.Holds (Stage.rest engine.program) m →
    K.Fails (Stage.rest engine.program) e m m' →
      K.Holds (Stage.rest engine.program) { m' with problems := #[] }

/-- A change between visits keeps what the contract says. -/
def Withstands (K : Contract engine) : Visit σ → Prop
  | .between change => ∀ m, K.Holds (Stage.rest engine.program) m →
    K.Holds (Stage.rest engine.program)
      { m with heap := (change m.heap m.outside).1, outside := (change m.heap m.outside).2 }
  | _ => True

/-- No visit is going on, and what the contract says holds. -/
structure Rests (K : Contract engine) (m : Machine σ) : Prop extends m.AtRest engine.program where
  holds : K.Holds (Stage.rest engine.program) m

/-- How a visit ended: what it came to, and the machine that it left behind. -/
inductive Ends (K : Contract engine) (start : Machine σ) : Outcome → Machine σ → Prop
  | completed {value : Option Value} {m : Machine σ}
      (h : K.Step (Stage.rest engine.program) start m) :
    Ends K start ⟨.completed, value, m.problems.toList⟩ { m with problems := #[] }
  | stopped {m : Machine σ} (h : K.Cut (Stage.rest engine.program) .stopped start m) :
    Ends K start ⟨.stopped, none, m.problems.toList⟩ { m with problems := #[] }
  | outOfFuel {m : Machine σ} (h : K.Cut (Stage.rest engine.program) .outOfFuel start m) :
    Ends K start ⟨.outOfFuel, none, m.problems.toList⟩ { m with problems := #[] }

variable {K : Contract engine} {start m : Machine σ} {o : Outcome}

theorem Rests.here (h : K.Rests m) : K.Here (Stage.rest engine.program) m := ⟨h.stays, h.holds⟩

theorem Ends.rests (h : K.Ends start o m) (hlasts : K.Lasts) (hstart : K.Rests start) :
    K.Rests m := by
  cases h with
  | completed h => exact ⟨⟨⟨h.keeps.stays.shape, h.keeps.stays.calls⟩, rfl⟩, hlasts.handed h.holds⟩
  | stopped h =>
    exact ⟨⟨⟨h.keeps.stays.shape, h.keeps.stays.calls⟩, rfl⟩, hlasts.cut hstart.holds h.fails⟩
  | outOfFuel h =>
    exact ⟨⟨⟨h.keeps.stays.shape, h.keeps.stays.calls⟩, rfl⟩, hlasts.cut hstart.holds h.fails⟩

/-- A visit that starts at rest finds the problems of no other visit. -/
theorem Ends.allowedBy (h : K.Ends start o m) (hstart : start.AtRest engine.program) :
    o.AllowedBy engine.program := by
  have hall : ∀ {m' : Machine σ}, (Stage.rest engine.program).Keeps engine.program start m' →
      ∀ q ∈ m'.problems.toList, engine.program.Allows q.1 := by
    intro m' hk q hq
    rcases hk.problems q (Array.mem_toList_iff.mp hq) with hold | hallowed
    · simp [hstart.problems] at hold
    · exact hallowed
  cases h with
  | completed h => exact hall h.keeps
  | stopped h => exact hall h.keeps
  | outOfFuel h => exact hall h.keeps

end Contract

namespace Engine

variable {engine : Engine σ} {K : Contract engine} {m : Machine σ}

theorem atRest_start (outside : Outside σ) : (engine.start outside).AtRest engine.program :=
  ⟨⟨rfl, rfl⟩, rfl⟩

theorem atRest_fresh (h : m.AtRest engine.program) : (engine.fresh m).AtRest engine.program :=
  ⟨⟨rfl, rfl⟩, h.problems⟩

theorem atRest_opening (h : m.AtRest engine.program) (visit : Visit σ) :
    (engine.opening visit m).AtRest engine.program := by
  cases visit with
  | program fuel => exact atRest_fresh h
  | routine fuel name args => exact h
  | between change => exact h

theorem opening_of_not_restarts {visit : Visit σ} (h : ¬ visit.Restarts) :
    engine.opening visit m = m := by
  cases visit with
  | program fuel => exact absurd trivial h
  | routine fuel name args => rfl
  | between change => rfl

/-- A visit that runs nothing leaves the stack alone. -/
theorem visitBy_of_none {visit : Visit σ} {levels : Nat → Inner σ}
    (h : (engine.visitBy levels visit m).1 = none) :
    engine.opening visit m = m ∧ (engine.visitBy levels visit m).2.stack = m.stack := by
  cases visit with
  | program fuel => cases h
  | routine fuel name args => cases h
  | between change => exact ⟨rfl, rfl⟩

theorem rests_opening (hlasts : K.Lasts) (h : K.Rests m) (visit : Visit σ) :
    K.Rests (engine.opening visit m) := by
  refine ⟨atRest_opening h.toAtRest visit, ?_⟩
  cases visit with
  | program fuel => exact hlasts.fresh h.holds
  | routine fuel name args => exact h.holds
  | between change => exact h.holds

theorem ends_finish {x : Run σ (Option Value)} {Q : Option Value → Machine σ → Prop}
    (hx : Obeys K (Stage.rest engine.program) m x Q) :
    K.Ends m (finish (x m)).1 (finish (x m)).2 := by
  cases hres : x m with
  | ok a m' => exact .completed (hx.ok hres).1
  | error e m' =>
    cases e with
    | stopped => exact .stopped (hx.error hres)
    | outOfFuel => exact .outOfFuel (hx.error hres)

section Visits

variable (hp : engine.program.Sound) (hfits : engine.program.Fits K.Fits) {levels : Nat → Inner σ}
  (hlevels : ∀ n, (levels n).Honours K)

include hp hfits hlevels

/-- The program is run at rest. -/
theorem programRun_obeys (fuel : Nat) (h : K.Here (Stage.rest engine.program) m) :
    Obeys K (Stage.rest engine.program) m
      (do engine.wholeProgram (levels fuel); pure none : Run σ (Option Value)) Anything :=
  (wholeProgram_obeys hp (hlevels fuel) (Stage.ready_rest engine.program) h rfl
    hfits.statements).bind fun _ _ hstep _ => .pure hstep.here trivial

omit hfits in
/-- A routine is called at rest. -/
theorem routineRun_obeys (fuel : Nat) (name : String) (args : List Value)
    (h : K.Here (Stage.rest engine.program) m) :
    Obeys K (Stage.rest engine.program) m
      (some <$> engine.routineOn (levels fuel) name args) Anything :=
  (routineOn_obeys hp (hlevels fuel) (Stage.ready_rest engine.program) h name args).map
    fun _ _ _ => trivial

/-- **A visit that runs something starts at rest and ends as the contract says.** -/
theorem ends_visitBy {visit : Visit σ} {o : Outcome} (hstart : K.Rests (engine.opening visit m))
    (ho : (engine.visitBy levels visit m).1 = some o) :
    K.Ends (engine.opening visit m) o (engine.visitBy levels visit m).2 := by
  cases visit with
  | program fuel =>
    cases ho
    exact ends_finish (programRun_obeys hp hfits hlevels fuel hstart.here)
  | routine fuel name args =>
    cases ho
    exact ends_finish (routineRun_obeys hp hlevels fuel name args hstart.here)
  | between change => cases ho

variable (hlasts : K.Lasts)

include hlasts

/-- **A visit brings the machine back to rest.** -/
theorem rests_visitBy {visit : Visit σ} (hvisit : K.Withstands visit) (hm : K.Rests m) :
    K.Rests (engine.visitBy levels visit m).2 ∧
      ∀ o ∈ (engine.visitBy levels visit m).1, o.AllowedBy engine.program := by
  cases ho : (engine.visitBy levels visit m).1 with
  | some o =>
    have hstart := rests_opening hlasts hm visit
    have hends := ends_visitBy hp hfits hlevels hstart ho
    refine ⟨hends.rests hlasts hstart, fun o' ho' => ?_⟩
    cases ho'
    exact hends.allowedBy hstart.toAtRest
  | none =>
    cases visit with
    | program fuel => cases ho
    | routine fuel name args => cases ho
    | between change =>
      refine ⟨⟨⟨⟨hm.stays.shape, hm.stays.calls⟩, hm.problems⟩, hvisit m hm.holds⟩, fun o ho' => ?_⟩
      cases ho'

/-- No session ends in a problem that its program does not allow. -/
theorem rests_sessionBy {visits : List (Visit σ)} (hvisits : ∀ visit ∈ visits, K.Withstands visit)
    (hm : K.Rests m) :
    K.Rests (engine.sessionBy levels visits m).2 ∧
      ∀ o ∈ (engine.sessionBy levels visits m).1, o.AllowedBy engine.program := by
  induction visits generalizing m with
  | nil => exact ⟨hm, fun o ho => by cases ho⟩
  | cons visit rest ih =>
    obtain ⟨hfirst, hallowed⟩ :=
      rests_visitBy hp hfits hlevels hlasts (hvisits visit (by simp)) hm
    obtain ⟨hrest, hothers⟩ := ih (fun v hv => hvisits v (by simp [hv])) hfirst
    refine ⟨hrest, fun o ho => ?_⟩
    rcases List.mem_append.mp ho with ho | ho
    · exact hallowed o (Option.mem_toList.mp ho)
    · exact hothers o ho

end Visits

end Engine

/-! ### Keeping to the stage -/

/-- The contract that asks for nothing but that steps keep to their stage. -/
def Contract.plain (engine : Engine σ) : Contract engine where
  Holds := fun _ _ => True
  Leads := fun _ _ _ => True
  Fails := fun _ _ _ _ => True
  refl := fun _ _ => trivial
  trans := fun _ _ => trivial
  interrupted := fun _ _ => trivial
  widen := fun _ _ _ => ⟨fun _ _ => trivial, fun _ _ _ => trivial, fun _ _ _ _ => trivial⟩
  acts := fun _ _ _ => ⟨trivial, trivial⟩
  stops := fun _ _ _ => trivial
  stores := fun _ _ _ _ _ _ => ⟨trivial, trivial⟩
  misses := fun _ _ _ _ _ _ => ⟨trivial, trivial⟩
  makes := fun _ _ _ _ _ => trivial
  made := fun _ _ _ _ _ => ⟨trivial, trivial⟩
  unmade := fun _ _ _ _ => trivial

namespace Engine

variable {engine : Engine σ}

/-- **Every level keeps to the stage it is run at.** -/
theorem honours_plain (hp : engine.program.Sound) (n : Nat) :
    (engine.level n).Honours (Contract.plain engine) := by
  have hfits := Program.fits_of_forall (P := (Contract.plain engine).Fits) (fun _ _ => trivial)
    engine.program
  induction n with
  | zero =>
    exact ⟨⟨fun _ h _ => .stop h (.fuel _), fun _ h _ _ =>
      .stop ⟨⟨h.stays.shape, h.stays.calls⟩, trivial⟩ (.fuel _)⟩, fun _ h _ _ _ => .stop h (.fuel _)⟩
  | succ n ih =>
    refine ⟨⟨fun ready h he => evaluate_obeys hp ih.toAnswers ready h he,
      fun ready h hcall _ => ?_⟩, fun ready h hhome hs hfits => ?_⟩
    · exact runRoutine_obeys hp ih ready h hcall (hfits.bodies _ hcall.routine)
        (fun _ _ _ => trivial) (fun _ _ _ => ⟨trivial, trivial⟩) fun _ _ _ _ => trivial
    · exact (execute_obeys hp ih ready h hhome hs hfits (fun _ _ => trivial)
        fun _ _ _ => trivial).anything

theorem withstands_plain (visit : Visit σ) : (Contract.plain engine).Withstands visit := by
  cases visit with
  | program fuel => exact trivial
  | routine fuel name args => exact trivial
  | between change => exact fun _ _ => trivial

theorem lasts_plain : (Contract.plain engine).Lasts :=
  ⟨fun _ => trivial, fun _ => trivial, fun _ _ => trivial⟩

theorem atRest_visitBy (hp : engine.program.Sound) {m : Machine σ} (hm : m.AtRest engine.program)
    (visit : Visit σ) : (engine.visitBy engine.level visit m).2.AtRest engine.program :=
  (rests_visitBy hp (Program.fits_of_forall (fun _ _ => trivial) _) (honours_plain hp) lasts_plain
    (withstands_plain visit) ⟨hm, trivial⟩).1.toAtRest

/-- **A session of a program brings the machine back to rest, with any host.** -/
theorem atRest_session (hp : engine.program.Sound) (outside : Outside σ) (visits : List (Visit σ)) :
    (engine.session outside visits).2.AtRest engine.program ∧
      ∀ o ∈ (engine.session outside visits).1, o.AllowedBy engine.program := by
  obtain ⟨hrests, hallowed⟩ := rests_sessionBy hp (Program.fits_of_forall (fun _ _ => trivial) _)
    (honours_plain hp) lasts_plain (fun visit _ => withstands_plain visit)
    ⟨atRest_start outside, trivial⟩
  exact ⟨hrests.toAtRest, hallowed⟩

end Engine

end Primer
