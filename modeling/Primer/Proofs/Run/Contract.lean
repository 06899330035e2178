/-
Contracts for the steps of a run.

Much of what is proved about runs has one form.  Something is known of the machine between two
steps, a step leads from one state to the next in a certain way, and a step that is interrupted
leaves the machine in a certain way.  A contract says what these are.  It carries what makes it a
contract: what each of the few things that a run can do to the machine has to do with it.  `Obeys`
says of a step that it keeps to its stage and to a contract.  As with reading, there is one rule
for each way of putting steps together.
-/
import Primer.Proofs.Run.Stage
import Primer.Proofs.Tree.Every
import Primer.Proofs.Value.Grid
import Primer.Proofs.Value.Kind

namespace Primer

variable {v : Variable}

/-! ### What a run can do to the machine -/

/-- The array is of the type and the rank that the variable is declared with, and not too large. -/
structure Engine.Made (engine : Engine σ) (x : VarId) (grid : Grid) : Prop where
  element : grid.element = (engine.program.symbols.variableAt x).type
  rank : grid.extents.length = (engine.program.symbols.variableAt x).rank
  room : grid.size ≤ engine.settings.arrayElements

/-- The array is one that the declaration of the variable makes. -/
structure Engine.Makes (engine : Engine σ) (x : VarId) (grid : Grid) : Prop
    extends engine.Made x grid where
  regular : grid.Regular
  typed : grid.Typed

/-- The object is one of a class of the program and has as many fields as that class. -/
structure Instance.Complete (p : Program) (object : Instance) : Prop where
  known : object.classId < p.classes.size
  fields : object.fields.size = (p.classDef object.classId).fields.length

/-- What is done at one go, apart from storing values and from opening and closing calls. -/
inductive Engine.Acts (engine : Engine σ) : Machine σ → Machine σ → Prop
  | report {m : Machine σ} {problem : Machine.Problem} (h : problem.isFatal = false) (span : Span) :
    Acts engine m (m.report problem span)
  | readLine (m : Machine σ) : Acts engine m { m with outside := (engine.host.readLine m.outside).2 }
  | writeLine (m : Machine σ) (line : String) :
    Acts engine m { m with outside := engine.host.writeLine line m.outside }
  | invoke (m : Machine σ) (name : String) (args : List Value) :
    Acts engine m { m with
      heap := (engine.host.invoke name args m.heap m.outside).2.1
      outside := (engine.host.invoke name args m.heap m.outside).2.2 }
  | newArray (m : Machine σ) {x : VarId} {grid : Grid} (hx : x < engine.program.symbols.entries.size)
      (h : engine.Makes x grid) : Acts engine m { m with heap := (m.heap.addGrid grid).2 }
  | newInstance (m : Machine σ) {object : Instance} (h : object.Complete engine.program) :
    Acts engine m { m with heap := (m.heap.addInstance object).2 }

/-- How a run is interrupted, apart from a statement that stops it. -/
inductive Engine.Stops (engine : Engine σ) : Interrupt → Machine σ → Machine σ → Prop
  | fatal {m : Machine σ} {problem : Machine.Problem} (h : problem.isFatal)
      (hown : problem ≠ .hostStop) (hallowed : engine.program.Allows problem) (span : Span) :
    Stops engine .stopped m (m.report problem span)
  /-- The host asks for it. -/
  | host {m : Machine σ} (h : m.outside.stop) (hnew : m.stopReported = false) (span : Span) :
    Stops engine .stopped m ({ m with stopReported := true }.report .hostStop span)
  /-- The host goes on asking for it. -/
  | again {m : Machine σ} (h : m.outside.stop) (hold : m.stopReported) :
    Stops engine .stopped m m
  | fuel (m : Machine σ) : Stops engine .outOfFuel m m

theorem Engine.Acts.stack {engine : Engine σ} {m m' : Machine σ} (h : engine.Acts m m') :
    m'.stack = m.stack := by
  cases h <;> rfl

theorem Engine.Stops.stack {engine : Engine σ} {e : Interrupt} {m m' : Machine σ}
    (h : engine.Stops e m m') : m'.stack = m.stack := by
  cases h <;> rfl

namespace Run

variable {α β : Type} {x : Run σ α} {f : α → Run σ β} {m m' : Machine σ}

theorem bind_of_ok {a : α} (h : x m = .ok a m') : (x >>= f) m = f a m' := by
  simp only [Bind.bind, EStateM.bind, h]

theorem bind_of_error {e : Interrupt} (h : x m = .error e m') : (x >>= f) m = .error e m' := by
  simp only [Bind.bind, EStateM.bind, h]

theorem bind_eq_ok {b : β} {m'' : Machine σ} :
    (x >>= f) m = .ok b m'' ↔ ∃ a m', x m = .ok a m' ∧ f a m' = .ok b m'' := by
  cases hx : x m with
  | ok a m' =>
    rw [bind_of_ok hx]
    constructor
    · exact fun hf => ⟨a, m', rfl, hf⟩
    · rintro ⟨_, _, ⟨⟩, hf⟩
      exact hf
  | error e m' =>
    rw [bind_of_error hx]
    constructor
    · nofun
    · rintro ⟨_, _, ⟨⟩, -⟩

theorem length_mapM {xs : List β} {f : β → Run σ α} {found : List α}
    (h : xs.mapM f m = .ok found m') : found.length = xs.length := by
  induction xs generalizing m found with
  | nil =>
    cases h
    rfl
  | cons b rest ih =>
    rw [List.mapM_cons] at h
    obtain ⟨a, _, -, h⟩ := bind_eq_ok.mp h
    obtain ⟨others, _, hothers, h⟩ := bind_eq_ok.mp h
    cases h
    exact congrArg Nat.succ (ih hothers)

end Run

/-- The fields of a new object are about to get their first values. -/
def Machine.making (m : Machine σ) (object : ObjectRef) : Machine σ :=
  { m with calls := m.calls.push (some object) }

/-- They have got them. -/
def Machine.made (m : Machine σ) : Machine σ := { m with calls := m.calls.pop }

/-! ### Contracts -/

/-- What is asked of the steps of a run, besides that they keep to their stage. -/
structure Contract (engine : Engine σ) where
  /-- What is known between two steps. -/
  Holds : Stage → Machine σ → Prop
  /-- How a step leads from one state to the next. -/
  Leads : Stage → Machine σ → Machine σ → Prop
  /-- How a step that is interrupted leads to its last state. -/
  Fails : Stage → Interrupt → Machine σ → Machine σ → Prop
  /-- Values of this kind may be stored at this place. -/
  Offers : Stage → Machine σ → Place → Kind → Prop := fun _ _ _ _ => True
  /-- The variable may be given a value. -/
  Assigns : Stage → Machine σ → VarId → Prop := fun _ _ _ => True
  /-- The variable has been given its first value. -/
  Declared : Stage → Machine σ → VarId → Prop := fun _ _ _ => True
  /-- The statement may stand in this routine, or outside of all routines. -/
  Fits : Option RoutineId → Stmt → Prop := fun _ _ => True
  /-- There is something at the place. -/
  Present : Stage → Machine σ → Place → Prop := fun _ _ _ => True
  refl {g : Stage} {m : Machine σ} : m.At g → Holds g m → Leads g m m
  trans {g : Stage} {m m' m'' : Machine σ} : Leads g m m' → Leads g m' m'' → Leads g m m''
  interrupted {g : Stage} {e : Interrupt} {m m' m'' : Machine σ} :
    Leads g m m' → Fails g e m' m'' → Fails g e m m''
  present {g : Stage} {m m' : Machine σ} {place : Place} :
    Present g m place → Leads g m m' → Present g m' place := by exact fun _ _ => trivial
  offers {g : Stage} {m m' : Machine σ} {place : Place} {kind : Kind} :
    Offers g m place kind → Leads g m m' → Offers g m' place kind := by exact fun _ _ => trivial
  assigns {g : Stage} {m m' : Machine σ} {x : VarId} :
    Assigns g m x → Leads g m m' → Assigns g m' x := by exact fun _ _ => trivial
  declared {g : Stage} {m m' : Machine σ} {x : VarId} :
    Declared g m x → Leads g m m' → Declared g m' x := by exact fun _ _ => trivial
  /-- The cells that may be written do not matter. -/
  widen {g g' : Stage} (hshape : g'.shape = g.shape) (hcalls : g'.calls = g.calls)
      (hhome : g'.home = g.home) :
    (∀ m, Holds g m → Holds g' m) ∧ (∀ m m', Leads g m m' → Leads g' m m') ∧
      ∀ e m m', Fails g e m m' → Fails g' e m m'
  acts {g : Stage} {m m' : Machine σ} :
    m.At g → Holds g m → engine.Acts m m' → Holds g m' ∧ Leads g m m'
  stops {g : Stage} {e : Interrupt} {m m' : Machine σ} :
    m.At g → Holds g m → engine.Stops e m m' → Fails g e m m'
  stores {g : Stage} {m : Machine σ} {place : Place} {kind : Kind} {v : Value} :
    g.Ready engine.program → m.At g → Holds g m → g.shape.Solid place → Offers g m place kind →
      v.Suits kind → Holds g (m.write place v) ∧ Leads g m (m.write place v)
  /-- Nothing was found at a place. -/
  misses {g : Stage} {m : Machine σ} {place : Place} (n : Nat) :
    m.At g → Holds g m → g.shape.Solid place → Present g m place → m.read? place = none →
      Holds g { m with misses := n } ∧ Leads g m { m with misses := n }
  presentVariable {g : Stage} {m : Machine σ} {x : VarId} {place : Place} :
    g.Ready engine.program → m.At g → Holds g m → engine.program.Sees g.home x →
      m.placeOf (engine.program.symbols.variableAt x) = .ok place → Present g m place := by
        exact fun _ _ _ _ _ => trivial
  presentElement {g : Stage} {m : Machine σ} {ref : ArrayRef} (indices : List Int64) :
    m.At g → Holds g m → (m.heap.grid ref).size ≠ 0 →
      Present g m (.element ref (Grid.locate (m.heap.grid ref).extents indices).1) := by
        exact fun _ _ _ _ => trivial
  presentField {g : Stage} {m : Machine σ} {ref : ObjectRef} {c : ClassId} {name : String}
      {slot : Nat} :
    m.At g → Holds g m → m.heap.classId? ref = some c →
      (engine.program.classDef c).fieldIndex[name]? = some slot → Present g m (.field ref slot) := by
        exact fun _ _ _ _ => trivial
  /-- Where a variable is that may be given a value. -/
  atVariable {g : Stage} {m : Machine σ} {x : VarId} {place : Place} :
    g.Ready engine.program → m.At g → Holds g m → engine.program.Sees g.home x → Assigns g m x →
      m.placeOf (engine.program.symbols.variableAt x) = .ok place →
        Offers g m place (engine.program.symbols.variableAt x).kind := by
          exact fun _ _ _ _ _ _ => trivial
  declares {g : Stage} {m : Machine σ} {x : VarId} {place : Place} {v : Value} :
    g.Ready engine.program → m.At g → engine.program.Sees g.home x → Assigns g m x →
      m.placeOf (engine.program.symbols.variableAt x) = .ok place → g.shape.Solid place →
        v.Suits (engine.program.symbols.variableAt x).kind → Declared g (m.write place v) x := by
          exact fun _ _ _ _ _ _ _ => trivial
  atElement {g : Stage} {m : Machine σ} {ref : ArrayRef} (offset : Nat) :
    m.At g → Holds g m → (m.heap.grid ref).size ≠ 0 →
      Offers g m (.element ref offset) (m.heap.grid ref).element.kind := by
        exact fun _ _ _ _ => trivial
  atField {g : Stage} {m : Machine σ} (ref : ObjectRef) (offset : Nat) (kind : Kind) :
    m.At g → Holds g m → Offers g m (.field ref offset) kind := by exact fun _ _ _ _ _ => trivial
  target {g : Stage} {m : Machine σ} {s : Stmt} {x : VarId} :
    Fits g.home.routine? s → x ∈ s.targets → Assigns g m x := by exact fun _ _ => trivial
  /-- The fields of a new object may be given values. -/
  fields {g : Stage} {m : Machine σ} {c : ClassId} {object : ObjectRef} {d : Declaration} :
    c < engine.program.classes.size → d ∈ (engine.program.classDef c).fieldDeclarations →
      Assigns (g.making c object) m d.id := by exact fun _ _ => trivial
  /-- If steps keep the classes of the objects that are there, the new object is of its class. -/
  makes {g : Stage} {m : Machine σ} (c : ClassId) (object : ObjectRef) :
    m.At g → Holds g m →
      ((∀ g m m', Leads g m m' → m.heap.KeepsClasses m'.heap) →
        m.heap.classId? object = some c) →
      Holds (g.making c object) (m.making object)
  made {g : Stage} {m m' : Machine σ} {c : ClassId} {object : ObjectRef} :
    m.At g → Holds g m → m'.At (g.making c object) → Holds (g.making c object) m' →
      Leads (g.making c object) (m.making object) m' → Holds g m'.made ∧ Leads g m m'.made
  unmade {g : Stage} {e : Interrupt} {m m' : Machine σ} {c : ClassId} {object : ObjectRef} :
    m.At g → Holds g m → m'.At (g.making c object) →
      Fails (g.making c object) e (m.making object) m' → Fails g e m m'.made

variable {engine : Engine σ} {K : Contract engine} {g : Stage} {m m' m'' : Machine σ}

namespace Contract

variable {e : Interrupt}

/-- Steps keep the classes of the objects that are there. -/
def Classed (K : Contract engine) : Prop :=
  ∀ g m m', K.Leads g m m' → m.heap.KeepsClasses m'.heap

/-- The machine is at the stage, and what the contract says holds. -/
structure Here (K : Contract engine) (g : Stage) (m : Machine σ) : Prop where
  stays : m.At g
  holds : K.Holds g m

/-- A step that gives a result. -/
structure Step (K : Contract engine) (g : Stage) (m m' : Machine σ) : Prop where
  keeps : g.Keeps engine.program m m'
  holds : K.Holds g m'
  leads : K.Leads g m m'

/-- A step that is interrupted. -/
structure Cut (K : Contract engine) (g : Stage) (e : Interrupt) (m m' : Machine σ) : Prop where
  keeps : g.Keeps engine.program m m'
  fails : K.Fails g e m m'

theorem Step.here (h : K.Step g m m') : K.Here g m' := ⟨h.keeps.stays, h.holds⟩

theorem Here.refl (h : K.Here g m) : K.Step g m m := ⟨.refl h.stays, h.holds, K.refl h.stays h.holds⟩

theorem Step.trans (h : K.Step g m m') (h' : K.Step g m' m'') : K.Step g m m'' :=
  ⟨h.keeps.trans h'.keeps, h'.holds, K.trans h.leads h'.leads⟩

theorem Step.cut (h : K.Step g m m') (h' : K.Cut g e m' m'') : K.Cut g e m m'' :=
  ⟨h.keeps.trans h'.keeps, K.interrupted h.leads h'.fails⟩

/-- Acting leaves the stack and the calls alone. -/
theorem Here.acts (h : K.Here g m) (ha : engine.Acts m m') : K.Step g m m' := by
  obtain ⟨hholds, hleads⟩ := K.acts h.stays h.holds ha
  refine ⟨?_, hholds, hleads⟩
  cases ha with
  | report hfatal span => exact .report h.stays (engine.program.allows_of_not_fatal hfatal) span
  | _ => exact .of_stack h.stays rfl rfl rfl

theorem Here.stops (h : K.Here g m) (hs : engine.Stops e m m') : K.Cut g e m m' := by
  refine ⟨?_, K.stops h.stays h.holds hs⟩
  cases hs with
  | fatal _ _ hallowed span => exact .report h.stays hallowed span
  | host _ _ span =>
    have hset : g.Keeps engine.program m { m with stopReported := true } :=
      .of_stack h.stays rfl rfl rfl
    exact hset.trans (.report hset.stays (fun _ => Or.inl rfl) span)
  | again _ _ => exact .refl h.stays
  | fuel _ => exact .refl h.stays

/-- A place that the code can get at may be turned to. -/
theorem Here.turnTo {place : Place} (h : K.Here g m) (hsolid : g.shape.Solid place)
    (hpresent : K.Present g m place) : K.Step g m (m.turnTo place) := by
  unfold Machine.turnTo
  split
  · exact h.refl
  · rename_i hnone
    obtain ⟨hholds, hleads⟩ := K.misses (m.misses + 1) h.stays h.holds hsolid hpresent
      (by simpa using hnone)
    exact ⟨.of_stack h.stays rfl rfl rfl, hholds, hleads⟩

/-- The code can get at the place, there is something, and values of this kind may be stored there. -/
structure Target (K : Contract engine) (g : Stage) (m : Machine σ) (place : Place) (kind : Kind) :
    Prop where
  solid : g.shape.Solid place
  present : K.Present g m place
  offers : K.Offers g m place kind

theorem Target.later {place : Place} {kind : Kind} (h : K.Target g m place kind)
    (hleads : K.Leads g m m') : K.Target g m' place kind :=
  ⟨h.solid, K.present h.present hleads, K.offers h.offers hleads⟩

/-- What keeps to fewer cells keeps to more. -/
theorem Step.widen {g' : Stage} (h : K.Step g m m') (hshape : g'.shape = g.shape)
    (hcalls : g'.calls = g.calls) (hhome : g'.home = g.home)
    (hwritable : ∀ i, g.writable i → g'.writable i) : K.Step g' m m' := by
  obtain ⟨hholds, hleads, -⟩ := K.widen hshape hcalls hhome
  exact ⟨h.keeps.widen hshape hcalls hwritable, hholds m' h.holds, hleads m m' h.leads⟩

theorem Cut.widen {g' : Stage} (h : K.Cut g e m m') (hshape : g'.shape = g.shape)
    (hcalls : g'.calls = g.calls) (hhome : g'.home = g.home)
    (hwritable : ∀ i, g.writable i → g'.writable i) : K.Cut g' e m m' := by
  obtain ⟨-, -, hfails⟩ := K.widen hshape hcalls hhome
  exact ⟨h.keeps.widen hshape hcalls hwritable, hfails e m m' h.fails⟩

/-- So a call can be looked at from the stage of its caller. -/
theorem during (K : Contract engine) (g : Stage) (call : Call) :
    (∀ m, K.Holds g m → K.Holds (g.during call) m) ∧
      (∀ m m', K.Leads g m m' → K.Leads (g.during call) m m') ∧
      ∀ e m m', K.Fails g e m m' → K.Fails (g.during call) e m m' :=
  K.widen rfl rfl rfl

end Contract

/-- A step from a state of the machine, with what is known of its result. -/
def Obeys (K : Contract engine) (g : Stage) (m : Machine σ) (x : Run σ α)
    (Q : α → Machine σ → Prop) : Prop :=
  match x m with
  | .ok a m' => K.Step g m m' ∧ Q a m'
  | .error e m' => K.Cut g e m m'

/-- Nothing is asked of the result. -/
def Anything : α → Machine σ → Prop := fun _ _ => True

namespace Obeys

variable {α β : Type} {x : Run σ α} {Q Q' : α → Machine σ → Prop} {problem : Machine.Problem}
  {span : Span} {e : Interrupt}

theorem of_ok {a : α} (hx : x m = .ok a m') (h : K.Step g m m') (hQ : Q a m') : Obeys K g m x Q := by
  unfold Obeys
  rw [hx]
  exact ⟨h, hQ⟩

theorem of_error (hx : x m = .error e m') (h : K.Cut g e m m') : Obeys K g m x Q := by
  unfold Obeys
  rw [hx]
  exact h

theorem ok {a : α} (h : Obeys K g m x Q) (hx : x m = .ok a m') : K.Step g m m' ∧ Q a m' := by
  unfold Obeys at h
  rw [hx] at h
  exact h

theorem error (h : Obeys K g m x Q) (hx : x m = .error e m') : K.Cut g e m m' := by
  unfold Obeys at h
  rw [hx] at h
  exact h

theorem pure {a : α} (h : K.Here g m) (hQ : Q a m) : Obeys K g m (Pure.pure a) Q := ⟨h.refl, hQ⟩

theorem bind {f : α → Run σ β} {P : β → Machine σ → Prop} (hx : Obeys K g m x Q)
    (hf : ∀ a m', K.Step g m m' → Q a m' → Obeys K g m' (f a) P) : Obeys K g m (x >>= f) P := by
  cases hres : x m with
  | error e m' => exact .of_error (Run.bind_of_error hres) (hx.error hres)
  | ok a m' =>
    obtain ⟨hstep, hQ⟩ := hx.ok hres
    have hrest := hf a m' hstep hQ
    have heq : (x >>= f) m = f a m' := Run.bind_of_ok hres
    cases hres' : f a m' with
    | error e m'' => exact .of_error (heq.trans hres') (hstep.cut (hrest.error hres'))
    | ok b m'' =>
      obtain ⟨hstep', hP⟩ := hrest.ok hres'
      exact .of_ok (heq.trans hres') (hstep.trans hstep') hP

theorem mono (h : Obeys K g m x Q) (hQ : ∀ a m', K.Step g m m' → Q a m' → Q' a m') :
    Obeys K g m x Q' := by
  cases hres : x m with
  | error e m' => exact .of_error hres (h.error hres)
  | ok a m' =>
    obtain ⟨hstep, hQa⟩ := h.ok hres
    exact .of_ok hres hstep (hQ a m' hstep hQa)

/-- What is known of every result of the step, however it obeys, may be used. -/
theorem result {P : α → Prop} (h : Obeys K g m x Q) (hP : ∀ a m', x m = .ok a m' → P a) :
    Obeys K g m x fun a m' => Q a m' ∧ P a := by
  cases hres : x m with
  | error e m' => exact .of_error hres (h.error hres)
  | ok a m' =>
    obtain ⟨hstep, hQ⟩ := h.ok hres
    exact .of_ok hres hstep ⟨hQ, hP a m' hres⟩

theorem anything (h : Obeys K g m x Q) : Obeys K g m x Anything := h.mono fun _ _ _ _ => trivial

/-- What keeps to fewer cells keeps to more. -/
theorem widen {g' : Stage} (h : Obeys K g m x Q) (hshape : g'.shape = g.shape)
    (hcalls : g'.calls = g.calls) (hhome : g'.home = g.home)
    (hwritable : ∀ i, g.writable i → g'.writable i) : Obeys K g' m x Q := by
  cases hres : x m with
  | error e m' => exact .of_error hres ((h.error hres).widen hshape hcalls hhome hwritable)
  | ok a m' =>
    obtain ⟨hstep, hQ⟩ := h.ok hres
    exact .of_ok hres (hstep.widen hshape hcalls hhome hwritable) hQ

theorem map {f : α → β} {P : β → Machine σ → Prop} (h : Obeys K g m x Q)
    (hf : ∀ a m', Q a m' → P (f a) m') : Obeys K g m (f <$> x) P :=
  h.bind (f := fun a => Pure.pure (f a)) fun a m' hstep ha => pure hstep.here (hf a m' ha)

theorem discard (h : Obeys K g m x Q) : Obeys K g m (Functor.discard x) Anything :=
  h.map fun _ _ _ => trivial

/-- Looking changes nothing. -/
theorem look_bind {f : Machine σ → α} {k : α → Run σ β} {P : β → Machine σ → Prop}
    (h : Obeys K g m (k (f m)) P) : Obeys K g m (Run.look f >>= k) P := h

theorem look {f : Machine σ → α} (h : K.Here g m) (hQ : Q (f m) m) : Obeys K g m (Run.look f) Q :=
  ⟨h.refl, hQ⟩

theorem act {f : Machine σ → Machine σ} (h : K.Here g m) (ha : engine.Acts m (f m)) :
    Obeys K g m (modify f) Anything := ⟨h.acts ha, trivial⟩

theorem actGet {f : Machine σ → α × Machine σ} (h : K.Here g m) (ha : engine.Acts m (f m).2)
    (hQ : Q (f m).1 (f m).2) : Obeys K g m (modifyGet f) Q := ⟨h.acts ha, hQ⟩

theorem stop (h : K.Here g m) (hs : engine.Stops e m m) :
    Obeys K g m (throw e : Run σ α) Q := h.stops hs

/-! ### Problems -/

theorem report_bind {f : Unit → Run σ α} (h : K.Here g m) (hfatal : problem.isFatal = false)
    (hf : ∀ m', K.Step g m m' → Obeys K g m' (f ()) Q) :
    Obeys K g m (Run.report problem span >>= f) Q :=
  bind (act h (.report hfatal span)) fun _ m' hstep _ => hf m' hstep

theorem report (h : K.Here g m) (hfatal : problem.isFatal = false) :
    Obeys K g m (Run.report problem span) Anything :=
  act h (.report hfatal span)

theorem fatal (h : K.Here g m) (hfatal : problem.isFatal) (hown : problem ≠ .hostStop)
    (hallowed : engine.program.Allows problem) :
    Obeys K g m (Run.fatal problem span : Run σ α) Q :=
  h.stops (.fatal hfatal hown hallowed span)

theorem isFatal_value (e : ValueError) : (Machine.Problem.value e).isFatal = false := by
  cases e <;> rfl

/-- A result, or what stands in for it. -/
theorem orElse {fallback : α} {r : Except ValueError α} (h : K.Here g m)
    (hok : ∀ a m', r = .ok a → Q a m') (hfallback : ∀ m', Q fallback m') :
    Obeys K g m (Run.orElse fallback span r) Q := by
  cases r with
  | ok a => exact pure h (hok a m rfl)
  | error e => exact report_bind h (isFatal_value e) fun m' hstep => pure hstep.here (hfallback m')

theorem coerce {v : Value} {kind : Kind} (h : K.Here g m) :
    Obeys K g m (Run.coerce v kind span) fun w _ => w.Suits kind :=
  orElse h (fun _ _ hw => Value.suits_convert hw) fun _ => Value.suits_zeroOf kind

theorem heedHost (h : K.Here g m) :
    Obeys K g m (Run.heedHost span) fun _ m' => m' = m ∧ m.outside.stop = false := by
  refine look_bind ?_
  split
  · rename_i hstop
    refine look_bind ?_
    split
    · rename_i hold
      exact stop h (.again hstop hold)
    · rename_i hnew
      exact h.stops (.host hstop (by simpa using hnew) span)
  · rename_i hstop
    exact pure h ⟨rfl, by simpa using hstop⟩

/-! ### Places -/

theorem load {place : Place} (h : K.Here g m) (hsolid : g.shape.Solid place)
    (hpresent : K.Present g m place) : Obeys K g m (Run.load place) Anything :=
  ⟨h.turnTo hsolid hpresent, trivial⟩

theorem store {place : Place} {kind : Kind} {v : Value} (ready : g.Ready engine.program)
    (h : K.Here g m) (htarget : K.Target g m place kind) (hv : v.Suits kind) :
    Obeys K g m (Run.store place v) Anything := by
  have hturned := h.turnTo htarget.solid htarget.present
  obtain ⟨hholds, hleads⟩ := K.stores ready hturned.keeps.stays hturned.holds htarget.solid
    (K.offers htarget.offers hturned.leads) hv
  exact ⟨hturned.trans ⟨.write ready hturned.keeps.stays htarget.solid v, hholds, hleads⟩, trivial⟩

/-! ### Lists and loops -/

/-- What is known after one item and is kept from then on is known of all items in the end. -/
theorem forM_all {xs : List β} {f : β → Run σ Unit} {P : β → Machine σ → Prop} (h : K.Here g m)
    (hf : ∀ b ∈ xs, ∀ m', K.Step g m m' → Obeys K g m' (f b) fun _ => P b)
    (hP : ∀ b m' m'', P b m' → K.Leads g m' m'' → P b m'') :
    Obeys K g m (xs.forM f) fun _ m' => ∀ b ∈ xs, P b m' := by
  induction xs generalizing m with
  | nil => exact pure h (List.forall_mem_nil _)
  | cons b rest ih =>
    refine (hf b (by simp) m h.refl).bind fun _ m' hstep hb => ?_
    have hrest := ih hstep.here fun c hc m'' hstep' => hf c (by simp [hc]) m'' (hstep.trans hstep')
    exact hrest.mono fun _ m'' hstep' hall => List.forall_mem_cons.mpr ⟨hP b m' m'' hb hstep'.leads, hall⟩

theorem forM {xs : List β} {f : β → Run σ Unit} (h : K.Here g m)
    (hf : ∀ b ∈ xs, ∀ m', K.Step g m m' → Obeys K g m' (f b) Anything) :
    Obeys K g m (xs.forM f) Anything :=
  (forM_all h hf fun _ _ _ _ _ => trivial).anything

theorem mapM {xs : List β} {f : β → Run σ α} (h : K.Here g m)
    (hf : ∀ b ∈ xs, ∀ m', K.Step g m m' → Obeys K g m' (f b) Anything) :
    Obeys K g m (xs.mapM f) Anything := by
  induction xs generalizing m with
  | nil => exact pure h trivial
  | cons b rest ih =>
    rw [List.mapM_cons]
    refine (hf b (by simp) m h.refl).bind fun _ m' hstep _ => ?_
    refine (ih hstep.here fun c hc m'' hstep' => hf c (by simp [hc]) m'' (hstep.trans hstep')).bind ?_
    exact fun _ _ hstep' _ => pure hstep'.here trivial

/-- A loop obeys a contract if every turn of it does. -/
theorem loop {turn : α → Run σ (Engine.Turn α)} (h : K.Here g m)
    (hturn : ∀ a m', K.Step g m m' → Obeys K g m' (turn a) Anything) (turns : Nat) (a : α) :
    Obeys K g m (Engine.loop turn turns a) Anything := by
  induction turns generalizing m a with
  | zero => exact stop h (.fuel m)
  | succ turns ih =>
    refine (hturn a m h.refl).bind fun outcome m' hstep _ => ?_
    cases outcome with
    | again b => exact ih hstep.here (fun a m'' hstep' => hturn a m'' (hstep.trans hstep')) b
    | done signal => exact pure hstep.here trivial

end Obeys

/-! ### Where variables are -/

theorem Run.placeOf_ok {place : Place} (h : m.placeOf v = .ok place) (span : Span) :
    Run.placeOf v span m = .ok place m := by
  simp only [Run.placeOf, Run.look, Bind.bind, EStateM.bind, h]
  rfl

theorem Run.placeOf_error {problem : Machine.Problem} (h : m.placeOf v = .error problem)
    (span : Span) :
    Run.placeOf v span m = .error .stopped (m.report problem span) := by
  simp only [Run.placeOf, Run.look, Bind.bind, EStateM.bind, h]
  rfl

/-- Only a fatal problem of the run itself keeps a variable from being found. -/
theorem Machine.isFatal_of_placeOf {problem : Machine.Problem} (h : m.placeOf v = .error problem) :
    problem.isFatal ∧ problem ≠ .hostStop := by
  have hslot : ∀ q, m.frameSlot v = .error q → q.isFatal ∧ q ≠ .hostStop := by
    intro q hq
    unfold Machine.frameSlot at hq
    split at hq
    · cases hq
    · cases hq
      exact ⟨rfl, fun h => by cases h⟩
  cases hv : v.storage with
  | static => simp [Machine.placeOf, hv] at h
  | field =>
    simp only [Machine.placeOf, hv] at h
    split at h
    · cases h
    · cases h
      exact ⟨rfl, fun h => by cases h⟩
  | frame =>
    simp only [Machine.placeOf, hv] at h
    cases hfound : m.frameSlot v with
    | ok slot => rw [hfound] at h; cases h
    | error q => rw [hfound] at h; cases h; exact hslot _ hfound
  | argument =>
    simp only [Machine.placeOf, hv] at h
    cases hfound : m.frameSlot v with
    | ok slot => rw [hfound] at h; cases h
    | error q => rw [hfound] at h; cases h; exact hslot _ hfound
  | refArgument =>
    rw [Machine.placeOf_refArgument hv] at h
    cases hfound : m.frameSlot v with
    | ok slot => rw [hfound] at h; cases h
    | error q => rw [hfound] at h; cases h; exact hslot _ hfound

/-- A place that was found: the code can get at it, there is something, and it may be written to if
the variable may. -/
structure Contract.Found (K : Contract engine) (g : Stage) (x : VarId) (place : Place)
    (m : Machine σ) : Prop where
  found : m.placeOf (engine.program.symbols.variableAt x) = .ok place
  solid : g.shape.Solid place
  present : K.Present g m place
  offers : K.Assigns g m x → K.Offers g m place (engine.program.symbols.variableAt x).kind

theorem Contract.Found.target {x : VarId} {place : Place} (h : K.Found g x place m)
    (hassigns : K.Assigns g m x) :
    K.Target g m place (engine.program.symbols.variableAt x).kind :=
  ⟨h.solid, h.present, h.offers hassigns⟩

theorem Obeys.placeOf {x : VarId} {span : Span} (hp : engine.program.Sound)
    (ready : g.Ready engine.program) (h : K.Here g m) (hx : engine.program.Sees g.home x) :
    Obeys K g m (Run.placeOf (engine.program.symbols.variableAt x) span) (K.Found g x) := by
  have hfinds := ready.finds hp h.stays hx
  refine look_bind ?_
  cases hfound : m.placeOf (engine.program.symbols.variableAt x) with
  | ok place =>
    rw [hfound] at hfinds
    exact pure h ⟨hfound, hfinds, K.presentVariable ready h.stays h.holds hx hfound,
      fun hassigns => K.atVariable ready h.stays h.holds hx hassigns hfound⟩
  | error problem =>
    rw [hfound] at hfinds
    obtain ⟨hfatal, hown⟩ := Machine.isFatal_of_placeOf hfound
    exact fatal h hfatal hown hfinds

end Primer
