/-
Constants are constant.

In a program without errors no statement assigns a constant by its name.  `Contract.constant` says
what follows for every step: as long as a constant is held, its slot is as it was when the constant
was declared.  The steps inside of the statement that declares the constant obey a contract of their
own, by which the constant is not held there: so the statement may store its value.
-/
import Primer.Proofs.Program.Reading
import Primer.Proofs.Run.Held

namespace Primer

/-- Where what is declared in a routine, or outside of all routines, is kept. -/
def keptIn : Option RoutineId → Storage
  | none => .static
  | some _ => .frame

theorem Home.HoldsStatements.keptIn_eq {home : Home} (h : home.HoldsStatements) :
    keptIn home.routine? = home.storage := by
  cases home with
  | none => rfl
  | some definition =>
    cases definition with
    | routine r inside => rfl
    | classBody c => exact absurd rfl (h c)

/-- A field is in no slot. -/
theorem Machine.placeOf_field_ne {m : Machine σ} {v : Variable} (hv : v.storage = .field) (i : Nat) :
    m.placeOf v ≠ .ok (.slot i) := by
  simp only [Machine.placeOf, hv]
  split <;> simp

theorem Stmt.mention_of_declared {s : Stmt} {x : VarId} (h : x ∈ s.declared) :
    .mention x ∈ s.notes := by
  cases s with
  | declare declarations span =>
    obtain ⟨d, hd, rfl⟩ := List.mem_map.mp h
    simp only [Stmt.notes]
    exact List.mem_flatMap.mpr ⟨d, hd, by simp [Declaration.notes]⟩
  | _ => cases h

namespace Machine

/-- What is known while a run goes on: the slot of what is held is as it was, and it is guarded. -/
structure Guarded (p : Program) (x : VarId) (i : Nat) (since : Machine σ → Prop) (g : Stage)
    (m : Machine (Recording σ)) : Prop where
  held : ∀ s, Held p x i since m.outside.state.journal s → s.stack.depth ≤ g.shape.frames.length →
    m.stack.cells[i]? = s.stack.cells[i]? ∧ g.Guards p x i
  steady : Steady p x i since m.outside.state.journal

/-- What is known when a run has been interrupted. -/
structure Retained (p : Program) (x : VarId) (i : Nat) (since : Machine σ → Prop) (g : Stage)
    (m : Machine (Recording σ)) : Prop where
  held : ∀ s, Held p x i since m.outside.state.journal s → s.stack.depth ≤ g.shape.frames.length →
    m.stack.cells[i]? = s.stack.cells[i]?
  steady : Steady p x i since m.outside.state.journal

/-- The code at hand does not find the variable held. -/
def Unheld (p : Program) (x : VarId) (i : Nat) (since : Machine σ → Prop) (g : Stage)
    (m : Machine (Recording σ)) : Prop :=
  ∀ s, Held p x i since m.outside.state.journal s → ¬ s.stack.depth ≤ g.shape.frames.length

/-- What the code at hand finds held later, it found held before. -/
def Inherits (p : Program) (x : VarId) (i : Nat) (since : Machine σ → Prop) (g : Stage)
    (m m' : Machine (Recording σ)) : Prop :=
  ∀ s, Held p x i since m'.outside.state.journal s → s.stack.depth ≤ g.shape.frames.length →
    Held p x i since m.outside.state.journal s

/-- What is noted while code runs on the stage, is noted there or in calls from there. -/
def Adds (g : Stage) (m m' : Machine (Recording σ)) : Prop :=
  ∃ later, m'.outside.state.journal = later ++ m.outside.state.journal ∧
    ∀ event ∈ later, g.shape.frames.length ≤ event.depth

variable {p : Program} {x : VarId} {i : Nat} {since : Machine σ → Prop} {g g' : Stage}
  {m m' m'' : Machine (Recording σ)} {event : Event σ} {inside : Option ClassId} {call : Call}

/-- While the constant is being declared, it stays unheld. -/
theorem Unheld.declaring {declaring : Bool} {P : Prop} (h : m.Unheld p x i since g)
    (hdeclaring : declaring = true) (h' : declaring = false ∧ P ∨ m.Inherits p x i since g m') :
    m'.Unheld p x i since g := by
  have hinherits := h'.resolve_left fun hfalse => Bool.noConfusion (hdeclaring.symm.trans hfalse.1)
  exact fun s hs hdepth => h s (hinherits s hs hdepth) hdepth

theorem Inherits.trans (h : m.Inherits p x i since g m') (h' : m'.Inherits p x i since g m'') :
    m.Inherits p x i since g m'' :=
  fun s hs hdepth => h s (h' s hs hdepth) hdepth

theorem Inherits.of_eq (h : m'.outside.state.journal = m.outside.state.journal) :
    m.Inherits p x i since g m' :=
  fun _ hs _ => h ▸ hs

/-- What does not set the variable may be noted. -/
theorem inherits_note (h : ¬ event.Sets p x i) : m.Inherits p x i since g (m.note event) :=
  fun _ hs _ => (hs.of_not_sets h).1

theorem Adds.of_eq (h : m'.outside.state.journal = m.outside.state.journal) : m.Adds g m' :=
  ⟨[], h, List.forall_mem_nil _⟩

theorem Adds.trans (h : m.Adds g m') (h' : m'.Adds g m'') : m.Adds g m'' := by
  obtain ⟨later, hjournal, hlater⟩ := h
  obtain ⟨latest, hjournal', hlatest⟩ := h'
  refine ⟨latest ++ later, ?_, List.forall_mem_append.mpr ⟨hlatest, hlater⟩⟩
  rw [hjournal', hjournal, List.append_assoc]

theorem Adds.onStage (h : m.Adds g m') (hshape : g'.shape = g.shape) : m.Adds g' m' := by
  unfold Adds
  rw [hshape]
  exact h

theorem depth_eq (hm : m.At g) (hstate : event.state = m.forget) :
    event.depth = g.shape.frames.length := by
  unfold Event.depth
  rw [hstate]
  exact congrArg (fun h : Shape => h.frames.length) hm.shape

theorem adds_note (hm : m.At g) (hstate : event.state = m.forget) : m.Adds g (m.note event) :=
  ⟨[event], rfl, by simp [depth_eq hm hstate]⟩

/-- What is noted in a call is noted in a call. -/
theorem Adds.outside (h : m.Adds (g.enter p call inside) m') : m.Adds g m' := by
  obtain ⟨later, hjournal, hlater⟩ := h
  exact ⟨later, hjournal, fun event hevent => Nat.le_of_succ_le (hlater event hevent)⟩

/-- What is held outside of a call was held before it. -/
theorem Adds.inherits (h : m.Adds (g.enter p call inside) m') : m.Inherits p x i since g m' := by
  intro s hs hdepth
  obtain ⟨later, hjournal, hlater⟩ := h
  rw [hjournal] at hs
  exact hs.of_append fun event hevent => Nat.lt_of_le_of_lt hdepth (hlater event hevent)

/-- The frames that are closed lie above what is still held. -/
theorem cells_leave {s : Machine σ} (hm : m'.At (g.enter p call inside))
    (h : m.Guarded p x i since g) (hs : Held p x i since m.outside.state.journal s)
    (hdepth : s.stack.depth ≤ g.shape.frames.length) :
    m'.leave.stack.cells[i]? = m'.stack.cells[i]? :=
  Stack.cells_popFrame hm.shape (h.held s hs hdepth).2.bound

theorem Guarded.retained (h : m.Guarded p x i since g) : m.Retained p x i since g :=
  ⟨fun s hs hdepth => (h.held s hs hdepth).1, h.steady⟩

theorem Guarded.of_eq (h : m.Guarded p x i since g) (hstack : m'.stack = m.stack)
    (hjournal : m'.outside.state.journal = m.outside.state.journal) : m'.Guarded p x i since g := by
  refine ⟨fun s hs hdepth => ?_, hjournal ▸ h.steady⟩
  rw [hstack]
  exact h.held s (hjournal ▸ hs) hdepth

theorem Guarded.onStage (h : m.Guarded p x i since g) (hshape : g'.shape = g.shape)
    (hhome : ∀ r, g'.home.routine? = some r → g.home.routine? = some r) :
    m.Guarded p x i since g' := by
  refine ⟨fun s hs hdepth => ?_, h.steady⟩
  obtain ⟨hcells, hguards⟩ := h.held s hs (hshape ▸ hdepth)
  exact ⟨hcells, hguards.congr hshape hhome⟩

theorem Retained.onStage (h : m.Retained p x i since g) (hshape : g'.shape = g.shape) :
    m.Retained p x i since g' :=
  ⟨fun s hs hdepth => h.held s hs (hshape ▸ hdepth), h.steady⟩

/-- What is not in the slot of something held may be stored. -/
theorem Guarded.write {place : Place} {v : Value} (h : m.Guarded p x i since g) (hm : m.At g)
    (hsolid : g.shape.Solid place)
    (hplace : (g.Guards p x i → place ≠ .slot i) ∨ m.Unheld p x i since g) :
    (m.write place v).Guarded p x i since g := by
  have hjournal : (m.write place v).outside.state.journal = m.outside.state.journal := by
    rw [m.outside_write]
  refine ⟨fun s hs hdepth => ?_, hjournal ▸ h.steady⟩
  rw [hjournal] at hs
  obtain ⟨hcells, hguards⟩ := h.held s hs hdepth
  refine ⟨?_, hguards⟩
  rcases hplace with hplace | hunheld
  · rw [← hcells]
    cases place with
    | slot j =>
      have hne : ¬ j = i := fun heq => hplace hguards (heq ▸ rfl)
      rw [cells_write hm hsolid, if_neg hne]
    | element ref offset => rw [write_element]
    | field ref offset => rw [write_field]
  · exact absurd hdepth (hunheld s hs)

/-- What sets the variable has to guard it. -/
theorem Guarded.note (h : m.Guarded p x i since g) (hm : m.At g) (hstate : event.state = m.forget)
    (hsets : event.Sets p x i → g.Guards p x i) : (m.note event).Guarded p x i since g where
  held := by
    intro s hs hdepth
    cases hs with
    | set hset => exact ⟨by rw [hstate]; rfl, hsets hset⟩
    | kept hs _ _ => exact h.held s hs hdepth
  steady := by
    refine ⟨fun s hs hdepth => ?_, h.steady⟩
    rw [hstate]
    exact (h.held s hs (depth_eq hm hstate ▸ hdepth)).1

theorem Guarded.begun (h : m.Guarded p x i since g) (hm : m.At g) (task : Task) :
    (m.note (.begun task m.forget)).Guarded p x i since g :=
  h.note hm rfl fun hset => absurd hset Event.not_sets_begun

theorem Retained.note (h : m.Retained p x i since g) (hm : m.At g) (hstate : event.state = m.forget) :
    (m.note event).Retained p x i since g where
  held := by
    intro s hs hdepth
    cases hs with
    | set => rw [hstate]; rfl
    | kept hs _ _ => exact h.held s hs hdepth
  steady := by
    refine ⟨fun s hs hdepth => ?_, h.steady⟩
    rw [hstate]
    exact h.held s hs (depth_eq hm hstate ▸ hdepth)

end Machine

section Contract

variable (engine : Engine σ) (hp : engine.program.Sound) (hd : engine.program.Disciplined)
  (x : VarId) (hx : (engine.program.symbols.variableAt x).isConstant) (i : Nat)
  (since : Machine σ → Prop)

/-- The contract that a constant stays as it is while it is held.  While it is being declared, nothing
at hand sets it. -/
def Contract.constant (declaring : Bool) : Contract engine.recording where
  Holds := fun g m => m.Guarded engine.program x i since g
  Leads := fun g m m' => m.Adds g m' ∧ (declaring = false ∧ g.home.HoldsStatements ∨
    ∀ s, Held engine.program x i since m'.outside.state.journal s →
      s.stack.depth ≤ g.shape.frames.length →
        Held engine.program x i since m.outside.state.journal s)
  Fails := fun g _ m m' => m.Adds g m' ∧ m'.Retained engine.program x i since g
  Offers := fun g m place _ => (g.Guards engine.program x i → place ≠ .slot i) ∨
    declaring = true ∧ m.Unheld engine.program x i since g
  Assigns := fun g m y => y = x →
    (engine.program.symbols.variableAt x).storage = g.home.storage ∧
      ∀ n : Machine (Recording σ), n.At g →
        n.placeOf (engine.program.symbols.variableAt x) = .ok (.slot i) →
          declaring = true ∧ m.Unheld engine.program x i since g
  Declared := fun g _ y => y = x →
    (engine.program.symbols.variableAt x).storage = g.home.storage
  Fits := fun r s => s.Says (engine.program.Permits (keptIn r))
  refl := fun _ _ => ⟨.of_eq rfl, Or.inr (Machine.Inherits.of_eq rfl)⟩
  trans := by
    rintro g m m' m'' ⟨hadds, hheld⟩ ⟨hadds', hheld'⟩
    refine ⟨hadds.trans hadds', ?_⟩
    rcases hheld with hleft | hheld
    · exact Or.inl hleft
    · exact hheld'.imp_right (Machine.Inherits.trans hheld)
  interrupted := fun hleads hfails => ⟨hleads.1.trans hfails.1, hfails.2⟩
  offers := fun hoffers hleads => hoffers.imp_right fun ⟨hdeclaring, hunheld⟩ =>
    ⟨hdeclaring, hunheld.declaring hdeclaring hleads.2⟩
  assigns := by
    intro g m m' y hassigns hleads heq
    obtain ⟨hstorage, hplace⟩ := hassigns heq
    refine ⟨hstorage, fun n hn hfound => ?_⟩
    obtain ⟨hdeclaring, hunheld⟩ := hplace n hn hfound
    exact ⟨hdeclaring, hunheld.declaring hdeclaring hleads.2⟩
  declared := fun h _ => h
  widen := by
    intro g g' hshape _ hhome
    refine ⟨fun m h => h.onStage hshape fun r hr => hhome ▸ hr, fun m m' h => ?_,
      fun _ m m' h => ⟨h.1.onStage hshape, h.2.onStage hshape⟩⟩
    refine ⟨h.1.onStage hshape, ?_⟩
    rw [hshape, hhome]
    exact h.2
  acts := fun _ h ha =>
    ⟨h.of_eq ha.stack ha.journal, .of_eq ha.journal, Or.inr (Machine.Inherits.of_eq ha.journal)⟩
  stops := fun _ h hs => ⟨.of_eq hs.journal, (h.of_eq hs.stack hs.journal).retained⟩
  stores := by
    intro g m place kind v _ hm h hsolid hoffers _
    have hjournal : (m.write place v).outside.state.journal = m.outside.state.journal := by
      rw [m.outside_write]
    exact ⟨h.write hm hsolid (hoffers.imp_right And.right), .of_eq hjournal,
      Or.inr (Machine.Inherits.of_eq hjournal)⟩
  misses := fun _ _ h _ _ _ =>
    ⟨h.of_eq rfl rfl, .of_eq rfl, Or.inr (Machine.Inherits.of_eq rfl)⟩
  atVariable := by
    intro g m y place ready hm _ hy hassigns hplace
    by_cases hslot : place = .slot i
    · by_cases heq : y = x
      · subst heq hslot
        exact Or.inr ((hassigns rfl).2 m hm hplace)
      · refine Or.inl fun hguards => absurd ?_ heq
        exact hguards.eq_of_locates hp ready hy.1 (hslot ▸ ready.locates hp hm hy hplace)
    · exact Or.inl fun _ => hslot
  declares := fun _ _ _ hassigns _ _ _ heq => (hassigns heq).1
  atElement := fun _ _ _ _ => Or.inl fun _ => nofun
  atField := fun _ _ _ _ _ => Or.inl fun _ => nofun
  target := by
    rintro g m s y ⟨htargets, -⟩ hy rfl
    have hnot : (engine.program.symbols.variableAt y).isConstant = false := htargets y hy
    rw [hnot] at hx
    cases hx
  fields := by
    rintro g m c object d hc hmem rfl
    have hfield := hd.fieldDeclarations c hc d hmem
    exact ⟨hfield, fun n _ hplace => absurd hplace (Machine.placeOf_field_ne hfield i)⟩
  makes := by
    intro g m c object _ h _
    have hguarded : (m.making object).Guarded engine.program x i since g := h.of_eq rfl rfl
    exact hguarded.onStage rfl fun _ => nofun
  made := by
    rintro g m m' c object _ h _ h' ⟨hadds, hheld⟩
    have hheld := hheld.resolve_left fun ⟨_, hhome⟩ => hhome c rfl
    refine ⟨⟨fun s hs hdepth => ?_, h'.steady⟩, hadds, Or.inr hheld⟩
    exact ⟨(h'.held s hs hdepth).1, (h.held s (hheld s hs hdepth) hdepth).2⟩
  unmade := fun _ _ _ h => ⟨h.1, h.2.held, h.2.steady⟩

end Contract

namespace Engine

variable {engine : Engine σ} {x : VarId} {i : Nat} {since : Machine σ → Prop} {declaring : Bool}
  (hp : engine.program.Sound) (hd : engine.program.Disciplined)
  (hx : (engine.program.symbols.variableAt x).isConstant) {m : Machine (Recording σ)} {g : Stage}

/-- What obeys the contract while the constant is being declared obeys it anyway. -/
theorem obeys_constant {α : Type} {y : Run (Recording σ) α} {Q : α → Machine (Recording σ) → Prop}
    (h : Obeys (Contract.constant engine hp hd x hx i since true) g m y Q) :
    Obeys (Contract.constant engine hp hd x hx i since declaring) g m y Q := by
  cases hres : y m with
  | ok a m' =>
    obtain ⟨hstep, hQ⟩ := h.ok hres
    obtain ⟨hadds, hheld⟩ := hstep.leads
    refine .of_ok hres ⟨hstep.keeps, hstep.holds, hadds, Or.inr ?_⟩ hQ
    exact hheld.resolve_left fun ⟨hfalse, _⟩ => by cases hfalse
  | error e m' =>
    have hcut := h.error hres
    exact .of_error hres ⟨hcut.keeps, hcut.fails⟩

include hp in
/-- What ends sets a constant only if it is declared where it is. -/
theorem guards_of_sets {task : Task} (before : Machine σ) (ready : g.Ready engine.program)
    (hfits : task.Fits engine.program g) (hm : m.At g)
    (hdeclared : ∀ s, task = .exec s → ∀ y ∈ s.declared, y = x →
      (engine.program.symbols.variableAt x).storage = g.home.storage)
    (hsets : (Event.ended task before m.forget).Sets engine.program x i) :
    g.home.HoldsStatements ∧ g.Guards engine.program x i := by
  match task, hsets with
  | .exec s, ⟨hmem, hplace⟩ =>
    have hstorage := hdeclared s rfl x hmem rfl
    have hsees : engine.program.Sees g.home x := hfits.1.sees hp ready (Stmt.mention_of_declared hmem)
    have hforget : m.forget.At g := ⟨hm.shape, hm.calls⟩
    refine ⟨fun c hc => ?_, ready.guards_declared hp hsees hstorage (ready.locates hp hforget hsees hplace)⟩
    rw [hc] at hstorage
    exact Machine.placeOf_field_ne hstorage i hplace

theorem notes_constant {task : Task} (htask : declaring = false ∨ ∀ s, task ≠ .exec s) :
    (Contract.constant engine hp hd x hx i since declaring).Notes task where
  begun := fun _ _ h _ => h.holds.begun h.stays task
  ended := by
    intro g m m' ready hfits h hkeeps hm' hleads hdeclared
    have hstays := Task.at_stage.mp hkeeps.stays
    have hsets := guards_of_sets (i := i) hp m.forget ready hfits hstays hdeclared
    have hbegun : m.Adds g (m.note (.begun task m.forget)) := Machine.adds_note h.stays rfl
    have hended : m'.Adds g (m'.note (.ended task m.forget m'.forget)) :=
      Machine.adds_note hstays rfl
    refine ⟨hm'.note hstays rfl fun hset => (hsets hset).2, (hbegun.trans hleads.1).trans hended, ?_⟩
    by_cases hcase : declaring = false ∧ g.home.HoldsStatements
    · exact Or.inl hcase
    · -- Only a statement can set the constant, and where it does, it may.
      have hnot : ¬ (Event.ended task m.forget m'.forget).Sets engine.program x i := by
        intro hset
        rcases htask with hfalse | htask
        · exact hcase ⟨hfalse, (hsets hset).1⟩
        · match task, hset with
          | .exec s, _ => exact htask s rfl
      have hinside := (Machine.inherits_note Event.not_sets_begun).trans (hleads.2.resolve_left hcase)
      exact Or.inr (hinside.trans (Machine.inherits_note hnot))
  cut := by
    intro g m m' e _ _ h hkeeps hfails
    have hstays := Task.at_stage.mp hkeeps.stays
    have hbegun : m.Adds g (m.note (.begun task m.forget)) := Machine.adds_note h.stays rfl
    exact ⟨(hbegun.trans hfails.1).trans (Machine.adds_note hstays rfl), hfails.2.note hstays rfl⟩
  starved := fun _ _ h => ⟨.of_eq rfl, (h.holds.begun h.stays task).retained⟩

theorem calls_constant :
    (Contract.constant engine hp hd x hx i since declaring).Calls
      (Contract.constant engine hp hd x hx i since false) where
  refused := by
    intro g m call _ _ h _
    have hretained := (h.holds.begun h.stays (.run call)).retained
    exact ⟨.of_eq rfl, hretained.held, hretained.steady⟩
  enter := by
    intro g m call inside _ _ _ h _ _
    refine ⟨fun s hs _ => ?_, (h.holds.begun h.stays (.run call)).steady⟩
    obtain ⟨hs, hspares, hdepth⟩ := hs.of_not_sets Event.not_sets_begun
    have hevent : (Event.begun (.run call) m.forget).depth = g.shape.frames.length :=
      Machine.depth_eq h.stays rfl
    obtain ⟨hcells, hguards⟩ := h.holds.held s hs (hevent ▸ hdepth)
    refine ⟨?_, hguards.enter hspares⟩
    rw [← hcells]
    refine Machine.cells_enter ?_
    show i < m.stack.cells.size
    rw [h.stays.size]
    exact hguards.bound
  leave := by
    intro g m m' call inside _ _ h _ hstep
    obtain ⟨hadds, -⟩ := hstep.leads
    have hcall : (m.note (.begun (.run call) m.forget)).Inherits engine.program x i since g m' :=
      hadds.inherits
    refine ⟨⟨fun s hs hdepth => ?_, hstep.holds.steady⟩, hadds.outside, Or.inr hcall⟩
    have hold := (Machine.inherits_note Event.not_sets_begun).trans hcall s hs hdepth
    refine ⟨?_, (h.holds.held s hold hdepth).2⟩
    rw [Machine.cells_leave hstep.keeps.stays h.holds hold hdepth]
    exact (hstep.holds.held s hs (Nat.le_succ_of_le hdepth)).1
  unwound := by
    intro g m m' call inside e _ _ h _ hcut
    obtain ⟨hadds, hretained⟩ := hcut.fails
    have hcall : (m.note (.begun (.run call) m.forget)).Inherits engine.program x i since g m' :=
      hadds.inherits
    refine ⟨hadds.outside, fun s hs hdepth => ?_, hretained.steady⟩
    have hold := (Machine.inherits_note Event.not_sets_begun).trans hcall s hs hdepth
    rw [Machine.cells_leave hcut.keeps.stays h.holds hold hdepth]
    exact hretained.held s hs (Nat.le_succ_of_le hdepth)

theorem fits_constant :
    engine.program.Fits (Contract.constant engine hp hd x hx i since declaring).Fits :=
  ⟨hd.statements, hd.bodies⟩

/-- The statement that declares the constant obeys the contract that is meant for it. -/
theorem declaration_constant {inner : Inner (Recording σ)} {turns : Nat}
    {declarations : List Declaration} {span : Span}
    (hinner : inner.Answers (Contract.constant engine hp hd x hx i since true))
    (ready : g.Ready engine.program)
    (h : (Contract.constant engine hp hd x hx i since true).Here g m)
    (hhome : g.home.HoldsStatements)
    (hs : g.Knows engine.program (Stmt.declare declarations span).notes)
    (hfits : (Stmt.declare declarations span).Says
      (engine.program.Permits (keptIn g.home.routine?)))
    (hmem : x ∈ (Stmt.declare declarations span).declared) :
    Obeys (Contract.constant engine hp hd x hx i since true) g
      (m.note (.begun (.exec (.declare declarations span)) m.forget))
      (engine.recording.execute inner turns (.declare declarations span))
      ((Contract.constant engine hp hd x hx i since true).Declares g (.declare declarations span)) := by
  have hp' : engine.recording.program.Sound := hp
  have hbegun : (Contract.constant engine hp hd x hx i since true).Here g
      (m.note (.begun (.exec (.declare declarations span)) m.forget)) :=
    ⟨⟨h.stays.shape, h.stays.calls⟩, h.holds.begun h.stays _⟩
  refine executeDeclaration_obeys hp' hinner ready hbegun hs ?_
  rintro y hy rfl
  have hstorage := hfits.2 y hy
  rw [hhome.keptIn_eq] at hstorage
  refine ⟨hstorage, fun n hn hplace => ⟨rfl, fun s hheld _ => ?_⟩⟩
  -- The statement has begun, so the constant is not held any more.
  obtain ⟨-, hspares, -⟩ := hheld.of_not_sets Event.not_sets_begun
  exact hspares hmem ((hn.placeOf_eq h.stays _).trans hplace)

/-- **Every level obeys both contracts for a constant.** -/
theorem honours_constant (n : Nat) :
    (∀ declaring, (engine.watchedLevel n).Answers
      (Contract.constant engine hp hd x hx i since declaring)) ∧
    (engine.watchedLevel n).Honours (Contract.constant engine hp hd x hx i since false) := by
  have hp' : engine.recording.program.Sound := hp
  have hnotes : ∀ declaring task, (∀ s, task ≠ .exec s) →
      (Contract.constant engine hp hd x hx i since declaring).Notes task :=
    fun _ _ htask => notes_constant hp hd hx (Or.inr htask)
  have hexec : ∀ s, (Contract.constant engine hp hd x hx i since false).Notes (.exec s) :=
    fun _ => notes_constant hp hd hx (Or.inl rfl)
  induction n with
  | zero =>
    have hanswers := fun declaring => answers_watchedLevel_zero (hnotes declaring)
    exact ⟨hanswers, hanswers false, fun {_ _ s} ready h hhome hs _ => (hexec s).starve ready ⟨hs, fun _ => hhome⟩ h⟩
  | succ n ih =>
    obtain ⟨hbelow, hhonours⟩ := ih
    have hanswers := fun declaring => answers_watchedLevel_succ (hnotes declaring)
      (calls_constant hp hd hx) (fits_constant hp hd hx) hp (hbelow declaring) hhonours
    refine ⟨hanswers, hanswers false, fun {g m s} ready h hhome hs hfits => ?_⟩
    have hdoes : Obeys (Contract.constant engine hp hd x hx i since false) g
        (m.note (.begun (.exec s) m.forget)) (engine.recording.execute (engine.watchedLevel n) n s)
        ((Contract.constant engine hp hd x hx i since false).Declares g s) := by
      by_cases hmem : x ∈ s.declared
      · cases s with
        | declare declarations span =>
          exact obeys_constant hp hd hx (declaration_constant hp hd hx (hbelow true) ready
            ⟨h.stays, h.holds⟩ hhome hs hfits.self hmem)
        | _ => cases hmem
      · have h' : (Contract.constant engine hp hd x hx i since false).Here g
            (m.note (.begun (.exec s) m.forget)) :=
          ⟨⟨h.stays.shape, h.stays.calls⟩, h.holds.begun h.stays _⟩
        refine execute_obeys hp' hhonours ready h' hhome hs hfits (fun y hy heq => ?_) ?_
        · exact absurd (heq ▸ hy) hmem
        · exact fun _ _ _ => ⟨.of_eq rfl, h'.holds.retained⟩
    refine (hexec s).watch ready ⟨hs, fun _ => hhome⟩ h (hdoes.mono fun _ _ _ hdone other heq => ?_)
    cases heq
    exact hdone

end Engine

/-! ### Where constants are -/

namespace Event.Sets

variable {p : Program} {x : VarId} {i : Nat} {event : Event σ}

theorem onStage (h : event.Sets p x i) (hsound : event.Sound p) (hp : p.Sound) :
    ∃ g : Stage, g.Ready p ∧ event.state.At g ∧ p.Sees g.home x ∧
      event.state.placeOf (p.symbols.variableAt x) = .ok (.slot i) := by
  match event, h, hsound with
  | .ended (.exec s) _ _, ⟨hmem, hplace⟩, ⟨g, ready, hfits, _, hkeeps⟩ =>
    exact ⟨g, ready, hkeeps.stays, hfits.1.sees hp ready (Stmt.mention_of_declared hmem), hplace⟩

/-- The slot of a variable that was declared holds a value. -/
theorem direct (h : event.Sets p x i) (hsound : event.Sound p) (hp : p.Sound) :
    ∃ v, event.state.stack.cells[i]? = some (.direct v) := by
  obtain ⟨g, ready, hm, hsees, hplace⟩ := h.onStage hsound hp
  have hfinds := ready.finds hp hm hsees
  rw [hplace] at hfinds
  refine Stack.direct_iff.mp ?_
  rw [hm.shape]
  exact hfinds.2

/-- What is declared outside of all calls is a static. -/
theorem static (h : event.Sets p x i) (hsound : event.Sound p) (hp : p.Sound)
    (hdepth : event.depth = 0) : p.Static x := by
  obtain ⟨g, ready, hm, ⟨hbound, hsees⟩, hplace⟩ := h.onStage hsound hp
  have hframes : g.shape.frames = [] := by
    rw [← hm.shape]
    exact List.length_eq_zero_iff.mp hdepth
  refine ⟨hbound, ?_⟩
  have hlocal : (∃ r, g.home.routine? = some r) → False :=
    fun ⟨r, hr⟩ => (ready.frame r hr).opened hframes
  cases hstorage : (p.symbols.variableAt x).storage with
  | static => rfl
  | field => exact absurd hplace (Machine.placeOf_field_ne hstorage i)
  | _ =>
    simp only [hstorage] at hsees
    obtain ⟨r, hr, -⟩ := hsees
    exact (hlocal ⟨r, hr⟩).elim

end Event.Sets

/-- Both states have the same value in the slot. -/
def Machine.SameAt (i : Nat) (m m' : Machine σ) : Prop :=
  ∃ v, m.stack.cells[i]? = some (.direct v) ∧ m'.stack.cells[i]? = some (.direct v)

/-- What is held when no visit is going on is a static, and it still has its value. -/
def Machine.Carries (p : Program) (x : VarId) (i : Nat) (since : Machine σ → Prop) (m : Machine σ) :
    Prop :=
  ∀ s, since s → p.Static x ∧ p.slotOf x = i ∧ m.SameAt i s

namespace Held

variable {p : Program} {x : VarId} {i : Nat} {since : Machine σ → Prop} {m s : Machine σ}
  {events : List (Event σ)} (h : Held p x i since events s) (hp : p.Sound)
  (hsound : ∀ event ∈ events, event.Sound p) (hsince : m.Carries p x i since)

include h hp hsound hsince

theorem direct : ∃ v, s.stack.cells[i]? = some (.direct v) := by
  induction h with
  | before h =>
    obtain ⟨-, -, v, -, hv⟩ := hsince _ h
    exact ⟨v, hv⟩
  | set h => exact h.direct (hsound _ List.mem_cons_self) hp
  | kept _ _ _ ih => exact ih (List.forall_mem_cons.mp hsound).2

theorem static (hdepth : s.stack.depth = 0) : p.Static x := by
  induction h with
  | before h => exact (hsince _ h).1
  | set h => exact h.static (hsound _ List.mem_cons_self) hp hdepth
  | kept _ _ _ ih => exact ih (List.forall_mem_cons.mp hsound).2 hdepth

end Held

/-! ### Visits -/

/-- What a visit begins with: nothing is held when the program is run. -/
def Visit.inherited (visit : Visit σ) (since : Machine σ → Prop) (s : Machine σ) : Prop :=
  ¬ visit.Restarts ∧ since s

namespace Engine

/-- What is held after a visit: all calls are over, so it was declared outside of them. -/
def heldAfter (engine : Engine σ) (x : VarId) (i : Nat) (visit : Visit σ) (since : Machine σ → Prop)
    (m s : Machine σ) : Prop :=
  s.stack.depth = 0 ∧ Held engine.program x i (visit.inherited since) (engine.noted visit m) s

/-- What is held after some visits. -/
def heldSince (engine : Engine σ) (x : VarId) (i : Nat) :
    List (Visit σ) → (Machine σ → Prop) → Machine σ → Machine σ → Prop
  | [], since, _ => since
  | visit :: rest, since, m => engine.heldSince x i rest (engine.heldAfter x i visit since m)
    (engine.visitBy engine.level visit m).2

/-- As long as a constant is held it has the value with which it was declared.  The visit is looked at
through its journal, which changes nothing about it. -/
structure KeepsConstant (engine : Engine σ) (x : VarId) (i : Nat) (since : Machine σ → Prop)
    (visit : Visit σ) (m : Machine σ) : Prop where
  recorded : forgetPair (engine.recordedVisit visit m) = engine.visitBy engine.level visit m
  during : ∀ later event earlier s, engine.noted visit m = later ++ event :: earlier →
    Held engine.program x i (visit.inherited since) earlier s → s.stack.depth ≤ event.depth →
      event.state.SameAt i s
  after : ∀ s, engine.heldAfter x i visit since m s →
    (engine.visitBy engine.level visit m).2.SameAt i s

variable {engine : Engine σ} {x : VarId} {i : Nat} {since : Machine σ → Prop} {visit : Visit σ}
  {m : Machine σ}

section

variable (hp : engine.program.Sound) (hd : engine.program.Disciplined)
  (hx : (engine.program.symbols.variableAt x).isConstant) (hm : m.AtRest engine.program)
  (hsince : m.Carries engine.program x i since)

include hp hd hx hm hsince

/-- What is known when a visit is over. -/
theorem retained_visit {o : Outcome} (ho : (engine.visitBy engine.level visit m).1 = some o) :
    ∃ last, engine.EndedIn visit m o last ∧
      last.Retained engine.program x i (visit.inherited since) (Stage.rest engine.program) := by
  have hopening : (engine.recording.opening visit.recording m.record).stack =
      (engine.opening visit m).stack ∧
      (engine.recording.opening visit.recording m.record).outside.state.journal = [] := by
    cases visit <;> exact ⟨rfl, rfl⟩
  have hstart : (engine.recording.opening visit.recording m.record).Guarded engine.program x i
      (visit.inherited since) (Stage.rest engine.program) := by
    refine ⟨fun s hs _ => ?_, hopening.2 ▸ trivial⟩
    rw [hopening.2] at hs
    cases hs with
    | before h =>
      obtain ⟨hstatic, rfl, v, hv, hv'⟩ := hsince s h.2
      refine ⟨?_, (Stage.ready_rest _).guards_static hp rfl hstatic⟩
      rw [hopening.1, opening_of_not_restarts h.1, hv, hv']
  obtain ⟨last, hlast, hend⟩ := endedIn_recordedVisit (fits_constant hp hd hx)
    (fun n => (honours_constant hp hd hx n).2) hp ⟨atRest_recordedOpening hm visit, hstart⟩ ho
  refine ⟨last, hlast, ?_⟩
  rcases hend with ⟨-, hstep⟩ | ⟨-, hcut⟩ | ⟨-, hcut⟩
  · exact hstep.holds.retained
  · exact hcut.fails.2
  · exact hcut.fails.2

theorem keepsConstant_visit : engine.KeepsConstant x i since visit m where
  recorded := recordedVisit_mirrors engine visit m
  during := by
    intro later event earlier s hnoted hs hdepth
    have hsound := sound_noted hp hm visit
    rw [hnoted] at hsound
    obtain ⟨v, hv⟩ := hs.direct hp (fun e he => hsound e (by simp [he])) fun t ht => hsince t ht.2
    refine ⟨v, ?_, hv⟩
    cases ho : (engine.visitBy engine.level visit m).1 with
    | none =>
      rw [noted_eq_nil ho] at hnoted
      simp at hnoted
    | some o =>
      obtain ⟨last, hlast, hretained⟩ := retained_visit hp hd hx hm hsince ho
      have hsteady := hretained.steady
      rw [← hlast.journal, hnoted] at hsteady
      exact (hsteady.of_append hs hdepth).trans hv
  after := by
    rintro s ⟨hdepth, hs⟩
    obtain ⟨v, hv⟩ := hs.direct hp (sound_noted hp hm visit) fun t ht => hsince t ht.2
    cases ho : (engine.visitBy engine.level visit m).1 with
    | none =>
      rw [noted_eq_nil ho] at hs
      cases hs with
      | before h =>
        unfold Machine.SameAt
        rw [(visitBy_of_none ho).2]
        exact (hsince s h.2).2.2
    | some o =>
      obtain ⟨last, hlast, hretained⟩ := retained_visit hp hd hx hm hsince ho
      rw [hlast.journal] at hs
      rw [hlast.final]
      exact ⟨v, (hretained.held s hs (Nat.le_of_eq hdepth)).trans hv, hv⟩

/-- What is held after a visit is carried to the next one. -/
theorem carries_visit : (engine.visitBy engine.level visit m).2.Carries engine.program x i
    (engine.heldAfter x i visit since m) := by
  intro s hs
  have hstatic := hs.2.static hp (sound_noted hp hm visit) (fun t ht => hsince t ht.2) hs.1
  exact ⟨hstatic, hs.2.slotOf_eq hstatic.storage fun t ht => (hsince t ht.2).2.1,
    (keepsConstant_visit hp hd hx hm hsince).after s hs⟩

theorem carries_session (visits : List (Visit σ)) :
    (engine.sessionBy engine.level visits m).2.AtRest engine.program ∧
      (engine.sessionBy engine.level visits m).2.Carries engine.program x i
        (engine.heldSince x i visits since m) := by
  induction visits generalizing m since with
  | nil => exact ⟨hm, hsince⟩
  | cons visit rest ih => exact ih (atRest_visitBy hp hm visit) (carries_visit hp hd hx hm hsince)

end

theorem keepsConstant_session (engine : Engine σ) (hp : engine.program.Sound)
    (hd : engine.program.Disciplined) (hx : (engine.program.symbols.variableAt x).isConstant)
    (outside : Outside σ) (history : List (Visit σ)) (visit : Visit σ) :
    engine.KeepsConstant x i
      (engine.heldSince x i history (fun _ => False) (engine.start outside)) visit
      (engine.session outside history).2 := by
  have hstart : (engine.start outside).Carries engine.program x i fun _ => False :=
    fun _ hs => hs.elim
  obtain ⟨hrest, hcarries⟩ := carries_session hp hd hx (atRest_start outside) hstart history
  exact keepsConstant_visit hp hd hx hrest hcarries

/-- **In a program without errors, a constant keeps the value with which it was declared until its
declaration is run again, or until it is given to a call by reference.** -/
theorem constants_are_constant (source : String)
    (hsource : ∀ d ∈ (Program.ofSource source).2, d.isError = false) (settings : Settings)
    (host : Host σ) (outside : Outside σ) (history : List (Visit σ)) (visit : Visit σ) (x : VarId)
    (hx : ((Program.ofSource source).1.symbols.variableAt x).isConstant) (i : Nat) :
    KeepsConstant ⟨(Program.ofSource source).1, settings, host⟩ x i
      (heldSince ⟨(Program.ofSource source).1, settings, host⟩ x i history (fun _ => False)
        (start ⟨(Program.ofSource source).1, settings, host⟩ outside))
      visit (session ⟨(Program.ofSource source).1, settings, host⟩ outside history).2 := by
  have hp : (Program.ofSource source).1.Sound := sound_ofTokens (scan source).1 settings host
  exact keepsConstant_session ⟨(Program.ofSource source).1, settings, host⟩ hp
    (Program.disciplined_ofSource hsource) hx outside history visit

/-- A constant that is given to a routine by value, which declares another one. -/
def rateSource : String :=
  "Constant Integer RATE = 5
Module show(Integer n)
    Constant Integer TWICE = n + n
    Display TWICE
End Module
Module go()
    Call show(RATE)
End Module
"

def rate : Engine Buffer := ⟨(Program.ofSource rateSource).1, {}, Buffer.host []⟩

/-- The constant is declared when the program is run, and a routine is called later. -/
theorem constants_are_constant_rate :
    (∀ d ∈ (Program.ofSource rateSource).2, d.isError = false) ∧
    (rate.program.symbols.variableAt 0).isConstant ∧
    ∃ s, rate.heldSince 0 0 [.program 9] (fun _ => False) (rate.start ⟨{}, false⟩) s ∧
      rate.heldAfter 0 0 (.routine 9 "go" [])
        (rate.heldSince 0 0 [.program 9] (fun _ => False) (rate.start ⟨{}, false⟩))
        (rate.session ⟨{}, false⟩ [.program 9]).2 s ∧
      (rate.visitBy rate.level (.routine 9 "go" [])
        (rate.session ⟨{}, false⟩ [.program 9]).2).2.SameAt 0 s := by
  have hall : (∀ d ∈ (Program.ofSource rateSource).2, d.isError = false) ∧
      (rate.program.symbols.variableAt 0).isConstant ∧
      (∃ event ∈ (rate.noted (.program 9) (rate.start ⟨{}, false⟩)).head?,
        event.Sets rate.program 0 0 ∧ event.depth = 0) ∧
      ∀ event ∈ rate.noted (.routine 9 "go" []) (rate.session ⟨{}, false⟩ [.program 9]).2,
        event.Spares rate.program 0 0 := by
    decide +kernel
  obtain ⟨hsource, hconstant, ⟨event, hevent, hsets, hdepth⟩, hspares⟩ := hall
  obtain ⟨earlier, hnoted⟩ := List.head?_eq_some_iff.mp hevent
  have hsince : rate.heldSince 0 0 [.program 9] (fun _ => False) (rate.start ⟨{}, false⟩) event.state :=
    ⟨hdepth, hnoted ▸ .set hsets⟩
  have hafter : rate.heldAfter 0 0 (.routine 9 "go" [])
      (rate.heldSince 0 0 [.program 9] (fun _ => False) (rate.start ⟨{}, false⟩))
      (rate.session ⟨{}, false⟩ [.program 9]).2 event.state := by
    have hheld : Held rate.program 0 0 ((Visit.routine 9 "go" []).inherited
        (rate.heldSince 0 0 [.program 9] (fun _ => False) (rate.start ⟨{}, false⟩))) [] event.state :=
      .before ⟨fun h => h, hsince⟩
    have hlater := hheld.append fun next hnext =>
      ⟨hspares next hnext, Nat.le_trans (Nat.le_of_eq hdepth) (Nat.zero_le _)⟩
    rw [List.append_nil] at hlater
    exact ⟨hdepth, hlater⟩
  have hkeeps := constants_are_constant rateSource hsource {} (Buffer.host []) ⟨{}, false⟩ [.program 9]
    (.routine 9 "go" []) 0 hconstant 0
  exact ⟨hsource, hconstant, event.state, hsince, hafter, hkeeps.after _ hafter⟩

/-- A routine that changes its argument, called for a constant. -/
def changeSource : String :=
  "Module change(Integer Ref r)
    Set r = 1
End Module
Constant Integer K = 5
Call change(K)
Display K
"

def change : Engine Buffer := ⟨(Program.ofSource changeSource).1, {}, Buffer.host []⟩

/-- The integer in a cell. -/
def integerIn : Cell → Option Int64
  | .direct (.integer n) => some n
  | _ => none

theorem eq_of_integerIn {c : Cell} {n : Int64} (h : integerIn c = some n) :
    c = .direct (.integer n) := by
  unfold integerIn at h
  split at h
  · rw [Option.some.inj h]
  · cases h

/-- A constant may be given by reference: it is declared once, with the value 5, and is 1 in the end,
although neither the program nor the run has a problem. -/
theorem constant_changed_by_reference :
    (∀ d ∈ (Program.ofSource changeSource).2, d.isError = false) ∧
    (change.program.symbols.variableAt 1).isConstant ∧
    (∃ o, (change.visitBy change.level (.program 9) (change.start ⟨{}, false⟩)).1 = some o ∧
      o.ending = .completed ∧ o.problems.length = 0) ∧
    ∃ later event earlier,
      change.noted (.program 9) (change.start ⟨{}, false⟩) = later ++ event :: earlier ∧
      event.Sets change.program 1 0 ∧ (∀ next ∈ later, ¬ next.Sets change.program 1 0) ∧
      event.state.stack.cells[0]? = some (.direct (.integer 5)) ∧
      (change.visitBy change.level (.program 9) (change.start ⟨{}, false⟩)).2.stack.cells[0]? =
        some (.direct (.integer 1)) := by
  have hall : (∀ d ∈ (Program.ofSource changeSource).2, d.isError = false) ∧
      (change.program.symbols.variableAt 1).isConstant ∧
      ((change.visitBy change.level (.program 9) (change.start ⟨{}, false⟩)).1.map
        fun o => (o.ending, o.problems.length)) = some (.completed, 0) ∧
      (∃ event ∈ ((change.noted (.program 9) (change.start ⟨{}, false⟩)).drop 14).head?,
        event.Sets change.program 1 0 ∧ event.state.stack.cells[0]?.bind integerIn = some 5) ∧
      (∀ next ∈ (change.noted (.program 9) (change.start ⟨{}, false⟩)).take 14,
        ¬ next.Sets change.program 1 0) ∧
      (change.visitBy change.level (.program 9)
        (change.start ⟨{}, false⟩)).2.stack.cells[0]?.bind integerIn = some 1 := by
    decide +kernel
  obtain ⟨hsource, hconstant, houtcome, ⟨event, hevent, hsets, hfive⟩, hlater, hone⟩ := hall
  obtain ⟨earlier, hdrop⟩ := List.head?_eq_some_iff.mp hevent
  obtain ⟨o, ho, heq⟩ := Option.map_eq_some_iff.mp houtcome
  obtain ⟨five, hfive, hcell⟩ := Option.bind_eq_some_iff.mp hfive
  obtain ⟨one, hone, hcell'⟩ := Option.bind_eq_some_iff.mp hone
  refine ⟨hsource, hconstant, ⟨o, ho, congrArg Prod.fst heq, congrArg Prod.snd heq⟩, _, event, earlier,
    ?_, hsets, hlater, eq_of_integerIn hcell ▸ hfive, eq_of_integerIn hcell' ▸ hone⟩
  rw [← hdrop, List.take_append_drop]

end Engine

end Primer
