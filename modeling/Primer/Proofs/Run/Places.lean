/-
Nothing is read or written that is not there.

A machine counts how often it turns to a place where there is nothing.  The count stays at zero.  An
array has as many cells as its extents ask for, so whatever the indices are, the cell that they mean
is there.  An object has as many fields as its class, so the fields that the class lists are there.
A parameter by reference leads to a place that was there when it was bound.  All of this rests on
one thing: what is in the store stays there, with its class and its extents.  A run sees to that by
itself, and a host is asked to do the same.
-/
import Primer.Proofs.Run.Alias
import Primer.Proofs.Run.Log

namespace Primer

variable {engine : Engine σ} {place : Place} {x : VarId} {g : Stage} {grid : Grid}
  {m : Machine (Logged σ)}

/-! ### Hosts that leave the store in order -/

/-- The host keeps the arrays and objects that are there, except for the values in them.  The arrays
that it supplies have as many cells as their extents ask for, and it supplies no objects. -/
def Host.Considerate (host : Host σ) : Prop :=
  ∀ name args (heap : Heap) outside, heap.Supplies (host.invoke name args heap outside).2.1

/-- So does what a host changes between visits. -/
def Visit.Considerate : Visit σ → Prop
  | .between change => ∀ (heap : Heap) outside, heap.Supplies (change heap outside).1
  | _ => True

/-- The host supplied the array of this number. -/
def Interaction.Supplied (i : Nat) : Interaction → Prop
  | .invoked _ _ before _ after => before.grids.size ≤ i ∧ i < after.grids.size
  | .changed before after => before.grids.size ≤ i ∧ i < after.grids.size
  | .read _ | .wrote _ => False

/-! ### States in which nothing is missing -/

/-- The host supplied the array of this number, or it is as a declaration makes them. -/
def Engine.Accounts (engine : Engine σ) (log : List Interaction) (i : Nat) (grid : Grid) : Prop :=
  (∃ interaction ∈ log, interaction.Supplied i) ∨
    ∃ x < engine.program.symbols.entries.size, engine.Made x grid

/-- Arrays and objects are complete, and nothing has been missed so far. -/
structure Machine.Whole (engine : Engine σ) (m : Machine (Logged σ)) : Prop where
  arrays : m.heap.Regular
  origins : ∀ (i : Nat) grid, m.heap.grids[i]? = some grid →
    engine.Accounts m.outside.state.log i grid
  objects : ∀ (i : Nat) object, m.heap.instances[i]? = some object →
    object.Complete engine.program
  misses : m.misses = 0

theorem Engine.Made.alike {grid' : Grid} (h : engine.Made x grid) (halike : grid.Alike grid') :
    engine.Made x grid' where
  element := halike.element.trans h.element
  rank := (congrArg List.length halike.extents).trans h.rank
  room := Nat.le_trans (Nat.le_of_eq halike.size) h.room

theorem Engine.Accounts.later {log log' : List Interaction} {i : Nat} {grid' : Grid}
    (h : engine.Accounts log i grid) (hlog : log ⊆ log') (halike : grid.Alike grid') :
    engine.Accounts log' i grid' := by
  rcases h with ⟨interaction, hmem, hsupplied⟩ | ⟨x, hx, hmade⟩
  · exact Or.inl ⟨interaction, hlog hmem, hsupplied⟩
  · exact Or.inr ⟨x, hx, hmade.alike halike⟩

theorem Instance.Complete.alike {p : Program} {object object' : Instance}
    (h : object.Complete p) (halike : object.Alike object') : object'.Complete p := by
  constructor
  · rw [halike.classId]
    exact h.known
  · rw [halike.classId, halike.size]
    exact h.fields

namespace Machine.Whole

variable {engine : Engine σ} {m m' : Machine (Logged σ)}

/-- **Nothing is missing as long as what is there is kept and what is new is complete.** -/
theorem kept (h : m.Whole engine) (hkeeps : m.heap.Keeps m'.heap) (hmisses : m'.misses = m.misses)
    (hlog : m.outside.state.log ⊆ m'.outside.state.log)
    (hgrids : ∀ (i : Nat) grid, m.heap.grids.size ≤ i → m'.heap.grids[i]? = some grid →
      grid.Regular ∧ engine.Accounts m'.outside.state.log i grid)
    (hinstances : ∀ (i : Nat) object, m.heap.instances.size ≤ i →
      m'.heap.instances[i]? = some object → object.Complete engine.program) : m'.Whole engine := by
  have hall : ∀ (i : Nat) grid, m'.heap.grids[i]? = some grid →
      grid.Regular ∧ engine.Accounts m'.outside.state.log i grid := by
    intro i grid hgrid
    by_cases hi : i < m.heap.grids.size
    · obtain ⟨old, hold, halike⟩ := hkeeps.grid_lt hi hgrid
      exact ⟨halike.regular (h.arrays i old hold), (h.origins i old hold).later hlog halike⟩
    · exact hgrids i grid (Nat.le_of_not_lt hi) hgrid
  refine ⟨fun i grid hgrid => (hall i grid hgrid).1, fun i grid hgrid => (hall i grid hgrid).2, ?_,
    hmisses.trans h.misses⟩
  intro i object hobject
  by_cases hi : i < m.heap.instances.size
  · obtain ⟨old, hold, halike⟩ := hkeeps.instance_lt hi hobject
    exact (h.objects i old hold).alike halike
  · exact hinstances i object (Nat.le_of_not_lt hi) hobject

/-- Nothing is new. -/
theorem still (h : m.Whole engine) (hkeeps : m.heap.Keeps m'.heap) (hmisses : m'.misses = m.misses)
    (hlog : m.outside.state.log ⊆ m'.outside.state.log)
    (hgrids : m'.heap.grids.size = m.heap.grids.size)
    (hinstances : m'.heap.instances.size = m.heap.instances.size) : m'.Whole engine := by
  refine h.kept hkeeps hmisses hlog (fun i grid hi hgrid => ?_) fun i object hi hobject => ?_
  · have hlt := (Array.getElem?_eq_some_iff.mp hgrid).1
    omega
  · have hlt := (Array.getElem?_eq_some_iff.mp hobject).1
    omega

/-- The store is the same. -/
theorem same (h : m.Whole engine) (hheap : m'.heap = m.heap) (hmisses : m'.misses = m.misses)
    (hlog : m.outside.state.log ⊆ m'.outside.state.log) : m'.Whole engine :=
  h.still (hheap ▸ .refl _) hmisses hlog (by rw [hheap]) (by rw [hheap])

/-- The host has done something to the store, and that is in the log. -/
theorem supplied (h : m.Whole engine) (hsupplies : m.heap.Supplies m'.heap)
    (hmisses : m'.misses = m.misses) {interaction : Interaction}
    (hlog : m'.outside.state.log = interaction :: m.outside.state.log)
    (hnew : ∀ i, m.heap.grids.size ≤ i → i < m'.heap.grids.size → interaction.Supplied i) :
    m'.Whole engine := by
  have hsub : m.outside.state.log ⊆ m'.outside.state.log := by
    rw [hlog]
    exact List.subset_cons_self _ _
  refine h.kept hsupplies.keeps hmisses hsub (fun i grid hi hgrid => ?_) ?_
  · have hlt := (Array.getElem?_eq_some_iff.mp hgrid).1
    exact ⟨hsupplies.arrays i grid hi hgrid, Or.inl ⟨interaction, by simp [hlog], hnew i hi hlt⟩⟩
  · intro i object hi hobject
    have hlt := (Array.getElem?_eq_some_iff.mp hobject).1
    have hsize := hsupplies.objects
    omega

end Machine.Whole

/-! ### What the steps of a run do to the store -/

theorem Machine.forget_write (m : Machine (Recording σ)) (place : Place) (v : Value) :
    (m.write place v).forget = m.forget.write place v :=
  (Machine.write_via Outside.forget m place v).symm

theorem Machine.Whole.write (h : m.Whole engine) (place : Place) (v : Value) :
    (m.write place v).Whole engine := by
  have hkeeps := m.keeps_write place v
  have hlog : m.outside.state.log ⊆ (m.write place v).outside.state.log := by
    rw [m.outside_write]
    exact List.Subset.refl _
  refine h.still hkeeps ?_ hlog ?_ ?_
  · unfold Machine.write
    split <;> rfl
  · unfold Machine.write
    split
    · rfl
    · exact Array.size_modify
    · rfl
  · unfold Machine.write
    split
    · rfl
    · rfl
    · exact Array.size_modify

/-- What a declaration makes does not depend on the host. -/
theorem Engine.Made.transfer {other : Engine τ} (h : engine.Made x grid)
    (hprogram : other.program = engine.program) (hsettings : other.settings = engine.settings) :
    other.Made x grid where
  element := by rw [hprogram]; exact h.element
  rank := by rw [hprogram]; exact h.rank
  room := by rw [hsettings]; exact h.room

/-- **Whatever is done at one go keeps what is there and adds what is complete.** -/
theorem Engine.Acts.whole {m' : Machine (Logged σ)} (ha : engine.logging.Acts m m')
    (hhost : engine.host.Considerate) (h : m.Whole engine) :
    m.heap.Keeps m'.heap ∧ m'.Whole engine := by
  cases ha with
  | report hfatal span => exact ⟨.refl _, h.same rfl rfl (List.Subset.refl _)⟩
  | readLine => exact ⟨.refl _, h.same rfl rfl (List.subset_cons_self _ _)⟩
  | writeLine line => exact ⟨.refl _, h.same rfl rfl (List.subset_cons_self _ _)⟩
  | invoke name args =>
    have hsupplies := hhost name args m.heap m.outside.unlogged
    exact ⟨hsupplies.keeps, h.supplied hsupplies rfl rfl fun i hi hlt => ⟨hi, hlt⟩⟩
  | @newArray x grid hx hmakes =>
    have hkeeps := m.heap.keeps_addGrid grid
    refine ⟨hkeeps, h.kept hkeeps rfl (List.Subset.refl _) (fun i found hi hfound => ?_) ?_⟩
    · obtain rfl := Heap.eq_of_getElem?_push hi hfound
      exact ⟨hmakes.regular, Or.inr ⟨x, hx, hmakes.toMade.transfer rfl rfl⟩⟩
    · exact fun i object _ hobject => h.objects i object hobject
  | @newInstance object hcomplete =>
    have hkeeps := m.heap.keeps_addInstance object
    refine ⟨hkeeps, h.kept hkeeps rfl (List.Subset.refl _) (fun i grid _ hgrid => ?_) ?_⟩
    · exact ⟨h.arrays i grid hgrid, h.origins i grid hgrid⟩
    · intro i found hi hfound
      obtain rfl := Heap.eq_of_getElem?_push hi hfound
      exact hcomplete

/-- What is done with a journal is done without one. -/
theorem Engine.Acts.forget {m m' : Machine (Recording σ)} (h : engine.recording.Acts m m') :
    engine.Acts m.forget m'.forget := by
  cases h with
  | report hfatal span => exact .report hfatal span
  | readLine => exact .readLine m.forget
  | writeLine line => exact .writeLine m.forget line
  | invoke name args => exact .invoke m.forget name args
  | newArray hx hmakes =>
    exact .newArray m.forget hx ⟨hmakes.toMade.transfer rfl rfl, hmakes.regular, hmakes.typed⟩
  | newInstance hcomplete => exact .newInstance m.forget hcomplete

theorem Engine.Stops.whole {e : Interrupt} {m m' : Machine (Recording (Logged σ))}
    (hs : engine.logging.recording.Stops e m m') (h : m.forget.Whole engine) :
    m'.forget.Whole engine := by
  cases hs <;> exact h.same rfl rfl (List.Subset.refl _)

/-! ### Places that are there -/

/-- There is a value at every place that the code can get at and that the store has. -/
theorem Machine.isSome_read? {m : Machine σ} (hm : m.At g) (hsolid : g.shape.Solid place)
    (hhas : m.heap.Has place) : (m.read? place).isSome := by
  unfold Machine.read?
  rw [Stage.target_solid hm hsolid]
  cases place with
  | slot i =>
    obtain ⟨v, hv⟩ := Stack.direct_iff.mp (hm.shape ▸ hsolid.2)
    simp only [Stack.read?, hv, Option.isSome_some]
  | element ref offset => exact hhas.isSome_element?
  | field ref offset => exact hhas.isSome_field?

/-- The fields that a class lists are there in its objects. -/
theorem Machine.Whole.has_field (h : m.Whole engine) {ref : ObjectRef} {c : ClassId}
    (hc : m.heap.classId? ref = some c) {slot : Nat}
    (hslot : slot < (engine.program.classDef c).fields.length) : m.heap.Has (.field ref slot) := by
  obtain ⟨object, hobject, rfl⟩ := Option.map_eq_some_iff.mp hc
  refine ⟨object, hobject, ?_⟩
  rw [(h.objects _ object hobject).fields]
  exact hslot

/-- Nothing is missing, nor was anything missing when something was noted. -/
structure Machine.WholeSoFar (engine : Engine σ) (m : Machine (Recording (Logged σ))) : Prop where
  now : m.forget.Whole engine
  noted : ∀ event ∈ m.outside.state.journal, event.state.Whole engine

/-- So it is, what the aliases lead to is there, and code that is written in a class and runs on an
object runs on one of that class. -/
structure Machine.Placed (engine : Engine σ) (g : Stage) (m : Machine (Recording (Logged σ))) : Prop
    extends m.WholeSoFar engine where
  led : ∀ (t : Nat) place, g.shape.aliases[t]? = some (some place) → m.heap.Has place
  object : ∀ ref c, g.this? = some ref → g.home.fields? = some c → m.heap.classId? ref = some c

namespace Machine.WholeSoFar

variable {engine : Engine σ} {m m' : Machine (Recording (Logged σ))}

theorem later (h : m.WholeSoFar engine) (hnow : m'.forget.Whole engine)
    (hjournal : m'.outside.state.journal = m.outside.state.journal) : m'.WholeSoFar engine :=
  ⟨hnow, fun event hevent => h.noted event (hjournal ▸ hevent)⟩

/-- The store and what is outside are the same. -/
theorem same (h : m.WholeSoFar engine) (hheap : m'.heap = m.heap) (hmisses : m'.misses = m.misses)
    (houtside : m'.outside = m.outside) : m'.WholeSoFar engine := by
  have hsame : m'.forget.outside = m.forget.outside := congrArg Outside.forget houtside
  refine h.later (h.now.same hheap hmisses ?_) (by rw [houtside])
  rw [hsame]
  exact List.Subset.refl _

theorem note (h : m.WholeSoFar engine) {event : Event (Logged σ)}
    (hevent : event.state.Whole engine) : (m.note event).WholeSoFar engine :=
  ⟨h.now, List.forall_mem_cons.mpr ⟨hevent, h.noted⟩⟩

end Machine.WholeSoFar

/-- What the aliases lead to and the object at hand stay there. -/
theorem Machine.Placed.later {m m' : Machine (Recording (Logged σ))} (h : m.Placed engine g)
    (hkeeps : m.heap.Keeps m'.heap) (hwhole : m'.WholeSoFar engine) :
    m'.Placed engine g where
  toWholeSoFar := hwhole
  led := fun t place ht => (h.led t place ht).kept hkeeps
  object := fun ref c href hc => hkeeps.keepsClasses ref c (h.object ref c href hc)

/-- **A variable that the code mentions is at a place that is there.** -/
theorem Machine.Placed.has_variable {m : Machine (Recording (Logged σ))} (h : m.Placed engine g)
    (hp : engine.program.Sound) (ready : g.Ready engine.program) (hm : m.At g)
    (hx : engine.program.Sees g.home x)
    (hplace : m.placeOf (engine.program.symbols.variableAt x) = .ok place) :
    m.heap.Has place := by
  have hlocates := ready.locates hp hm hx hplace
  cases hlocates with
  | static => trivial
  | frame => trivial
  | argument => trivial
  | led _ _ _ hled => exact h.led _ place hled
  | field hstorage ref offset =>
    obtain ⟨-, hx⟩ := hx
    simp only [hstorage] at hx
    obtain ⟨c, hc, hfield⟩ := hx
    simp only [Machine.placeOf, hstorage] at hplace
    split at hplace
    · rename_i object hthis
      cases hplace
      have hclass := h.object ref c (hm.this? ▸ hthis) hc
      obtain ⟨found, hfound, rfl⟩ := Option.map_eq_some_iff.mp hclass
      obtain ⟨k, hk⟩ := List.getElem?_of_mem hfield
      have hoffset := (hp.fields _ (h.now.objects _ found hfound).known k x hk).2
      refine h.now.has_field hclass ?_
      rw [hoffset]
      exact (List.getElem?_eq_some_iff.mp hk).1
    · cases hplace

/-! ### The contract -/

/-- The contract that nothing is missing and that no place is turned to that is not there. -/
def Contract.placing (engine : Engine σ) (hp : engine.program.Sound)
    (hhost : engine.host.Considerate) : Contract engine.logging.recording where
  Holds := fun g m => m.Placed engine g
  Leads := fun _ m m' => m.heap.Keeps m'.heap
  Fails := fun _ _ _ m' => m'.WholeSoFar engine
  Present := fun _ m place => m.heap.Has place
  refl := fun _ _ => .refl _
  trans := fun h h' => h.trans h'
  interrupted := fun _ h => h
  present := fun h hleads => h.kept hleads
  widen := by
    intro g g' hshape hcalls hhome
    refine ⟨fun m h => ⟨h.toWholeSoFar, ?_, ?_⟩, fun _ _ h => h, fun _ _ _ h => h⟩
    · rw [hshape]
      exact h.led
    · rw [Stage.this?, hcalls, hhome]
      exact h.object
  acts := by
    intro g m m' _ h ha
    obtain ⟨hkeeps, hwhole⟩ := ha.forget.whole hhost h.now
    exact ⟨h.later hkeeps (h.toWholeSoFar.later hwhole ha.journal), hkeeps⟩
  stops := fun _ h hs => h.toWholeSoFar.later (hs.whole h.now) hs.journal
  stores := by
    intro g m place kind v _ _ h _ _ _
    have hkeeps := m.keeps_write place v
    have hwhole : (m.write place v).forget.Whole engine := by
      rw [m.forget_write]
      exact h.now.write place v
    exact ⟨h.later hkeeps (h.toWholeSoFar.later hwhole (by rw [m.outside_write])), hkeeps⟩
  misses := by
    intro g m place n hm _ hsolid hhas hnone
    have hsome := Machine.isSome_read? hm hsolid hhas
    rw [hnone] at hsome
    cases hsome
  presentVariable := fun ready hm h hx hplace => h.has_variable hp ready hm hx hplace
  presentElement := fun indices _ h hsize => h.now.arrays.has_element hsize indices
  presentField := fun _ h hc hslot => h.now.has_field hc (hp.slots _ _ _ hslot)
  makes := by
    intro g m c object _ h hobject
    refine ⟨h.toWholeSoFar.same rfl rfl rfl, h.led, fun ref d href hd => ?_⟩
    obtain rfl : object = ref := by simpa [Stage.this?, Stage.making] using href
    obtain rfl : c = d := Option.some.inj hd
    exact hobject fun _ _ _ h => h.keepsClasses
  made := by
    intro g m m' c object _ h _ h' hleads
    exact ⟨h.later hleads (h'.toWholeSoFar.same rfl rfl rfl), hleads⟩
  unmade := fun _ _ _ h => h.same rfl rfl rfl

namespace Engine

variable {engine : Engine σ} (hp : engine.program.Sound) (hhost : engine.host.Considerate)

theorem notes_placing (task : Task) : (Contract.placing engine hp hhost).Notes task where
  begun := fun _ _ h _ => h.holds.later (.refl _) (h.holds.note h.holds.now)
  ended := fun _ _ _ _ h' hleads _ => ⟨h'.later (.refl _) (h'.note h'.now), hleads⟩
  cut := fun _ _ _ _ h' => h'.note h'.now
  starved := fun _ _ h => h.holds.note h.holds.now

/-- In the frame of a call the arguments lead to what is there, and a method runs on an object of
its class. -/
theorem placed_enter {m : Machine (Recording (Logged σ))} {call : Call} {inside : Option ClassId}
    (hcall : g.Callable engine.program call)
    (howned : (Contract.placing engine hp hhost).Owned g m call) (h : m.Placed engine g)
    (haround : engine.program.Around call.routine inside) :
    (m.enter call.this call.args (engine.program.routine call.routine).localCount).Placed engine
      (g.enter engine.program call inside) where
  toWholeSoFar := h.toWholeSoFar.same rfl rfl rfl
  led := by
    intro t place ht
    by_cases hlt : t < g.shape.size
    · exact h.led t place ((Shape.aliases_enter_lt hlt).symm.trans ht)
    · exact howned.present place (Shape.mem_args_of_aliases_enter (Nat.le_of_not_lt hlt) ht)
  object := by
    intro ref c href hc
    obtain rfl : inside = some c := hc
    have hthis : call.this = some ref := by simpa [Stage.this?, Stage.enter] using href
    have hbelongs : m.heap.Belongs call.this (engine.program.routine call.routine).classId :=
      howned.belongs fun _ _ _ h => h.keepsClasses
    rw [hthis] at hbelongs
    cases hclass : (engine.program.routine call.routine).classId with
    | none =>
      rw [hclass] at hbelongs
      cases hbelongs
    | some d =>
      obtain rfl : c = d :=
        Option.some.inj (hp.around call.routine hcall.routine (some c) haround d hclass)
      rw [hclass] at hbelongs
      cases hbelongs with
      | some hfound => exact hfound

theorem journals_placing : (Contract.placing engine hp hhost).Journals where
  fits := Program.fits_of_forall (fun _ _ => trivial) _
  notes := notes_placing hp hhost
  declares := fun _ _ => trivial
  stop := fun _ h _ => h.holds.note h.holds.now
  refused := by
    intro g m call _ _ h _
    have hnote : (m.note (.begun (.run call) m.forget)).WholeSoFar engine :=
      h.holds.note h.holds.now
    exact hnote.same rfl rfl rfl
  enter := by
    intro g m call inside _ hcall howned h _ haround
    have hnoted : (m.note (.begun (.run call) m.forget)).Placed engine g :=
      h.holds.later (.refl _) (h.holds.note h.holds.now)
    exact placed_enter hp hhost hcall ⟨howned.belongs, howned.present⟩ hnoted haround
  leave := by
    intro g m m' call inside _ _ h _ hstep
    have hkeeps : m.heap.Keeps m'.heap := hstep.leads
    exact ⟨h.holds.later hkeeps (hstep.holds.toWholeSoFar.same rfl rfl rfl), hkeeps⟩
  unwound := fun _ _ _ _ hcut => hcut.fails.same rfl rfl rfl

/-- Between visits nothing is at hand. -/
theorem placed_rest {m : Machine (Recording (Logged σ))} (h : m.WholeSoFar engine) :
    m.Placed engine (Stage.rest engine.program) where
  toWholeSoFar := h
  led := by
    intro t place ht
    have hnone : (Stage.rest engine.program).shape.aliases[t]? ≠ some (some place) := by
      simp [Stage.rest, Stack.shape, Stack.withStatics, Cell.alias?, default,
        Array.getElem?_replicate]
    exact absurd ht hnone
  object := fun _ _ _ hc => by cases hc

theorem whole_start (outside : Outside σ) :
    (engine.logging.start outside.withLog).Whole engine where
  arrays := fun i _ hgrid => absurd (Array.getElem?_eq_some_iff.mp hgrid).1 (Nat.not_lt_zero i)
  origins := fun i _ hgrid => absurd (Array.getElem?_eq_some_iff.mp hgrid).1 (Nat.not_lt_zero i)
  objects := fun i _ hobject => absurd (Array.getElem?_eq_some_iff.mp hobject).1 (Nat.not_lt_zero i)
  misses := rfl

include hp hhost in
/-- **Nothing is missing in a session in which the host leaves the store in order.** -/
theorem wholeSoFar_session (outside : Outside σ) {visits : List (Visit σ)}
    (hvisits : ∀ visit ∈ visits, visit.Considerate) :
    (engine.logging.recordedSession outside.withLog (visits.map Visit.logging)).2.WholeSoFar
      engine := by
  have hp' : engine.logging.recording.program.Sound := hp
  have hK := journals_placing hp hhost
  refine (rests_sessionBy hp' hK.fits (honours_watchedLevel hK hp) ?_ ?_ ?_).1.holds.toWholeSoFar
  · exact ⟨fun h => placed_rest (h.toWholeSoFar.same rfl rfl rfl),
      fun h => placed_rest (h.toWholeSoFar.same rfl rfl rfl),
      fun _ h => placed_rest (h.same rfl rfl rfl)⟩
  · intro visit hvisit
    obtain ⟨logged, hlogged, rfl⟩ := List.mem_map.mp hvisit
    obtain ⟨plain, hplain, rfl⟩ := List.mem_map.mp hlogged
    have hconsiderate := hvisits plain hplain
    cases plain with
    | program fuel => exact trivial
    | routine fuel name args => exact trivial
    | between change =>
      intro m h
      have hsupplies := hconsiderate m.heap m.outside.forget.unlogged
      exact placed_rest ⟨h.now.supplied hsupplies rfl rfl fun i hi hlt => ⟨hi, hlt⟩, h.noted⟩
  · exact ⟨atRest_start _, placed_rest ⟨(whole_start outside).same rfl rfl (List.Subset.refl _),
      List.forall_mem_nil _⟩⟩

include hp hhost in
/-- So nothing is missing in any state that is met. -/
theorem Meets.whole {outside : Outside σ} {visits : List (Visit σ)}
    (hvisits : ∀ visit ∈ visits, visit.Considerate) {m : Machine (Logged σ)}
    (h : engine.logging.Meets outside.withLog (visits.map Visit.logging) m) : m.Whole engine := by
  have hall := wholeSoFar_session hp hhost outside hvisits
  cases h with
  | begun h => exact hall.noted _ h
  | entered h => exact (hall.noted _ h).same rfl rfl (List.Subset.refl _)
  | ended h => exact hall.noted _ h
  | rested =>
    rw [← recordedSession_mirrors]
    exact hall.now

end Engine

/-! ### What is written is read again -/

/-- The next place that is followed depends on the shape alone. -/
theorem Stack.follow_slot (s : Stack) (n i : Nat) :
    s.follow (n + 1) (.slot i) = ((s.shape.aliases[i]?).join.map (s.follow n)).getD (.slot i) := by
  rw [Stack.aliases_shape]
  simp only [Stack.follow, Stack.read?]
  cases s.cells[i]? with
  | none => rfl
  | some c => cases c <;> rfl

theorem Stack.follow_eq {s s' : Stack} (h : s'.shape = s.shape) (n : Nat) (place : Place) :
    s'.follow n place = s.follow n place := by
  induction n generalizing place with
  | zero => cases place <;> rfl
  | succ n ih =>
    cases place with
    | slot i =>
      rw [Stack.follow_slot, Stack.follow_slot, h, show s'.follow n = s.follow n from funext ih]
    | element ref offset => rfl
    | field ref offset => rfl

theorem Stack.target_eq {s s' : Stack} (h : s'.shape = s.shape) (place : Place) :
    s'.target place = s.target place := by
  unfold Stack.target
  rw [← Stack.size_shape, ← Stack.size_shape, h]
  exact Stack.follow_eq h _ place

/-- **A value that is written where there is something is read there.** -/
theorem Machine.read?_write {m : Machine σ} (h : (m.read? place).isSome) (v : Value) :
    (m.write place v).read? place = some v := by
  unfold Machine.read? at h
  unfold Machine.write
  cases htarget : m.stack.target place with
  | slot i =>
    simp only [htarget] at h
    obtain ⟨old, hold⟩ : ∃ old, m.stack.cells[i]? = some (.direct old) := by
      unfold Stack.read? at h
      split at h
      · rename_i old hold
        exact ⟨old, hold⟩
      · cases h
    have hshape := Stack.shape_write (Stack.direct_iff.mpr ⟨old, hold⟩) v
    have hlt := (Array.getElem?_eq_some_iff.mp hold).1
    simp only [Machine.read?, Stack.target_eq hshape, htarget]
    simp [Stack.read?, Stack.write, hlt]
  | element ref offset =>
    simp only [htarget] at h
    simp only [Machine.read?, htarget]
    exact Heap.element?_setElement h v
  | field ref offset =>
    simp only [htarget] at h
    simp only [Machine.read?, htarget]
    exact Heap.field?_setField h v

/-! ### What a declaration makes -/

namespace Engine

variable {engine : Engine σ} {m : Machine σ}

end Engine

end Primer
