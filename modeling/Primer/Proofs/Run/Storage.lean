/-
Typed storage.

`Contract.typing` says of every step what `Proofs/Run/Typing.lean` is about: as long as the calls
that were noted agree with the kinds of their parameters, the statics and the arrays are typed, and a
static that was declared holds something.  It goes for every state of every visit, so that the text
of a value, which follows the arrays inside of it, never has to go deeper than one array.
-/
import Primer.Proofs.Run.Typing

namespace Primer

/-- A host that has no routines. -/
def Host.Bare (host : Host σ) : Prop :=
  ∀ name args heap o, (host.invoke name args heap o).1 = none ∧ (host.invoke name args heap o).2.1 = heap

section Steps

variable {engine : Engine σ} {g : Stage} {m m' : Machine (Recording σ)} {start : Machine σ}
  {p : Program}

/-- The slots of the statics are there on every stage. -/
theorem Stage.Ready.slotOf_lt (ready : g.Ready p) (hp : p.Sound) {x : VarId} (hx : p.Static x) :
    p.slotOf x < g.shape.size := by
  have hslot := hp.slotOf_lt hx
  have hstatics := ready.statics
  have hsize := ready.good.statics
  omega

/-- A slot of the frame at hand is the slot of no static. -/
theorem Stage.Ready.agrees_slot (ready : g.Ready p) (hp : p.Sound) {i : Nat} (hi : g.shape.top ≤ i)
    (heap : Heap) (kind : Kind) : p.Agrees heap kind (.slot i) := by
  intro x hx hstatic hslot
  have hlow := hp.slotOf_lt ⟨hx, hstatic⟩
  have hstatics := ready.statics
  have htop := ready.good.statics_le_top
  omega

/-- The place where a variable is found holds values of its kind. -/
theorem Stage.Bound.agrees {heap : Heap} {x : VarId} {place : Place} (hbound : g.Bound p heap)
    (ready : g.Ready p) (hp : p.Sound) (hx : x < p.symbols.entries.size) (h : g.Locates p x place) :
    p.Agrees heap (p.symbols.variableAt x).kind place := by
  cases h with
  | static hstatic =>
    intro y hy hstatic' hslot
    rw [hp.slotOf_inj ⟨hy, hstatic'⟩ ⟨hx, hstatic⟩ hslot]
  | frame hframe hr hroutine hi =>
    have hstart := (ready.frame _ hr).start
    exact ready.agrees_slot hp (by omega) heap _
  | argument harg hr hi => exact ready.agrees_slot hp (ready.slot_param hr hi).1 heap _
  | led harg hr hi hplace => exact hbound _ hr _ x place hi hplace
  | field => trivial

/-- What is done at one go adds to the arrays. -/
theorem Engine.Acts.heap (hbare : engine.host.Bare) (h : engine.recording.Acts m m') :
    m.heap.Extends m'.heap ∧ (m.heap.Typed → m'.heap.Typed) := by
  cases h with
  | report hfatal span => exact ⟨.refl _, fun h => h⟩
  | readLine => exact ⟨.refl _, fun h => h⟩
  | writeLine line => exact ⟨.refl _, fun h => h⟩
  | invoke name args =>
    have hheap : (engine.recording.host.invoke name args m.heap m.outside).2.1 = m.heap :=
      (hbare name args m.heap m.outside.forget).2
    constructor
    · show m.heap.Extends (engine.recording.host.invoke name args m.heap m.outside).2.1
      rw [hheap]
      exact .refl _
    · show _ → (engine.recording.host.invoke name args m.heap m.outside).2.1.Typed
      rw [hheap]
      exact fun h => h
  | newArray hx hgrid => exact ⟨m.heap.extends_addGrid _, fun h => h.addGrid hgrid.typed⟩
  | newInstance h => exact ⟨.refl m.heap, fun h => h⟩

theorem Engine.Stops.heap {e : Interrupt} (h : engine.recording.Stops e m m') : m'.heap = m.heap := by
  cases h <;> rfl

namespace Machine.Sorted

variable {p : Program}

/-- What leaves the stack alone and keeps the arrays typed. -/
theorem of_stack (h : m.Sorted p start g) (hstack : m'.stack = m.stack)
    (hheap : m.heap.Extends m'.heap) (htyped : m'.heap.Typed)
    (hjournal : m'.outside.state.journal = m.outside.state.journal) : m'.Sorted p start g := by
  have hcells : ∀ x, p.Static x → m'.stack.cells[p.slotOf x]? = m.stack.cells[p.slotOf x]? :=
    fun x _ => by rw [hstack]
  exact h.step (h.typed.of_cells hcells htyped) (.of_cells hcells) hheap hjournal

theorem write {place : Place} {kind : Kind} {v : Value} (h : m.Sorted p start g) (hm : m.At g)
    (hsolid : g.shape.Solid place) (hagrees : p.Agrees m.heap kind place) (hv : v.Suits kind) :
    (m.write place v).Sorted p start g :=
  h.step (h.typed.write hm hsolid hagrees hv) (fuller_write hm hsolid hagrees hv)
    (extends_write hm hsolid) (by rw [m.outside_write])

end Machine.Sorted

end Steps

/-- The contract that what is stored is of the kind of its storage, as long as parameters by
reference agree with what they stand for. -/
def Contract.typing (engine : Engine σ) (hp : engine.program.Sound) (hbare : engine.host.Bare)
    (start : Machine σ) : Contract engine.recording where
  Holds := fun g m => Agreeable engine.program m.outside.state.journal →
    m.Sorted engine.program start g
  Leads := fun _ m m' => m.Follows engine.program m'
  Fails := fun _ _ _ m' => Agreeable engine.program m'.outside.state.journal →
    m'.Settled engine.program start
  Offers := fun _ m place kind => Agreeable engine.program m.outside.state.journal →
    engine.program.Agrees m.heap kind place
  Declared := fun _ m x => Agreeable engine.program m.outside.state.journal →
    engine.program.Plain x → m.Filled engine.program x
  refl := fun _ _ => .refl _
  trans := fun h h' => h.trans h'
  interrupted := fun _ h => h
  offers := fun h hleads hagree =>
    (h (Machine.agreeable_of_suffix hagree hleads.journal)).extends hleads.heap
  declared := fun h hleads hagree hx =>
    hleads.fuller hagree _ hx (h (Machine.agreeable_of_suffix hagree hleads.journal) hx)
  widen := by
    intro g g' hshape _ hhome
    refine ⟨fun m h hagree => (h hagree).onStage ?_, fun _ _ h => h, fun _ _ _ h => h⟩
    intro r hr
    rw [hshape]
    exact (h hagree).bound r (hhome ▸ hr)
  acts := by
    intro g m m' _ h ha
    obtain ⟨hheap, htyped⟩ := ha.heap hbare
    refine ⟨fun hagree => ?_, .of_cells (fun x _ => by rw [ha.stack]) hheap (ha.journal ▸ List.suffix_refl _)⟩
    have hsorted := h (ha.journal ▸ hagree)
    exact hsorted.of_stack ha.stack hheap (htyped hsorted.typed.arrays) ha.journal
  stops := by
    intro g e m m' _ h hs hagree
    have hsorted := h (hs.journal ▸ hagree)
    exact (hsorted.of_stack hs.stack (hs.heap ▸ .refl _) (hs.heap ▸ hsorted.typed.arrays)
      hs.journal).settled
  stores := by
    intro g m place kind v _ hm h hsolid hoffers hv
    have hjournal : (m.write place v).outside.state.journal = m.outside.state.journal := by
      rw [m.outside_write]
    refine ⟨fun hagree => ?_, hjournal ▸ List.suffix_refl _, Machine.extends_write hm hsolid,
      fun hagree => ?_⟩
    · rw [hjournal] at hagree
      exact (h hagree).write hm hsolid (hoffers hagree) hv
    · rw [hjournal] at hagree
      exact Machine.fuller_write hm hsolid (hoffers hagree) hv
  misses := by
    intro g m place n _ h _ _ _
    refine ⟨fun hagree => ?_, .of_cells (fun _ _ => rfl) (.refl _) (List.suffix_refl _)⟩
    exact (h hagree).of_stack rfl (.refl _) (h hagree).typed.arrays rfl
  atVariable := fun ready hm h hx _ hplace hagree =>
    (h hagree).bound.agrees ready hp hx.1 (ready.locates hp hm hx hplace)
  declares := by
    intro g m x place v ready hm hx _ hplace hsolid hv _ hplain
    have hplace : place = .slot (engine.program.slotOf x) := by
      simp only [Machine.placeOf, Engine.recording, hplain.storage, Except.ok.injEq] at hplace
      exact hplace.symm
    subst hplace
    refine ⟨v, ?_, hplain.ne_null hv⟩
    rw [Machine.cells_write hm hsolid, if_pos rfl]
  atElement := fun _ _ _ hsize _ => Heap.elementsOf_grid hsize
  atField := fun _ _ _ _ _ _ => trivial
  makes := by
    intro g m c object _ h _ hagree
    have hsorted : (m.making object).Sorted engine.program start g :=
      (h hagree).of_stack rfl (.refl _) (h hagree).typed.arrays rfl
    exact hsorted.onStage nofun
  made := by
    intro g m m' c object _ h hm' h' hleads
    refine ⟨fun hagree => ?_, hleads.journal, hleads.heap, hleads.fuller⟩
    have hbound := (h (Machine.agreeable_of_suffix hagree hleads.journal)).bound.extends hleads.heap
    have hsorted : m'.made.Sorted engine.program start (g.making c object) :=
      (h' hagree).of_stack rfl (.refl _) (h' hagree).typed.arrays rfl
    exact hsorted.onStage hbound
  unmade := by
    intro g e m m' c object _ _ _ h hagree
    have htyped : m'.made.Typed engine.program := ⟨(h hagree).typed.statics, (h hagree).typed.arrays⟩
    exact (h hagree).step htyped (.refl _) rfl

/-! ### Calls -/

namespace Machine

variable {p : Program} {m : Machine σ}

/-- Opening a frame leaves the cells below it alone. -/
theorem Typed.enter (h : m.Typed p) (this : Option ObjectRef) (args : List Cell) (locals : Nat) :
    (m.enter this args locals).Typed p := by
  refine ⟨fun x hx => ?_, h.arrays⟩
  obtain ⟨w, hw, hkind⟩ := h.statics x hx
  refine ⟨w, ?_, hkind⟩
  rw [Machine.cells_enter (Array.getElem?_eq_some_iff.mp hw).1]
  exact hw

theorem Filled.enter {x : VarId} (h : m.Filled p x) (this : Option ObjectRef) (args : List Cell)
    (locals : Nat) : (m.enter this args locals).Filled p x := by
  obtain ⟨w, hw, hne⟩ := h
  refine ⟨w, ?_, hne⟩
  rw [Machine.cells_enter (Array.getElem?_eq_some_iff.mp hw).1]
  exact hw

end Machine

namespace Stage.Ready

variable {p : Program} {g : Stage} {call : Call} {inside : Option ClassId}

/-- A frame is opened and closed above the statics. -/
theorem cells_enter {m : Machine σ} (ready : g.Ready p) (hp : p.Sound) (call : Call) (hm : m.At g)
    (x : VarId) (hx : p.Static x) :
    (m.enter call.this call.args (p.routine call.routine).localCount).stack.cells[p.slotOf x]? =
      m.stack.cells[p.slotOf x]? := by
  refine Machine.cells_enter ?_
  show _ < m.stack.cells.size
  rw [hm.size]
  exact ready.slotOf_lt hp hx

theorem cells_leave {m : Machine σ} (ready : g.Ready p) (hp : p.Sound) (hm : m.At (g.enter p call inside))
    (x : VarId) (hx : p.Static x) :
    m.leave.stack.cells[p.slotOf x]? = m.stack.cells[p.slotOf x]? :=
  Stack.cells_popFrame hm.shape (ready.slotOf_lt hp hx)

end Stage.Ready

namespace Engine

variable {engine : Engine σ} {start : Machine σ}

theorem notes_typing (hp : engine.program.Sound) (hbare : engine.host.Bare) (start : Machine σ)
    (task : Task) : (Contract.typing engine hp hbare start).Notes task where
  begun := fun _ _ h _ hagree =>
    (h.holds (List.forall_mem_cons.mp hagree).2).note rfl (by trivial)
  ended := by
    intro g m m' _ _ h _ hm' hleads hdeclared
    refine ⟨fun hagree => ?_, ((Machine.follows_note m _).trans hleads).trans (Machine.follows_note m' _)⟩
    have hagree' := (List.forall_mem_cons.mp hagree).2
    refine (hm' hagree').note rfl ?_
    cases task with
    | exec s => exact fun x hx hplain => hdeclared s rfl x hx hagree' hplain
    | eval e => trivial
    | run call => trivial
  cut := fun _ _ _ _ h hagree => (h (List.forall_mem_cons.mp hagree).2).note _ _
  starved := fun _ _ h hagree =>
    ((h.holds (List.forall_mem_cons.mp hagree).2).note rfl (by trivial)).settled

theorem journals_typing (hp : engine.program.Sound) (hbare : engine.host.Bare) (start : Machine σ) :
    (Contract.typing engine hp hbare start).Journals where
  fits := Program.fits_of_forall (fun _ _ => trivial) _
  notes := notes_typing hp hbare start
  declares := fun _ _ => trivial
  stop := fun _ h _ hagree =>
    ((h.holds (List.forall_mem_cons.mp hagree).2).note rfl (by trivial)).settled
  refused := by
    intro g m call _ _ h _ hagree
    have hsorted : (m.note (.begun (.run call) m.forget)).Sorted engine.program start g :=
      (h.holds (List.forall_mem_cons.mp hagree).2).note rfl (by trivial)
    refine Machine.Sorted.settled (g := g) ?_
    exact hsorted.of_stack rfl (.refl _) hsorted.typed.arrays rfl
  enter := by
    intro g m call inside ready hcall _ h _ _ hagree
    obtain ⟨hcalled, hagree⟩ := List.forall_mem_cons.mp hagree
    have hsorted : (m.note (.begun (.run call) m.forget)).Sorted engine.program start g :=
      (h.holds hagree).note rfl (by trivial)
    have hcells := ready.cells_enter hp call
      (m := m.note (.begun (.run call) m.forget)) ⟨h.stays.shape, h.stays.calls⟩
    have htyped := hsorted.typed.of_cells hcells hsorted.typed.arrays
    exact (hsorted.step htyped (.of_cells hcells) (.refl _) rfl).onStage
      (Stage.bound_enter hcall hcalled)
  leave := by
    intro g m m' call inside ready hcall h _ hstep
    have hcells := ready.cells_leave hp hstep.keeps.stays
    have henter := ready.cells_enter hp call
      (m := m.note (.begun (.run call) m.forget)) ⟨h.stays.shape, h.stays.calls⟩
    have hleads : (m.note (.begun (.run call) m.forget)).Follows engine.program m'.leave :=
      ((Machine.Follows.of_cells henter (.refl _) (List.suffix_refl _)).trans hstep.leads).trans
        (.of_cells hcells (.refl _) (List.suffix_refl _))
    refine ⟨fun hagree => ?_, hleads⟩
    have hbefore := Machine.agreeable_of_suffix hagree hleads.journal
    have hbound := (h.holds (List.forall_mem_cons.mp hbefore).2).bound.extends hleads.heap
    have hsorted := hstep.holds hagree
    have htyped := hsorted.typed.of_cells hcells hsorted.typed.arrays
    exact (hsorted.step htyped (.of_cells hcells) (.refl _) rfl).onStage hbound
  unwound := by
    intro g m m' call inside e ready hcall h _ hcut hagree
    have hcells := ready.cells_leave hp hcut.keeps.stays
    have hsettled := hcut.fails hagree
    have htyped := hsettled.typed.of_cells hcells hsettled.typed.arrays
    exact hsettled.step htyped (.of_cells hcells) rfl

/-! ### Visits -/

/-- What is known when a visit is over. -/
theorem settled_visit (hp : engine.program.Sound) (hbare : engine.host.Bare) {visit : Visit σ}
    {m : Machine σ} (hm : m.AtRest engine.program) (htyped : (engine.opening visit m).Typed engine.program)
    (hagree : Agreeable engine.program (engine.noted visit m)) {o : Outcome}
    (ho : (engine.visitBy engine.level visit m).1 = some o) :
    ∃ last, engine.EndedIn visit m o last ∧
      last.Settled engine.program (engine.opening visit m) ∧
        (o.ending = .completed → ∀ event ∈ engine.noted visit m, event.Fills engine.program) := by
  have hopening : (engine.recording.opening visit.recording m.record).forget = engine.opening visit m ∧
      (engine.recording.opening visit.recording m.record).outside.state.journal = [] := by
    cases visit <;> exact ⟨rfl, rfl⟩
  have hstart : (engine.recording.opening visit.recording m.record).Sorted engine.program
      (engine.opening visit m) (Stage.rest engine.program) := by
    refine ⟨?_, nofun, ?_⟩
    · unfold Machine.states
      rw [hopening.1, hopening.2]
      exact (Story.single htyped).twice
    · rw [hopening.2]
      exact List.forall_mem_nil _
  have hK := journals_typing hp hbare (engine.opening visit m)
  obtain ⟨last, hlast, hend⟩ := endedIn_recordedVisit hK.fits (honours_watchedLevel hK hp) hp
    ⟨atRest_recordedOpening hm visit, fun _ => hstart⟩ ho
  have hagree' : Agreeable engine.program last.outside.state.journal := hlast.journal ▸ hagree
  rw [hlast.journal]
  refine ⟨last, hlast, ?_⟩
  rcases hend with ⟨-, hstep⟩ | ⟨hstopped, hcut⟩ | ⟨hfuel, hcut⟩
  · have hsorted := hstep.holds hagree'
    exact ⟨hsorted.settled, fun _ => hsorted.fills⟩
  · refine ⟨hcut.fails hagree', fun hcompleted => ?_⟩
    rw [hstopped] at hcompleted
    cases hcompleted
  · refine ⟨hcut.fails hagree', fun hcompleted => ?_⟩
    rw [hfuel] at hcompleted
    cases hcompleted

end Engine

/-- A change between visits keeps the arrays typed. -/
def Visit.KeepsArrays : Visit σ → Prop
  | .between change => ∀ heap o, heap.Typed → (change heap o).1.Typed
  | _ => True

/-- A statement that declares the variable has ended. -/
def Event.Declares (x : VarId) : Event σ → Prop
  | .ended (.exec s) _ _ => x ∈ s.declared
  | _ => False

instance (x : VarId) : ∀ event : Event σ, Decidable (event.Declares x)
  | .ended (.exec s) _ _ => inferInstanceAs (Decidable (x ∈ s.declared))
  | .ended (.eval _) _ _ | .ended (.run _) _ _ | .begun .. => inferInstanceAs (Decidable False)

namespace Engine

/-- The variable is declared in the visit: after the statement something else was begun, or else the
visit came to its end. -/
def DeclaredAt (engine : Engine σ) (visit : Visit σ) (m : Machine σ) (x : VarId)
    (later : List (Event σ)) (event : Event σ) : Prop :=
  (∃ earlier, engine.noted visit m = later ++ event :: earlier) ∧ event.Declares x ∧
    ((∃ next ∈ later, ¬ next.IsEnd) ∨
      ∃ o, (engine.visitBy engine.level visit m).1 = some o ∧ o.ending = .completed)

/-- The variable was declared in one of the visits, and the program was not run again after it. -/
def Remembers (engine : Engine σ) (x : VarId) : List (Visit σ) → Machine σ → Prop
  | [], _ => False
  | visit :: rest, m =>
    ((∃ later event, engine.DeclaredAt visit m x later event) ∧ ∀ next ∈ rest, ¬ next.Restarts) ∨
      engine.Remembers x rest (engine.visitBy engine.level visit m).2

/-- In all visits, parameters by reference are bound to places of their own kinds. -/
def Agrees (engine : Engine σ) : List (Visit σ) → Machine σ → Prop
  | [], _ => True
  | visit :: rest, m => Agreeable engine.program (engine.noted visit m) ∧
    engine.Agrees rest (engine.visitBy engine.level visit m).2

/-- What typed storage comes to in a visit.  The visit is looked at through its journal, which changes
nothing about it. -/
structure StoresKinds (engine : Engine σ) (visit : Visit σ) (m : Machine σ) : Prop where
  recorded : forgetPair (engine.recordedVisit visit m) = engine.visitBy engine.level visit m
  /-- Statics hold nothing or values of their kind, and elements of arrays suit their arrays. -/
  typed : ∀ s, engine.MetIn visit m s → s.Typed engine.program
  /-- From its declaration on, a static that is neither an array nor an object holds something. -/
  declared : ∀ x later event, engine.program.Plain x → engine.DeclaredAt visit m x later event →
    event.state.Filled engine.program x ∧ (∀ s, engine.Met later s → s.Filled engine.program x) ∧
      (engine.visitBy engine.level visit m).2.Filled engine.program x
  /-- What holds something goes on to do so. -/
  kept : ∀ x, engine.program.Plain x → (engine.opening visit m).Filled engine.program x →
    ∀ s, engine.MetIn visit m s → s.Filled engine.program x
  /-- No array is an element of an array. -/
  flat : ∀ s, engine.MetIn visit m s → ∀ grid ∈ s.heap.grids, ∀ v ∈ grid.cells, ∀ ref, v ≠ .array ref
  /-- So the text of a value is found within one array. -/
  text : ∀ s, engine.MetIn visit m s → ∀ v n, s.heap.textWithin (n + 1) v = s.heap.textWithin 1 v

variable {engine : Engine σ} {visit : Visit σ} {m : Machine σ} {events : List (Event σ)}
  {s : Machine σ}

/-- What is so in the states of events is so where they are met. -/
theorem Met.induct {P : Machine σ → Prop} (h : engine.Met events s)
    (hevents : ∀ event ∈ events, P event.state)
    (henter : ∀ t this args locals, P t → P (t.enter this args locals)) : P s := by
  cases h with
  | begun h => exact hevents _ h
  | entered h _ => exact henter _ _ _ _ (hevents _ h)
  | ended h => exact hevents _ h

theorem Met.typed (h : engine.Met events s)
    (hevents : ∀ event ∈ events, event.state.Typed engine.program) : s.Typed engine.program :=
  h.induct hevents fun _ this args locals ht => ht.enter this args locals

theorem Met.filled {x : VarId} (h : engine.Met events s)
    (hevents : ∀ event ∈ events, event.state.Filled engine.program x) : s.Filled engine.program x :=
  h.induct (P := fun t => t.Filled engine.program x) hevents
    fun _ this args locals ht => ht.enter this args locals

end Engine

namespace Machine.Settled

variable {p : Program} {start : Machine σ} {m : Machine (Recording σ)} {x : VarId}

/-- What was filled at the start is filled in all states. -/
theorem kept (h : m.Settled p start) (hx : p.Plain x) (hstart : start.Filled p x) :
    (∀ event ∈ m.outside.state.journal, event.state.Filled p x) ∧ m.forget.Filled p x := by
  obtain ⟨hlast, hrest⟩ := List.pairwise_cons.mp h.story.fuller
  refine ⟨fun event hevent => ?_, hlast start (by simp) x hx hstart⟩
  exact (List.pairwise_append.mp hrest).2.2 _ (List.mem_map_of_mem hevent) start (by simp) x hx hstart

/-- What was filled at an event is filled in all later states. -/
theorem kept_since (h : m.Settled p start) {later earlier : List (Event σ)} {event : Event σ}
    (hjournal : m.outside.state.journal = later ++ event :: earlier) (hx : p.Plain x)
    (hevent : event.state.Filled p x) :
    (∀ next ∈ later, next.state.Filled p x) ∧ m.forget.Filled p x := by
  obtain ⟨hlast, hrest⟩ := List.pairwise_cons.mp h.story.fuller
  refine ⟨fun next hnext => ?_, hlast event.state (by simp [hjournal]) x hx hevent⟩
  have hstates := (List.pairwise_append.mp hrest).1
  rw [hjournal, List.map_append, List.map_cons] at hstates
  exact (List.pairwise_append.mp hstates).2.2 _ (List.mem_map_of_mem hnext) _ List.mem_cons_self x hx
    hevent

/-- What ended before something else was begun has done what it is there for. -/
theorem fills_of_begun (h : m.Settled p start) {later earlier : List (Event σ)} {event : Event σ}
    (hjournal : m.outside.state.journal = later ++ event :: earlier)
    (hbegun : ∃ next ∈ later, ¬ next.IsEnd) : event.Fills p := by
  obtain ⟨ends, done, hsplit, hends, hdone⟩ := h.fills
  obtain ⟨next, hnext, hbegun⟩ := hbegun
  rcases List.append_eq_append_iff.mp (hsplit.symm.trans hjournal) with
    ⟨rest, -, hrest⟩ | ⟨rest, hrest, -⟩
  · refine hdone event ?_
    rw [hrest]
    simp
  · refine absurd (hends next ?_) hbegun
    rw [hrest]
    exact List.mem_append_left _ hnext

end Machine.Settled

theorem Event.filled_of_declares {p : Program} {event : Event σ} {x : VarId} (hx : p.Plain x)
    (hdeclares : event.Declares x) (hfills : event.Fills p) : event.state.Filled p x := by
  match event, hdeclares with
  | .ended (.exec s) before after, hdeclares => exact hfills x hdeclares hx

namespace Engine

variable {engine : Engine σ} {visit : Visit σ} {m : Machine σ}

/-- At first the statics hold nothing. -/
theorem cells_withStatics (hp : engine.program.Sound) {x : VarId} (hx : engine.program.Static x) :
    (Stack.withStatics engine.program.symbols.staticCount).cells[engine.program.slotOf x]? =
      some (.direct .null) := by
  show (Array.replicate engine.program.symbols.staticCount (Cell.direct .null))[_]? = _
  rw [Array.getElem?_replicate, if_pos (hp.slotOf_lt hx)]

theorem typed_start (hp : engine.program.Sound) (outside : Outside σ) :
    (engine.start outside).Typed engine.program := by
  refine ⟨fun x hx => ⟨.null, cells_withStatics hp hx, Or.inl rfl⟩, fun grid hgrid => ?_⟩
  cases Array.not_mem_empty _ hgrid

theorem typed_opening (hp : engine.program.Sound) (hm : m.Typed engine.program) (visit : Visit σ) :
    (engine.opening visit m).Typed engine.program := by
  cases visit with
  | program fuel =>
    exact ⟨fun x hx => ⟨.null, cells_withStatics hp hx, Or.inl rfl⟩, hm.arrays⟩
  | routine fuel name args => exact hm
  | between change => exact hm

section

variable (hp : engine.program.Sound) (hbare : engine.host.Bare) (hm : m.AtRest engine.program)
  (htyped : m.Typed engine.program) (hkeeps : visit.KeepsArrays)
  (hagree : Agreeable engine.program (engine.noted visit m))

include hp hbare hm htyped hkeeps hagree

theorem MetIn.typed {s : Machine σ} (h : engine.MetIn visit m s) : s.Typed engine.program := by
  have hopening := typed_opening hp htyped visit
  cases ho : (engine.visitBy engine.level visit m).1 with
  | none =>
    cases h with
    | noted h =>
      rw [noted_eq_nil ho] at h
      exact h.typed (List.forall_mem_nil _)
    | rested =>
      cases visit with
      | program fuel => cases ho
      | routine fuel name args => cases ho
      | between change => exact ⟨htyped.statics, hkeeps _ _ htyped.arrays⟩
  | some o =>
    obtain ⟨last, hlast, hsettled, -⟩ := settled_visit hp hbare hm hopening hagree ho
    cases h with
    | noted h =>
      refine h.typed fun event hevent => ?_
      rw [hlast.journal] at hevent
      refine hsettled.story.typed _ (List.mem_cons_of_mem _ (List.mem_append_left _ ?_))
      exact List.mem_map_of_mem hevent
    | rested =>
      rw [hlast.final]
      exact ⟨hsettled.typed.statics, hsettled.typed.arrays⟩

omit hkeeps in
theorem MetIn.filled {x : VarId} (hx : engine.program.Plain x)
    (hfilled : (engine.opening visit m).Filled engine.program x) {s : Machine σ}
    (h : engine.MetIn visit m s) : s.Filled engine.program x := by
  have hopening := typed_opening hp htyped visit
  cases ho : (engine.visitBy engine.level visit m).1 with
  | none =>
    obtain ⟨hsame, hstack⟩ := visitBy_of_none ho
    rw [hsame] at hfilled
    cases h with
    | noted h =>
      rw [noted_eq_nil ho] at h
      exact h.filled (List.forall_mem_nil _)
    | rested =>
      unfold Machine.Filled
      rw [hstack]
      exact hfilled
  | some o =>
    obtain ⟨last, hlast, hsettled, -⟩ := settled_visit hp hbare hm hopening hagree ho
    obtain ⟨hnoted, hfinal⟩ := hsettled.kept hx hfilled
    cases h with
    | noted h => exact h.filled fun event hevent => hnoted event (hlast.journal ▸ hevent)
    | rested =>
      rw [hlast.final]
      exact hfinal

omit hkeeps in
theorem DeclaredAt.filled {x : VarId} (hx : engine.program.Plain x) {later : List (Event σ)}
    {event : Event σ} (h : engine.DeclaredAt visit m x later event) :
    event.state.Filled engine.program x ∧ (∀ s, engine.Met later s → s.Filled engine.program x) ∧
      (engine.visitBy engine.level visit m).2.Filled engine.program x := by
  obtain ⟨⟨earlier, hnoted⟩, hdeclares, hended⟩ := h
  cases ho : (engine.visitBy engine.level visit m).1 with
  | none =>
    rw [noted_eq_nil ho] at hnoted
    simp at hnoted
  | some o =>
    obtain ⟨last, hlast, hsettled, hcompleted⟩ :=
      settled_visit hp hbare hm (typed_opening hp htyped visit) hagree ho
    have hjournal := hlast.journal.symm.trans hnoted
    have hfills : event.Fills engine.program := by
      rcases hended with hbegun | ⟨o', ho', hend⟩
      · exact hsettled.fills_of_begun hjournal hbegun
      · obtain rfl : o = o' := Option.some.inj (ho.symm.trans ho')
        exact hcompleted hend event (by rw [hnoted]; simp)
    have hfilled := Event.filled_of_declares hx hdeclares hfills
    obtain ⟨hlater, hfinal⟩ := hsettled.kept_since hjournal hx hfilled
    refine ⟨hfilled, fun s hs => hs.filled hlater, ?_⟩
    rw [hlast.final]
    exact hfinal

theorem storesKinds_visit : engine.StoresKinds visit m where
  recorded := recordedVisit_mirrors engine visit m
  typed := fun _ hs => hs.typed hp hbare hm htyped hkeeps hagree
  declared := fun _ _ _ hx h => h.filled hp hbare hm htyped hagree hx
  kept := fun _ hx hfilled _ hs => hs.filled hp hbare hm htyped hagree hx hfilled
  flat := fun _ hs _ hgrid _ hv =>
    (hs.typed hp hbare hm htyped hkeeps hagree).arrays.ne_array hgrid hv
  text := fun _ hs => (hs.typed hp hbare hm htyped hkeeps hagree).arrays.textWithin

end

/-! ### Sessions -/

theorem agrees_append {visits more : List (Visit σ)} {m : Machine σ} :
    engine.Agrees (visits ++ more) m ↔
      engine.Agrees visits m ∧ engine.Agrees more (engine.sessionBy engine.level visits m).2 := by
  induction visits generalizing m with
  | nil => simp [Agrees, sessionBy]
  | cons visit rest ih => simp only [List.cons_append, Agrees, ih, sessionBy, and_assoc]

/-- What is known after some visits. -/
structure Tidy (engine : Engine σ) (m : Machine σ) : Prop where
  rest : m.AtRest engine.program
  typed : m.Typed engine.program

section

variable (hp : engine.program.Sound) (hbare : engine.host.Bare) {visits : List (Visit σ)}

include hp hbare

theorem Tidy.visited (h : engine.Tidy m) (hkeeps : visit.KeepsArrays)
    (hagree : Agreeable engine.program (engine.noted visit m)) :
    engine.StoresKinds visit m ∧ engine.Tidy (engine.visitBy engine.level visit m).2 := by
  have hstores := storesKinds_visit hp hbare h.rest h.typed hkeeps hagree
  exact ⟨hstores, atRest_visitBy hp h.rest visit, hstores.typed _ .rested⟩

theorem Tidy.session (h : engine.Tidy m) (hkeeps : ∀ visit ∈ visits, visit.KeepsArrays)
    (hagree : engine.Agrees visits m) :
    engine.Tidy (engine.sessionBy engine.level visits m).2 := by
  induction visits generalizing m with
  | nil => exact h
  | cons visit rest ih =>
    obtain ⟨hfirst, hrest⟩ := hagree
    obtain ⟨-, hnext⟩ := h.visited hp hbare (hkeeps visit (by simp)) hfirst
    exact ih hnext (fun v hv => hkeeps v (by simp [hv])) hrest

/-- What holds something goes on to do so until the program is run again. -/
theorem Tidy.kept (h : engine.Tidy m) (hkeeps : ∀ visit ∈ visits, visit.KeepsArrays)
    (hagree : engine.Agrees visits m) {x : VarId} (hx : engine.program.Plain x)
    (hvisits : ∀ visit ∈ visits, ¬ visit.Restarts) (hfilled : m.Filled engine.program x) :
    (engine.sessionBy engine.level visits m).2.Filled engine.program x := by
  induction visits generalizing m with
  | nil => exact hfilled
  | cons visit rest ih =>
    obtain ⟨hfirst, hrest⟩ := hagree
    obtain ⟨hstores, hnext⟩ := h.visited hp hbare (hkeeps visit (by simp)) hfirst
    have hopening : (engine.opening visit m).Filled engine.program x := by
      rw [opening_of_not_restarts (hvisits visit (by simp))]
      exact hfilled
    exact ih hnext (fun v hv => hkeeps v (by simp [hv])) hrest (fun v hv => hvisits v (by simp [hv]))
      (hstores.kept x hx hopening _ .rested)

theorem Tidy.remembered (h : engine.Tidy m) (hkeeps : ∀ visit ∈ visits, visit.KeepsArrays)
    (hagree : engine.Agrees visits m) {x : VarId} (hx : engine.program.Plain x)
    (hremembers : engine.Remembers x visits m) :
    (engine.sessionBy engine.level visits m).2.Filled engine.program x := by
  induction visits generalizing m with
  | nil => cases hremembers
  | cons visit rest ih =>
    obtain ⟨hfirst, hrest⟩ := hagree
    obtain ⟨hstores, hnext⟩ := h.visited hp hbare (hkeeps visit (by simp)) hfirst
    have hkeeps' : ∀ v ∈ rest, v.KeepsArrays := fun v hv => hkeeps v (by simp [hv])
    rcases hremembers with ⟨⟨later, event, hdeclared⟩, hagain⟩ | hremembers
    · have hfilled := (hstores.declared x later event hx hdeclared).2.2
      exact hnext.kept hp hbare hkeeps' hrest hx hagain hfilled
    · exact ih hnext hkeeps' hrest hremembers

end

/-- **With a host that has no routines, and with parameters by reference that are bound to places of
their own kinds, what is stored is of the kind of its storage in every state of every session, and
what was declared holds something until the program is run again.** -/
theorem storage_is_typed (tokens : List Token) (settings : Settings) (host : Host σ)
    (outside : Outside σ) (history : List (Visit σ)) (visit : Visit σ) (hbare : host.Bare)
    (hkeeps : ∀ v ∈ history ++ [visit], v.KeepsArrays)
    (hagree : (ofTokens tokens settings host).Agrees (history ++ [visit])
      ((ofTokens tokens settings host).start outside)) :
    (ofTokens tokens settings host).StoresKinds visit
        ((ofTokens tokens settings host).session outside history).2 ∧
      ∀ x, (ofTokens tokens settings host).program.Plain x → ¬ visit.Restarts →
        (ofTokens tokens settings host).Remembers x history
          ((ofTokens tokens settings host).start outside) →
        ∀ s, (ofTokens tokens settings host).MetIn visit
            ((ofTokens tokens settings host).session outside history).2 s →
          s.Filled (ofTokens tokens settings host).program x := by
  have hp := sound_ofTokens tokens settings host
  obtain ⟨hhistory, hvisit, -⟩ := agrees_append.mp hagree
  have hkeeps' : ∀ v ∈ history, v.KeepsArrays := fun v hv => hkeeps v (by simp [hv])
  have hstart : (ofTokens tokens settings host).Tidy ((ofTokens tokens settings host).start outside) :=
    ⟨atRest_start outside, typed_start hp outside⟩
  have hstores := ((hstart.session hp hbare hkeeps' hhistory).visited hp hbare
    (hkeeps visit (by simp)) hvisit).1
  refine ⟨hstores, fun x hx hrestarts hremembers s hs => ?_⟩
  have hfilled := hstart.remembered hp hbare hkeeps' hhistory hx hremembers
  refine hstores.kept x hx ?_ s hs
  rw [opening_of_not_restarts hrestarts]
  exact hfilled

/-- A routine that changes a static and an element of an array, both of the kind it expects. -/
def tallySource : String :=
  "Declare Integer n = 1
Declare Integer a[2]
Module add(Integer Ref k)
    Set k = k + 2.5
End Module
Module go()
    Call add(a[1])
End Module
Call add(n)
"

def tally : Engine Buffer := ofTokens (scan tallySource).1 {} (Buffer.host [])

theorem storage_is_typed_tally :
    tally.Agrees [.program 9, .routine 9 "go" []] (tally.start ⟨{}, false⟩) ∧
    tally.program.Plain 0 ∧ tally.Remembers 0 [.program 9] (tally.start ⟨{}, false⟩) ∧
    ∀ s, tally.MetIn (.routine 9 "go" []) (tally.session ⟨{}, false⟩ [.program 9]).2 s →
      s.Typed tally.program ∧ s.Filled tally.program 0 := by
  have hall : (Agreeable tally.program (tally.noted (.program 9) (tally.start ⟨{}, false⟩)) ∧
      Agreeable tally.program (tally.noted (.routine 9 "go" [])
        (tally.session ⟨{}, false⟩ [.program 9]).2)) ∧
      (0 < tally.program.symbols.entries.size ∧
        (tally.program.symbols.variableAt 0).storage = .static ∧
        (tally.program.symbols.variableAt 0).kind = .integer) ∧
      (∃ event ∈ tally.noted (.program 9) (tally.start ⟨{}, false⟩), event.Declares 0) ∧
      ((tally.visitBy tally.level (.program 9) (tally.start ⟨{}, false⟩)).1.map Outcome.ending) =
        some .completed := by
    decide +kernel
  obtain ⟨⟨hfirst, hsecond⟩, ⟨hbound, hstatic, hkind⟩, ⟨event, hevent, hdeclares⟩, hcompleted⟩ := hall
  have hagree : tally.Agrees [.program 9, .routine 9 "go" []] (tally.start ⟨{}, false⟩) :=
    ⟨hfirst, hsecond, trivial⟩
  have hplain : tally.program.Plain 0 :=
    ⟨⟨hbound, hstatic⟩, by rw [hkind]; nofun, by rw [hkind]; nofun⟩
  have hremembers : tally.Remembers 0 [.program 9] (tally.start ⟨{}, false⟩) := by
    obtain ⟨later, earlier, hsplit⟩ := List.append_of_mem hevent
    obtain ⟨o, ho, hend⟩ := Option.map_eq_some_iff.mp hcompleted
    exact Or.inl ⟨⟨later, event, ⟨earlier, hsplit⟩, hdeclares, Or.inr ⟨o, ho, hend⟩⟩,
      List.forall_mem_nil _⟩
  obtain ⟨hstores, hfilled⟩ := storage_is_typed (scan tallySource).1 {} (Buffer.host []) ⟨{}, false⟩
    [.program 9] (.routine 9 "go" []) (fun _ _ _ _ => ⟨rfl, rfl⟩) (by simp [Visit.KeepsArrays]) hagree
  exact ⟨hagree, hplain, hremembers,
    fun s hs => ⟨hstores.typed s hs, hfilled 0 hplain (fun h => h) hremembers s hs⟩⟩

/-- A routine that changes a text, called for a number. -/
def mismatchSource : String :=
  "Module change(String Ref s)
    Set s = \"7\"
End Module
Declare Integer n = 1
Call change(n)
"

def mismatch : Engine Buffer := ofTokens (scan mismatchSource).1 {} (Buffer.host [])

/-- The kind of the value in a cell. -/
def kindIn : Cell → Option Kind
  | .direct v => some v.kind
  | .alias _ => none

/-- What a parameter by reference stands for need not be of its kind: the static is an integer and
holds a text in the end, although neither the program nor the run has a problem. -/
theorem text_in_integer :
    (∀ d ∈ (Program.ofSource mismatchSource).2, d.isError = false) ∧
    (∃ o, (mismatch.visitBy mismatch.level (.program 9) (mismatch.start ⟨{}, false⟩)).1 = some o ∧
      o.ending = .completed ∧ o.problems.length = 0) ∧
    ∃ s, mismatch.MetIn (.program 9) (mismatch.start ⟨{}, false⟩) s ∧ ¬ s.Typed mismatch.program := by
  have hall : (∀ d ∈ (Program.ofSource mismatchSource).2, d.isError = false) ∧
      ((mismatch.visitBy mismatch.level (.program 9) (mismatch.start ⟨{}, false⟩)).1.map
        fun o => (o.ending, o.problems.length)) = some (.completed, 0) ∧
      ((mismatch.visitBy mismatch.level (.program 9)
        (mismatch.start ⟨{}, false⟩)).2.stack.cells[mismatch.program.slotOf 1]?.bind kindIn) = some .text ∧
      1 < mismatch.program.symbols.entries.size ∧
      (mismatch.program.symbols.variableAt 1).storage = .static ∧
      (mismatch.program.symbols.variableAt 1).kind = .integer := by
    decide +kernel
  obtain ⟨hsource, houtcome, htext, hbound, hstatic, hinteger⟩ := hall
  refine ⟨hsource, ?_, _, .rested, fun htyped => ?_⟩
  · obtain ⟨o, ho, heq⟩ := Option.map_eq_some_iff.mp houtcome
    exact ⟨o, ho, congrArg Prod.fst heq, congrArg Prod.snd heq⟩
  · obtain ⟨w, hw, hkind⟩ := htyped.statics 1 ⟨hbound, hstatic⟩
    rw [hw] at htext
    have hwkind : w.kind = .text := Option.some.inj htext
    rcases hkind with rfl | hkind
    · cases hwkind
    · rw [hinteger, hwkind] at hkind
      cases hkind

end Engine

end Primer
