/-
What is stored is of the kind of its storage.

Every value is brought into a kind before it is stored.  For a static that is named, and for an
element of an array, this is the kind of the static or the array.  For a parameter by reference it
is the kind of the parameter, whatever the place is that the parameter stands for.  So the statics
and the arrays stay typed as long as every parameter by reference stands for a place of its own
kind: `Event.Agrees` asks it of a call that is noted in a journal, and `Contract.typing` is what
follows for every step.
-/
import Primer.Proofs.Run.Erasure

namespace Primer

/-! ### Arrays -/

namespace Heap

/-- All arrays in the store are typed. -/
def Typed (h : Heap) : Prop := ∀ grid ∈ h.grids, grid.Typed

/-- The arrays are the same except for what is in their cells, and there may be more of them. -/
def Extends (h h' : Heap) : Prop :=
  ∀ (i : Nat) grid, h.grids[i]? = some grid →
    ∃ grid', h'.grids[i]? = some grid' ∧ grid'.element = grid.element

variable {h h' h'' : Heap} {ref : ArrayRef}

theorem Extends.refl (h : Heap) : h.Extends h := fun _ grid hgrid => ⟨grid, hgrid, rfl⟩

theorem Extends.trans (e : h.Extends h') (e' : h'.Extends h'') : h.Extends h'' := by
  intro i grid hgrid
  obtain ⟨grid', hgrid', heq⟩ := e i grid hgrid
  obtain ⟨grid'', hgrid'', heq'⟩ := e' i grid' hgrid'
  exact ⟨grid'', hgrid'', heq'.trans heq⟩

theorem extends_addGrid (h : Heap) (grid : Grid) : h.Extends (h.addGrid grid).2 := by
  intro i old hold
  refine ⟨old, ?_, rfl⟩
  show (h.grids.push grid)[i]? = some old
  grind

theorem Typed.addGrid (ht : h.Typed) {grid : Grid} (hgrid : grid.Typed) :
    (h.addGrid grid).2.Typed := by
  intro g hg
  rcases Array.mem_push.mp hg with hg | rfl
  · exact ht g hg
  · exact hgrid

theorem extends_setElement (h : Heap) (ref : ArrayRef) (offset : Nat) (v : Value) :
    h.Extends (h.setElement ref offset v) := by
  intro i grid hgrid
  simp only [setElement, Array.getElem?_modify, hgrid]
  split
  · exact ⟨_, rfl, rfl⟩
  · exact ⟨grid, rfl, rfl⟩

/-- The array is there, and its elements are of this kind. -/
def ElementsOf (h : Heap) (kind : Kind) (ref : ArrayRef) : Prop :=
  ∃ grid ∈ h.grids[ref.index]?, grid.element.kind = kind

instance (h : Heap) (kind : Kind) (ref : ArrayRef) : Decidable (h.ElementsOf kind ref) :=
  inferInstanceAs (Decidable (∃ grid ∈ h.grids[ref.index]?, grid.element.kind = kind))

theorem ElementsOf.extends {kind : Kind} (he : h.ElementsOf kind ref) (e : h.Extends h') :
    h'.ElementsOf kind ref := by
  obtain ⟨grid, hgrid, hkind⟩ := he
  obtain ⟨grid', hgrid', heq⟩ := e _ grid hgrid
  exact ⟨grid', hgrid', heq ▸ hkind⟩

theorem elementsOf_grid (hsize : (h.grid ref).size ≠ 0) :
    h.ElementsOf (h.grid ref).element.kind ref := by
  exact ⟨h.grid ref, Heap.getElem?_of_grid hsize, rfl⟩

theorem Typed.setElement (ht : h.Typed) {kind : Kind} (he : h.ElementsOf kind ref) {v : Value}
    (hv : v.Suits kind) (offset : Nat) : (h.setElement ref offset v).Typed := by
  obtain ⟨grid, hgrid, rfl⟩ := he
  intro g hg
  obtain ⟨i, hi⟩ := Array.getElem?_of_mem hg
  simp only [Heap.setElement, Array.getElem?_modify] at hi
  split at hi
  · rename_i heq
    subst heq
    obtain rfl : { grid with cells := grid.cells.setIfInBounds offset v } = g := by
      simpa [Option.mem_def.mp hgrid] using hi
    exact Grid.typed_cells (ht grid (Array.mem_of_getElem? hgrid)) hv offset
  · exact ht g (Array.mem_of_getElem? hi)

/-- Elements are never arrays. -/
theorem Typed.ne_array (ht : h.Typed) {grid : Grid} (hgrid : grid ∈ h.grids) {v : Value}
    (hv : v ∈ grid.cells) (ref : ArrayRef) : v ≠ .array ref := by
  rintro rfl
  rcases ht grid hgrid _ hv with hkind | ⟨hnull, -⟩
  · cases helement : grid.element <;> simp [Value.kind, TypeName.kind, helement] at hkind
  · cases hnull

/-- **The text of a value does not depend on how deep it may be nested.** -/
theorem Typed.textWithin (ht : h.Typed) (v : Value) (n : Nat) :
    h.textWithin (n + 1) v = h.textWithin 1 v := by
  cases v with
  | array ref =>
    have hitems : (h.grid ref).cells.toList.map (h.textWithin n) =
        (h.grid ref).cells.toList.map (h.textWithin 0) := by
      refine List.map_congr_left fun w hw => ?_
      have hflat : ∀ other, w ≠ .array other := by
        by_cases hlt : ref.index < h.grids.size
        · have hmem : h.grid ref ∈ h.grids := by simp [Heap.grid, hlt]
          exact ht.ne_array hmem (Array.mem_toList_iff.mp hw)
        · have hnone : h.grid ref = default := by simp [Heap.grid, Nat.le_of_not_lt hlt]
          rw [hnone] at hw
          cases hw
      cases w with
      | array other => exact absurd rfl (hflat other)
      | _ => cases n <;> rfl
    simp only [Heap.textWithin, hitems]
  | _ => cases n <;> rfl

end Heap

/-! ### Statics -/

namespace Program

variable (p : Program) {x : VarId}

/-- The variable is a static. -/
structure Static (x : VarId) : Prop where
  bound : x < p.symbols.entries.size
  storage : (p.symbols.variableAt x).storage = .static

/-- The slot of a static. -/
def slotOf (x : VarId) : Nat := (p.symbols.variableAt x).offset.toNat

/-- The variable is a static that is neither an array nor an object. -/
structure Plain (x : VarId) : Prop extends p.Static x where
  noArray : (p.symbols.variableAt x).kind ≠ .array
  noObject : (p.symbols.variableAt x).kind ≠ .object

/-- If the place is a static or an element of an array, it holds values of this kind. -/
def Agrees (heap : Heap) (kind : Kind) : Place → Prop
  | .slot i => ∀ x < p.symbols.entries.size, (p.symbols.variableAt x).storage = .static →
    p.slotOf x = i → (p.symbols.variableAt x).kind = kind
  | .element ref _ => heap.ElementsOf kind ref
  | .field .. => True

instance (heap : Heap) (kind : Kind) : ∀ place, Decidable (p.Agrees heap kind place)
  | .slot i => inferInstanceAs (Decidable (∀ x < p.symbols.entries.size,
      (p.symbols.variableAt x).storage = .static → p.slotOf x = i →
        (p.symbols.variableAt x).kind = kind))
  | .element ref _ => inferInstanceAs (Decidable (heap.ElementsOf kind ref))
  | .field .. => inferInstanceAs (Decidable True)

variable {p}

theorem Agrees.extends {heap heap' : Heap} {kind : Kind} {place : Place}
    (h : p.Agrees heap kind place) (e : heap.Extends heap') : p.Agrees heap' kind place := by
  cases place with
  | slot i => exact h
  | element ref offset => exact Heap.ElementsOf.extends h e
  | field ref offset => trivial

theorem Sound.slotOf_lt (hp : p.Sound) (hx : p.Static x) :
    p.slotOf x < p.symbols.staticCount := by
  have := hp.statics x hx.bound hx.storage
  unfold slotOf
  omega

/-- No two statics share a slot. -/
theorem Sound.slotOf_inj (hp : p.Sound) {y : VarId} (hx : p.Static x) (hy : p.Static y)
    (h : p.slotOf x = p.slotOf y) : x = y := by
  have hlow := (hp.statics x hx.bound hx.storage).1
  have hlow' := (hp.statics y hy.bound hy.storage).1
  unfold slotOf at h
  exact hp.apart x hx.bound y hy.bound (Or.inl ⟨hx.storage, hy.storage⟩) (by omega)

/-- A value that suits a plain static is there. -/
theorem Plain.ne_null (hx : p.Plain x) {v : Value} (hv : v.Suits (p.symbols.variableAt x).kind) :
    v ≠ .null := by
  rintro rfl
  rcases hv with hkind | ⟨-, harray | hobject⟩
  · unfold Variable.kind at hkind
    split at hkind
    · cases hkind
    · cases htype : (p.symbols.variableAt x).type <;> simp [Value.kind, TypeName.kind, htype] at hkind
  · exact hx.noArray harray
  · exact hx.noObject hobject

end Program

namespace Machine

/-- What is stored is of the kind of its storage, or is not there yet. -/
structure Typed (p : Program) (m : Machine σ) : Prop where
  statics : ∀ x, p.Static x → ∃ w, m.stack.cells[p.slotOf x]? = some (.direct w) ∧
    (w = .null ∨ w.kind = (p.symbols.variableAt x).kind)
  arrays : m.heap.Typed

/-- The static holds something. -/
def Filled (p : Program) (m : Machine σ) (x : VarId) : Prop :=
  ∃ w, m.stack.cells[p.slotOf x]? = some (.direct w) ∧ w ≠ .null

/-- All plain statics that held something earlier hold something later. -/
def Fuller (p : Program) (late early : Machine σ) : Prop :=
  ∀ x, p.Plain x → early.Filled p x → late.Filled p x

variable {p : Program} {g : Stage} {m m' m'' : Machine σ} {place : Place} {kind : Kind} {v : Value}

theorem Fuller.refl (m : Machine σ) : m.Fuller p m := fun _ _ h => h

theorem Fuller.trans (h : m''.Fuller p m') (h' : m'.Fuller p m) : m''.Fuller p m :=
  fun x hx hm => h x hx (h' x hx hm)

/-- Only the cells of the statics matter. -/
theorem Fuller.of_cells
    (h : ∀ x, p.Static x → m'.stack.cells[p.slotOf x]? = m.stack.cells[p.slotOf x]?) :
    m'.Fuller p m := by
  rintro x hx ⟨w, hw, hne⟩
  exact ⟨w, (h x hx.toStatic).trans hw, hne⟩

theorem Typed.of_cells (ht : m.Typed p)
    (h : ∀ x, p.Static x → m'.stack.cells[p.slotOf x]? = m.stack.cells[p.slotOf x]?)
    (hheap : m'.heap.Typed) : m'.Typed p where
  statics := by
    intro x hx
    obtain ⟨w, hw, hkind⟩ := ht.statics x hx
    exact ⟨w, (h x hx).trans hw, hkind⟩
  arrays := hheap

/-- A place that can be got at is written straight away. -/
theorem write_slot (hm : m.At g) {i : Nat} (hsolid : g.shape.Solid (.slot i)) :
    m.write (.slot i) v = { m with stack := m.stack.write i (.direct v) } := by
  unfold write
  rw [Stage.target_solid hm hsolid]

theorem write_element (ref : ArrayRef) (offset : Nat) :
    m.write (.element ref offset) v = { m with heap := m.heap.setElement ref offset v } := by
  unfold write Stack.target
  cases m.stack.size <;> rfl

theorem write_field (ref : ObjectRef) (offset : Nat) :
    m.write (.field ref offset) v = { m with heap := m.heap.setField ref offset v } := by
  unfold write Stack.target
  cases m.stack.size <;> rfl

/-- What is in a slot after a value was stored. -/
theorem cells_write (hm : m.At g) {i : Nat} (hsolid : g.shape.Solid (.slot i)) (j : Nat) :
    (m.write (.slot i) v).stack.cells[j]? =
      if i = j then some (.direct v) else m.stack.cells[j]? := by
  have hlt : i < m.stack.cells.size := by
    rw [hm.size]
    exact Shape.lt_size_of_direct hsolid.2
  rw [write_slot hm hsolid]
  simp only [Stack.write, Array.getElem?_setIfInBounds, if_pos hlt]

theorem extends_write (hm : m.At g) (hsolid : g.shape.Solid place) :
    m.heap.Extends (m.write place v).heap := by
  cases place with
  | slot i =>
    rw [write_slot hm hsolid]
    exact .refl _
  | element ref offset =>
    rw [write_element]
    exact m.heap.extends_setElement ref offset v
  | field ref offset =>
    rw [write_field]
    exact .refl m.heap

/-- **What suits its place may be stored.** -/
theorem Typed.write (ht : m.Typed p) (hm : m.At g) (hsolid : g.shape.Solid place)
    (hagrees : p.Agrees m.heap kind place) (hv : v.Suits kind) : (m.write place v).Typed p := by
  cases place with
  | slot i =>
    refine ⟨fun x hx => ?_, ?_⟩
    · rw [cells_write hm hsolid]
      split
      · rename_i heq
        refine ⟨v, rfl, ?_⟩
        rw [hagrees x hx.bound hx.storage heq.symm]
        rcases hv with hkind | ⟨hnull, -⟩
        · exact Or.inr hkind
        · exact Or.inl hnull
      · exact ht.statics x hx
    · rw [write_slot hm hsolid]
      exact ht.arrays
  | element ref offset =>
    rw [write_element]
    exact ⟨ht.statics, ht.arrays.setElement hagrees hv offset⟩
  | field ref offset =>
    rw [write_field]
    exact ⟨ht.statics, ht.arrays⟩

theorem fuller_write (hm : m.At g) (hsolid : g.shape.Solid place)
    (hagrees : p.Agrees m.heap kind place) (hv : v.Suits kind) : (m.write place v).Fuller p m := by
  cases place with
  | slot i =>
    rintro x hx ⟨w, hw, hne⟩
    unfold Filled
    rw [cells_write hm hsolid]
    split
    · rename_i heq
      have hkind := hagrees x hx.bound hx.storage heq.symm
      exact ⟨v, rfl, hx.ne_null (hkind ▸ hv)⟩
    · exact ⟨w, hw, hne⟩
  | element ref offset =>
    rw [write_element]
    exact .of_cells fun _ _ => rfl
  | field ref offset =>
    rw [write_field]
    exact .of_cells fun _ _ => rfl

end Machine

/-! ### Parameters by reference -/

/-- Every parameter by reference is bound to a place of its own kind. -/
def Call.Agrees (p : Program) (heap : Heap) (call : Call) : Prop :=
  ∀ bound ∈ (p.routine call.routine).params.zip call.args, ∀ place ∈ bound.2.alias?,
    p.Agrees heap (p.symbols.variableAt bound.1).kind place

instance (p : Program) (heap : Heap) (call : Call) : Decidable (call.Agrees p heap) :=
  inferInstanceAs (Decidable (∀ bound ∈ (p.routine call.routine).params.zip call.args,
    ∀ place ∈ bound.2.alias?, p.Agrees heap (p.symbols.variableAt bound.1).kind place))

namespace Event

/-- If a call is begun, its parameters by reference are bound to places of their own kinds. -/
def Agrees (p : Program) : Event σ → Prop
  | .begun (.run call) m => call.Agrees p m.heap
  | _ => True

instance (p : Program) : ∀ event : Event σ, Decidable (event.Agrees p)
  | .begun (.run call) m => inferInstanceAs (Decidable (call.Agrees p m.heap))
  | .begun (.eval _) _ | .begun (.exec _) _ | .ended .. => inferInstanceAs (Decidable True)

end Event

/-- The parameters of the routine at hand stand for places of their own kinds. -/
def Stage.Bound (p : Program) (heap : Heap) (g : Stage) : Prop :=
  ∀ r, g.home.routine? = some r → ∀ (i : Nat) x place, (p.routine r).params[i]? = some x →
    g.shape.aliases[g.shape.base - (i + 1)]? = some (some place) →
      p.Agrees heap (p.symbols.variableAt x).kind place

theorem Stage.Bound.extends {p : Program} {heap heap' : Heap} {g : Stage} (h : g.Bound p heap)
    (e : heap.Extends heap') : g.Bound p heap' :=
  fun r hr i x place hx hplace => (h r hr i x place hx hplace).extends e

/-- What the arguments agree to, the parameters of the new frame are bound to. -/
theorem Stage.bound_enter {p : Program} {heap : Heap} {g : Stage} {call : Call}
    {inside : Option ClassId} (hcall : g.Callable p call) (h : call.Agrees p heap) :
    (g.enter p call inside).Bound p heap := by
  rintro r ⟨⟩ i x place hx hplace
  have hi : i < call.args.length := hcall.args.length_eq ▸ (List.getElem?_eq_some_iff.mp hx).1
  have hbase : (g.enter p call inside).shape.base - (i + 1) = g.shape.size + call.args.length - (i + 1) :=
    rfl
  rw [hbase] at hplace
  have hplace := (Shape.aliases_enter_arg hi).symm.trans hplace
  obtain ⟨c, hc, halias⟩ := Option.map_eq_some_iff.mp hplace
  refine h (x, c) (List.mem_of_getElem? (i := i) ?_) place halias
  exact List.getElem?_zip_eq_some.mpr ⟨hx, hc⟩

/-! ### The states of a run -/

/-- The states of a run, the latest first: all of them are typed, and a plain static that holds
something goes on to do so. -/
structure Story (p : Program) (states : List (Machine σ)) : Prop where
  typed : ∀ s ∈ states, s.Typed p
  fuller : states.Pairwise (Machine.Fuller p)

namespace Story

variable {p : Program} {s s' : Machine σ} {states : List (Machine σ)}

theorem single (h : s.Typed p) : Story p [s] := ⟨by simpa using h, List.pairwise_singleton _ _⟩

theorem cons (h : Story p (s :: states)) (htyped : s'.Typed p) (hfuller : s'.Fuller p s) :
    Story p (s' :: s :: states) where
  typed := List.forall_mem_cons.mpr ⟨htyped, h.typed⟩
  fuller := by
    refine List.pairwise_cons.mpr ⟨fun t ht => ?_, h.fuller⟩
    rcases List.mem_cons.mp ht with rfl | ht
    · exact hfuller
    · exact hfuller.trans ((List.pairwise_cons.mp h.fuller).1 t ht)

/-- The latest state may be noted. -/
theorem twice (h : Story p (s :: states)) : Story p (s :: s :: states) :=
  h.cons (h.typed s List.mem_cons_self) (.refl s)

/-- The latest state may be left behind for one that follows it. -/
theorem step (h : Story p (s :: states)) (htyped : s'.Typed p) (hfuller : s'.Fuller p s) :
    Story p (s' :: states) :=
  ⟨fun t ht => (h.cons htyped hfuller).typed t (by
      rcases List.mem_cons.mp ht with rfl | ht
      · exact List.mem_cons_self
      · exact List.mem_cons_of_mem _ (List.mem_cons_of_mem _ ht)),
    (h.cons htyped hfuller).fuller.sublist (.cons_cons s' (List.sublist_cons_self s states))⟩

end Story

/-- All calls that were noted agree with the kinds of their parameters. -/
def Agreeable (p : Program) (journal : List (Event σ)) : Prop := ∀ event ∈ journal, event.Agrees p

instance (p : Program) (journal : List (Event σ)) : Decidable (Agreeable p journal) :=
  inferInstanceAs (Decidable (∀ event ∈ journal, event.Agrees p))

/-- If a statement ended, the plain statics that it declares hold something. -/
def Event.Fills (p : Program) : Event σ → Prop
  | .ended (.exec s) _ after => ∀ x ∈ s.declared, p.Plain x → after.Filled p x
  | _ => True

/-- Something ended. -/
def Event.IsEnd : Event σ → Prop
  | .ended .. => True
  | .begun .. => False

namespace Machine

/-- The state of the machine, the states that were noted and the state at the start. -/
def states (m : Machine (Recording σ)) (start : Machine σ) : List (Machine σ) :=
  m.forget :: (m.outside.state.journal.map Event.state ++ [start])

/-- What is known of the statics and the arrays while a run goes on. -/
structure Sorted (p : Program) (m : Machine (Recording σ)) (start : Machine σ) (g : Stage) : Prop where
  story : Story p (m.states start)
  bound : g.Bound p m.heap
  fills : ∀ event ∈ m.outside.state.journal, event.Fills p

/-- What is known of them when it has been interrupted: what came to an end after that may not have
done what it is there for. -/
structure Settled (p : Program) (m : Machine (Recording σ)) (start : Machine σ) : Prop where
  story : Story p (m.states start)
  fills : ∃ ends done, m.outside.state.journal = ends ++ done ∧ (∀ event ∈ ends, event.IsEnd) ∧
    ∀ event ∈ done, event.Fills p

/-- How a step leads on. -/
structure Follows (p : Program) (m m' : Machine (Recording σ)) : Prop where
  journal : m.outside.state.journal <:+ m'.outside.state.journal
  heap : m.heap.Extends m'.heap
  fuller : Agreeable p m'.outside.state.journal → m'.forget.Fuller p m.forget

variable {p : Program} {start : Machine σ} {g g' : Stage} {m m' m'' : Machine (Recording σ)}

theorem typed_forget (h : m.Typed p) : m.forget.Typed p := ⟨h.statics, h.arrays⟩

theorem Sorted.typed (h : m.Sorted p start g) : m.Typed p := by
  obtain ⟨hstatics, harrays⟩ := h.story.typed m.forget List.mem_cons_self
  exact ⟨hstatics, harrays⟩

theorem Sorted.settled (h : m.Sorted p start g) : m.Settled p start :=
  ⟨h.story, [], _, rfl, List.forall_mem_nil _, h.fills⟩

/-- What does not touch the journal keeps it all if it keeps to the kinds. -/
theorem Sorted.step (h : m.Sorted p start g) (htyped : m'.Typed p)
    (hfuller : m'.forget.Fuller p m.forget) (hheap : m.heap.Extends m'.heap)
    (hjournal : m'.outside.state.journal = m.outside.state.journal) : m'.Sorted p start g where
  story := by
    unfold states
    rw [hjournal]
    exact h.story.step (typed_forget htyped) hfuller
  bound := h.bound.extends hheap
  fills := hjournal ▸ h.fills

theorem Settled.step (h : m.Settled p start) (htyped : m'.Typed p)
    (hfuller : m'.forget.Fuller p m.forget)
    (hjournal : m'.outside.state.journal = m.outside.state.journal) : m'.Settled p start where
  story := by
    unfold states
    rw [hjournal]
    exact h.story.step (typed_forget htyped) hfuller
  fills := hjournal ▸ h.fills

theorem Settled.typed (h : m.Settled p start) : m.Typed p := by
  obtain ⟨hstatics, harrays⟩ := h.story.typed m.forget List.mem_cons_self
  exact ⟨hstatics, harrays⟩

/-- On another stage only what parameters stand for can be different. -/
theorem Sorted.onStage (h : m.Sorted p start g) (hbound : g'.Bound p m.heap) :
    m.Sorted p start g' := ⟨h.story, hbound, h.fills⟩

theorem Sorted.note (h : m.Sorted p start g) {event : Event σ} (hstate : event.state = m.forget)
    (hfills : event.Fills p) : (m.note event).Sorted p start g where
  story := by
    have hstates : (m.note event).states start = m.forget :: event.state ::
      (m.outside.state.journal.map Event.state ++ [start]) := rfl
    rw [hstates, hstate]
    exact h.story.twice
  bound := h.bound
  fills := List.forall_mem_cons.mpr ⟨hfills, h.fills⟩

theorem Settled.note (h : m.Settled p start) (task : Task) (before : Machine σ) :
    (m.note (.ended task before m.forget)).Settled p start where
  story := h.story.twice
  fills := by
    obtain ⟨ends, done, hjournal, hends, hdone⟩ := h.fills
    refine ⟨_ :: ends, done, congrArg (List.cons _) hjournal, ?_, hdone⟩
    exact List.forall_mem_cons.mpr ⟨trivial, hends⟩

theorem Follows.refl (m : Machine (Recording σ)) : m.Follows p m :=
  ⟨List.suffix_refl _, .refl _, fun _ => .refl _⟩

theorem agreeable_of_suffix {journal journal' : List (Event σ)} (h : Agreeable p journal')
    (hsuffix : journal <:+ journal') : Agreeable p journal :=
  fun event hevent => h event (hsuffix.subset hevent)

theorem Follows.trans (h : m.Follows p m') (h' : m'.Follows p m'') : m.Follows p m'' where
  journal := h.journal.trans h'.journal
  heap := h.heap.trans h'.heap
  fuller := fun hagree =>
    (h'.fuller hagree).trans (h.fuller (agreeable_of_suffix hagree h'.journal))

/-- What leaves the statics alone. -/
theorem Follows.of_cells
    (hcells : ∀ x, p.Static x → m'.stack.cells[p.slotOf x]? = m.stack.cells[p.slotOf x]?)
    (hheap : m.heap.Extends m'.heap)
    (hjournal : m.outside.state.journal <:+ m'.outside.state.journal) : m.Follows p m' :=
  ⟨hjournal, hheap, fun _ => .of_cells hcells⟩

theorem follows_note (m : Machine (Recording σ)) (event : Event σ) : m.Follows p (m.note event) :=
  .of_cells (fun _ _ => rfl) (.refl _) (List.suffix_cons event _)

end Machine

end Primer
