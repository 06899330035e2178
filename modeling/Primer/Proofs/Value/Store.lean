/-
A store that keeps its shape.

Values are put into arrays and objects all the time, but an array keeps its extents and its number
of cells, and an object keeps its class and its number of fields.  So whatever is added to the
store, a cell or a field that was there stays there.  A host is asked to keep to this as well, and to give
arrays that have as many cells as their extents ask for.
-/
import Primer.Proofs.Value.Grid
import Primer.Stack
import Primer.Heap

namespace Primer

/-- The arrays are the same except for what is in their cells. -/
structure Grid.Alike (g g' : Grid) : Prop where
  element : g'.element = g.element
  extents : g'.extents = g.extents
  size : g'.size = g.size

theorem Grid.Alike.refl (g : Grid) : g.Alike g := ⟨rfl, rfl, rfl⟩

theorem Grid.Alike.trans {g g' g'' : Grid} (h : g.Alike g') (h' : g'.Alike g'') : g.Alike g'' :=
  ⟨h'.element.trans h.element, h'.extents.trans h.extents, h'.size.trans h.size⟩

theorem Grid.Alike.regular {g g' : Grid} (h : g.Alike g') (hg : g.Regular) : g'.Regular := by
  unfold Grid.Regular
  rw [h.extents, ← hg]
  exact h.size

/-- The objects are the same except for what is in their fields. -/
structure Instance.Alike (o o' : Instance) : Prop where
  classId : o'.classId = o.classId
  size : o'.fields.size = o.fields.size

theorem Instance.Alike.refl (o : Instance) : o.Alike o := ⟨rfl, rfl⟩

theorem Instance.Alike.trans {o o' o'' : Instance} (h : o.Alike o') (h' : o'.Alike o'') :
    o.Alike o'' :=
  ⟨h'.classId.trans h.classId, h'.size.trans h.size⟩

namespace Heap

/-- All that is in the store stays there, except for what is in the cells and fields. -/
structure Keeps (h h' : Heap) : Prop where
  grids : ∀ (i : Nat) grid, h.grids[i]? = some grid →
    ∃ grid', h'.grids[i]? = some grid' ∧ grid.Alike grid'
  instances : ∀ (i : Nat) object, h.instances[i]? = some object →
    ∃ object', h'.instances[i]? = some object' ∧ object.Alike object'

/-- There is a cell or a field at the place, if it is a place in the store. -/
def Has (h : Heap) : Place → Prop
  | .slot _ => True
  | .element ref offset => ∃ grid, h.grids[ref.index]? = some grid ∧ offset < grid.size
  | .field ref offset =>
    ∃ object, h.instances[ref.index]? = some object ∧ offset < object.fields.size

/-- All arrays have as many cells as their extents ask for. -/
def Regular (h : Heap) : Prop := ∀ (i : Nat) grid, h.grids[i]? = some grid → grid.Regular

/-- What a host may do to the store: it keeps what is there, it may add arrays that have as many
cells as their extents ask for, and it adds no objects. -/
structure Supplies (h h' : Heap) : Prop where
  keeps : h.Keeps h'
  arrays : ∀ (i : Nat) grid, h.grids.size ≤ i → h'.grids[i]? = some grid → grid.Regular
  objects : h'.instances.size = h.instances.size

variable {h h' h'' : Heap} {ref : ArrayRef} {offset : Nat} {i : Nat}

theorem Keeps.refl (h : Heap) : h.Keeps h :=
  ⟨fun _ grid hgrid => ⟨grid, hgrid, .refl grid⟩,
    fun _ object hobject => ⟨object, hobject, .refl object⟩⟩

theorem Keeps.trans (hk : h.Keeps h') (hk' : h'.Keeps h'') : h.Keeps h'' := by
  constructor
  · intro i grid hgrid
    obtain ⟨grid', hgrid', halike⟩ := hk.grids i grid hgrid
    obtain ⟨grid'', hgrid'', halike'⟩ := hk'.grids i grid' hgrid'
    exact ⟨grid'', hgrid'', halike.trans halike'⟩
  · intro i object hobject
    obtain ⟨object', hobject', halike⟩ := hk.instances i object hobject
    obtain ⟨object'', hobject'', halike'⟩ := hk'.instances i object' hobject'
    exact ⟨object'', hobject'', halike.trans halike'⟩

/-- A host may leave the store as it is. -/
theorem Supplies.refl (h : Heap) : h.Supplies h := by
  refine ⟨.refl h, fun i grid hi hgrid => ?_, rfl⟩
  rw [Array.getElem?_eq_none hi] at hgrid
  cases hgrid

/-- What is at a number that was taken before is what was there, up to its values. -/
theorem Keeps.grid_lt (hk : h.Keeps h') {grid' : Grid} (hi : i < h.grids.size)
    (hgrid' : h'.grids[i]? = some grid') : ∃ grid, h.grids[i]? = some grid ∧ grid.Alike grid' := by
  obtain ⟨found, hfound, halike⟩ := hk.grids i _ (Array.getElem?_eq_getElem hi)
  obtain rfl := Option.some.inj (hfound.symm.trans hgrid')
  exact ⟨_, Array.getElem?_eq_getElem hi, halike⟩

theorem Keeps.instance_lt (hk : h.Keeps h') {object' : Instance} (hi : i < h.instances.size)
    (hobject' : h'.instances[i]? = some object') :
    ∃ object, h.instances[i]? = some object ∧ object.Alike object' := by
  obtain ⟨found, hfound, halike⟩ := hk.instances i _ (Array.getElem?_eq_getElem hi)
  obtain rfl := Option.some.inj (hfound.symm.trans hobject')
  exact ⟨_, Array.getElem?_eq_getElem hi, halike⟩

/-- **A cell or a field that is there stays there.** -/
theorem Has.kept {place : Place} (hp : h.Has place) (hk : h.Keeps h') : h'.Has place := by
  cases place with
  | slot i => trivial
  | element ref offset =>
    obtain ⟨grid, hgrid, hlt⟩ := hp
    obtain ⟨grid', hgrid', halike⟩ := hk.grids _ grid hgrid
    exact ⟨grid', hgrid', by rw [halike.size]; exact hlt⟩
  | field ref offset =>
    obtain ⟨object, hobject, hlt⟩ := hp
    obtain ⟨object', hobject', halike⟩ := hk.instances _ object hobject
    exact ⟨object', hobject', by rw [halike.size]; exact hlt⟩

theorem Has.isSome_element? (hp : h.Has (.element ref offset)) :
    (h.element? ref offset).isSome := by
  obtain ⟨grid, hgrid, hlt⟩ := hp
  have heq : h.grid ref = grid := by simp [Heap.grid, hgrid]
  unfold element?
  rw [heq, Array.getElem?_eq_getElem hlt]
  rfl

theorem Has.isSome_field? {ref : ObjectRef} (hp : h.Has (.field ref offset)) :
    (h.field? ref offset).isSome := by
  obtain ⟨object, hobject, hlt⟩ := hp
  have heq : h.instanceOf ref = object := by simp [instanceOf, hobject]
  unfold field?
  rw [heq, Array.getElem?_eq_getElem hlt]
  rfl

/-- An array that has cells is one of the store. -/
theorem getElem?_of_grid (hsize : (h.grid ref).size ≠ 0) :
    h.grids[ref.index]? = some (h.grid ref) := by
  by_cases hlt : ref.index < h.grids.size
  · simp [grid, hlt]
  · have hnone : h.grid ref = default := by simp [grid, Nat.le_of_not_lt hlt]
    rw [hnone] at hsize
    exact absurd rfl hsize

/-- An object that has fields is one of the store. -/
theorem getElem?_of_instanceOf {ref : ObjectRef} (hsize : (h.instanceOf ref).fields.size ≠ 0) :
    h.instances[ref.index]? = some (h.instanceOf ref) := by
  by_cases hlt : ref.index < h.instances.size
  · simp [instanceOf, hlt]
  · have hnone : h.instanceOf ref = default := by simp [instanceOf, Nat.le_of_not_lt hlt]
    rw [hnone] at hsize
    exact absurd rfl hsize

/-- **Whatever the indices are, the element that they mean is there.** -/
theorem Regular.has_element (hr : h.Regular) (hsize : (h.grid ref).size ≠ 0)
    (indices : List Int64) : h.Has (.element ref (Grid.locate (h.grid ref).extents indices).1) :=
  have hgrid := getElem?_of_grid hsize
  ⟨h.grid ref, hgrid, (hr _ _ hgrid).locate_lt hsize indices⟩

/-! ### What a run does to the store -/

/-- What is at a number that was not taken before is what was added. -/
theorem eq_of_getElem?_push {α : Type} {xs : Array α} {added found : α} (hi : xs.size ≤ i)
    (hfound : (xs.push added)[i]? = some found) : found = added := by
  rw [Array.getElem?_push] at hfound
  split at hfound
  · exact (Option.some.inj hfound).symm
  · rw [Array.getElem?_eq_none hi] at hfound
    cases hfound

theorem keeps_addGrid (h : Heap) (grid : Grid) : h.Keeps (h.addGrid grid).2 := by
  refine ⟨fun i old hold => ⟨old, ?_, .refl old⟩, (Keeps.refl h).instances⟩
  show (h.grids.push grid)[i]? = some old
  grind

theorem keeps_addInstance (h : Heap) (object : Instance) : h.Keeps (h.addInstance object).2 := by
  refine ⟨(Keeps.refl h).grids, fun i old hold => ⟨old, ?_, .refl old⟩⟩
  show (h.instances.push object)[i]? = some old
  grind

theorem keeps_setElement (h : Heap) (ref : ArrayRef) (offset : Nat) (v : Value) :
    h.Keeps (h.setElement ref offset v) := by
  refine ⟨fun i grid hgrid => ?_, (Keeps.refl h).instances⟩
  simp only [setElement, Array.getElem?_modify, hgrid]
  split
  · exact ⟨_, rfl, rfl, rfl, Array.size_setIfInBounds⟩
  · exact ⟨grid, rfl, .refl grid⟩

/-- What is stored in a cell that is there is found there. -/
theorem element?_setElement (hsome : (h.element? ref offset).isSome) (v : Value) :
    (h.setElement ref offset v).element? ref offset = some v := by
  obtain ⟨old, hold⟩ := Option.isSome_iff_exists.mp hsome
  have hlt : offset < (h.grid ref).size := (Array.getElem?_eq_some_iff.mp hold).1
  have hgrid := getElem?_of_grid (Nat.ne_zero_of_lt hlt)
  have hset : (h.setElement ref offset v).grid ref =
      { h.grid ref with cells := (h.grid ref).cells.setIfInBounds offset v } := by
    show (h.grids.modify ref.index _).getD ref.index default = _
    rw [Array.getD_eq_getD_getElem?, Array.getElem?_modify, if_pos rfl, hgrid]
    rfl
  unfold element?
  rw [hset]
  exact Array.getElem?_setIfInBounds_self_of_lt hlt

theorem keeps_setField (h : Heap) (ref : ObjectRef) (offset : Nat) (v : Value) :
    h.Keeps (h.setField ref offset v) := by
  refine ⟨(Keeps.refl h).grids, fun i object hobject => ?_⟩
  simp only [setField, Array.getElem?_modify, hobject]
  split
  · exact ⟨_, rfl, rfl, Array.size_setIfInBounds⟩
  · exact ⟨object, rfl, .refl object⟩

/-- What is stored in a field that is there is found there. -/
theorem field?_setField {ref : ObjectRef} (hsome : (h.field? ref offset).isSome) (v : Value) :
    (h.setField ref offset v).field? ref offset = some v := by
  obtain ⟨old, hold⟩ := Option.isSome_iff_exists.mp hsome
  have hlt : offset < (h.instanceOf ref).fields.size := (Array.getElem?_eq_some_iff.mp hold).1
  have hobject := getElem?_of_instanceOf (Nat.ne_zero_of_lt hlt)
  have hset : (h.setField ref offset v).instanceOf ref =
      { h.instanceOf ref with fields := (h.instanceOf ref).fields.setIfInBounds offset v } := by
    show (h.instances.modify ref.index _).getD ref.index default = _
    rw [Array.getD_eq_getD_getElem?, Array.getElem?_modify, if_pos rfl, hobject]
    rfl
  unfold field?
  rw [hset]
  exact Array.getElem?_setIfInBounds_self_of_lt hlt

end Heap

end Primer
