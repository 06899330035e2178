/-
The kinds of the values that are stored.

A value is brought into the kind of its storage before it is stored.  What comes out is of that
kind, or it is the null value in the place of an array or an object.
-/
import Primer.Grid
import Primer.Value.Conversion

namespace Primer

/-- The value may be stored as this kind. -/
def Value.Suits (kind : Kind) (v : Value) : Prop :=
  v.kind = kind ∨ v = .null ∧ (kind = .array ∨ kind = .object)

/-- All cells of the array are of the kind of its elements. -/
def Grid.Typed (g : Grid) : Prop := ∀ v ∈ g.cells, v.Suits g.element.kind

namespace Value

theorem suits_zeroOf (kind : Kind) : (zeroOf kind).Suits kind := by
  cases kind <;> simp [Suits, zeroOf, Value.kind]

theorem suits_default (type : TypeName) : (default type).Suits type.kind := suits_zeroOf _

/-- **What a value is converted to is of the kind that was asked for.** -/
theorem suits_convert {v w : Value} {kind : Kind} (h : v.convert kind = .ok w) : w.Suits kind := by
  unfold convert at h
  split at h
  · rename_i found hfound
    obtain rfl : found = w := by simpa using h
    cases kind with
    | integer => obtain ⟨n, -, rfl⟩ := Option.map_eq_some_iff.mp hfound; exact Or.inl rfl
    | real => obtain ⟨x, -, rfl⟩ := Option.map_eq_some_iff.mp hfound; exact Or.inl rfl
    | text => obtain ⟨s, -, rfl⟩ := Option.map_eq_some_iff.mp hfound; exact Or.inl rfl
    | boolean => obtain ⟨b, -, rfl⟩ := Option.map_eq_some_iff.mp hfound; exact Or.inl rfl
    | character => obtain ⟨c, -, rfl⟩ := Option.map_eq_some_iff.mp hfound; exact Or.inl rfl
    | array => cases v <;> simp [convert?] at hfound <;> subst hfound <;> simp [Suits, Value.kind]
    | object => cases v <;> simp [convert?] at hfound <;> subst hfound <;> simp [Suits, Value.kind]
    | null => cases v <;> simp [convert?] at hfound <;> subst hfound <;> simp [Suits, Value.kind]
  · cases h

end Value

namespace Grid

theorem typed_make (element : TypeName) (extents : List Nat) : (make element extents).Typed := by
  intro v hv
  obtain rfl : v = Value.default element := by simpa [make] using (Array.mem_replicate.mp hv).2
  exact Value.suits_default element

/-- An array stays typed when values of its kind are stored in it. -/
theorem typed_cells {kind : Kind} {cells : Array Value} (h : ∀ v ∈ cells, v.Suits kind)
    {w : Value} (hw : w.Suits kind) (i : Nat) :
    ∀ v ∈ cells.setIfInBounds i w, v.Suits kind := by
  intro v hv
  rcases Array.mem_or_eq_of_mem_setIfInBounds hv with hv | rfl
  · exact h v hv
  · exact hw

end Grid

end Primer
