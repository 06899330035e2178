/-
The cells of an array.

An array has as many cells as the product of its extents.  An index that is out of range counts as
zero, so whatever indices are given, they lead to a cell of the array, as long as it has any.
-/
import Mathlib.Algebra.BigOperators.Ring.List
import Mathlib.Algebra.GroupWithZero.Nat
import Primer.Grid

namespace Primer.Grid

variable {extents : List Nat} {count : Nat}

/-- The array has as many cells as its extents ask for. -/
def Regular (g : Grid) : Prop := g.cells.size = g.extents.prod

/-- Cells are counted as long as no partial product is too large. -/
theorem countFrom_eq_some_iff {start count : Nat} (hstart : start < sizeLimit) :
    countFrom start extents = some count ↔
      start * extents.prod = count ∧ ∀ front, front <+: extents → start * front.prod < sizeLimit := by
  induction extents generalizing start with
  | nil => simp [countFrom, hstart]
  | cons extent rest ih =>
    rw [countFrom]
    split
    · rename_i hnext
      simp only [ih hnext, List.prod_cons, ← Nat.mul_assoc, List.prefix_cons_iff]
      refine and_congr_right fun _ => ⟨?_, fun h front hfront => ?_⟩
      · rintro h front (rfl | ⟨front, rfl, hfront⟩)
        · simpa using hstart
        · simpa [Nat.mul_assoc] using h front hfront
      · simpa [Nat.mul_assoc] using h (extent :: front) (Or.inr ⟨front, rfl, hfront⟩)
    · rename_i hnext
      refine iff_of_false nofun fun h => hnext ?_
      simpa using h.2 [extent] (by simp)

/-- A zero comes too late among the extents: the product of some before it is too large. -/
def Outgrown (extents : List Nat) : Prop :=
  0 ∈ extents ∧ ∃ front, front <+: extents ∧ sizeLimit ≤ front.prod

/-- Without a zero, partial products do not exceed the product. -/
theorem prod_le_of_front {front extents : List Nat} (h : front <+: extents) (hzero : 0 ∉ extents) :
    front.prod ≤ extents.prod := by
  obtain ⟨rest, rfl⟩ := h
  rw [List.prod_append]
  refine Nat.le_mul_of_pos_right _ (Nat.pos_of_ne_zero fun hprod => hzero ?_)
  exact List.mem_append_right _ (List.prod_eq_zero_iff.mp hprod)

theorem count?_eq_some_iff :
    count? extents = some count ↔
      (extents.prod = count ∧ count < sizeLimit) ∧ ¬ Outgrown extents := by
  unfold count?
  rw [countFrom_eq_some_iff (by decide), and_assoc]
  simp only [Nat.one_mul]
  refine and_congr_right fun hcount => ⟨fun h => ?_, fun ⟨hlt, hgrown⟩ front hfront => ?_⟩
  · refine ⟨hcount ▸ h extents (List.prefix_refl _), fun ⟨_, front, hfront, hlarge⟩ => ?_⟩
    exact absurd (h front hfront) (Nat.not_lt.mpr hlarge)
  · by_cases hzero : 0 ∈ extents
    · exact Nat.lt_of_not_le fun hlarge => hgrown ⟨hzero, front, hfront, hlarge⟩
    · exact Nat.lt_of_le_of_lt (prod_le_of_front hfront hzero) (hcount ▸ hlt)

/-- **The number of cells is the product of the extents, in whatever order they come**, and there is
none if the product is too large.  There is none either if a zero comes too late. -/
theorem counted_by_product (extents : List Nat) :
    (∀ count, count? extents = some count ↔
      (extents.prod = count ∧ count < sizeLimit) ∧ ¬ Outgrown extents) ∧
    (count? extents = none ↔ sizeLimit ≤ extents.prod ∨ Outgrown extents) ∧
    ∀ other, extents.Perm other → ¬ Outgrown extents → ¬ Outgrown other →
      count? other = count? extents := by
  refine ⟨fun _ => count?_eq_some_iff, ?_, fun other hperm h h' => ?_⟩
  · simp only [Option.eq_none_iff_forall_ne_some, ne_eq, count?_eq_some_iff]
    grind
  · refine Option.ext fun count => ?_
    simp [count?_eq_some_iff, hperm.prod_eq, h, h']

/-- Three extents with the product zero are too many to count, and not in another order. -/
theorem zero_too_late :
    count? [18446744073709551615, 2, 0] = none ∧ [18446744073709551615, 2, 0].prod = 0 ∧
      count? [0, 18446744073709551615, 2] = some 0 := by
  decide

theorem size_make {element : TypeName} (h : count? extents = some count) :
    (make element extents).size = count := by
  simp [make, size, h]

/-- An array that is not too large to count is made with all its cells. -/
theorem regular_make {element : TypeName} (h : count? extents = some count) :
    (make element extents).Regular :=
  (size_make h).trans (count?_eq_some_iff.mp h).1.1.symm

/-! ### Cells by their indices -/

theorem settle_lt {extent : Nat} (h : 0 < extent) (index : Int64) :
    settle extent index < extent := by
  unfold settle
  split
  · rename_i hrange
    simp only [Bool.and_eq_true, decide_eq_true_eq] at hrange
    omega
  · exact h

theorem offset_lt (indices : List Int64) (h : 0 < extents.prod) :
    offset (pairUp extents indices) < extents.prod := by
  induction extents generalizing indices with
  | nil => exact h
  | cons extent rest ih =>
    rw [List.prod_cons] at h ⊢
    have hextent := Nat.pos_of_mul_pos_right h
    have hrest := Nat.pos_of_mul_pos_left h
    have hstep : ∀ (index : Int64) (more : List Int64),
        (settle extent index + extent * offset (pairUp rest more)) % sizeLimit
          < extent * rest.prod := by
      intro index more
      calc (settle extent index + extent * offset (pairUp rest more)) % sizeLimit
          ≤ settle extent index + extent * offset (pairUp rest more) := Nat.mod_le _ _
        _ < extent + extent * offset (pairUp rest more) :=
          Nat.add_lt_add_right (settle_lt hextent index) _
        _ = extent * (offset (pairUp rest more) + 1) := by rw [Nat.mul_succ, Nat.add_comm]
        _ ≤ extent * rest.prod := Nat.mul_le_mul_left _ (ih more hrest)
    cases indices with
    | nil => exact hstep 0 []
    | cons index more => exact hstep index more

/-- **Whatever the indices are, they lead to a cell of the array.** -/
theorem Regular.locate_lt {g : Grid} (h : g.Regular) (hsize : g.size ≠ 0) (indices : List Int64) :
    (locate g.extents indices).1 < g.size := by
  have hprod : g.size = g.extents.prod := h
  rw [hprod] at hsize ⊢
  exact offset_lt indices (Nat.pos_of_ne_zero hsize)

end Primer.Grid
