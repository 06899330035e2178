/-
Indices and the cells that they name.

An index for every dimension names a cell, different indices name different cells, and no cell is left
out.  The number of the cell is worked out from the last dimension to the first, and since the indices are
below their extents, nothing on the way is larger than the number of cells.

Other indices are mended first: a missing one is zero, a surplus one is not looked at, and one that is
out of range is zero.  They name the cell of the mended indices, and each thing that had to be mended is
told once.
-/
import Mathlib.Data.Set.Function
import Primer.Proofs.Value.Grid

namespace Primer.Grid

/-- The index is one of its dimension. -/
def Lies (extent : Nat) (index : Int64) : Prop := 0 ≤ index.toInt ∧ index.toInt < extent

instance (extent : Nat) (index : Int64) : Decidable (Lies extent index) :=
  inferInstanceAs (Decidable (_ ∧ _))

/-- There is an index for every dimension, and each is one of its dimension. -/
def Fits (extents : List Nat) (indices : List Int64) : Prop := List.Forall₂ Lies extents indices

/-- The number `i₁ + d₁ * (i₂ + d₂ * …)` for the extents `d` and the indices `i`. -/
def flat : List Nat → List Int64 → Nat
  | extent :: rest, index :: more => index.toInt.toNat + extent * flat rest more
  | _, _ => 0

/-- All that is worked out on the way to a cell: in every dimension a product and then a sum. -/
def workings : List Nat → List Int64 → List Nat
  | extent :: rest, index :: more =>
    extent * flat rest more :: (index.toInt.toNat + extent * flat rest more) :: workings rest more
  | _, _ => []

/-- The dimensions without an index of theirs. -/
def badDimensions (extents : List Nat) (indices : List Int64) : List Nat :=
  (List.range extents.length).filter fun d => ¬ Lies (extents.getD d 0) (indices.getD d 0)

/-- The indices filled up with zeros and cut to the number of dimensions, with zero in the place of
those that are out of range. -/
def mended (extents : List Nat) (indices : List Int64) : List Int64 :=
  (List.range extents.length).map fun d =>
    if Lies (extents.getD d 0) (indices.getD d 0) then indices.getD d 0 else 0

/-! ### Cells of indices that fit -/

variable {extent : Nat} {extents : List Nat} {index : Int64} {indices : List Int64}

theorem toNat_lt (h : Lies extent index) : index.toInt.toNat < extent := by
  unfold Lies at h
  omega

theorem flat_lt (h : Fits extents indices) : flat extents indices < extents.prod := by
  induction h with
  | nil => exact Nat.one_pos
  | @cons extent index rest more hindex _ ih =>
    have hlt := toNat_lt hindex
    calc index.toInt.toNat + extent * flat rest more
        < extent + extent * flat rest more := Nat.add_lt_add_right hlt _
      _ = extent * (flat rest more + 1) := by rw [Nat.mul_succ, Nat.add_comm]
      _ ≤ extent * rest.prod := Nat.mul_le_mul_left _ ih
      _ = (extent :: rest).prod := List.prod_cons.symm

/-- Nothing that is worked out is larger than the number of cells. -/
theorem lt_of_mem_workings (h : Fits extents indices) :
    ∀ w ∈ workings extents indices, w < extents.prod := by
  induction h with
  | nil => exact fun w hw => absurd hw List.not_mem_nil
  | @cons extent index rest more hindex hrest ih =>
    have hflat : index.toInt.toNat + extent * flat rest more < (extent :: rest).prod :=
      flat_lt (List.Forall₂.cons hindex hrest)
    have hextent : 0 < extent := Nat.zero_lt_of_lt (toNat_lt hindex)
    refine List.forall_mem_cons.mpr ⟨by omega, List.forall_mem_cons.mpr ⟨hflat, fun w hw => ?_⟩⟩
    calc w < rest.prod := ih w hw
      _ ≤ extent * rest.prod := Nat.le_mul_of_pos_left _ hextent
      _ = (extent :: rest).prod := List.prod_cons.symm

theorem flat_cons_mod (h : Lies extent index) (rest : List Nat) (more : List Int64) :
    flat (extent :: rest) (index :: more) % extent = index.toInt.toNat := by
  rw [flat, Nat.add_mul_mod_self_left, Nat.mod_eq_of_lt (toNat_lt h)]

theorem flat_cons_div (h : Lies extent index) (rest : List Nat) (more : List Int64) :
    flat (extent :: rest) (index :: more) / extent = flat rest more := by
  have hpos : 0 < extent := Nat.zero_lt_of_lt (toNat_lt h)
  rw [flat, Nat.add_mul_div_left _ _ hpos, Nat.div_eq_of_lt (toNat_lt h), Nat.zero_add]

/-- Different indices name different cells. -/
theorem flat_injective {others : List Int64} (h : Fits extents indices) (h' : Fits extents others)
    (heq : flat extents indices = flat extents others) : indices = others := by
  induction h generalizing others with
  | nil =>
    cases h'
    rfl
  | @cons extent index rest more hindex _ ih =>
    cases h' with
    | @cons _ other _ others hother hothers =>
      have hfirst : index.toInt.toNat = other.toInt.toNat := by
        rw [← flat_cons_mod hindex rest more, heq, flat_cons_mod hother]
      have hrest : flat rest more = flat rest others := by
        rw [← flat_cons_div hindex rest more, heq, flat_cons_div hother]
      have hindexEq : index = other := by
        unfold Lies at hindex hother
        exact Int64.toInt_inj.mp (by omega)
      rw [hindexEq, ih hothers hrest]

/-- Every cell is named by indices that fit, as long as the cells are counted in 63 bits. -/
theorem exists_flat_eq {cell : Nat} (hcell : cell < extents.prod) (hlt : extents.prod < 2 ^ 63) :
    ∃ indices, Fits extents indices ∧ flat extents indices = cell := by
  induction extents generalizing cell with
  | nil =>
    rw [List.prod_nil, Nat.lt_one_iff] at hcell
    exact ⟨[], .nil, hcell.symm⟩
  | cons extent rest ih =>
    rw [List.prod_cons] at hcell hlt
    have hpos : 0 < extent * rest.prod := Nat.zero_lt_of_lt hcell
    have hextent : 0 < extent := Nat.pos_of_mul_pos_right hpos
    have hrest : 0 < rest.prod := Nat.pos_of_mul_pos_left hpos
    -- The first index is what is left over, the others name the quotient.
    obtain ⟨more, hmore, hflat⟩ := ih (Nat.div_lt_of_lt_mul hcell)
      (Nat.lt_of_le_of_lt (Nat.le_mul_of_pos_left _ hextent) hlt)
    have hmod : cell % extent < extent := Nat.mod_lt _ hextent
    have hsmall : extent ≤ extent * rest.prod := Nat.le_mul_of_pos_right _ hrest
    have hindex : (Int64.ofNat (cell % extent)).toInt = (cell % extent : Nat) :=
      Int64.toInt_ofNat_of_lt (by omega)
    refine ⟨Int64.ofNat (cell % extent) :: more, .cons ?_ hmore, ?_⟩
    · unfold Lies
      omega
    · rw [flat, hindex, hflat, Int.toNat_natCast, Nat.mod_add_div]

/-! ### Cells of other indices

`mended` and `badDimensions` speak of a dimension by its number.  The number of a cell is worked out along the
list of extents, so each of them is first taken apart into the first dimension and the others.
-/

theorem getD_succ (indices : List Int64) (d : Nat) : indices.getD (d + 1) 0 = indices.tail.getD d 0 := by
  cases indices with
  | nil => rfl
  | cons index more => rfl

theorem pairUp_cons (extent : Nat) (rest : List Nat) (indices : List Int64) :
    pairUp (extent :: rest) indices = (extent, indices.getD 0 0) :: pairUp rest indices.tail := by
  cases indices with
  | nil => rfl
  | cons index more => rfl

theorem mended_cons (extent : Nat) (rest : List Nat) (indices : List Int64) :
    mended (extent :: rest) indices =
      (if Lies extent (indices.getD 0 0) then indices.getD 0 0 else 0) :: mended rest indices.tail := by
  simp only [mended, List.length_cons, List.range_succ_eq_map, List.map_cons, List.map_map]
  congr 1
  refine List.map_congr_left fun d _ => ?_
  simp only [Function.comp_apply, Nat.succ_eq_add_one, List.getD_cons_succ, getD_succ]

theorem badDimensions_cons (extent : Nat) (rest : List Nat) (indices : List Int64) :
    badDimensions (extent :: rest) indices =
      (if Lies extent (indices.getD 0 0) then [] else [0]) ++
        (badDimensions rest indices.tail).map (· + 1) := by
  simp only [badDimensions, List.length_cons, List.range_succ_eq_map, List.filter_cons, List.filter_map,
    List.getD_cons_zero, decide_not, Bool.not_eq_true', decide_eq_false_iff_not]
  have htail : (List.range rest.length).filter
      ((fun d => !decide (Lies ((extent :: rest).getD d 0) (indices.getD d 0))) ∘ Nat.succ) =
      (List.range rest.length).filter
        fun d => !decide (Lies (rest.getD d 0) (indices.tail.getD d 0)) := by
    refine List.filter_congr fun d _ => ?_
    simp only [Function.comp_apply, Nat.succ_eq_add_one, List.getD_cons_succ, getD_succ]
  rw [htail]
  by_cases h : Lies extent (indices.getD 0 0)
  · rw [if_pos h, if_neg (not_not.mpr h)]
    rfl
  · rw [if_neg h, if_pos h]
    rfl

theorem lies_zero (h : 0 < extent) : Lies extent 0 := ⟨Int.le_refl _, by simpa using h⟩

theorem fits_mended (hpos : 0 < extents.prod) (indices : List Int64) :
    Fits extents (mended extents indices) := by
  induction extents generalizing indices with
  | nil => exact .nil
  | cons extent rest ih =>
    rw [List.prod_cons] at hpos
    rw [mended_cons]
    refine .cons ?_ (ih (Nat.pos_of_mul_pos_left hpos) _)
    split
    · assumption
    · exact lies_zero (Nat.pos_of_mul_pos_right hpos)

/-- Indices that fit need no mending. -/
theorem mended_eq (h : Fits extents indices) : mended extents indices = indices := by
  induction h with
  | nil => rfl
  | @cons extent index rest more hindex _ ih =>
    rw [mended_cons, List.tail_cons, ih, List.getD_cons_zero, if_pos hindex]

theorem badDimensions_eq_nil (h : Fits extents indices) : badDimensions extents indices = [] := by
  induction h with
  | nil => rfl
  | @cons extent index rest more hindex _ ih =>
    rw [badDimensions_cons, List.tail_cons, ih, List.getD_cons_zero, if_pos hindex]
    rfl

theorem settle_eq (extent : Nat) (index : Int64) :
    settle extent index = (if Lies extent index then index else 0).toInt.toNat := by
  by_cases h : Lies extent index
  · rw [if_pos h]
    simp [settle, h.1, h.2]
  · rw [if_neg h]
    have hrange : ¬ (0 ≤ index.toInt && index.toInt < extent) := by simpa [Lies] using h
    rw [settle, if_neg hrange]
    rfl

/-- The offset is the number of the cell, since it does not reach the limit of sizes. -/
theorem offset_eq_flat (hpos : 0 < extents.prod) (hlt : extents.prod < sizeLimit) (indices : List Int64) :
    offset (pairUp extents indices) = flat extents (mended extents indices) := by
  induction extents generalizing indices with
  | nil => rfl
  | cons extent rest ih =>
    have hflat := Nat.lt_trans (flat_lt (fits_mended hpos indices)) hlt
    rw [List.prod_cons] at hpos hlt
    have hextent : 0 < extent := Nat.pos_of_mul_pos_right hpos
    have hrest := ih (Nat.pos_of_mul_pos_left hpos)
      (Nat.lt_of_le_of_lt (Nat.le_mul_of_pos_left _ hextent) hlt) indices.tail
    rw [mended_cons, flat] at hflat ⊢
    rw [pairUp_cons, offset, hrest, settle_eq, Nat.mod_eq_of_lt hflat]

theorem rangeProblems_eq (first : Nat) (extents : List Nat) (indices : List Int64) :
    rangeProblems first (pairUp extents indices) =
      (badDimensions extents indices).map fun d =>
        .outOfRange (first + d) (indices.getD d 0) (extents.getD d 0) := by
  induction extents generalizing first indices with
  | nil => rfl
  | cons extent rest ih =>
    have hlater : rangeProblems (first + 1) (pairUp rest indices.tail) =
        ((badDimensions rest indices.tail).map (· + 1)).map fun d =>
          .outOfRange (first + d) (indices.getD d 0) ((extent :: rest).getD d 0) := by
      rw [ih, List.map_map]
      refine List.map_congr_left fun d _ => ?_
      simp only [Function.comp_apply, List.getD_cons_succ, getD_succ, Nat.add_assoc, Nat.add_comm 1]
    rw [pairUp_cons, badDimensions_cons, List.map_append, ← hlater, rangeProblems]
    by_cases h : Lies extent (indices.getD 0 0)
    · have hrange : (0 ≤ (indices.getD 0 0).toInt && (indices.getD 0 0).toInt < extent) := by
        simpa [Lies] using h
      rw [if_pos h, if_pos hrange]
      rfl
    · have hrange : ¬ (0 ≤ (indices.getD 0 0).toInt && (indices.getD 0 0).toInt < extent) := by
        simpa [Lies] using h
      rw [if_neg h, if_neg hrange]
      rfl

/-- What there is to tell about indices: first that they are not as many as the dimensions, and then each
dimension without an index of its own, in order. -/
def told (extents : List Nat) (indices : List Int64) : List IndexProblem :=
  (if indices.length = extents.length then [] else [.rank extents.length indices.length]) ++
    (badDimensions extents indices).map fun d => .outOfRange d (indices.getD d 0) (extents.getD d 0)

theorem locate_eq (hpos : 0 < extents.prod) (hlt : extents.prod < sizeLimit) (indices : List Int64) :
    locate extents indices = (flat extents (mended extents indices), told extents indices) := by
  have hproblems := rangeProblems_eq 0 extents indices
  simp only [Nat.zero_add] at hproblems
  rw [locate, offset_eq_flat hpos hlt, hproblems]
  rfl

theorem told_eq_nil (h : Fits extents indices) : told extents indices = [] := by
  rw [told, badDimensions_eq_nil h, if_pos h.length_eq.symm]
  rfl

/-- What the indices of an array with these extents name. -/
structure Folding (extents : List Nat) : Prop where
  /-- Indices that fit name each cell once. -/
  cells : Set.BijOn (fun indices => (locate extents indices).1) {indices | Fits extents indices}
    {cell | cell < extents.prod}
  /-- There is nothing to tell about them. -/
  plain : ∀ indices, Fits extents indices → locate extents indices = (flat extents indices, [])
  /-- Other indices name the cell of the mended ones, which fit. -/
  mends : ∀ indices, Fits extents (mended extents indices) ∧
    locate extents indices = (flat extents (mended extents indices), told extents indices)
  inside : ∀ indices, (locate extents indices).1 < extents.prod
  /-- Nothing that is worked out on the way to a cell reaches the limit of sizes. -/
  workings : ∀ indices, Fits extents indices → ∀ w ∈ workings extents indices, w < 2 ^ 64

/-- **Indices name the cells of an array one to one, and other indices are mended and told of.** -/
theorem folding (hpos : 0 < extents.prod) (hlt : extents.prod < 2 ^ 63) : Folding extents := by
  have hlimit : extents.prod < sizeLimit := Nat.lt_trans hlt (by decide)
  have hlocate := locate_eq hpos hlimit
  have hplain : ∀ indices, Fits extents indices → locate extents indices = (flat extents indices, []) := by
    intro indices hindices
    rw [hlocate, mended_eq hindices, told_eq_nil hindices]
  have hinside : ∀ indices, (locate extents indices).1 < extents.prod := by
    intro indices
    rw [hlocate]
    exact flat_lt (fits_mended hpos indices)
  refine ⟨⟨fun indices _ => hinside indices, ?_, ?_⟩, hplain,
    fun indices => ⟨fits_mended hpos indices, hlocate indices⟩, hinside, ?_⟩
  · intro indices hindices others hothers heq
    simp only [hplain indices hindices, hplain others hothers] at heq
    exact flat_injective hindices hothers heq
  · intro cell hcell
    obtain ⟨indices, hindices, hflat⟩ := exists_flat_eq hcell hlt
    exact ⟨indices, hindices, (congrArg Prod.fst (hplain indices hindices)).trans hflat⟩
  · intro indices hindices w hw
    have hw := lt_of_mem_workings hindices w hw
    omega

example : locate [2, 3, 4] [1, 2, 3] = (1 + 2 * (2 + 3 * 3), []) := by decide

/-- An array of three dimensions. -/
theorem folding_box : 0 < [2, 3, 4].prod ∧ [2, 3, 4].prod < 2 ^ 63 ∧ Folding [2, 3, 4] :=
  ⟨by decide, by decide, folding (by decide) (by decide)⟩

end Primer.Grid
