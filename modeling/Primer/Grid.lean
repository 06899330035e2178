/-
Arrays of any number of dimensions over one flat row of cells.

The first index runs fastest: the cell of `(i, j, k)` in an array of extents
`(a, b, c)` is number `i + a * (j + b * k)`.  An index that is out of range is
reported and counts as zero, so that a cell is always found.
-/
import Primer.Value

namespace Primer

/-- An array: what its cells hold, its extents, and the cells in one row. -/
structure Grid where
  element : TypeName
  extents : List Nat
  cells : Array Value
  deriving Inhabited

/-- What can be wrong with the indices given for an array. -/
inductive IndexProblem where
  | rank (expected found : Nat)
  /-- `dimension` counts from zero. -/
  | outOfRange (dimension : Nat) (index : Int64) (extent : Nat)
  deriving DecidableEq, Repr

def IndexProblem.message : IndexProblem → String
  | rank expected found =>
    s!"array has {expected} dimension(s) but {found} index(es) were given"
  | outOfRange dimension index extent =>
    let place := dimension + 1
    s!"index {index.toInt} is out of range for dimension {place} (size {extent}); using 0"

namespace Grid

/-- Sizes and offsets are counted in 64 bits. -/
def sizeLimit : Nat := 18446744073709551616

/-- The number of cells, given up as soon as a partial product is too large. -/
def countFrom (count : Nat) : List Nat → Option Nat
  | [] => some count
  | extent :: rest =>
    if count * extent < sizeLimit then countFrom (count * extent) rest else none

/-- The number of cells that `extents` ask for. -/
def count? (extents : List Nat) : Option Nat := countFrom 1 extents

/-- A fresh array; one that is too large to count has no cells. -/
def make (element : TypeName) (extents : List Nat) : Grid :=
  ⟨element, extents, Array.replicate ((count? extents).getD 0) (Value.default element)⟩

def size (g : Grid) : Nat := g.cells.size

/-- The index to use in a dimension, which is zero in place of one that is out of range. -/
def settle (extent : Nat) (index : Int64) : Nat :=
  if 0 ≤ index.toInt && index.toInt < extent then index.toInt.toNat else 0

/-- Indices paired with extents.  Missing indices count as zero, surplus ones are dropped. -/
def pairUp : List Nat → List Int64 → List (Nat × Int64)
  | [], _ => []
  | extent :: rest, [] => (extent, 0) :: pairUp rest []
  | extent :: rest, index :: more => (extent, index) :: pairUp rest more

/-- The number of the cell with these indices. -/
def offset : List (Nat × Int64) → Nat
  | [] => 0
  | (extent, index) :: rest => (settle extent index + extent * offset rest) % sizeLimit

/-- The indices that are out of range, from dimension `first` on. -/
def rangeProblems (first : Nat) : List (Nat × Int64) → List IndexProblem
  | [] => []
  | (extent, index) :: rest =>
    let later := rangeProblems (first + 1) rest
    if 0 ≤ index.toInt && index.toInt < extent then later
    else .outOfRange first index extent :: later

/-- The cell that `indices` name, and what is wrong with them. -/
def locate (extents : List Nat) (indices : List Int64) : Nat × List IndexProblem :=
  let pairs := pairUp extents indices
  let rank :=
    if indices.length = extents.length then []
    else [IndexProblem.rank extents.length indices.length]
  (offset pairs, rank ++ rangeProblems 0 pairs)

end Grid

end Primer
