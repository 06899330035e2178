/-
Character properties given as tables of ranges.

A property of characters is stored as an ascending array of closed ranges of code
points.  Membership is a binary search that halves an interval of table rows, so
its depth is the logarithm of the table.
-/
namespace Primer.Text

/-- Binary search for `n` among rows `low` up to, not including, `high`. -/
def Ranges.search (table : Array (Nat × Nat)) (n : Nat) (low high : Nat) : Bool :=
  if low < high then
    let middle := (low + high) / 2
    match table[middle]? with
    | none => false
    | some (first, last) =>
      if n < first then Ranges.search table n low middle
      else if last < n then Ranges.search table n (middle + 1) high
      else true
  else false
termination_by high - low
decreasing_by all_goals omega

/-- Whether a row of the ascending `table` covers the code point of `c`. -/
def Ranges.covers (table : Array (Nat × Nat)) (c : Char) : Bool :=
  Ranges.search table c.toNat 0 table.size

end Primer.Text
