/-
Comparing values.

Numbers compare by size whatever their kinds, texts and characters by code point.
Truth values, arrays, objects and the null value are equal or not but have no order.
Two kinds that share no common ground cannot be compared at all.
-/
import Primer.Value.Conversion

namespace Primer.Value

/-- The order of two doubles, absent when one of them is no number. -/
def compareReals (x y : Float) : Option Ordering :=
  if x < y then some .lt
  else if x == y then some .eq
  else if x > y then some .gt
  else none

def unordered (a b : Value) : ValueError := .operands "<" a.kind b.kind

/-- Order of the first difference in two rows of characters. -/
def compareChars : List Char → List Char → Ordering
  | [], [] => .eq
  | [], _ :: _ => .lt
  | _ :: _, [] => .gt
  | c :: cs, d :: ds =>
    if c.toNat < d.toNat then .lt
    else if d.toNat < c.toNat then .gt
    else compareChars cs ds

/-- The order of two reals that may not exist. -/
def orderReals (a b : Value) (x y : Float) : Except ValueError Ordering :=
  match compareReals x y with
  | some o => .ok o
  | none => .error (unordered a b)

def compare (a b : Value) : Except ValueError Ordering :=
  match a, b with
  | .integer m, .integer n => .ok (Ord.compare m.toInt n.toInt)
  | .integer m, .real y => orderReals a b m.toFloat y
  | .real x, .integer n => orderReals a b x n.toFloat
  | .real x, .real y => orderReals a b x y
  | .character c, .character d => .ok (compareChars [c] [d])
  | .text s, .text t => .ok (compareChars s.toList t.toList)
  | .text s, .character d => .ok (compareChars s.toList [d])
  | .character c, .text t => .ok (compareChars [c] t.toList)
  | _, _ => .error (unordered a b)

def equals (a b : Value) : Except ValueError Bool :=
  match a.kind, b.kind with
  | .integer, .integer | .integer, .real | .real, .integer | .real, .real
  | .text, .text | .text, .character | .character, .text | .character, .character => do
    return (← a.compare b) == .eq
  | .boolean, .boolean => .ok (a.same b)
  | .null, .null | .null, .object | .null, .array
  | .object, .null | .object, .object | .object, .array
  | .array, .null | .array, .object | .array, .array => .ok (a.same b)
  | _, _ => .error (.operands "==" a.kind b.kind)

end Primer.Value
