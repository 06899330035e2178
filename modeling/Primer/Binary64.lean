/-
Double-precision numbers taken apart.

A finite double is a sign, a whole mantissa and a power of two.  What the language
shows of its reals (their text, their remainder, whether they are whole) is computed
from those parts in exact integer arithmetic.
-/
namespace Primer.Binary64

inductive Parts where
  | nan
  | infinite (negative : Bool)
  /-- The number `mantissa * 2 ^ exponent`, below zero when `negative`. -/
  | finite (negative : Bool) (mantissa : Nat) (exponent : Int)
  deriving DecidableEq, Repr

/-- The exponent of the smallest positive double. -/
def leastExponent : Int := -1074

/-- The mantissa of a double with no fraction bit set, from which on numbers have all their
digits: two to the power of 52. -/
def leastNormal : Nat := 4503599627370496

/-- Two to the power of 63, the place of the sign in a word of 64 bits. -/
def signPlace : Nat := 9223372036854775808

/-- Take a word of 64 bits apart: one bit of sign, eleven of exponent, 52 of fraction. -/
def partsOfBits (bits : Nat) : Parts :=
  let negative := bits / signPlace % 2 == 1
  let field : Nat := bits / leastNormal % 2048
  let fraction := bits % leastNormal
  if field = 2047 then
    if fraction = 0 then .infinite negative else .nan
  else if field = 0 then .finite negative fraction leastExponent
  else .finite negative (leastNormal + fraction) (leastExponent + (field - 1 : Nat))

def parts (x : Float) : Parts := partsOfBits x.toBits.toNat

/-- Whether `mantissa * 2 ^ exponent` is a whole number. -/
def isWholePower (mantissa : Nat) (exponent : Int) : Bool :=
  0 ≤ exponent || mantissa % Nat.pow 2 (-exponent).toNat == 0

/-- A finite double without a fractional part. -/
def isWhole (x : Float) : Bool :=
  match parts x with
  | .finite _ mantissa exponent => isWholePower mantissa exponent
  | _ => false

/-- The whole part of `mantissa * 2 ^ exponent`. -/
def wholePart (mantissa : Nat) (exponent : Int) : Nat :=
  if 0 ≤ exponent then mantissa * Nat.pow 2 exponent.toNat
  else mantissa / Nat.pow 2 (-exponent).toNat

def nan : Float := 0.0 / 0.0

/--
The remainder of a division that is rounded toward zero.

It is exact: over the smaller of the two powers of two both numbers are whole, and
what is left fits a mantissa again.  Its sign is the sign of `x`, also when it is zero.
-/
def remainder (x y : Float) : Float :=
  match parts x, parts y with
  | .finite negative m e, .finite _ n f =>
    if n = 0 then nan
    else
      let least := min e f
      let rest := (m * Nat.pow 2 (e - least).toNat) % (n * Nat.pow 2 (f - least).toNat)
      let size := (Float.ofNat rest).scaleB least
      if negative then -size else size
  | .finite .., .infinite _ => x
  | _, _ => nan

end Primer.Binary64
