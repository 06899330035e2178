/-
The shortest decimal that stands for a double.

A double stands for every real nearer to it than to its neighbours, the two
midpoints included when its mantissa is even.  Its text is the decimal with the
fewest digits in that interval and, among those, the one nearest to the double; an
exact tie goes up.

On the grid of decimals with a given last place it is enough to test the two points
around the double: if any point of the grid lies in the interval, one of these does.
-/
import Primer.Binary64

namespace Primer

/-- The number `digits * 10 ^ scale`. -/
structure Decimal where
  digits : Nat
  scale : Int
  deriving DecidableEq, Repr

namespace Decimal

/-- The positive double `mantissa * 2 ^ exponent` as a multiple of a quarter of its last place. -/
structure Target where
  mantissa : Nat
  exponent : Int
  deriving Repr

namespace Target

/-- Twice as fine on both sides of the midpoints: the double is `center * 2 ^ quarter`. -/
def quarter (t : Target) : Int := t.exponent - 2

def center (t : Target) : Nat := 4 * t.mantissa

/-- The midpoint to the next smaller double, which is nearer at a power of two. -/
def low (t : Target) : Nat :=
  if t.mantissa = Binary64.leastNormal && t.exponent > Binary64.leastExponent then t.center - 1
  else t.center - 2

/-- The midpoint to the next larger double. -/
def high (t : Target) : Nat := t.center + 2

/-- What a count of quarters is multiplied by to compare it on the grid `10 ^ place`. -/
def quarterFactor (t : Target) (place : Int) : Nat :=
  Nat.pow 2 t.quarter.toNat * Nat.pow 10 (-place).toNat

/-- What a count of grid steps is multiplied by to compare it with quarters. -/
def gridFactor (t : Target) (place : Int) : Nat :=
  Nat.pow 10 place.toNat * Nat.pow 2 (-t.quarter).toNat

/-- Whether the grid point `steps * 10 ^ place` reads back as the double. -/
def accepts (t : Target) (place : Int) (steps : Nat) : Bool :=
  let point := steps * t.gridFactor place
  let least := t.low * t.quarterFactor place
  let most := t.high * t.quarterFactor place
  if t.mantissa % 2 = 0 then least ≤ point && point ≤ most
  else least < point && point < most

/-- The best grid point that reads back as the double, when there is one. -/
def onGrid? (t : Target) (place : Int) : Option Nat :=
  let value := t.center * t.quarterFactor place
  let step := t.gridFactor place
  let below := value / step
  let up := if 2 * (value % step) < step then [below, below + 1] else [below + 1, below]
  let candidates := if value % step = 0 then [below] else up
  candidates.find? (t.accepts place)

/-- How many digits the double has before its decimal point; not positive below one tenth. -/
def magnitude (t : Target) : Int :=
  let shift : Nat := 400
  let scaled := Binary64.wholePart (t.mantissa * Nat.pow 10 shift) t.exponent
  ((Nat.repr scaled).length : Int) - shift

/-- Try `count` digits, then one more, as long as `tries` last. -/
def search (t : Target) (magnitude : Int) : Nat → Nat → Decimal
  | 0, _ => ⟨0, 0⟩
  | tries + 1, count =>
    let place := magnitude - count
    match t.onGrid? place with
    | some steps =>
      -- A carry into a new digit leaves a one and zeros.
      if steps = Nat.pow 10 count then ⟨1, magnitude⟩ else ⟨steps, place⟩
    | none => t.search magnitude tries (count + 1)

end Target

/-- The shortest decimal for `mantissa * 2 ^ exponent`; seventeen digits are always enough. -/
def shortest (mantissa : Nat) (exponent : Int) : Decimal :=
  if mantissa = 0 then ⟨0, 0⟩
  else
    let target : Target := ⟨mantissa, exponent⟩
    target.search target.magnitude 17 1

/-- All the digits of a decimal, without an exponent. -/
def positional (d : Decimal) : String :=
  if 0 ≤ d.scale then Nat.repr (d.digits * Nat.pow 10 d.scale.toNat)
  else
    let places := (-d.scale).toNat
    let fraction := Nat.repr (d.digits % Nat.pow 10 places)
    let zeros := String.ofList (List.replicate (places - fraction.length) '0')
    Nat.repr (d.digits / Nat.pow 10 places) ++ "." ++ zeros ++ fraction

end Decimal

namespace Binary64

/-- The shortest text of a double; a whole number has no decimal point. -/
def plainText (x : Float) : String :=
  match parts x with
  | .nan => "NaN"
  | .infinite negative => if negative then "-inf" else "inf"
  | .finite negative mantissa exponent =>
    let size := (Decimal.shortest mantissa exponent).positional
    if negative then "-" ++ size else size

/-- The text of a real: a whole one shows all its digits and one decimal place. -/
def text (x : Float) : String :=
  match parts x with
  | .finite negative mantissa exponent =>
    if isWholePower mantissa exponent then
      let size := Nat.repr (wholePart mantissa exponent) ++ ".0"
      if negative then "-" ++ size else size
    else plainText x
  | _ => plainText x

end Binary64

end Primer
