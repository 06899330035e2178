/-
Operations on integers are exact.

The exact result of an operation on two integers of 64 bits need not fit in 64 bits.  Where it does, it
is the answer, and where it does not, the answer is a real.  There are four exceptions, and they lie at
the ends of the range:

  * the least integer is its own negative and its own distance from zero, since both wrap around;
  * the remainder of the least integer by minus one is a real zero, since the quotient does not fit;
  * an even power of minus one, with an exponent beyond `greatestExponent`, is minus one, since the
    exponent is cut down to one that is odd.

`Calculation.Skewed` lists them, and there are no others.
-/
import Mathlib.Algebra.Order.Ring.Int
import Mathlib.Algebra.Ring.Int.Parity
import Primer.Library
import Primer.Value.Operator

namespace Primer

/-! ### Results that fit -/

namespace Value

variable {result : Int} {base : Int}

/-- The number is one of 64 bits. -/
def InRange (n : Int) : Prop := -9223372036854775808 ≤ n ∧ n ≤ 9223372036854775807

instance (n : Int) : Decidable (InRange n) := inferInstanceAs (Decidable (_ ∧ _))

/-- The answer to an operation with this exact result: the result itself where it fits, and a real
otherwise. -/
def Answers (result : Int) (answer : Except ValueError Value) : Prop :=
  if InRange result then ∃ k : Int64, k.toInt = result ∧ answer = .ok (.integer k)
  else ∃ x : Float, answer = .ok (.real x)

theorem inRange_toInt (n : Int64) : InRange n.toInt :=
  ⟨n.le_toInt, Int.le_sub_one_of_lt n.toInt_lt⟩

theorem toInt_eq_least_iff {n : Int64} : n.toInt = -9223372036854775808 ↔ n = Int64.minValue := by
  rw [← Int64.toInt_inj, Int64.toInt_minValue]
  rfl

theorem checked_of_inRange {n : Int} (h : InRange n) :
    ∃ k : Int64, k.toInt = n ∧ checked n = some k := by
  obtain ⟨hleast, hgreatest⟩ := h
  refine ⟨Int64.ofInt n, Int64.toInt_ofInt_of_le hleast (Int.lt_of_le_sub_one hgreatest), ?_⟩
  simp [checked, Decimal.fits, hleast, hgreatest]

theorem checked_eq_none {n : Int} (h : ¬ InRange n) : checked n = none := by
  rw [InRange] at h
  have hfits : Decimal.fits n = false := by
    simp only [Decimal.fits, Bool.and_eq_false_imp, decide_eq_true_eq, decide_eq_false_iff_not]
    omega
  simp [checked, hfits]

/-- What has the checked result as its answer and a real in place of a missing one. -/
theorem answers_of_checked {answer : Except ValueError Value} {x : Float}
    (hsome : ∀ k, checked result = some k → answer = .ok (.integer k))
    (hnone : checked result = none → answer = .ok (.real x)) : Answers result answer := by
  unfold Answers
  split
  · rename_i hrange
    obtain ⟨k, hk, hchecked⟩ := checked_of_inRange hrange
    exact ⟨k, hk, hsome k hchecked⟩
  · rename_i hrange
    exact ⟨x, hnone (checked_eq_none hrange)⟩

/-- An operation is exact when its form on integers gives the exact result as far as it fits. -/
theorem answers_numeric {op : String} {form : Int → Int → Option Int64}
    {rounded : Float → Float → Float} {m n : Int64} (h : form m.toInt n.toInt = checked result) :
    Answers result (numeric op form rounded (.integer m) (.integer n)) := by
  refine answers_of_checked (x := rounded m.toFloat n.toFloat) (fun k hk => ?_) fun hnone => ?_
  · simp only [numeric, h, hk]
  · simp only [numeric, h, hnone]

theorem not_answers_integer {k : Int64} (h : k.toInt ≠ result) :
    ¬ Answers result (.ok (.integer k)) := by
  unfold Answers
  split
  · rintro ⟨k', hk', heq⟩
    obtain rfl : k = k' := by simpa using heq
    exact h hk'
  · rintro ⟨x, hx⟩
    simp at hx

theorem not_answers_real {x : Float} (h : InRange result) :
    ¬ Answers result (.ok (.real x)) := by
  rw [Answers, if_pos h]
  rintro ⟨k, -, heq⟩
  simp at heq

/-! ### Quotients and remainders -/

theorem not_isZero_integer {n : Int64} (h : n.toInt ≠ 0) : ¬ isZero (.integer n) := by
  simpa [isZero, ← Int64.toInt_inj] using h

/-- A quotient fits, except that of the least integer by minus one. -/
theorem inRange_tdiv {m n : Int} (hm : InRange m) (hn : n ≠ 0)
    (h : ¬ (m = -9223372036854775808 ∧ n = -1)) : InRange (m.tdiv n) := by
  unfold InRange at *
  by_cases hone : n.natAbs = 1
  · obtain rfl | rfl : n = 1 ∨ n = -1 := by omega
    · rw [Int.tdiv_one]
      exact hm
    · rw [Int.tdiv_neg, Int.tdiv_one]
      omega
  · have hsize : (m.tdiv n).natAbs ≤ m.natAbs / 2 := by
      rw [Int.natAbs_tdiv]
      exact Nat.div_le_div_left (by omega) (by decide)
    omega

theorem exactRemainder_eq {m n : Int} (hm : InRange m) (hn : n ≠ 0)
    (h : ¬ (m = -9223372036854775808 ∧ n = -1)) : exactRemainder m n = checked (m.tmod n) := by
  obtain ⟨k, -, hk⟩ := checked_of_inRange (inRange_tdiv hm hn h)
  rw [exactRemainder, hk, Option.bind_some]

/-! ### Powers -/

/-- The base of which the powers stay small. -/
theorem eq_of_natAbs_le_one (h : base.natAbs ≤ 1) : base = -1 ∨ base = 0 ∨ base = 1 := by
  omega

/-- A power of two or more with 64 factors does not fit. -/
theorem not_inRange_pow (hbase : 2 ≤ base.natAbs) {exponent : Nat} (h : 64 ≤ exponent) :
    ¬ InRange (base ^ exponent) := by
  have hsize : 2 ^ 64 ≤ (base ^ exponent).natAbs := by
    rw [Int.natAbs_pow]
    calc 2 ^ 64 ≤ 2 ^ exponent := Nat.pow_le_pow_right (by decide) h
      _ ≤ base.natAbs ^ exponent := Nat.pow_le_pow_left hbase exponent
  unfold InRange
  omega

theorem exactPower_eq (base : Int) (exponent : Nat) :
    exactPower base exponent = checked (base ^ exponent) := by
  unfold exactPower
  split
  · rename_i hsmall
    refine congrArg checked ?_
    show base ^ (if exponent = 0 then 0 else 2 - exponent % 2) = base ^ exponent
    split
    · rename_i hzero
      rw [hzero]
    · rename_i hpos
      rcases eq_of_natAbs_le_one hsmall with rfl | rfl | rfl
      · rw [neg_one_pow_eq_pow_mod_two, neg_one_pow_eq_pow_mod_two exponent]
        congr 1
        omega
      · rw [zero_pow hpos, zero_pow (by omega)]
      · rw [one_pow, one_pow]
  · rename_i hlarge
    split
    · rename_i hmany
      exact (checked_eq_none (not_inRange_pow (by omega) hmany)).symm
    · rfl

/-- Cutting an exponent down changes only the even powers of minus one. -/
theorem checked_pow_min {exponent : Nat}
    (h : ¬ (base = -1 ∧ greatestExponent < exponent ∧ Even exponent)) :
    checked (base ^ min exponent greatestExponent) = checked (base ^ exponent) := by
  by_cases hle : exponent ≤ greatestExponent
  · rw [Nat.min_eq_left hle]
  · have hlt : greatestExponent < exponent := Nat.lt_of_not_le hle
    have hmin : min exponent greatestExponent = greatestExponent := Nat.min_eq_right hlt.le
    have hgreatest : greatestExponent = 4294967295 := rfl
    rw [hmin]
    by_cases hsmall : base.natAbs ≤ 1
    · rcases eq_of_natAbs_le_one hsmall with rfl | rfl | rfl
      · have hodd : Odd exponent := Nat.not_even_iff_odd.mp fun heven => h ⟨rfl, hlt, heven⟩
        have hgreatestOdd : Odd greatestExponent := by decide
        rw [hodd.neg_one_pow, hgreatestOdd.neg_one_pow]
      · rw [zero_pow (by omega), zero_pow (by omega)]
      · rw [one_pow, one_pow]
    · rw [checked_eq_none (not_inRange_pow (by omega) (by omega)),
        checked_eq_none (not_inRange_pow (by omega) (by omega))]

end Value

/-! ### Operations with their operands -/

/-- An operation on integers with its operands. -/
inductive Calculation where
  | binary (op : BinaryOp) (m n : Int64)
  | negate (n : Int64)
  | abs (n : Int64)

namespace Calculation

open Value

/-- What comes out when a program does the calculation. -/
def answer (heap : Heap) : Calculation → Except ValueError Value
  | binary op m n => op.apply (.integer m) (.integer n)
  | negate n => UnaryOp.negate.apply (.integer n)
  | abs n => Builtin.abs.run heap [.integer n]

/-- The exact result.  There is none for a division by zero, a power with a negative exponent and a
comparison. -/
def result? : Calculation → Option Int
  | binary .add m n => some (m.toInt + n.toInt)
  | binary .subtract m n => some (m.toInt - n.toInt)
  | binary .multiply m n => some (m.toInt * n.toInt)
  | binary .divide m n => if n.toInt = 0 then none else some (m.toInt.tdiv n.toInt)
  | binary .modulo m n => if n.toInt = 0 then none else some (m.toInt.tmod n.toInt)
  | binary .power m n => if n.toInt < 0 then none else some (m.toInt ^ n.toInt.toNat)
  | binary _ _ _ => none
  | negate n => some (-n.toInt)
  | abs n => some |n.toInt|

/-- The calculations that do not come out exact. -/
def Skewed : Calculation → Prop
  | binary .modulo m n => m = Int64.minValue ∧ n = -1
  | binary .power m n => m = -1 ∧ greatestExponent < n.toInt.toNat ∧ Even n.toInt.toNat
  | negate n | abs n => n = Int64.minValue
  | _ => False

variable {m n : Int64} {result : Int}

theorem answers_add : Answers (m.toInt + n.toInt) (Value.add (.integer m) (.integer n)) := by
  simp only [Value.add]
  exact answers_numeric rfl

theorem answers_subtract :
    Answers (m.toInt - n.toInt) (Value.subtract (.integer m) (.integer n)) := by
  rw [subtract]
  exact answers_numeric rfl

theorem answers_multiply :
    Answers (m.toInt * n.toInt) (Value.multiply (.integer m) (.integer n)) := by
  rw [multiply]
  exact answers_numeric rfl

theorem answers_divide (hn : n.toInt ≠ 0) :
    Answers (m.toInt.tdiv n.toInt) (Value.divide (.integer m) (.integer n)) := by
  rw [divide, if_neg (not_isZero_integer hn)]
  exact answers_numeric rfl

theorem answers_modulo_iff (hn : n.toInt ≠ 0) :
    Answers (m.toInt.tmod n.toInt) (Value.modulo (.integer m) (.integer n))
      ↔ ¬ (m = Int64.minValue ∧ n = -1) := by
  have hone : n.toInt = -1 ↔ n = -1 := by
    rw [← Int64.toInt_inj]
    rfl
  rw [modulo, if_neg (not_isZero_integer hn)]
  constructor
  · -- The quotient does not fit, so the real remainder is taken, but the remainder is zero.
    rintro hanswers ⟨rfl, rfl⟩
    exact not_answers_real (by decide) hanswers
  · intro h
    refine answers_numeric (exactRemainder_eq (inRange_toInt m) hn ?_)
    rwa [toInt_eq_least_iff, hone]

theorem answers_power_iff (hn : 0 ≤ n.toInt) :
    Answers (m.toInt ^ n.toInt.toNat) (Value.power (.integer m) (.integer n))
      ↔ ¬ (m = -1 ∧ greatestExponent < n.toInt.toNat ∧ Even n.toInt.toNat) := by
  have hone : m.toInt = -1 ↔ m = -1 := by
    rw [← Int64.toInt_inj]
    rfl
  have hnonneg : 0 ≤ n := Int64.le_iff_toInt_le.mpr hn
  simp only [power, if_pos hnonneg, exactPower_eq]
  constructor
  · -- The greatest exponent is odd.
    rintro hanswers ⟨rfl, hlt, heven⟩
    have hodd : Odd greatestExponent := by decide
    have hcut : checked ((-1 : Int) ^ min n.toInt.toNat greatestExponent) = some (-1) := by
      rw [Nat.min_eq_right hlt.le, hodd.neg_one_pow]
      rfl
    rw [hone.mpr rfl, heven.neg_one_pow, hcut] at hanswers
    exact not_answers_integer (by decide) hanswers
  · intro h
    rw [← hone] at h
    rw [checked_pow_min h]
    let rounded := m.toFloat.pow (Float.ofNat (min n.toInt.toNat greatestExponent))
    refine answers_of_checked (x := rounded) (fun k hk => ?_) fun hnone => ?_
    · simp only [hk]
    · simp only [hnone, rounded]

theorem answers_negate_iff : Answers (-n.toInt) (Value.negate (.integer n)) ↔ n ≠ Int64.minValue := by
  constructor
  · rintro hanswers rfl
    exact not_answers_integer (by decide) hanswers
  · intro h
    have hrange := inRange_toInt n
    have hleast : n.toInt ≠ -9223372036854775808 := mt toInt_eq_least_iff.mp h
    unfold InRange at hrange
    rw [Answers, if_pos (by unfold InRange; omega)]
    refine ⟨-n, ?_, rfl⟩
    rw [Int64.toInt_neg]
    exact Int.bmod_eq_of_le (by omega) (by omega)

theorem answers_abs_iff (heap : Heap) :
    Answers |n.toInt| (Builtin.abs.run heap [.integer n]) ↔ n ≠ Int64.minValue := by
  show Answers |n.toInt| (.ok (.integer (Builtin.magnitude n))) ↔ _
  unfold Builtin.magnitude
  split
  · rename_i hneg
    rw [abs_of_neg (Int64.lt_iff_toInt_lt.mp hneg)]
    exact answers_negate_iff
  · rename_i hneg
    have hnonneg : 0 ≤ n.toInt := Int.not_lt.mp fun hlt => hneg (Int64.lt_iff_toInt_lt.mpr hlt)
    have hleast : n ≠ Int64.minValue := by
      rintro rfl
      exact hneg (by decide)
    rw [abs_of_nonneg hnonneg, Answers, if_pos (inRange_toInt n)]
    exact iff_of_true ⟨n, rfl, rfl⟩ hleast

/-- **The answer is the exact result where it fits and a real where it does not, but for the skewed
calculations.** -/
theorem answers_result_iff (heap : Heap) (c : Calculation) (h : c.result? = some result) :
    Answers result (c.answer heap) ↔ ¬ c.Skewed := by
  cases c with
  | negate n =>
    obtain rfl := Option.some.inj h
    exact answers_negate_iff
  | abs n =>
    obtain rfl := Option.some.inj h
    exact answers_abs_iff heap
  | binary op m n =>
    cases op with
    | add =>
      obtain rfl := Option.some.inj h
      exact iff_of_true answers_add id
    | subtract =>
      obtain rfl := Option.some.inj h
      exact iff_of_true answers_subtract id
    | multiply =>
      obtain rfl := Option.some.inj h
      exact iff_of_true answers_multiply id
    | divide =>
      obtain ⟨hn, rfl⟩ : n.toInt ≠ 0 ∧ m.toInt.tdiv n.toInt = result := by simpa [result?] using h
      exact iff_of_true (answers_divide hn) id
    | modulo =>
      obtain ⟨hn, rfl⟩ : n.toInt ≠ 0 ∧ m.toInt.tmod n.toInt = result := by simpa [result?] using h
      exact answers_modulo_iff hn
    | power =>
      obtain ⟨hn, rfl⟩ : 0 ≤ n.toInt ∧ m.toInt ^ n.toInt.toNat = result := by simpa [result?] using h
      exact answers_power_iff hn
    | equal | notEqual | less | lessEqual | greater | greaterEqual => cases h

/-- The quotient of the least integer by minus one is exact, and it is a real. -/
theorem answers_result_iff_least :
    (binary .divide Int64.minValue (-1)).result? = some 9223372036854775808 ∧
      ∃ x : Float, (binary .divide Int64.minValue (-1)).answer {} = .ok (.real x) := by
  have hanswers := (answers_result_iff {} (binary .divide Int64.minValue (-1)) rfl).mpr id
  rw [Answers, if_neg (by decide)] at hanswers
  exact ⟨rfl, hanswers⟩

/-- An even power of minus one that comes out as minus one. -/
theorem minus_one_to_even_power :
    (binary .power (-1) 4294967296).result? = some 1 ∧
      (binary .power (-1) 4294967296).answer {} = .ok (.integer (-1)) := by
  constructor
  · have heven : Even (Int64.toInt 4294967296).toNat := by decide
    simp only [result?]
    rw [if_neg (by decide), show Int64.toInt (-1) = -1 from rfl, heven.neg_one_pow]
  · rfl

end Calculation

end Primer
