/-
Counted loops.

A loop that counts from `a` to `b` in steps of `s` runs its body with the counter at `a`, at `a + s` and
so on, as long as the counter has not passed `b`.  The counter is in the store, where the body could
change it, and each turn reads it again.  As long as the body leaves it alone, the number of turns is
known beforehand.

`Laps` is a number of runs of the body with nothing between them but the moving of the counter, and the
loop comes to just that.
-/
import Primer.Proofs.Run.Ending
import Primer.Proofs.Run.Jump
import Primer.Proofs.Run.Places
import Primer.Proofs.Value.Arithmetic

namespace Primer

variable {a s : Int}

/-! ### How far a loop counts -/

/-- The number of turns from `a` to `b` in steps of `s`. -/
def turnCount (a b s : Int) : Nat :=
  if (0 < s ∧ b < a) ∨ (s < 0 ∧ a < b) then 0 else ((b - a).fdiv s + 1).toNat

/-- The counter has passed `b`. -/
def Passed (b s n : Int) : Prop := (0 < s ∧ b < n) ∨ (s < 0 ∧ n < b)

instance (b s n : Int) : Decidable (Passed b s n) := inferInstanceAs (Decidable (_ ∨ _))

theorem passed_iff_of_pos {b : Int} (hs : 0 < s) (i : Nat) :
    Passed b s (a + i * s) ↔ turnCount a b s ≤ i := by
  have hpassed : Passed b s (a + i * s) ↔ b < a + i * s := by
    unfold Passed
    omega
  have hnonneg : 0 ≤ i * s := Int.mul_nonneg (Int.natCast_nonneg i) hs.le
  rw [hpassed, turnCount]
  by_cases hempty : b < a
  · rw [if_pos (Or.inl ⟨hs, hempty⟩)]
    omega
  · rw [if_neg (by omega), Int.fdiv_eq_ediv_of_nonneg _ hs.le]
    have hlt := @Int.ediv_lt_iff_lt_mul (b - a) i s hs
    omega

/-- Counting down is counting up among the negatives. -/
theorem turnCount_neg (a b s : Int) : turnCount (-a) (-b) (-s) = turnCount a b s := by
  have hdiff : -b - -a = -(b - a) := by omega
  unfold turnCount
  rw [hdiff, Int.neg_fdiv_neg]
  congr 1
  rw [eq_iff_iff]
  omega

/-- The counter has passed the end after as many steps as there are turns, and not before. -/
theorem passed_iff {b : Int} (hs : s ≠ 0) (i : Nat) :
    Passed b s (a + i * s) ↔ turnCount a b s ≤ i := by
  rcases Int.lt_or_gt_of_ne hs with hneg | hpos
  · have hup : Passed b s (a + i * s) ↔ Passed (-b) (-s) (-a + i * -s) := by
      rw [Int.mul_neg]
      unfold Passed
      omega
    rw [hup, passed_iff_of_pos (by omega), turnCount_neg]
  · exact passed_iff_of_pos hpos i

example : turnCount 1 6 2 = 3 ∧ turnCount 10 1 (-3) = 4 ∧ turnCount 5 4 1 = 0 := by decide

/-- What lies between two numbers of 64 bits is one. -/
theorem inRange_between {n i : Nat} (ha : Value.InRange a) (hn : Value.InRange (a + n * s))
    (hi : i ≤ n) : Value.InRange (a + i * s) := by
  unfold Value.InRange at *
  have hle : (i : Int) ≤ n := Int.ofNat_le.mpr hi
  rcases Int.le_total 0 s with hs | hs
  · have := Int.mul_le_mul_of_nonneg_right hle hs
    have := Int.mul_nonneg (Int.natCast_nonneg i) hs
    omega
  · have := Int.mul_le_mul_of_nonpos_right hle hs
    have := Int.mul_nonpos_of_nonneg_of_nonpos (Int.natCast_nonneg i) hs
    omega

namespace Engine

open Run

/-- The counter after `i` steps. -/
def counterAt (a s : Int64) (i : Nat) : Int64 := Int64.ofInt (a.toInt + i * s.toInt)

/-- The counter is set to `v`, and nothing is reported. -/
structure Sets (place : Place) (v : Value) (m m' : Machine σ) : Prop where
  eq : m' = m.write place v
  holds : m'.read? place = some v
  quiet : m'.problems = m.problems

/-- The body runs to its end or to a `Continue`, leaves the counter as it is, and the host does not ask to
stop. -/
structure Completes (inner : Inner σ) (body : Block Stmt) (place : Place) (m m' : Machine σ) :
    Prop where
  runs : block inner body m = .ok .next m' ∨ block inner body m = .ok .continueLoop m'
  keeps : m'.read? place = m.read? place
  unasked : m'.outside.stop = false

/-- The body runs once with the counter at each of the values, in order. -/
inductive Laps (inner : Inner σ) (body : Block Stmt) (place : Place) :
    List Value → Machine σ → Machine σ → Prop
  | none (m : Machine σ) : Laps inner body place [] m m
  | more {values : List Value} {v : Value} {m m₁ m₂ m₃ : Machine σ}
      (h : Laps inner body place values m m₁) (hsets : Sets place v m₁ m₂)
      (hruns : Completes inner body place m₂ m₃) :
    Laps inner body place (values ++ [v]) m m₃

/-- The values of the counter in the first `n` turns. -/
def counts (a s : Int64) (n : Nat) : List Value :=
  (List.range n).map fun i => .integer (counterAt a s i)

theorem counts_succ (a s : Int64) (n : Nat) :
    counts a s (n + 1) = counts a s n ++ [.integer (counterAt a s n)] := by
  simp [counts, List.range_succ]

variable {engine : Engine σ} {inner : Inner σ} {body : Block Stmt} {place : Place} {span : Span}
  {m m' : Machine σ} {v : Value} {a b s n k : Int64}

theorem sets_write (h : (m.read? place).isSome) (v : Value) : Sets place v m (m.write place v) :=
  ⟨rfl, Machine.read?_write h v, m.problems_write place v⟩

/-! ### What is done around the body -/

theorem load_ok (h : m.read? place = some v) : load place m = .ok v m := by
  have hload : load place m = .ok ((m.read? place).getD .null) (m.turnTo place) := rfl
  rw [hload, Machine.turnTo, h]
  rfl

theorem store_ok (h : (m.read? place).isSome) (v : Value) :
    store place v m = .ok () (m.write place v) := by
  have hstore : store place v m = .ok () ((m.turnTo place).write place v) := rfl
  rw [hstore, Machine.turnTo, if_pos h]

/-- What a loop with an integer counter is run with. -/
def integerCount (place : Place) (b s : Int64) : Count where
  place
  kind := .integer
  last := .integer b
  step := .integer s
  ascending := 0 < s.toInt

theorem finished_integer (hs : s.toInt ≠ 0) (n : Int64) :
    (integerCount place b s).finished (.integer n) span m =
      .ok (decide (Passed b.toInt s.toInt n.toInt)) m := by
  have hfinished : (integerCount place b s).finished (.integer n) span m =
      .ok (Ord.compare n.toInt b.toInt == if 0 < s.toInt then .gt else .lt) m := by
    unfold Count.finished integerCount
    simp only [decide_eq_true_eq]
    rfl
  rw [hfinished]
  congr 1
  by_cases hpos : 0 < s.toInt
  · rw [if_pos hpos, Bool.eq_iff_iff, beq_iff_eq, compare_gt_iff_gt, decide_eq_true_eq, Passed]
    omega
  · rw [if_neg hpos, Bool.eq_iff_iff, beq_iff_eq, compare_lt_iff_lt, decide_eq_true_eq, Passed]
    omega

theorem ready_integer (hs : s.toInt ≠ 0) (h : m.read? place = some (.integer n)) (number : Nat) :
    ((integerCount place b s).cycle body span).ready number m =
      .ok (!decide (Passed b.toInt s.toInt n.toInt)) m := by
  show (load place >>= fun current => (integerCount place b s).finished current span >>= fun finished =>
    pure !finished) m = _
  rw [bind_of_ok (load_ok h), bind_of_ok (finished_integer hs n)]
  rfl

theorem add_integer (hk : k.toInt = n.toInt + s.toInt) :
    Value.add (.integer n) (.integer s) = .ok (.integer k) := by
  have hanswers := @Calculation.answers_add n s
  rw [Value.Answers, ← hk, if_pos (Value.inRange_toInt k)] at hanswers
  obtain ⟨k', hk', hadd⟩ := hanswers
  rwa [Int64.toInt_inj.mp hk'] at hadd

theorem equals_integer (h : n.toInt ≠ k.toInt) :
    Value.equals (.integer n) (.integer k) = .ok false := by
  have hequals : Value.equals (.integer n) (.integer k) = .ok (Ord.compare n.toInt k.toInt == .eq) := rfl
  rw [hequals, beq_eq_false_iff_ne.mpr (mt compare_eq_iff_eq.mp h)]

/-- A counter that can be moved on is moved on. -/
theorem advance_integer (hs : s.toInt ≠ 0) (h : m.read? place = some (.integer n))
    (hk : k.toInt = n.toInt + s.toInt) :
    (integerCount place b s).advance span m = .ok true (m.write place (.integer k)) := by
  have hequals : Value.equals (.integer n) (.integer k) = .ok false := equals_integer (by omega)
  have hcoerce : coerce (.integer k) .integer span m = .ok (.integer k) m := rfl
  have hthere : (m.read? place).isSome := by
    rw [h]
    rfl
  unfold Count.advance integerCount
  rw [bind_of_ok (load_ok h)]
  simp only [add_integer hk]
  rw [bind_of_ok hcoerce]
  simp only [hequals]
  rw [bind_of_ok (store_ok hthere _)]
  rfl

/-! ### Turns -/

/-- With the counter past the end, there is no turn. -/
theorem run_passed (hs : s.toInt ≠ 0) (h : m.read? place = some (.integer n))
    (hpassed : Passed b.toInt s.toInt n.toInt) (turns number : Nat) :
    ((integerCount place b s).cycle body span).run inner (turns + 1) number m = .ok .next m := by
  have hready : ((integerCount place b s).cycle body span).ready number m = .ok false m := by
    rw [ready_integer hs h, decide_eq_true hpassed]
    rfl
  rw [Cycle.run_succ, bind_of_ok hready]
  rfl

/-- With the counter at a value that is not past the end, there is a turn: the body is run, and then the
counter is moved on. -/
theorem run_turn (hs : s.toInt ≠ 0) (h : m.read? place = some (.integer n))
    (hpassed : ¬ Passed b.toInt s.toInt n.toInt) (hk : k.toInt = n.toInt + s.toInt)
    (hbody : Completes inner body place m m') (turns number : Nat) :
    ((integerCount place b s).cycle body span).run inner (turns + 1) number m =
      ((integerCount place b s).cycle body span).run inner turns (number + 1)
        (m'.write place (.integer k)) := by
  have hready : ((integerCount place b s).cycle body span).ready number m = .ok true m := by
    rw [ready_integer hs h, decide_eq_false hpassed]
    rfl
  have hheed : heedHost span m' = .ok () m' := heedHost_eq_ok.mpr ⟨hbody.unasked, rfl⟩
  have hgoOn : ((integerCount place b s).cycle body span).goOn inner turns number m' =
      ((integerCount place b s).cycle body span).run inner turns (number + 1)
        (m'.write place (.integer k)) :=
    (bind_of_ok hheed).trans (bind_of_ok (advance_integer hs (hbody.keeps.trans h) hk))
  rw [Cycle.run_succ, bind_of_ok hready]
  rcases hbody.runs with hrun | hrun
  · exact (bind_of_ok hrun).trans hgoOn
  · exact (bind_of_ok hrun).trans hgoOn

/-- Whenever the body is run in one of the first `n` turns, it completes. -/
def Steady (inner : Inner σ) (body : Block Stmt) (place : Place) (a s : Int64) (n : Nat)
    (m : Machine σ) : Prop :=
  ∀ i < n, ∀ m₁ m₂, Laps inner body place (counts a s i) m m₁ →
    Sets place (.integer (counterAt a s i)) m₁ m₂ → ∃ m₃, Completes inner body place m₂ m₃

theorem toInt_counterAt {n i : Nat} (hn : Value.InRange (a.toInt + n * s.toInt)) (hi : i ≤ n) :
    (counterAt a s i).toInt = a.toInt + i * s.toInt := by
  have hrange := inRange_between (Value.inRange_toInt a) hn hi
  exact Int64.toInt_ofInt_of_le hrange.1 (Int.lt_of_le_sub_one hrange.2)

/-- The turns that are left after the first `i`. -/
theorem run_rest (span : Span) (hs : s.toInt ≠ 0) {n : Nat} (hn : n = turnCount a.toInt b.toInt s.toInt)
    (hrange : Value.InRange (a.toInt + n * s.toInt)) (hsteady : Steady inner body place a s n m)
    {left i turns : Nat} (hi : i + left = n) (hturns : left < turns) {m₁ m₂ : Machine σ}
    (hlaps : Laps inner body place (counts a s i) m m₁)
    (hsets : Sets place (.integer (counterAt a s i)) m₁ m₂) :
    ∃ m₃ m₄, Laps inner body place (counts a s n) m m₃ ∧
      Sets place (.integer (counterAt a s n)) m₃ m₄ ∧
      ((integerCount place b s).cycle body span).run inner turns i m₂ = .ok .next m₄ := by
  -- The induction is on the turns that are left; the laps so far are carried along.
  induction left generalizing i turns m₁ m₂ with
  | zero =>
    obtain rfl : i = n := hi
    obtain ⟨turns, rfl⟩ := Nat.exists_eq_succ_of_ne_zero (Nat.ne_zero_of_lt hturns)
    have hat := toInt_counterAt hrange (Nat.le_refl i)
    refine ⟨m₁, m₂, hlaps, hsets, run_passed hs hsets.holds ?_ turns i⟩
    rw [hat, passed_iff hs]
    exact hn.ge
  | succ left ih =>
    obtain ⟨turns, rfl⟩ := Nat.exists_eq_succ_of_ne_zero (Nat.ne_zero_of_lt hturns)
    obtain ⟨m₃, hbody⟩ := hsteady i (by omega) m₁ m₂ hlaps hsets
    have hat := toInt_counterAt hrange (by omega : i ≤ n)
    have hnext := toInt_counterAt hrange (by omega : i + 1 ≤ n)
    have hstep : (counterAt a s (i + 1)).toInt = (counterAt a s i).toInt + s.toInt := by
      rw [hnext, hat, Nat.cast_succ, Int.add_mul, Int.one_mul, Int.add_assoc]
    have hnot : ¬ Passed b.toInt s.toInt (counterAt a s i).toInt := by
      rw [hat, passed_iff hs]
      omega
    have hthere : (m₃.read? place).isSome := by
      rw [hbody.keeps, hsets.holds]
      rfl
    rw [run_turn hs hsets.holds hnot hstep hbody]
    refine ih (by omega) (by omega) ?_ (sets_write hthere _)
    rw [counts_succ]
    exact hlaps.more hsets hbody

/-! ### The loop -/

/-- What a counted loop is to do: count from `a` to `b` in steps of `s`, which is one where no step is
written, with an integer that is there as the counter. -/
structure Begins (engine : Engine σ) (inner : Inner σ) (counter start stop : Expr) (step : Option Expr)
    (a b s : Int64) (place : Place) (m m' : Machine σ) : Prop where
  values : ∃ m₁ m₂ m₃, inner.eval start m = .ok (.integer a) m₁ ∧
    inner.eval stop m₁ = .ok (.integer b) m₂ ∧
    step.elim (pure (.integer 1)) inner.eval m₂ = .ok (.integer s) m₃ ∧
    engine.place inner counter m₃ = .ok (some (place, .integer)) m'
  there : (m'.read? place).isSome

theorem direction_integer (hs : s.toInt ≠ 0) :
    direction? (.integer s) span m = .ok (some (decide (0 < s.toInt))) m := by
  have hcompare : Value.compare (.integer s) (.integer 0) = .ok (Ord.compare s.toInt 0) := rfl
  unfold direction?
  rw [hcompare]
  rcases Int.lt_or_gt_of_ne hs with hneg | hpos
  · rw [compare_lt_iff_lt.mpr hneg, decide_eq_false (by omega)]
    rfl
  · rw [compare_gt_iff_gt.mpr hpos, decide_eq_true hpos]
    rfl

/-- The loop sets out with the counter at its first value. -/
theorem count_integer (span : Span) {counter start stop : Expr} {step : Option Expr} (hs : s.toInt ≠ 0)
    (h : engine.Begins inner counter start stop step a b s place m m') :
    engine.count? inner counter start stop step span m =
      .ok (some (integerCount place b s)) (m'.write place (.integer a)) := by
  obtain ⟨m₁, m₂, m₃, hstart, hstop, hstep, hplace⟩ := h.values
  have hcoerce : coerce (.integer a) .integer span m' = .ok (.integer a) m' := rfl
  have hstore := store_ok h.there (.integer a)
  have hfits : stepFits .integer (.integer s) span m' = .ok true m' := rfl
  unfold count?
  rw [bind_of_ok hstart, bind_of_ok hstop]
  cases step with
  | none | some =>
    refine (bind_of_ok hstep).trans ((bind_of_ok hplace).trans ?_)
    refine (bind_of_ok (direction_integer hs)).trans ?_
    exact (bind_of_ok hfits).trans ((bind_of_ok hcoerce).trans (bind_of_ok hstore))

/-- **A counted loop runs its body with the counter at `a`, at `a + s` and so on, until the counter has passed
`b`, and does nothing else but move the counter.** -/
theorem counted_loop {counter start stop : Expr} {step : Option Expr} {turns n : Nat} {m₀ : Machine σ}
    (hbegins : engine.Begins inner counter start stop step a b s place m m₀) (hs : s ≠ 0)
    (hn : n = turnCount a.toInt b.toInt s.toInt) (hrange : Value.InRange (a.toInt + n * s.toInt))
    (hsteady : Steady inner body place a s n m₀) (hturns : n < turns) :
    (∀ i ≤ n, (counterAt a s i).toInt = a.toInt + i * s.toInt) ∧
      ∃ m₁ m₂, Laps inner body place (counts a s n) m₀ m₁ ∧
        Sets place (.integer (counterAt a s n)) m₁ m₂ ∧
        engine.perform inner turns (.forLoop counter start stop step body span) m = .ok .next m₂ := by
  have hzero : s.toInt ≠ 0 := fun h => hs (Int64.toInt_inj.mp h)
  have hfirst : counterAt a s 0 = a := by
    have := toInt_counterAt hrange (Nat.zero_le n)
    exact Int64.toInt_inj.mp (by simpa using this)
  have hsets := sets_write hbegins.there (.integer (counterAt a s 0))
  obtain ⟨m₁, m₂, hlaps, hend, hrun⟩ :=
    run_rest span hzero hn hrange hsteady (Nat.zero_add n) hturns (.none m₀) hsets
  refine ⟨fun i hi => toInt_counterAt hrange hi, m₁, m₂, hlaps, hend, ?_⟩
  rw [hfirst] at hrun
  exact (congrFun (forLoop_eq engine inner turns counter start stop step body span) m).trans
    ((bind_of_ok (count_integer span hzero hbegins)).trans hrun)

/-! ### The odd numbers up to six -/

/-- A program with an integer to count with. -/
def odds : Engine Buffer := ofTokens (scan "Declare Integer i\n").1 {} (Buffer.host [])

/-- The integer, as it is written in the loop. -/
def oddNumber : Expr := .variableRef 0 "i" .nowhere

/-- Display the integer. -/
def oddBody : Block Stmt := ⟨[.display [oddNumber] .nowhere], .nowhere⟩

theorem place_oddNumber (inner : Inner Buffer) (m : Machine Buffer) :
    odds.place inner oddNumber m = .ok (some (.slot 0, .integer)) m := by
  have hentry : odds.program.symbols.variableAt 0 =
      ⟨"i", .integer, .static, 0, 0, false, 0, none, ⟨16, 17, 1⟩⟩ := by
    decide +kernel
  simp only [oddNumber, place, hentry]
  rfl

/-- The body displays the counter. -/
theorem completes_oddBody {m : Machine Buffer} (h : m.read? (.slot 0) = some (.integer n))
    (hstop : m.outside.stop = false) : ∃ m', Completes (odds.level 3) oddBody (.slot 0) m m' := by
  have heval : (odds.level 2).eval oddNumber m = .ok (.integer n) m :=
    (bind_of_ok (place_oddNumber _ m)).trans (load_ok h)
  have htexts : ([oddNumber].mapM fun item => do
      let v ← (odds.level 2).eval item
      look fun m => m.heap.text v) m = .ok [m.heap.text (.integer n)] m := by
    rw [List.mapM_cons, bind_assoc]
    exact bind_of_ok heval
  let m' : Machine Buffer :=
    { m with outside := odds.host.writeLine (String.join [m.heap.text (.integer n)]) m.outside }
  have hdisplay : odds.display (odds.level 2) [oddNumber] m = .ok () m' := bind_of_ok htexts
  have hexec : (odds.level 3).exec (.display [oddNumber] .nowhere) m = .ok .next m' :=
    exec_eq_ok.mpr ⟨hstop, bind_of_ok hdisplay⟩
  exact ⟨m', Or.inl (bind_of_ok hexec), rfl, hstop⟩

theorem Laps.unasked {values : List Value} (h : Laps inner body place values m m')
    (hstop : m.outside.stop = false) : m'.outside.stop = false := by
  cases h with
  | none => exact hstop
  | more _ _ hruns => exact hruns.unasked

/-- Three turns, with the counter at 1, 3 and 5, and then it is 7. -/
theorem counted_loop_odds :
    ∃ m₁ m₂, Laps (odds.level 3) oddBody (.slot 0) [.integer 1, .integer 3, .integer 5]
        (odds.start ⟨{}, false⟩) m₁ ∧
      Sets (.slot 0) (.integer 7) m₁ m₂ ∧
      odds.perform (odds.level 3) 4 (.forLoop oddNumber (.literal (.integer 1) .nowhere)
        (.literal (.integer 6) .nowhere) (some (.literal (.integer 2) .nowhere)) oddBody .nowhere)
        (odds.start ⟨{}, false⟩) = .ok .next m₂ := by
  let m := odds.start ⟨{}, false⟩
  have hthere : (m.read? (.slot 0)).isSome := by decide +kernel
  have hbegins : odds.Begins (odds.level 3) oddNumber (.literal (.integer 1) .nowhere)
      (.literal (.integer 6) .nowhere) (some (.literal (.integer 2) .nowhere)) 1 6 2 (.slot 0) m m :=
    ⟨⟨m, m, m, rfl, rfl, rfl, place_oddNumber _ m⟩, hthere⟩
  have hsteady : Steady (odds.level 3) oddBody (.slot 0) 1 2 3 m := by
    intro i _ m₁ m₂ hlaps hsets
    refine completes_oddBody hsets.holds ?_
    rw [hsets.eq, m₁.outside_write]
    exact hlaps.unasked rfl
  exact (counted_loop hbegins (by decide) (n := 3) (by decide) (by decide) hsteady (by decide)).2

end Engine

end Primer
