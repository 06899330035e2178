/-
The one form of all loops.

A loop sets out once.  Before each turn it finds out whether there is one, then comes its body, and
after it there is a step or a test.  `Cycle` is what such a loop does around its body, `setOut` what
a loop of each kind does before the first turn, and `perform_loop` says that running a loop is
setting out and then taking turns.  What is to be said of loops is then said of cycles, once.
-/
import Primer.Machine.Statement
import Primer.Proofs.Run.Contract

namespace Primer

/-- The body of a loop. -/
def Stmt.loopBody? : Stmt → Option (Block Stmt)
  | .whileLoop _ body _ | .doLoop body _ _ _ | .forLoop _ _ _ _ body _ | .forEach _ _ body _ =>
    some body
  | _ => none

namespace Engine

open Run

/-- What a loop does around its body. -/
structure Cycle (σ : Type) where
  body : Block Stmt
  span : Span
  /-- What comes before the turn of this number, and whether there is one. -/
  ready : Nat → Run σ Bool
  /-- What comes after a turn, and whether the loop goes on. -/
  next : Run σ Bool

namespace Cycle

variable (c : Cycle σ) (inner : Inner σ)

/-- The turn of this number. -/
def turn (number : Nat) : Run σ (Turn Nat) := do
  if ← c.ready number then
    match ← bodyOnce inner c.body c.span with
    | some signal => pure (.done signal)
    | none => if ← c.next then pure (.again (number + 1)) else pure (.done .next)
  else pure (.done .next)

/-- At most `turns` turns, from the one of this number on. -/
def run (turns number : Nat) : Run σ Signal := loop (c.turn inner) turns number

/-- What comes after the body in the turn of this number: the step or test, and the turns that are
left. -/
def goOn (turns number : Nat) : Run σ Signal := do
  heedHost c.span
  if ← c.next then c.run inner turns (number + 1) else pure .next

/-- A turn, from its body on. -/
theorem run_succ (turns number : Nat) : c.run inner (turns + 1) number = (do
    if ← c.ready number then
      match ← block inner c.body with
      | .next | .continueLoop => c.goOn inner turns number
      | .breakLoop => pure .next
      | .returned v => pure (.returned v)
    else pure .next) := by
  unfold run goOn run
  rw [loop]
  simp only [turn, bodyOnce, bind_assoc]
  refine bind_congr fun ready => ?_
  cases ready with
  | false => simp
  | true =>
    simp only [if_true, bind_assoc]
    refine bind_congr fun signal => ?_
    cases signal with
    | next | continueLoop =>
      simp only [bind_assoc, pure_bind]
      refine bind_congr fun _ => bind_congr fun goes => ?_
      cases goes <;> simp
    | breakLoop => simp
    | returned v => simp

end Cycle

/-! ### Loops of each kind -/

/-- The same turn of a loop that does not count its turns. -/
def Turn.counted (number : Nat) : Turn Unit → Turn Nat
  | .again _ => .again (number + 1)
  | .done signal => .done signal

/-- It makes no difference whether turns are counted. -/
theorem Cycle.run_eq_loop {c : Cycle σ} {inner : Inner σ} {turn : Run σ (Turn Unit)}
    (h : ∀ number, c.turn inner number = Turn.counted number <$> turn) (turns number : Nat) :
    c.run inner turns number = loop (fun _ => turn) turns () := by
  unfold run
  induction turns generalizing number with
  | zero => rfl
  | succ turns ih =>
    rw [loop, loop, h, map_eq_pure_bind, bind_assoc]
    refine bind_congr fun outcome => ?_
    rw [pure_bind]
    cases outcome with
    | again _ => exact ih (number + 1)
    | done signal => rfl

section Kinds

variable (engine : Engine σ) (inner : Inner σ)

def whileCycle (condition : Expr) (body : Block Stmt) : Cycle σ where
  body
  span := body.span
  ready _ := test inner condition
  next := pure true

def doCycle (body : Block Stmt) (condition : Expr) (exit : Bool) : Cycle σ where
  body
  span := body.span
  ready _ := pure true
  next := do return (← test inner condition) ≠ exit

def Count.cycle (c : Count) (body : Block Stmt) (span : Span) : Cycle σ where
  body
  span
  ready _ := do return !(← c.finished (← load c.place) span)
  next := c.advance span

def eachCycle (ref : ArrayRef) (place : Place) (kind : Kind) (body : Block Stmt) (span : Span) :
    Cycle σ where
  body
  span
  ready position := do
    match ← look fun m => m.heap.element? ref position with
    | none => pure false
    | some v =>
      store place (← coerce v kind span)
      pure true
  next := pure true

/-- What a counted loop is run with; none when it takes no turn. -/
def count? (counter start stop : Expr) (step : Option Expr) (span : Span) :
    Run σ (Option Count) := do
  let first ← inner.eval start
  let last ← inner.eval stop
  let step ← match step with
    | some e => inner.eval e
    | none => pure (.integer 1)
  match ← engine.place inner counter with
  | none => pure none
  | some (place, kind) =>
    match ← direction? step span with
    | none => pure none
    | some ascending =>
      if ← stepFits kind step span then
        store place (← coerce first kind span)
        pure (some { place, kind, last, step, ascending })
      else pure none

/-- The array that a loop goes through, and where its elements are put; none when it takes no
turn. -/
def walk? (item array : Expr) (span : Span) : Run σ (Option (ArrayRef × Place × Kind)) := do
  if array.isInvalid then pure none
  else
    match ← inner.eval array with
    | .array ref =>
      match ← engine.place inner item with
      | none => pure none
      | some (place, kind) => pure (some (ref, place, kind))
    | other =>
      report (.notIterable other.kind) span
      pure none

/-- What a loop does before its first turn, and what its turns are; none when it takes no turn. -/
def setOut : Stmt → Run σ (Option (Cycle σ))
  | .whileLoop condition body _ => pure (some (whileCycle inner condition body))
  | .doLoop body condition exit _ => pure (some (doCycle inner body condition exit))
  | .forLoop counter start stop step body span => do
    return (← engine.count? inner counter start stop step span).map fun c => c.cycle body span
  | .forEach item array body span => do
    return (← engine.walk? inner item array span).map fun (ref, place, kind) =>
      eachCycle ref place kind body span
  | _ => pure none

theorem whileLoop_eq_run (turns : Nat) (condition : Expr) (body : Block Stmt) :
    whileLoop inner turns condition body = (whileCycle inner condition body).run inner turns 0 := by
  refine (Cycle.run_eq_loop (fun number => ?_) turns 0).symm
  unfold Cycle.turn whileTurn
  simp only [map_bind, whileCycle]
  refine bind_congr fun holds => ?_
  cases holds with
  | false => simp [Turn.counted]
  | true =>
    simp only [if_true, map_bind]
    refine bind_congr fun ending => ?_
    cases ending <;> simp [Turn.counted]

theorem doLoop_eq_run (turns : Nat) (body : Block Stmt) (condition : Expr) (exit : Bool) :
    doLoop inner turns body condition exit
      = (doCycle inner body condition exit).run inner turns 0 := by
  refine (Cycle.run_eq_loop (fun number => ?_) turns 0).symm
  unfold Cycle.turn doTurn
  simp only [map_bind, doCycle, pure_bind, if_true]
  refine bind_congr fun ending => ?_
  cases ending with
  | some signal => simp [Turn.counted]
  | none =>
    simp only [bind_assoc, pure_bind, map_bind]
    refine bind_congr fun outcome => ?_
    by_cases hexit : outcome = exit <;> simp [hexit, Turn.counted]

theorem forTurns_eq_run (turns : Nat) (c : Count) (body : Block Stmt) (span : Span) :
    loop (fun _ => forTurn inner c body span) turns () = (c.cycle body span).run inner turns 0 := by
  refine (Cycle.run_eq_loop (fun number => ?_) turns 0).symm
  unfold Cycle.turn forTurn
  simp only [map_bind, Count.cycle, bind_assoc, pure_bind]
  refine bind_congr fun current => bind_congr fun finished => ?_
  cases finished with
  | true => simp [Turn.counted]
  | false =>
    simp only [Bool.not_false, if_true, Bool.false_eq_true, if_false, map_bind]
    refine bind_congr fun ending => ?_
    cases ending with
    | some signal => simp [Turn.counted]
    | none =>
      simp only [map_bind]
      refine bind_congr fun goes => ?_
      cases goes <;> simp [Turn.counted]

theorem eachTurns_eq_run (turns : Nat) (ref : ArrayRef) (place : Place) (kind : Kind)
    (body : Block Stmt) (span : Span) :
    loop (eachTurn inner ref place kind body span) turns 0
      = (eachCycle ref place kind body span).run inner turns 0 := by
  unfold Cycle.run
  congr 1
  funext position
  unfold Cycle.turn eachTurn
  simp only [eachCycle, bind_assoc]
  refine bind_congr fun element => ?_
  cases element with
  | none => simp
  | some v =>
    refine (bind_congr fun _ => ?_).trans (bind_assoc _ _ _).symm
    refine (bind_congr fun _ => ?_).trans (bind_assoc _ _ _).symm
    refine (bind_congr fun ending => ?_).trans (pure_bind _ _).symm
    cases ending <;> rfl

/-- The turns of a loop that has set out. -/
def takeTurns (turns : Nat) : Option (Cycle σ) → Run σ Signal
  | some c => c.run inner turns 0
  | none => pure .next

theorem forLoop_eq (turns : Nat) (counter start stop : Expr) (step : Option Expr)
    (body : Block Stmt) (span : Span) :
    engine.forLoop inner turns counter start stop step body span
      = engine.count? inner counter start stop step span >>= fun found =>
          takeTurns inner turns (found.map fun c => c.cycle body span) := by
  unfold forLoop count?
  rw [bind_assoc]
  refine bind_congr fun first => ?_
  rw [bind_assoc]
  refine bind_congr fun last => ?_
  extract_lets count count'
  have hcount : ∀ step, count step = count' step >>= fun found =>
      takeTurns inner turns (found.map fun c => c.cycle body span) := by
    intro step
    simp only [count, count', bind_assoc]
    refine bind_congr fun found => ?_
    cases found with
    | none => rfl
    | some found =>
      simp only [bind_assoc]
      refine bind_congr fun direction => ?_
      cases direction with
      | none => rfl
      | some ascending =>
        simp only [bind_assoc]
        refine bind_congr fun fits => ?_
        cases fits with
        | false => rfl
        | true =>
          simp only [if_true, bind_assoc, pure_bind]
          refine bind_congr fun _ => bind_congr fun _ => ?_
          exact forTurns_eq_run inner turns _ body span
  cases step with
  | none => exact hcount _
  | some e =>
    rw [bind_assoc]
    exact bind_congr hcount

theorem forEach_eq (turns : Nat) (item array : Expr) (body : Block Stmt) (span : Span) :
    engine.forEach inner turns item array body span
      = engine.walk? inner item array span >>= fun found =>
          takeTurns inner turns (found.map fun (ref, place, kind) =>
            eachCycle ref place kind body span) := by
  unfold forEach walk?
  cases array.isInvalid with
  | true => rfl
  | false =>
    simp only [Bool.false_eq_true, if_false, bind_assoc]
    refine bind_congr fun v => ?_
    cases v with
    | array ref =>
      simp only [bind_assoc]
      refine bind_congr fun found => ?_
      cases found with
      | none => rfl
      | some found => exact eachTurns_eq_run inner turns ref found.1 found.2 body span
    | _ => rfl

/-- **To run a loop is to set out and then to take turns.** -/
theorem perform_loop {s : Stmt} (hs : s.loopBody?.isSome) (turns : Nat) :
    engine.perform inner turns s = engine.setOut inner s >>= takeTurns inner turns := by
  cases s with
  | whileLoop condition body span => exact whileLoop_eq_run inner turns condition body
  | doLoop body condition exit span => exact doLoop_eq_run inner turns body condition exit
  | forLoop counter start stop step body span =>
    exact (forLoop_eq engine inner turns counter start stop step body span).trans
      (by simp only [setOut, bind_assoc, pure_bind])
  | forEach item array body span =>
    exact (forEach_eq engine inner turns item array body span).trans
      (by simp only [setOut, bind_assoc, pure_bind])
  | _ => simp [Stmt.loopBody?] at hs

/-- The turns of a loop run its body. -/
theorem body_of_setOut {s : Stmt} {m m' : Machine σ} {c : Cycle σ}
    (h : engine.setOut inner s m = .ok (some c) m') : s.loopBody? = some c.body := by
  cases s with
  | whileLoop condition body span => cases h; rfl
  | doLoop body condition exit span => cases h; rfl
  | forLoop counter start stop step body span =>
    obtain ⟨found, m₁, -, hfound⟩ := bind_eq_ok.mp h
    cases found with
    | none => cases hfound
    | some c => cases hfound; rfl
  | forEach item array body span =>
    obtain ⟨found, m₁, -, hfound⟩ := bind_eq_ok.mp h
    cases found with
    | none => cases hfound
    | some found => cases hfound; rfl
  | _ => cases h

end Kinds

end Engine

end Primer
