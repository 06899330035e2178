/-
Reading a program comes to the end of its tokens.

Every loop of the grammar takes a token in each of its turns or is over, and no construct is read
with fewer levels than it needs.  So the loop over a whole program is left only by the turn that
finds the first token that marks the end.
-/
import Primer.Proofs.Progress.Statement

namespace Primer.Grammar

variable {r : Reader}

/-! ### Levels -/

/-- As many levels as there are tokens beyond the next one do what any more of them do. -/
theorem Nested.agree_level : ∀ n m r, n ≤ m → r.remaining ≤ n →
    (Nested.level n).Agree r (Nested.level m) := by
  intro n
  induction n with
  | zero => exact fun _ r _ hr => absurd r.remaining_pos (by omega)
  | succ n ih =>
    intro m r hm hr
    obtain ⟨m, rfl⟩ : ∃ k, m = k + 1 := ⟨m - 1, by omega⟩
    have hbeyond : ∀ r', r.Reaches r' → (Nested.level n).AgreeBeyond r' (Nested.level m) := by
      intro r' hreach r'' hpass
      have hlt := (hreach.passes hpass).remaining_lt
      exact ih m r'' (by omega) (by omega)
    exact ⟨fun r' h hend => statement_goes (hbeyond r' h) hend,
      fun r' h hend => routineDefinition_goes (hbeyond r' h) hend,
      fun r' h hend => classDefinition_goes (hbeyond r' h) hend⟩

/-- Statements and definitions without a bound on their depth. -/
def Nested.whole : Nested where
  statement := atAnyDepth Grammar.statement
  routine := atAnyDepth routineDefinition
  classDef := atAnyDepth classDefinition

theorem Nested.agree_whole (r : Reader) : (Nested.level r.remaining).AgreeBeyond r Nested.whole := by
  intro r₁ hpass
  obtain ⟨n, hn⟩ : ∃ n, r.remaining = n + 1 := ⟨r.remaining - 1, by have := r.remaining_pos; omega⟩
  have hsame : ∀ r', r₁.Reaches r' → (Nested.level r'.remaining).AgreeBeyond r' (Nested.level n) := by
    intro r' hreach r'' hpass'
    have hlt := hpass'.remaining_lt
    have hlt' := (hpass.trans hreach).remaining_lt
    exact Nested.agree_level r'.remaining n r'' (by omega) (by omega)
  rw [hn]
  exact ⟨fun r' h hend => (statement_goes (hsame r' h) hend).symm.of_eq rfl rfl,
    fun r' h hend => (routineDefinition_goes (hsame r' h) hend).symm.of_eq rfl rfl,
    fun r' h hend => (classDefinition_goes (hsame r' h) hend).symm.of_eq rfl rfl⟩

/-- A statement or definition is read like by the grammar without levels. -/
theorem statement_unfold (hend : r.atEnd = false) :
    atAnyDepth statement r = statement Nested.whole r :=
  (statement_goes (Nested.agree_whole r) hend).1

theorem routineDefinition_unfold (hend : r.atEnd = false) :
    atAnyDepth routineDefinition r = routineDefinition Nested.whole r :=
  (routineDefinition_goes (Nested.agree_whole r) hend).1

theorem classDefinition_unfold (hend : r.atEnd = false) :
    atAnyDepth classDefinition r = classDefinition Nested.whole r :=
  (classDefinition_goes (Nested.agree_whole r) hend).1

theorem Nested.agree_self (r : Reader) : Nested.whole.Agree r Nested.whole where
  statement := fun r' _ hend =>
    (statement_goes (Nested.agree_whole r') hend).of_eq rfl (statement_unfold hend)
  routine := fun r' _ hend =>
    (routineDefinition_goes (Nested.agree_whole r') hend).of_eq rfl (routineDefinition_unfold hend)
  classDef := fun r' _ hend =>
    (classDefinition_goes (Nested.agree_whole r') hend).of_eq rfl (classDefinition_unfold hend)

/-- A turn takes a token, or the reader is at the end. -/
theorem programItem_goes (statements : List Stmt) :
    Forward (programItem statements) r fun next r' =>
      r.TakesTurn next r' ∧ (next = none → r'.atEnd = true) := by
  refine .get_bind ?_
  split
  · rename_i hend
    exact .pure ⟨nofun, fun _ => hend⟩
  · rename_i hmore
    have hend : r.atEnd = false := by simpa using hmore
    have hself := Nested.agree_self r
    split
    · exact (hself.routine r (.refl r) hend).bind fun _ _ _ htaken => .pure ⟨fun _ => htaken, nofun⟩
    · exact (hself.routine r (.refl r) hend).bind fun _ _ _ htaken => .pure ⟨fun _ => htaken, nofun⟩
    · exact (hself.classDef r (.refl r) hend).bind fun _ _ _ htaken => .pure ⟨fun _ => htaken, nofun⟩
    · exact (advance_passes hend).bind fun _ _ _ htaken =>
        report_goes.bind fun _ _ hr _ => .pure ⟨fun _ => htaken.trans hr, nofun⟩
    · exact (advance_passes hend).bind fun _ _ _ htaken =>
        report_goes.bind fun _ _ hr _ => .pure ⟨fun _ => htaken.trans hr, nofun⟩
    · refine (hself.statement r (.refl r) hend).bind fun found _ _ htaken => ?_
      split
      · exact .pure ⟨fun _ => htaken, nofun⟩
      · exact .pure ⟨fun _ => htaken, nofun⟩

theorem programItem_advancing : Advancing programItem :=
  .of_goes fun statements _ => (programItem_goes statements).mono fun _ _ _ h => h.1

/-- Each turn of the loop takes a token or ends it, and nothing else ends it. -/
structure Loops (turn : α → Read (Option α)) : Prop where
  advancing : Advancing turn
  unfold : ∀ a, iterate turn a = (do
    match ← turn a with
    | some b => iterate turn b
    | none => pure a)

theorem Advancing.loops {turn : α → Read (Option α)} (h : Advancing turn) : Loops turn :=
  ⟨h, iterate_unfold h⟩

/-- The loops over the parts of a program. -/
structure EveryLoopAdvances : Prop where
  program : Loops programItem
  block : Loops (blockItem Nested.whole)
  select : Loops (selectItem Nested.whole)
  classBody : ∀ id name, Loops (classItem Nested.whole id name)
  parameters : ∀ line, Loops (nextParameter line)
  /-- Arguments of a call and indices in one pair of brackets. -/
  expressions : Loops (nextItem expression)
  labels : ∀ line, Loops (nextLabel line)
  initializers : Loops (nextItem initializerItem)

theorem everyLoopAdvances : EveryLoopAdvances where
  program := programItem_advancing.loops
  block := (Advancing.of_goes fun statements r =>
    blockItem_goes (Nested.agree_self r) statements).loops
  select := (Advancing.of_goes fun cases r => selectItem_goes (Nested.agree_self r) cases).loops
  classBody := fun _ _ => (Advancing.of_goes fun u r => classItem_goes (Nested.agree_self r) u).loops
  parameters := fun _ => nextParameter_advancing.loops
  expressions := (Advancing.of_goes fun items _ =>
    nextItem_goes (fun _ _ => expression_goes.anyhow) items).loops
  labels := fun _ => nextLabel_advancing.loops
  initializers := (Advancing.of_goes fun items _ =>
    nextItem_goes (fun _ _ => initializerItem_goes.anyhow) items).loops

/-! ### The whole program -/

theorem Reader.tokens_previous (r : Reader) : r.tokens[r.cursor - 1]? = some r.previous :=
  Array.getElem?_eq_getElem (Nat.lt_of_le_of_lt (Nat.sub_le _ _) r.inside)

end Primer.Grammar
