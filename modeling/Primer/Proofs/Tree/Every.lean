/-
What every statement of a tree has.

Some things are asked of each statement by itself: which variables it assigns, which it declares.
`Every` asks it of a statement and of all statements inside of it.
-/
import Primer.Tree

namespace Primer

/-- The variable that an expression is nothing but the name of. -/
def Expr.named? : Expr → Option VarId
  | .variableRef id _ _ => some id
  | .grouping e _ => e.named?
  | _ => none

namespace Stmt

/-- The variables that the statement itself assigns by name. -/
def targets : Stmt → List VarId
  | .assign target _ _ | .input target _ | .forLoop target _ _ _ _ _ | .forEach target _ _ _ =>
    target.named?.toList
  | _ => []

/-- The variables that the statement itself declares. -/
def declared : Stmt → List VarId
  | .declare declarations _ => declarations.map (·.id)
  | _ => []

end Stmt

mutual

/-- The statement and all statements inside of it have the property. -/
def Stmt.Every (P : Stmt → Prop) : Stmt → Prop
  | .choose branches otherwise span =>
    P (.choose branches otherwise span) ∧ Stmt.EveryBranch P branches ∧ Stmt.EveryOption P otherwise
  | .select subject cases otherwise span =>
    P (.select subject cases otherwise span) ∧ Stmt.EveryCase P cases ∧ Stmt.EveryOption P otherwise
  | .whileLoop condition body span => P (.whileLoop condition body span) ∧ Stmt.EveryBlock P body
  | .doLoop body condition exit span => P (.doLoop body condition exit span) ∧ Stmt.EveryBlock P body
  | .forLoop counter first last step body span =>
    P (.forLoop counter first last step body span) ∧ Stmt.EveryBlock P body
  | .forEach item array body span => P (.forEach item array body span) ∧ Stmt.EveryBlock P body
  | s => P s

def Stmt.EveryBlock (P : Stmt → Prop) : Block Stmt → Prop
  | ⟨statements, _⟩ => Stmt.EveryIn P statements

def Stmt.EveryOption (P : Stmt → Prop) : Option (Block Stmt) → Prop
  | none => True
  | some body => Stmt.EveryBlock P body

def Stmt.EveryBranch (P : Stmt → Prop) : List (Branch Stmt) → Prop
  | [] => True
  | ⟨_, body⟩ :: rest => Stmt.EveryBlock P body ∧ Stmt.EveryBranch P rest

def Stmt.EveryCase (P : Stmt → Prop) : List (Case Stmt) → Prop
  | [] => True
  | ⟨_, body, _⟩ :: rest => Stmt.EveryBlock P body ∧ Stmt.EveryCase P rest

/-- All of the statements, and those inside of them, have the property. -/
def Stmt.EveryIn (P : Stmt → Prop) : List Stmt → Prop
  | [] => True
  | s :: rest => s.Every P ∧ Stmt.EveryIn P rest

end

mutual

/-- What every statement has, all statements of a tree have. -/
theorem Stmt.every_of_forall {P : Stmt → Prop} (h : ∀ s, P s) : ∀ s : Stmt, s.Every P
  | .choose branches otherwise _ =>
    ⟨h _, Stmt.everyBranch_of_forall h branches, Stmt.everyOption_of_forall h otherwise⟩
  | .select _ cases otherwise _ =>
    ⟨h _, Stmt.everyCase_of_forall h cases, Stmt.everyOption_of_forall h otherwise⟩
  | .whileLoop _ body _ => ⟨h _, Stmt.everyBlock_of_forall h body⟩
  | .doLoop body _ _ _ => ⟨h _, Stmt.everyBlock_of_forall h body⟩
  | .forLoop _ _ _ _ body _ => ⟨h _, Stmt.everyBlock_of_forall h body⟩
  | .forEach _ _ body _ => ⟨h _, Stmt.everyBlock_of_forall h body⟩
  | .declare .. | .assign .. | .display .. | .input .. | .call .. | .returnWith .. | .breakLoop ..
  | .continueLoop .. | .stop .. => h _

theorem Stmt.everyBlock_of_forall {P : Stmt → Prop} (h : ∀ s, P s) :
    ∀ b : Block Stmt, Stmt.EveryBlock P b
  | ⟨statements, _⟩ => Stmt.everyIn_of_forall h statements

theorem Stmt.everyOption_of_forall {P : Stmt → Prop} (h : ∀ s, P s) :
    ∀ b : Option (Block Stmt), Stmt.EveryOption P b
  | none => trivial
  | some body => Stmt.everyBlock_of_forall h body

theorem Stmt.everyBranch_of_forall {P : Stmt → Prop} (h : ∀ s, P s) :
    ∀ branches : List (Branch Stmt), Stmt.EveryBranch P branches
  | [] => trivial
  | ⟨_, body⟩ :: rest => ⟨Stmt.everyBlock_of_forall h body, Stmt.everyBranch_of_forall h rest⟩

theorem Stmt.everyCase_of_forall {P : Stmt → Prop} (h : ∀ s, P s) :
    ∀ cases : List (Case Stmt), Stmt.EveryCase P cases
  | [] => trivial
  | ⟨_, body, _⟩ :: rest => ⟨Stmt.everyBlock_of_forall h body, Stmt.everyCase_of_forall h rest⟩

theorem Stmt.everyIn_of_forall {P : Stmt → Prop} (h : ∀ s, P s) :
    ∀ statements : List Stmt, Stmt.EveryIn P statements
  | [] => trivial
  | s :: rest => ⟨Stmt.every_of_forall h s, Stmt.everyIn_of_forall h rest⟩

end

theorem Stmt.Every.self {P : Stmt → Prop} {s : Stmt} (h : s.Every P) : P s := by
  cases s <;> simp only [Stmt.Every] at h <;> first | exact h.1 | exact h

end Primer
