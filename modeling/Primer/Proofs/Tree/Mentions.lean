/-
The variables that a tree mentions.

A variable is mentioned where an expression names it and where a declaration introduces
it.  What is proved about the places of variables is proved of all the variables that a
tree mentions, so this file says which those are and how the mentions of a tree come
from the mentions of its parts.
-/
import Primer.Tree

namespace Primer

mutual

/-- The variables that an expression names, from left to right. -/
def Expr.mentions : Expr → List VarId
  | .literal .. | .invalid _ => []
  | .variableRef id _ _ => [id]
  | .index base indices _ => base.mentions ++ Expr.mentionsAll indices
  | .field object _ _ => object.mentions
  | .binary _ left right _ => left.mentions ++ right.mentions
  | .logical _ left right _ => left.mentions ++ right.mentions
  | .unary _ operand _ => operand.mentions
  | .call _ args _ => Expr.mentionsAll args
  | .methodCall object _ args _ => object.mentions ++ Expr.mentionsAll args
  | .new _ args _ => Expr.mentionsAll args
  | .grouping inner _ => inner.mentions

/-- The variables that several expressions name. -/
def Expr.mentionsAll : List Expr → List VarId
  | [] => []
  | e :: rest => e.mentions ++ Expr.mentionsAll rest

end

/-- The variables that an expression names, if there is an expression. -/
def Expr.mentionsOf : Option Expr → List VarId
  | some e => e.mentions
  | none => []

def Initializer.mentions (init : Initializer) : List VarId := Expr.mentionsAll init.flatten

def Initializer.mentionsOf : Option Initializer → List VarId
  | some init => init.mentions
  | none => []

/-- The variable that is declared, and those that its sizes and its starting value name. -/
def Declaration.mentions (d : Declaration) : List VarId :=
  d.id :: (Expr.mentionsAll d.dims ++ Initializer.mentionsOf d.init)

def Declaration.mentionsAll : List Declaration → List VarId
  | [] => []
  | d :: rest => d.mentions ++ Declaration.mentionsAll rest

mutual

/-- The variables that a statement names or declares. -/
def Stmt.mentions : Stmt → List VarId
  | .declare declarations _ => Declaration.mentionsAll declarations
  | .assign target value _ => target.mentions ++ value.mentions
  | .display items _ => Expr.mentionsAll items
  | .input target _ => target.mentions
  | .call e _ => e.mentions
  | .choose branches otherwise _ => Stmt.branchMentions branches ++ Stmt.optionMentions otherwise
  | .select subject cases otherwise _ =>
    subject.mentions ++ Stmt.caseMentions cases ++ Stmt.optionMentions otherwise
  | .whileLoop condition body _ => condition.mentions ++ Stmt.blockMentions body
  | .doLoop body condition _ _ => Stmt.blockMentions body ++ condition.mentions
  | .forLoop counter first last step body _ =>
    counter.mentions ++ first.mentions ++ last.mentions ++ Expr.mentionsOf step
      ++ Stmt.blockMentions body
  | .forEach item array body _ => item.mentions ++ array.mentions ++ Stmt.blockMentions body
  | .returnWith value _ => Expr.mentionsOf value
  | .breakLoop _ | .continueLoop _ | .stop _ => []

def Stmt.blockMentions : Block Stmt → List VarId
  | ⟨statements, _⟩ => Stmt.mentionsAll statements

def Stmt.optionMentions : Option (Block Stmt) → List VarId
  | none => []
  | some body => Stmt.blockMentions body

def Stmt.branchMentions : List (Branch Stmt) → List VarId
  | [] => []
  | ⟨condition, body⟩ :: rest =>
    condition.mentions ++ Stmt.blockMentions body ++ Stmt.branchMentions rest

def Stmt.caseMentions : List (Case Stmt) → List VarId
  | [] => []
  | ⟨labels, body, _⟩ :: rest =>
    Expr.mentionsAll labels ++ Stmt.blockMentions body ++ Stmt.caseMentions rest

/-- The variables that statements name or declare. -/
def Stmt.mentionsAll : List Stmt → List VarId
  | [] => []
  | s :: rest => s.mentions ++ Stmt.mentionsAll rest

end

/-! ### Mentions of lists

A list of parts is read item by item and often backwards, so its mentions are described
by membership rather than by their order.
-/

@[grind =] theorem Declaration.mem_mentionsAll {id : VarId} {ds : List Declaration} :
    id ∈ Declaration.mentionsAll ds ↔ ∃ d ∈ ds, id ∈ d.mentions := by
  induction ds with
  | nil => simp [Declaration.mentionsAll]
  | cons d rest ih => simp [Declaration.mentionsAll, ih]

theorem Initializer.mem_flattenAll {e : Expr} {items : List Initializer} :
    e ∈ Initializer.flattenAll items ↔ ∃ item ∈ items, e ∈ item.flatten := by
  induction items with
  | nil => simp [Initializer.flattenAll]
  | cons item rest ih => simp [Initializer.flattenAll, ih]

end Primer
