/-
What every part of a tree has.

`Each` asks something of an expression and of all expressions inside of it.  For statements it asks
the same of all their expressions, and something else of the spans of everything that is not an
expression: statements, blocks, cases and declarations.
-/
import Primer.Tree

namespace Primer

variable {P Q : Expr → Prop} {S T : Span → Prop}

/-! ### Expressions -/

mutual

/-- The expression and all expressions inside of it have the property. -/
def Expr.Each (P : Expr → Prop) : Expr → Prop
  | .index base indices span => P (.index base indices span) ∧ base.Each P ∧ Expr.EachIn P indices
  | .field object name span => P (.field object name span) ∧ object.Each P
  | .binary op left right span => P (.binary op left right span) ∧ left.Each P ∧ right.Each P
  | .logical op left right span => P (.logical op left right span) ∧ left.Each P ∧ right.Each P
  | .unary op operand span => P (.unary op operand span) ∧ operand.Each P
  | .call name args span => P (.call name args span) ∧ Expr.EachIn P args
  | .methodCall object name args span =>
    P (.methodCall object name args span) ∧ object.Each P ∧ Expr.EachIn P args
  | .new className args span => P (.new className args span) ∧ Expr.EachIn P args
  | .grouping inner span => P (.grouping inner span) ∧ inner.Each P
  | .literal value span => P (.literal value span)
  | .variableRef id name span => P (.variableRef id name span)
  | .invalid span => P (.invalid span)

def Expr.EachIn (P : Expr → Prop) : List Expr → Prop
  | [] => True
  | e :: rest => e.Each P ∧ Expr.EachIn P rest

end

@[simp] theorem Expr.eachIn_iff {es : List Expr} : Expr.EachIn P es ↔ ∀ e ∈ es, e.Each P := by
  induction es with
  | nil => simp [Expr.EachIn]
  | cons e rest ih => simp [Expr.EachIn, ih]

theorem Expr.Each.self {e : Expr} (h : e.Each P) : P e := by
  cases e <;> simp only [Expr.Each] at h <;> first | exact h.1 | exact h

mutual

theorem Expr.Each.mono (h : ∀ e, P e → Q e) : ∀ e : Expr, e.Each P → e.Each Q
  | .index base indices _, ⟨hself, hbase, hindices⟩ =>
    ⟨h _ hself, Expr.Each.mono h base hbase, Expr.EachIn.mono h indices hindices⟩
  | .field object _ _, ⟨hself, hobject⟩ => ⟨h _ hself, Expr.Each.mono h object hobject⟩
  | .binary _ left right _, ⟨hself, hleft, hright⟩ =>
    ⟨h _ hself, Expr.Each.mono h left hleft, Expr.Each.mono h right hright⟩
  | .logical _ left right _, ⟨hself, hleft, hright⟩ =>
    ⟨h _ hself, Expr.Each.mono h left hleft, Expr.Each.mono h right hright⟩
  | .unary _ operand _, ⟨hself, hoperand⟩ => ⟨h _ hself, Expr.Each.mono h operand hoperand⟩
  | .call _ args _, ⟨hself, hargs⟩ => ⟨h _ hself, Expr.EachIn.mono h args hargs⟩
  | .methodCall object _ args _, ⟨hself, hobject, hargs⟩ =>
    ⟨h _ hself, Expr.Each.mono h object hobject, Expr.EachIn.mono h args hargs⟩
  | .new _ args _, ⟨hself, hargs⟩ => ⟨h _ hself, Expr.EachIn.mono h args hargs⟩
  | .grouping inner _, ⟨hself, hinner⟩ => ⟨h _ hself, Expr.Each.mono h inner hinner⟩
  | .literal .., hself => h _ hself
  | .variableRef .., hself => h _ hself
  | .invalid _, hself => h _ hself

theorem Expr.EachIn.mono (h : ∀ e, P e → Q e) : ∀ es : List Expr, Expr.EachIn P es → Expr.EachIn Q es
  | [], _ => trivial
  | e :: rest, ⟨he, hrest⟩ => ⟨Expr.Each.mono h e he, Expr.EachIn.mono h rest hrest⟩

end

/-! ### Declarations -/

/-- All expressions of a starting value, and those inside of them, have the property. -/
def Initializer.Each (P : Expr → Prop) (init : Initializer) : Prop := ∀ e ∈ init.flatten, e.Each P

/-- The expressions of a declaration have `P`, its span has `S`. -/
structure Declaration.Each (P : Expr → Prop) (S : Span → Prop) (d : Declaration) : Prop where
  span : S d.span
  dims : ∀ e ∈ d.dims, e.Each P
  init : ∀ init ∈ d.init, init.Each P

theorem Declaration.Each.mono (h : ∀ e, P e → Q e) (hs : ∀ s, S s → T s) {d : Declaration}
    (hd : d.Each P S) : d.Each Q T where
  span := hs _ hd.span
  dims := fun e he => (hd.dims e he).mono h
  init := fun init hinit e he => (hd.init init hinit e he).mono h

/-! ### Statements -/

/-- The statement has no block. -/
def Stmt.isSimple : Stmt → Bool
  | .choose .. | .select .. | .whileLoop .. | .doLoop .. | .forLoop .. | .forEach .. => false
  | _ => true

mutual

/-- The expressions of a statement have `P`, all its other parts have a span with `S`. -/
def Stmt.Each (P : Expr → Prop) (S : Span → Prop) : Stmt → Prop
  | .declare declarations span => S span ∧ ∀ d ∈ declarations, d.Each P S
  | .assign target value span => S span ∧ target.Each P ∧ value.Each P
  | .display items span => S span ∧ ∀ e ∈ items, e.Each P
  | .input target span => S span ∧ target.Each P
  | .call e span => S span ∧ e.Each P
  | .choose branches otherwise span =>
    S span ∧ Stmt.EachBranch P S branches ∧ Stmt.EachOption P S otherwise
  | .select subject cases otherwise span =>
    S span ∧ subject.Each P ∧ Stmt.EachCase P S cases ∧ Stmt.EachOption P S otherwise
  | .whileLoop condition body span => S span ∧ condition.Each P ∧ Stmt.EachBlock P S body
  | .doLoop body condition _ span => S span ∧ condition.Each P ∧ Stmt.EachBlock P S body
  | .forLoop counter first last step body span =>
    S span ∧ counter.Each P ∧ first.Each P ∧ last.Each P ∧ (∀ e ∈ step, e.Each P) ∧
      Stmt.EachBlock P S body
  | .forEach item array body span =>
    S span ∧ item.Each P ∧ array.Each P ∧ Stmt.EachBlock P S body
  | .returnWith value span => S span ∧ ∀ e ∈ value, e.Each P
  | .breakLoop span | .continueLoop span | .stop span => S span

def Stmt.EachBlock (P : Expr → Prop) (S : Span → Prop) : Block Stmt → Prop
  | ⟨statements, span⟩ => S span ∧ Stmt.EachIn P S statements

def Stmt.EachOption (P : Expr → Prop) (S : Span → Prop) : Option (Block Stmt) → Prop
  | none => True
  | some body => Stmt.EachBlock P S body

def Stmt.EachBranch (P : Expr → Prop) (S : Span → Prop) : List (Branch Stmt) → Prop
  | [] => True
  | ⟨condition, body⟩ :: rest =>
    (condition.Each P ∧ Stmt.EachBlock P S body) ∧ Stmt.EachBranch P S rest

def Stmt.EachCase (P : Expr → Prop) (S : Span → Prop) : List (Case Stmt) → Prop
  | [] => True
  | ⟨labels, body, span⟩ :: rest =>
    (S span ∧ (∀ e ∈ labels, e.Each P) ∧ Stmt.EachBlock P S body) ∧ Stmt.EachCase P S rest

/-- The statements have it, each with all its parts. -/
def Stmt.EachIn (P : Expr → Prop) (S : Span → Prop) : List Stmt → Prop
  | [] => True
  | s :: rest => s.Each P S ∧ Stmt.EachIn P S rest

end

@[simp] theorem Stmt.eachIn_iff {statements : List Stmt} :
    Stmt.EachIn P S statements ↔ ∀ s ∈ statements, s.Each P S := by
  induction statements with
  | nil => simp [Stmt.EachIn]
  | cons s rest ih => simp [Stmt.EachIn, ih]

theorem Stmt.eachBlock_iff {body : Block Stmt} :
    Stmt.EachBlock P S body ↔ S body.span ∧ ∀ s ∈ body.statements, s.Each P S := by
  obtain ⟨statements, span⟩ := body
  simp [Stmt.EachBlock]

theorem Stmt.eachBranch_iff {branches : List (Branch Stmt)} :
    Stmt.EachBranch P S branches ↔
      ∀ b ∈ branches, b.condition.Each P ∧ Stmt.EachBlock P S b.body := by
  induction branches with
  | nil => simp [Stmt.EachBranch]
  | cons b rest ih => simp [Stmt.EachBranch, ih]

theorem Stmt.eachCase_iff {cases : List (Case Stmt)} :
    Stmt.EachCase P S cases ↔
      ∀ c ∈ cases, S c.span ∧ (∀ e ∈ c.labels, e.Each P) ∧ Stmt.EachBlock P S c.body := by
  induction cases with
  | nil => simp [Stmt.EachCase]
  | cons c rest ih => simp [Stmt.EachCase, ih]

theorem Stmt.Each.span {s : Stmt} (h : s.Each P S) : S s.span := by
  cases s <;> simp only [Stmt.Each] at h <;> first | exact h.1 | exact h

mutual

theorem Stmt.Each.mono (h : ∀ e, P e → Q e) (hs : ∀ s, S s → T s) :
    ∀ s : Stmt, s.Each P S → s.Each Q T
  | .declare _ _, ⟨hspan, hds⟩ => ⟨hs _ hspan, fun d hd => (hds d hd).mono h hs⟩
  | .assign _ _ _, ⟨hspan, htarget, hvalue⟩ => ⟨hs _ hspan, htarget.mono h, hvalue.mono h⟩
  | .display _ _, ⟨hspan, hitems⟩ => ⟨hs _ hspan, fun e he => (hitems e he).mono h⟩
  | .input _ _, ⟨hspan, htarget⟩ => ⟨hs _ hspan, htarget.mono h⟩
  | .call _ _, ⟨hspan, hcall⟩ => ⟨hs _ hspan, hcall.mono h⟩
  | .choose branches otherwise _, ⟨hspan, hbranches, hotherwise⟩ =>
    ⟨hs _ hspan, Stmt.EachBranch.mono h hs branches hbranches,
      Stmt.EachOption.mono h hs otherwise hotherwise⟩
  | .select _ cases otherwise _, ⟨hspan, hsubject, hcases, hotherwise⟩ =>
    ⟨hs _ hspan, hsubject.mono h, Stmt.EachCase.mono h hs cases hcases,
      Stmt.EachOption.mono h hs otherwise hotherwise⟩
  | .whileLoop _ body _, ⟨hspan, hcondition, hbody⟩ =>
    ⟨hs _ hspan, hcondition.mono h, Stmt.EachBlock.mono h hs body hbody⟩
  | .doLoop body _ _ _, ⟨hspan, hcondition, hbody⟩ =>
    ⟨hs _ hspan, hcondition.mono h, Stmt.EachBlock.mono h hs body hbody⟩
  | .forLoop _ _ _ _ body _, ⟨hspan, hcounter, hfirst, hlast, hstep, hbody⟩ =>
    ⟨hs _ hspan, hcounter.mono h, hfirst.mono h, hlast.mono h, fun e he => (hstep e he).mono h,
      Stmt.EachBlock.mono h hs body hbody⟩
  | .forEach _ _ body _, ⟨hspan, hitem, harray, hbody⟩ =>
    ⟨hs _ hspan, hitem.mono h, harray.mono h, Stmt.EachBlock.mono h hs body hbody⟩
  | .returnWith _ _, ⟨hspan, hvalue⟩ => ⟨hs _ hspan, fun e he => (hvalue e he).mono h⟩
  | .breakLoop _, hspan => hs _ hspan
  | .continueLoop _, hspan => hs _ hspan
  | .stop _, hspan => hs _ hspan

theorem Stmt.EachBlock.mono (h : ∀ e, P e → Q e) (hs : ∀ s, S s → T s) :
    ∀ body : Block Stmt, Stmt.EachBlock P S body → Stmt.EachBlock Q T body
  | ⟨statements, _⟩, ⟨hspan, hall⟩ => ⟨hs _ hspan, Stmt.EachIn.mono h hs statements hall⟩

theorem Stmt.EachOption.mono (h : ∀ e, P e → Q e) (hs : ∀ s, S s → T s) :
    ∀ body : Option (Block Stmt), Stmt.EachOption P S body → Stmt.EachOption Q T body
  | none, _ => trivial
  | some body, hbody => Stmt.EachBlock.mono h hs body hbody

theorem Stmt.EachBranch.mono (h : ∀ e, P e → Q e) (hs : ∀ s, S s → T s) :
    ∀ branches : List (Branch Stmt), Stmt.EachBranch P S branches → Stmt.EachBranch Q T branches
  | [], _ => trivial
  | ⟨_, body⟩ :: rest, ⟨⟨hcondition, hbody⟩, hrest⟩ =>
    ⟨⟨hcondition.mono h, Stmt.EachBlock.mono h hs body hbody⟩, Stmt.EachBranch.mono h hs rest hrest⟩

theorem Stmt.EachCase.mono (h : ∀ e, P e → Q e) (hs : ∀ s, S s → T s) :
    ∀ cases : List (Case Stmt), Stmt.EachCase P S cases → Stmt.EachCase Q T cases
  | [], _ => trivial
  | ⟨_, body, _⟩ :: rest, ⟨⟨hspan, hlabels, hbody⟩, hrest⟩ =>
    ⟨⟨hs _ hspan, fun e he => (hlabels e he).mono h, Stmt.EachBlock.mono h hs body hbody⟩,
      Stmt.EachCase.mono h hs rest hrest⟩

theorem Stmt.EachIn.mono (h : ∀ e, P e → Q e) (hs : ∀ s, S s → T s) :
    ∀ statements : List Stmt, Stmt.EachIn P S statements → Stmt.EachIn Q T statements
  | [], _ => trivial
  | s :: rest, ⟨hself, hrest⟩ => ⟨Stmt.Each.mono h hs s hself, Stmt.EachIn.mono h hs rest hrest⟩

end

end Primer
