/-
What a tree says.

A program does several things that matter when it is read: it names a variable, assigns it by its
name or declares it, it calls routines and makes objects, it leaves loops and routines.  The notes of
a tree list all of it, so that what is found out about each of them while the tree is read is known
of every statement of the tree in the end.
-/
import Primer.Proofs.Tree.Every
import Primer.Proofs.Tree.Mentions

namespace Primer

variable {x : VarId}

/-- What is said in one place of a tree. -/
inductive Note where
  | mention (x : VarId)
  | target (x : VarId)
  | declared (x : VarId)
  /-- The variable is declared with this many sizes. -/
  | sized (x : VarId) (rank : Nat)
  | called (name : String) (args : List Expr) (span : Span)
  | made (className : String) (args : List Expr) (span : Span)
  | returns
  /-- A `Break` or `Continue` that is for a loop around the tree. -/
  | jump

/-- The note is of a `Break` or `Continue`. -/
def Note.isJump : Note → Bool
  | .jump => true
  | _ => false

/-- The notes of a loop, whose body has these notes: the loop is what its jumps are for. -/
def Note.inLoop (notes : List Note) : List Note := notes.filter fun n => !n.isJump

@[simp, grind =] theorem Note.mem_inLoop {n : Note} {notes : List Note} :
    n ∈ Note.inLoop notes ↔ n ∈ notes ∧ n.isJump = false := by
  simp [Note.inLoop]

mutual

/-- What an expression says, and the expressions inside of it. -/
def Expr.notes : Expr → List Note
  | .literal .. | .invalid _ => []
  | .variableRef id _ _ => [.mention id]
  | .index base indices _ => base.notes ++ Expr.notesAll indices
  | .field object _ _ => object.notes
  | .binary _ left right _ => left.notes ++ right.notes
  | .logical _ left right _ => left.notes ++ right.notes
  | .unary _ operand _ => operand.notes
  | .call name args span => .called name args span :: Expr.notesAll args
  | .methodCall object _ args _ => object.notes ++ Expr.notesAll args
  | .new className args span => .made className args span :: Expr.notesAll args
  | .grouping inner _ => inner.notes

def Expr.notesAll : List Expr → List Note
  | [] => []
  | e :: rest => e.notes ++ Expr.notesAll rest

end

@[simp] theorem Expr.notes_literal (value : Value) (span : Span) :
    (Expr.literal value span).notes = [] := by
  simp [Expr.notes]

@[simp] theorem Expr.notes_invalid (span : Span) : (Expr.invalid span).notes = [] := by
  simp [Expr.notes]

@[simp] theorem Expr.notesAll_nil : Expr.notesAll [] = [] := by simp [Expr.notesAll]

def Expr.notesOf : Option Expr → List Note
  | some e => e.notes
  | none => []

@[simp, grind =] theorem Expr.notesOf_some (e : Expr) : Expr.notesOf (some e) = e.notes := rfl

@[simp, grind =] theorem Expr.notesOf_none : Expr.notesOf none = [] := rfl

/-- The variable that an expression is nothing but the name of is assigned. -/
def Expr.targetNotes (e : Expr) : List Note := e.named?.toList.map .target

@[simp] theorem Expr.targetNotes_invalid (span : Span) : (Expr.invalid span).targetNotes = [] := rfl

def Initializer.notes (init : Initializer) : List Note := Expr.notesAll init.flatten

def Initializer.notesOf : Option Initializer → List Note
  | some init => init.notes
  | none => []

def Declaration.notes (d : Declaration) : List Note :=
  .declared d.id :: .mention d.id :: .sized d.id d.dims.length ::
    (Expr.notesAll d.dims ++ Initializer.notesOf d.init)

def Declaration.notesAll (ds : List Declaration) : List Note := ds.flatMap Declaration.notes

mutual

/-- What a statement says, and the statements inside of it. -/
def Stmt.notes : Stmt → List Note
  | .declare declarations _ => Declaration.notesAll declarations
  | .assign target value _ => target.notes ++ target.targetNotes ++ value.notes
  | .display items _ => Expr.notesAll items
  | .input target _ => target.notes ++ target.targetNotes
  | .call e _ => e.notes
  | .choose branches otherwise _ => Stmt.branchNotes branches ++ Stmt.optionNotes otherwise
  | .select subject cases otherwise _ =>
    subject.notes ++ Stmt.caseNotes cases ++ Stmt.optionNotes otherwise
  | .whileLoop condition body _ => condition.notes ++ Note.inLoop (Stmt.blockNotes body)
  | .doLoop body condition _ _ => Note.inLoop (Stmt.blockNotes body) ++ condition.notes
  | .forLoop counter first last step body _ =>
    counter.notes ++ counter.targetNotes ++ first.notes ++ last.notes ++ Expr.notesOf step
      ++ Note.inLoop (Stmt.blockNotes body)
  | .forEach item array body _ =>
    item.notes ++ item.targetNotes ++ array.notes ++ Note.inLoop (Stmt.blockNotes body)
  | .returnWith value _ => .returns :: Expr.notesOf value
  | .breakLoop _ | .continueLoop _ => [.jump]
  | .stop _ => []

def Stmt.blockNotes : Block Stmt → List Note
  | ⟨statements, _⟩ => Stmt.notesAll statements

def Stmt.optionNotes : Option (Block Stmt) → List Note
  | none => []
  | some body => Stmt.blockNotes body

def Stmt.branchNotes : List (Branch Stmt) → List Note
  | [] => []
  | ⟨condition, body⟩ :: rest => condition.notes ++ Stmt.blockNotes body ++ Stmt.branchNotes rest

def Stmt.caseNotes : List (Case Stmt) → List Note
  | [] => []
  | ⟨labels, body, _⟩ :: rest =>
    Expr.notesAll labels ++ Stmt.blockNotes body ++ Stmt.caseNotes rest

def Stmt.notesAll : List Stmt → List Note
  | [] => []
  | s :: rest => s.notes ++ Stmt.notesAll rest

end

/-! ### Notes of lists -/

@[grind =] theorem Expr.mem_notesAll {n : Note} {es : List Expr} :
    n ∈ Expr.notesAll es ↔ ∃ e ∈ es, n ∈ e.notes := by
  induction es with
  | nil => simp [Expr.notesAll]
  | cons e rest ih => simp [Expr.notesAll, ih]

@[grind =] theorem Initializer.notes_one (e : Expr) : (Initializer.one e).notes = e.notes := by
  simp [Initializer.notes, Initializer.flatten, Expr.notesAll]

@[grind =] theorem Initializer.mem_notes_list {n : Note} {items : List Initializer} :
    n ∈ (Initializer.list items).notes ↔ ∃ item ∈ items, n ∈ item.notes := by
  simp only [Initializer.notes, Initializer.flatten, Expr.mem_notesAll, Initializer.mem_flattenAll]
  constructor
  · rintro ⟨e, ⟨item, hitem, he⟩, hn⟩
    exact ⟨item, hitem, e, he, hn⟩
  · rintro ⟨item, hitem, e, he, hn⟩
    exact ⟨e, ⟨item, hitem, he⟩, hn⟩

@[grind =] theorem Stmt.mem_notesAll {n : Note} {statements : List Stmt} :
    n ∈ Stmt.notesAll statements ↔ ∃ s ∈ statements, n ∈ s.notes := by
  induction statements with
  | nil => simp [Stmt.notesAll]
  | cons s rest ih => simp [Stmt.notesAll, ih]

@[grind =] theorem Stmt.mem_branchNotes {n : Note} {branches : List (Branch Stmt)} :
    n ∈ Stmt.branchNotes branches ↔
      ∃ b ∈ branches, n ∈ b.condition.notes ∨ n ∈ Stmt.blockNotes b.body := by
  induction branches with
  | nil => simp [Stmt.branchNotes]
  | cons b rest ih => simp [Stmt.branchNotes, ih, or_assoc]

@[grind =] theorem Stmt.mem_caseNotes {n : Note} {cases : List (Case Stmt)} :
    n ∈ Stmt.caseNotes cases ↔
      ∃ c ∈ cases, n ∈ Expr.notesAll c.labels ∨ n ∈ Stmt.blockNotes c.body := by
  induction cases with
  | nil => simp [Stmt.caseNotes]
  | cons c rest ih => simp [Stmt.caseNotes, ih, or_assoc]

/-! ### Mentions -/

mutual

/-- The variables that are named are those that are noted to be. -/
theorem Expr.mention_mem {x : VarId} : ∀ e : Expr, .mention x ∈ e.notes ↔ x ∈ e.mentions
  | .literal .. | .invalid _ => by simp [Expr.notes, Expr.mentions]
  | .variableRef .. => by simp [Expr.notes, Expr.mentions]
  | .index base indices _ => by
    simp [Expr.notes, Expr.mentions, base.mention_mem, Expr.mentionAll_mem indices]
  | .field object _ _ => by simp [Expr.notes, Expr.mentions, object.mention_mem]
  | .binary _ left right _ | .logical _ left right _ => by
    simp [Expr.notes, Expr.mentions, left.mention_mem, right.mention_mem]
  | .unary _ operand _ => by simp [Expr.notes, Expr.mentions, operand.mention_mem]
  | .call _ args _ | .new _ args _ => by
    simp [Expr.notes, Expr.mentions, Expr.mentionAll_mem args]
  | .methodCall object _ args _ => by
    simp [Expr.notes, Expr.mentions, object.mention_mem, Expr.mentionAll_mem args]
  | .grouping inner _ => by simp [Expr.notes, Expr.mentions, inner.mention_mem]

theorem Expr.mentionAll_mem {x : VarId} :
    ∀ es : List Expr, .mention x ∈ Expr.notesAll es ↔ x ∈ Expr.mentionsAll es
  | [] => by simp [Expr.notesAll, Expr.mentionsAll]
  | e :: rest => by
    simp [Expr.notesAll, Expr.mentionsAll, e.mention_mem, Expr.mentionAll_mem rest]

end

theorem Expr.mentionOf_mem (e : Option Expr) :
    .mention x ∈ Expr.notesOf e ↔ x ∈ Expr.mentionsOf e := by
  cases e <;> simp [Expr.mentionsOf, Expr.mention_mem]

theorem Expr.mention_not_mem_targetNotes (e : Expr) : .mention x ∉ e.targetNotes := by
  simp [Expr.targetNotes]

theorem Declaration.mention_mem (ds : List Declaration) :
    .mention x ∈ Declaration.notesAll ds ↔ x ∈ Declaration.mentionsAll ds := by
  have hone : ∀ d : Declaration, .mention x ∈ d.notes ↔ x ∈ d.mentions := by
    intro d
    cases hinit : d.init <;>
      simp [Declaration.notes, Declaration.mentions, Expr.mentionAll_mem, hinit, Initializer.notesOf,
        Initializer.mentionsOf, Initializer.notes, Initializer.mentions]
  simp [Declaration.notesAll, Declaration.mem_mentionsAll, hone]

mutual

theorem Stmt.mention_mem {x : VarId} : ∀ s : Stmt, .mention x ∈ s.notes ↔ x ∈ s.mentions
  | .declare declarations _ => by
    simp only [Stmt.notes, Stmt.mentions, Declaration.mention_mem]
  | .assign .. | .input .. => by
    simp [Stmt.notes, Stmt.mentions, Expr.mention_mem, Expr.mention_not_mem_targetNotes]
  | .display .. => by simp only [Stmt.notes, Stmt.mentions, Expr.mentionAll_mem]
  | .call .. => by simp only [Stmt.notes, Stmt.mentions, Expr.mention_mem]
  | .choose branches otherwise _ => by
    simp [Stmt.notes, Stmt.mentions, Stmt.branchMention_mem branches,
      Stmt.optionMention_mem otherwise]
  | .select _ cases otherwise _ => by
    simp [Stmt.notes, Stmt.mentions, Expr.mention_mem, Stmt.caseMention_mem cases,
      Stmt.optionMention_mem otherwise]
  | .whileLoop _ body _ | .doLoop body _ _ _ => by
    simp [Stmt.notes, Stmt.mentions, Expr.mention_mem, Stmt.blockMention_mem body, Note.isJump]
  | .forLoop _ _ _ _ body _ | .forEach _ _ body _ => by
    simp [Stmt.notes, Stmt.mentions, Expr.mention_mem, Expr.mentionOf_mem,
      Expr.mention_not_mem_targetNotes, Stmt.blockMention_mem body, Note.isJump]
  | .returnWith .. => by simp [Stmt.notes, Stmt.mentions, Expr.mentionOf_mem]
  | .breakLoop _ | .continueLoop _ | .stop _ => by simp [Stmt.notes, Stmt.mentions]

theorem Stmt.blockMention_mem {x : VarId} :
    ∀ b : Block Stmt, .mention x ∈ Stmt.blockNotes b ↔ x ∈ Stmt.blockMentions b
  | ⟨statements, _⟩ => by
    simp only [Stmt.blockNotes, Stmt.blockMentions, Stmt.mentionAll_mem statements]

theorem Stmt.optionMention_mem {x : VarId} :
    ∀ b : Option (Block Stmt), .mention x ∈ Stmt.optionNotes b ↔ x ∈ Stmt.optionMentions b
  | none => by simp [Stmt.optionNotes, Stmt.optionMentions]
  | some body => by simp only [Stmt.optionNotes, Stmt.optionMentions, Stmt.blockMention_mem body]

theorem Stmt.branchMention_mem {x : VarId} :
    ∀ bs : List (Branch Stmt), .mention x ∈ Stmt.branchNotes bs ↔ x ∈ Stmt.branchMentions bs
  | [] => by simp [Stmt.branchNotes, Stmt.branchMentions]
  | ⟨_, body⟩ :: rest => by
    simp [Stmt.branchNotes, Stmt.branchMentions, Expr.mention_mem, Stmt.blockMention_mem body,
      Stmt.branchMention_mem rest]

theorem Stmt.caseMention_mem {x : VarId} :
    ∀ cs : List (Case Stmt), .mention x ∈ Stmt.caseNotes cs ↔ x ∈ Stmt.caseMentions cs
  | [] => by simp [Stmt.caseNotes, Stmt.caseMentions]
  | ⟨_, body, _⟩ :: rest => by
    simp [Stmt.caseNotes, Stmt.caseMentions, Expr.mentionAll_mem, Stmt.blockMention_mem body,
      Stmt.caseMention_mem rest]

theorem Stmt.mentionAll_mem {x : VarId} :
    ∀ ss : List Stmt, .mention x ∈ Stmt.notesAll ss ↔ x ∈ Stmt.mentionsAll ss
  | [] => by simp [Stmt.notesAll, Stmt.mentionsAll]
  | s :: rest => by
    simp [Stmt.notesAll, Stmt.mentionsAll, s.mention_mem, Stmt.mentionAll_mem rest]

end

/-! ### Jumps -/

mutual

/-- There are no jumps in expressions. -/
theorem Expr.not_jump {n : Note} : ∀ {e : Expr}, n ∈ e.notes → n.isJump = false
  | .literal .., h | .invalid _, h => by simp [Expr.notes] at h
  | .variableRef .., h => by
    obtain rfl := List.mem_singleton.mp h
    rfl
  | .index .., h | .methodCall .., h => (List.mem_append.mp h).elim Expr.not_jump Expr.not_jumpAll
  | .binary .., h | .logical .., h => (List.mem_append.mp h).elim Expr.not_jump Expr.not_jump
  | .field object _ _, h => Expr.not_jump (e := object) h
  | .unary _ operand _, h => Expr.not_jump (e := operand) h
  | .grouping inner _, h => Expr.not_jump (e := inner) h
  | .call .., h | .new .., h => by
    rcases List.mem_cons.mp h with rfl | h
    · rfl
    · exact Expr.not_jumpAll h

theorem Expr.not_jumpAll {n : Note} : ∀ {es : List Expr}, n ∈ Expr.notesAll es → n.isJump = false
  | [], h => by simp [Expr.notesAll] at h
  | _ :: _, h => (List.mem_append.mp h).elim Expr.not_jump Expr.not_jumpAll

end

theorem Declaration.not_jump {n : Note} {ds : List Declaration} (h : n ∈ Declaration.notesAll ds) :
    n.isJump = false := by
  obtain ⟨d, -, hn⟩ := List.mem_flatMap.mp h
  simp only [Declaration.notes, List.mem_cons, List.mem_append] at hn
  rcases hn with rfl | rfl | rfl | hn | hn
  · rfl
  · rfl
  · rfl
  · exact Expr.not_jumpAll hn
  · cases hinit : d.init with
    | none => simp [hinit, Initializer.notesOf] at hn
    | some init =>
      rw [hinit] at hn
      exact Expr.not_jumpAll hn

/-! ### From the notes of a tree to its statements -/

theorem Declaration.declared_mem {ds : List Declaration} (h : x ∈ ds.map (·.id)) :
    .declared x ∈ Declaration.notesAll ds := by
  obtain ⟨d, hd, rfl⟩ := List.mem_map.mp h
  exact List.mem_flatMap.mpr ⟨d, hd, List.mem_cons_self⟩

/-- What is said of the variables that the statement itself assigns and declares. -/
def Stmt.Says (P : Note → Prop) (s : Stmt) : Prop :=
  (∀ x ∈ s.targets, P (.target x)) ∧ ∀ x ∈ s.declared, P (.declared x)

theorem Expr.target_mem {e : Expr} (h : x ∈ e.named?.toList) : .target x ∈ e.targetNotes :=
  List.mem_map_of_mem h

/-- The notes of a tree are such, but for those of its jumps. -/
def Note.All (P : Note → Prop) (notes : List Note) : Prop := ∀ n ∈ notes, n.isJump = false → P n

@[simp] theorem Note.all_append {P : Note → Prop} {xs ys : List Note} :
    Note.All P (xs ++ ys) ↔ Note.All P xs ∧ Note.All P ys := List.forall_mem_append

@[simp] theorem Note.all_inLoop {P : Note → Prop} {notes : List Note} :
    Note.All P (Note.inLoop notes) ↔ Note.All P notes := by
  simp +contextual [Note.All]

theorem Note.All.target {P : Note → Prop} {e : Expr} (h : Note.All P e.targetNotes)
    (hx : x ∈ e.named?.toList) : P (.target x) :=
  h _ (Expr.target_mem hx) rfl

mutual

/-- **What is so for all notes of a tree is so for every statement of it.** -/
theorem Stmt.every_of_notes {P : Note → Prop} :
    ∀ s : Stmt, Note.All P s.notes → s.Every (Stmt.Says P)
  | .declare .., h => ⟨nofun, fun _ hx => h _ (Declaration.declared_mem hx) rfl⟩
  | .assign .., h => by
    simp only [Stmt.notes, Note.all_append] at h
    exact ⟨fun _ hx => h.1.2.target hx, nofun⟩
  | .input .., h => by
    simp only [Stmt.notes, Note.all_append] at h
    exact ⟨fun _ hx => h.2.target hx, nofun⟩
  | .choose branches otherwise _, h => by
    simp only [Stmt.notes, Note.all_append] at h
    exact ⟨⟨nofun, nofun⟩, Stmt.everyBranch_of_notes branches h.1, Stmt.everyOption_of_notes otherwise h.2⟩
  | .select _ cases otherwise _, h => by
    simp only [Stmt.notes, Note.all_append] at h
    exact ⟨⟨nofun, nofun⟩, Stmt.everyCase_of_notes cases h.1.2, Stmt.everyOption_of_notes otherwise h.2⟩
  | .whileLoop _ body _, h => by
    simp only [Stmt.notes, Note.all_append, Note.all_inLoop] at h
    exact ⟨⟨nofun, nofun⟩, Stmt.everyBlock_of_notes body h.2⟩
  | .doLoop body _ _ _, h => by
    simp only [Stmt.notes, Note.all_append, Note.all_inLoop] at h
    exact ⟨⟨nofun, nofun⟩, Stmt.everyBlock_of_notes body h.1⟩
  | .forLoop _ _ _ _ body _, h => by
    simp only [Stmt.notes, Note.all_append, Note.all_inLoop] at h
    exact ⟨⟨fun _ hx => h.1.1.1.1.2.target hx, nofun⟩, Stmt.everyBlock_of_notes body h.2⟩
  | .forEach _ _ body _, h => by
    simp only [Stmt.notes, Note.all_append, Note.all_inLoop] at h
    exact ⟨⟨fun _ hx => h.1.1.2.target hx, nofun⟩, Stmt.everyBlock_of_notes body h.2⟩
  | .display .., _ | .call .., _ | .returnWith .., _ | .breakLoop _, _ | .continueLoop _, _
  | .stop _, _ => ⟨nofun, nofun⟩

theorem Stmt.everyBlock_of_notes {P : Note → Prop} :
    ∀ b : Block Stmt, Note.All P (Stmt.blockNotes b) → Stmt.EveryBlock (Stmt.Says P) b
  | ⟨statements, _⟩, h => Stmt.everyIn_of_notes statements h

theorem Stmt.everyOption_of_notes {P : Note → Prop} :
    ∀ b : Option (Block Stmt), Note.All P (Stmt.optionNotes b) → Stmt.EveryOption (Stmt.Says P) b
  | none, _ => trivial
  | some body, h => Stmt.everyBlock_of_notes body h

theorem Stmt.everyBranch_of_notes {P : Note → Prop} :
    ∀ bs : List (Branch Stmt), Note.All P (Stmt.branchNotes bs) → Stmt.EveryBranch (Stmt.Says P) bs
  | [], _ => trivial
  | ⟨_, body⟩ :: rest, h => by
    simp only [Stmt.branchNotes, Note.all_append] at h
    exact ⟨Stmt.everyBlock_of_notes body h.1.2, Stmt.everyBranch_of_notes rest h.2⟩

theorem Stmt.everyCase_of_notes {P : Note → Prop} :
    ∀ cs : List (Case Stmt), Note.All P (Stmt.caseNotes cs) → Stmt.EveryCase (Stmt.Says P) cs
  | [], _ => trivial
  | ⟨_, body, _⟩ :: rest, h => by
    simp only [Stmt.caseNotes, Note.all_append] at h
    exact ⟨Stmt.everyBlock_of_notes body h.1.2, Stmt.everyCase_of_notes rest h.2⟩

theorem Stmt.everyIn_of_notes {P : Note → Prop} :
    ∀ ss : List Stmt, Note.All P (Stmt.notesAll ss) → Stmt.EveryIn (Stmt.Says P) ss
  | [], _ => trivial
  | s :: rest, h => by
    simp only [Stmt.notesAll, Note.all_append] at h
    exact ⟨Stmt.every_of_notes s h.1, Stmt.everyIn_of_notes rest h.2⟩

end

end Primer
