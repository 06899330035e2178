/-
What a reader can account for.

Everything that a reader makes points back at its tokens: each span is that of a token, the place
just after one, or covers two such.  And nothing is made up without a word: where the tree holds a
node for something that could not be read, an error was reported.  `Grounded` says both of a tree and
of all that a reader has recorded so far.

A reader also stays where it is while it reads anything but a definition: the scope at hand, the
routines, classes and constructs around the cursor are afterwards what they were before.  `Plain`
says what such a part may do, and `Course` what is asked of a relation between a reader and a later
one so that every such part keeps to it.
-/
import Primer.Proofs.Grammar.Standing
import Primer.Proofs.Tree.Parts

namespace Primer.Grammar

/-- A region that a reader of these tokens can point at. -/
inductive Place (tokens : Array Token) : Span → Prop
  | token {t : Token} (h : t ∈ tokens) : Place tokens t.span
  /-- What is missing after a token. -/
  | after {t : Token} (h : t ∈ tokens) : Place tokens ⟨t.span.stop, t.span.stop + 1, t.line⟩
  | cover {a b : Span} (ha : Place tokens a) (hb : Place tokens b) : Place tokens (a.cover b)

/-! ### Trees -/

/-- What is asked of a single expression: its span leads to the tokens, and it stands for one that
could not be read only where there is a flaw. -/
structure GroundedNode (tokens : Array Token) (flawed : Prop) (e : Expr) : Prop where
  span : Place tokens e.span
  invalid : e.isInvalid → flawed

theorem GroundedNode.valid {tokens : Array Token} {flawed : Prop} {e : Expr}
    (hspan : Place tokens e.span) (hvalid : e.isInvalid = false) : GroundedNode tokens flawed e :=
  ⟨hspan, by simp [hvalid]⟩

/-- An expression with all expressions inside of it. -/
def Grounded (tokens : Array Token) (flawed : Prop) (e : Expr) : Prop :=
  e.Each (GroundedNode tokens flawed)

theorem Grounded.span {tokens : Array Token} {flawed : Prop} {e : Expr}
    (h : Grounded tokens flawed e) : Place tokens e.span := h.self.span

def GroundedDeclaration (tokens : Array Token) (flawed : Prop) (d : Declaration) : Prop :=
  d.Each (GroundedNode tokens flawed) (Place tokens)

def GroundedStatement (tokens : Array Token) (flawed : Prop) (s : Stmt) : Prop :=
  s.Each (GroundedNode tokens flawed) (Place tokens)

/-- A statement without blocks. -/
structure GroundedSimple (tokens : Array Token) (flawed : Prop) (s : Stmt) : Prop where
  grounded : GroundedStatement tokens flawed s
  simple : s.isSimple

def GroundedBlock (tokens : Array Token) (flawed : Prop) (body : Block Stmt) : Prop :=
  Stmt.EachBlock (GroundedNode tokens flawed) (Place tokens) body

/-! ### Readers -/

namespace Reader

/-- How many errors were reported. -/
def errors (r : Reader) : Nat := r.problems.countP fun found => found.1.isError

/-- Everything that has been recorded is grounded. -/
structure Grounded (tokens : Array Token) (flawed : Prop) (r : Reader) : Prop where
  problems : ∀ found ∈ r.problems, Place tokens found.2
  entries : ∀ v ∈ r.layout.table.entries, Place tokens v.span
  routines : ∀ routine ∈ r.routines,
    Place tokens routine.span ∧ GroundedBlock tokens flawed routine.body
  classes : ∀ c ∈ r.classes,
    Place tokens c.span ∧ ∀ d ∈ c.fieldDeclarations, GroundedDeclaration tokens flawed d
  pendingTypes : ∀ pending ∈ r.pendingTypes, Place tokens pending.2
  pendingCalls : ∀ call ∈ r.pendingCalls,
    Place tokens call.span ∧ ∀ arg ∈ call.args, Place tokens arg.2

/-- `r'` has read on from `r`: no error was taken back, and what was added to the record is
grounded, if a flaw may be counted on once more than `count` errors were reported. -/
structure Traced (count : Nat) (r r' : Reader) : Prop where
  tokens : r'.tokens = r.tokens
  errors : r.errors ≤ r'.errors
  record : ∀ flawed : Prop, (count < r'.errors → flawed) →
    r.Grounded r.tokens flawed → r'.Grounded r.tokens flawed

/-- The reader stands where it stood, up to how much of the routine and class at hand is taken. -/
structure Stays (r r' : Reader) : Prop extends SameContext r r' where
  scope : r'.layout.scope = r.layout.scope
  saved : r'.layout.saved = r.layout.saved
  routine : r'.layout.currentRoutine = r.layout.currentRoutine
  outerRoutines : r'.layout.routines.tail = r.layout.routines.tail
  classAtHand : r'.layout.classes.head?.map (fun o => (o.id, o.scope))
    = r.layout.classes.head?.map fun o => (o.id, o.scope)
  outerClasses : r'.layout.classes.tail = r.layout.classes.tail

/-- The parent of every scope, in the order of their numbers. -/
def parents (r : Reader) : List (Option ScopeId) := r.layout.table.scopes.toList.map (·.parent)

/-- A part was read that holds no definition and opens no scope. -/
structure Plain (r r' : Reader) : Prop extends Stays r r' where
  tokens : r'.tokens = r.tokens
  errors : r.errors ≤ r'.errors
  record : ∀ flawed : Prop, r.Grounded r.tokens flawed → r'.Grounded r.tokens flawed
  parents : r'.parents = r.parents
  routines : r'.routines = r.routines
  classes : r'.classes = r.classes

variable {r r' r'' : Reader} {count : Nat}

theorem Traced.refl (r : Reader) : Traced count r r := ⟨rfl, Nat.le_refl _, fun _ _ h => h⟩

theorem Traced.trans (h : Traced count r r') (h' : Traced count r' r'') : Traced count r r'' where
  tokens := h'.tokens.trans h.tokens
  errors := Nat.le_trans h.errors h'.errors
  record := by
    intro flawed hflawed hr
    have hmiddle := h.record flawed (fun hlt => hflawed (Nat.lt_of_lt_of_le hlt h'.errors)) hr
    rw [← h.tokens] at hmiddle ⊢
    exact h'.record flawed hflawed hmiddle

theorem Stays.refl (r : Reader) : r.Stays r := ⟨.refl r, rfl, rfl, rfl, rfl, rfl, rfl⟩

theorem Stays.trans (h : r.Stays r') (h' : r'.Stays r'') : r.Stays r'' where
  toSameContext := h.toSameContext.trans h'.toSameContext
  scope := h'.scope.trans h.scope
  saved := h'.saved.trans h.saved
  routine := h'.routine.trans h.routine
  outerRoutines := h'.outerRoutines.trans h.outerRoutines
  classAtHand := h'.classAtHand.trans h.classAtHand
  outerClasses := h'.outerClasses.trans h.outerClasses

theorem Plain.refl (r : Reader) : r.Plain r := ⟨.refl r, rfl, Nat.le_refl _, fun _ h => h, rfl, rfl, rfl⟩

theorem Plain.trans (h : r.Plain r') (h' : r'.Plain r'') : r.Plain r'' where
  toStays := h.toStays.trans h'.toStays
  tokens := h'.tokens.trans h.tokens
  errors := Nat.le_trans h.errors h'.errors
  record := by
    intro flawed hr
    have hmiddle := h.record flawed hr
    rw [← h.tokens] at hmiddle ⊢
    exact h'.record flawed hmiddle
  parents := h'.parents.trans h.parents
  routines := h'.routines.trans h.routines
  classes := h'.classes.trans h.classes

theorem Plain.traced (h : r.Plain r') : Traced count r r' :=
  ⟨h.tokens, h.errors, fun flawed _ => h.record flawed⟩

/-- What is around the cursor is not recorded. -/
theorem Grounded.around {tokens : Array Token} {flawed : Prop} (h : r.Grounded tokens flawed)
    (openBlocks : List BlockKind) (loopDepth : Nat) (inTest : Bool) :
    Grounded tokens flawed { r with openBlocks, loopDepth, inTest } :=
  ⟨h.1, h.2, h.3, h.4, h.5, h.6⟩

/-- Something else stands around the cursor before and after. -/
theorem Traced.around {openBlocks openBlocks' : List BlockKind} {loopDepth loopDepth' : Nat}
    {inTest inTest' : Bool} (h : Traced count { r with openBlocks, loopDepth, inTest } r') :
    Traced count r
      { r' with openBlocks := openBlocks', loopDepth := loopDepth', inTest := inTest' } :=
  ⟨h.tokens, h.errors, fun flawed hflawed hr =>
    (h.record flawed hflawed (hr.around openBlocks loopDepth inTest)).around _ _ _⟩

end Reader

/-- A relation between a reader and a later one that every part without definitions keeps to, given
the number of errors after which a flaw may be counted on. -/
structure Course where
  leads : Nat → Reader → Reader → Prop
  refl : ∀ {count} r, leads count r r
  trans : ∀ {count r r' r''}, leads count r r' → leads count r' r'' → leads count r r''
  traced : ∀ {count r r'}, leads count r r' → Reader.Traced count r r'
  plain : ∀ {count r r'}, r.Plain r' → leads count r r'
  /-- A test is read with a mark that is taken away again. -/
  test : ∀ {count r r'} inTest, leads count { r with inTest } r' →
    leads count r { r' with inTest := r.inTest }

/-- The course of a part without definitions. -/
def Course.plainly : Course where
  leads := fun _ => Reader.Plain
  refl := .refl
  trans := .trans
  traced := Reader.Plain.traced
  plain := id
  test := fun _ h => ⟨⟨⟨h.openBlocks, h.loopDepth, rfl⟩, h.scope, h.saved, h.routine, h.outerRoutines,
      h.classAtHand, h.outerClasses⟩, h.tokens, h.errors,
    fun flawed hr => (h.record flawed (hr.around _ _ _)).around _ _ _, h.parents, h.routines, h.classes⟩

/-- The course of any part. -/
def Course.anyhow : Course where
  leads := Reader.Traced
  refl := .refl
  trans := .trans
  traced := id
  plain := Reader.Plain.traced
  test := fun _ h => h.around

end Primer.Grammar
