/-
Reading is balanced.

Whatever the tokens are and wherever a reader stands, it comes back from a statement, a block or a
definition to where it stood: to the same scope, with the same routines, classes and constructs around
it.  And the scopes that were opened meanwhile form a tree that follows what was read.  The scope of a
block hangs under the scope around it.  Routines and classes do not follow this rule: the scope of a
routine hangs under the fields of the class around it or under the global scope, even if it is written
inside a block, and that of a class always under the global scope.
-/
import Primer.Proofs.Nesting.Statement

namespace Primer.Grammar

variable {tokens : Array Token} {fails : Prop} {S : List Region → Prop} {past : List Region}
  {nested : Nested} {id : ClassId} {count : Nat} {r : Reader}

/-! ### Routines -/

/-- A change of the record that opens nothing. -/
theorem modify_opens [hS : Additive S] {f : Reader → Reader}
    (h : ∀ count r, Reader.Opened count r (f r) []) :
    Opens tokens fails S past (modify f) fun _ => past :=
  fun count r _ _ => ⟨[], h count r, hS.nil, fun _ _ before hbefore => by simpa using hbefore⟩

/-- Names may be added, and members to classes. -/
theorem Reader.opened_names (r : Reader) {classes : Array ClassDef}
    {routineIndex classIndex : NameIndex}
    (h : classes.toList.map (·.scope) = r.classes.toList.map (·.scope)) :
    Reader.Opened count r { r with classes, routineIndex, classIndex } [] where
  toStays := ⟨⟨rfl, rfl, rfl⟩, rfl, rfl, rfl, rfl, rfl, rfl⟩
  tokens := rfl
  errors := Nat.le_refl _
  parents := by simp [Reader.openings, Region.openingsIn, Reader.parents]
  routines := ⟨[], by simp, fun _ _ => .nil⟩
  classes := by simpa [Reader.openings, Region.openingsIn] using h

theorem registerRoutine_opens [Additive S] {id : RoutineId} {name : String} {span : Span}
    {classId : Option ClassId} (hspan : Place tokens span) :
    Opens tokens fails S past (registerRoutine id name span classId) fun _ => past := by
  unfold registerRoutine
  split
  · exact .pure (.refl _)
  · refine .step get_gives fun r _ => ?_
    split
    · exact .plain (remark_gives hspan)
    · refine modify_opens fun count r => ?_
      unfold Reader.nameRoutine
      split
      · exact r.opened_names (Reader.scopes_modify _ _ fun _ => rfl)
      · exact r.opened_names rfl

/-- The parameters and the body of a routine. -/
def routineInside (nested : Nested) (keyword : Token) (kind : RoutineKind) :
    Read (List VarId × Block Stmt) := do
  let params ← parameters keyword
  endOfStatement
  let body ← inFreshBlock (blockKind kind) do
    let body ← block nested
    expectEnd (blockKind kind) keyword
    pure body
  pure (params, body)

theorem routineBody_eq (keyword : Token) (draft : Routine) (nameSpan : Span) :
    routineBody nested keyword draft nameSpan = (do
      let id ← openRoutine draft nameSpan
      let scope ← look fun r => r.layout.scope
      let found ← routineInside nested keyword draft.kind
      closeRoutine id scope found.1 found.2
      if draft.kind = .function && !Stmt.blockReturns found.2 then
        report (.neverReturns draft.name) nameSpan) := by
  simp only [routineBody, routineInside, bind_assoc, pure_bind]

theorem routineInside_opens (hn : nested.Opens tokens) {keyword : Token} (hkeyword : keyword ∈ tokens)
    {kind : RoutineKind} :
    Opens tokens fails (Single .block) past (routineInside nested keyword kind)
      fun found => past ++ [Stmt.blockRegion found.2] := by
  refine .step parameters_gives fun params _ => .step endOfStatement_gives fun _ _ => ?_
  refine Opens.andThen (inFreshBlock_opens ?_) fun body => .pure fun _ _ => .refl _
  exact (block_opens hn).andThen fun _ => (expectEnd_gives hkeyword).known fun _ _ =>
    .pure fun _ _ => .refl _

/-- Once a routine is open, its scope is at hand. -/
theorem openRoutine_opened {draft : Routine} {nameSpan : Span} (htokens : r.tokens = tokens)
    (hcount : count ≤ r.errors) (hname : Place tokens nameSpan) :
    Yields (openRoutine draft nameSpan) r
      (fun id r' => id = r.routines.size ∧ Reader.Opened count
        { r with routines := r.routines.push draft, layout := r.layout.enterRoutine r.routines.size } r' [])
      (fun _ => False) := by
  have hregister : Opens tokens False (Only fun _ => False) []
      (registerRoutine r.routines.size draft.name nameSpan draft.classId) fun _ => [] :=
    registerRoutine_opens hname
  refine Yields.look_bind (Yields.modify_bind (Yields.bind ?_))
  refine (hregister count _ ?_ ?_).mono ?_ fun _ he => he.1.elim
  · exact htokens
  · exact hcount
  · rintro _ r' ⟨opened, hopened, hnone, -⟩
    obtain rfl : opened = [] := List.eq_nil_iff_forall_not_mem.mpr fun region h => hnone region h
    exact ⟨rfl, hopened⟩

/-- A routine opens its own region, and in it the one of its body. -/
def SingleRoutine (opened : List Region) : Prop :=
  ∃ inside, opened = [.mk .routine [.mk .block inside]]

theorem routineBody_opens (hn : nested.Opens tokens) {keyword : Token} (hkeyword : keyword ∈ tokens)
    {draft : Routine} {nameSpan : Span} (hname : Place tokens nameSpan) :
    Opens tokens fails SingleRoutine past (routineBody nested keyword draft nameSpan) fun _ => past := by
  have hinside : Opens tokens False (Single .block) [] (routineInside nested keyword draft.kind)
      fun found => [Stmt.blockRegion found.2] := routineInside_opens hn hkeyword
  rw [routineBody_eq]
  intro count r htokens hcount
  refine Yields.bind ((openRoutine_opened htokens hcount hname).mono ?_ fun _ he => he.elim)
  rintro id entered ⟨rfl, hentered⟩
  refine Yields.look_bind (Yields.bind ?_)
  refine (hinside count entered (hentered.tokens.trans htokens)
    (Nat.le_trans hcount hentered.errors)).mono ?_ fun _ he => he.1.elim
  rintro ⟨params, body⟩ r' ⟨opened, hopened, ⟨inside, rfl⟩, hkept⟩
  have hclosed := (hentered.trans hopened).closeRoutine params fun flawed hflawed =>
    hkept flawed hflawed [] .nil
  rw [← (r.enters_enterRoutine draft r.routines.size).scope, ← hentered.scope] at hclosed
  have hwarning : Gives .plainly tokens False Nothing
      (if draft.kind = .function && !Stmt.blockReturns body then
        report (.neverReturns draft.name) nameSpan
      else pure ()) Whatever := by
    split
    · exact remark_gives hname
    · exact .pure fun _ _ => trivial
  refine Yields.modify_bind ((hwarning count _ (hclosed.tokens.trans htokens)
    (Nat.le_trans hcount hclosed.errors) fun _ _ => trivial).mono ?_ fun _ he => he.2.1.elim)
  rintro _ r'' ⟨-, hplain, -⟩
  refine ⟨_, hclosed.trans (Reader.Plain.opened hplain), ⟨inside, rfl⟩, ?_⟩
  intro flawed _ before hbefore
  simpa using hbefore.append (.definition (by simp [Region.kind]) .nil)

theorem routineDefinition_opens (hn : nested.Opens tokens) :
    Opens tokens fails SingleRoutine past (routineDefinition nested) fun _ => past := by
  refine .step advance_gives fun keyword hkeyword => ?_
  extract_lets kind
  refine .step looks_gives fun inRoutine _ => ?_
  extract_lets finish
  have hfinish : ∀ u, Opens tokens fails SingleRoutine past (finish u) fun _ => past := by
    intro u
    refine .step returnType_gives fun returned _ => .step (definedName_gives hkeyword) fun found hname => ?_
    split
    extract_lets body
    split
    · exact .step (Accounts.pure (Q := Whatever) fun _ _ => trivial) fun _ _ =>
        routineBody_opens hn hkeyword hname
    · exact .step looks_gives fun _ _ => routineBody_opens hn hkeyword hname
  split
  · exact .step (remark_gives (.token hkeyword)) fun u _ => hfinish u
  · exact hfinish ()

/-! ### Classes -/

theorem fieldDeclarations_opens [Additive S] {line : Nat} :
    Opens tokens fails S past (fieldDeclarations id line) fun _ => past := by
  refine .step declarators_gives.attempt fun found _ => ?_
  cases found with
  | none => exact .plain skipLine_gives
  | some declarations =>
    exact .step endOfStatement_gives fun _ _ => modify_opens fun count r =>
      r.opened_names (Reader.scopes_modify _ _ fun _ => rfl)

theorem member_opens (hn : nested.Opens tokens) {className : String} {line : Nat} :
    Opens tokens fails (Only (· ≠ .block)) past (member nested id className line) fun _ => past := by
  refine .step peek_gives fun token htoken => ?_
  split
  · exact hn.routine _ _
  · exact hn.routine _ _
  · exact hn.classDef _ _
  · exact .step advance_gives fun _ _ => fieldDeclarations_opens
  · exact fieldDeclarations_opens
  · exact fieldDeclarations_opens
  · exact .step (remark_gives (.token htoken)) fun _ _ => .plain skipLine_gives

theorem classItem_opens (hn : nested.Opens tokens) {className : String} :
    Opens tokens fails (Only (· ≠ .block)) past (classItem nested id className ())
      fun next => next.elim past fun _ => past := by
  refine .step get_gives fun r _ => ?_
  split
  · exact .pure (.refl _)
  · extract_lets line
    refine .step acceptAny?_gives fun found hfound => ?_
    cases found with
    | none => exact (member_opens hn).bind fun _ => .pure (.refl _)
    | some modifier =>
      refine .step onLine_gives fun _ _ => ?_
      split
      · exact (member_opens hn).bind fun _ => .pure (.refl _)
      · exact .step (remark_gives (.token (hfound _ rfl))) fun _ _ => .pure (.refl _)

/-- Once a class is open, the scope of its fields is at hand. -/
theorem openClass_opened {name : String} {nameSpan span : Span} (htokens : r.tokens = tokens)
    (hcount : count ≤ r.errors) (hname : Place tokens nameSpan) :
    Yields (openClass name nameSpan span) r
      (fun id r' => id = r.classes.size ∧ ∃ draft : ClassDef, draft.scope = r.parents.length ∧
        Reader.Opened count
          { r with layout := r.layout.enterClass r.classes.size, classes := r.classes.push draft } r' [])
      (fun _ => False) := by
  have hregister : Opens tokens False (Only fun _ => False) []
      (registerClass r.classes.size name nameSpan) fun _ => [] := by
    refine .step get_gives fun _ _ => ?_
    split
    · exact .plain (remark_gives hname)
    · split
      · exact .pure (.refl _)
      · exact modify_opens fun count r => r.opened_names rfl
  refine Yields.look_bind (Yields.modify_bind (Yields.bind ?_))
  refine (hregister count _ ?_ ?_).mono ?_ fun _ he => he.1.elim
  · exact htokens
  · exact hcount
  · rintro _ r' ⟨opened, hopened, hnone, -⟩
    obtain rfl : opened = [] := List.eq_nil_iff_forall_not_mem.mpr fun region h => hnone region h
    exact ⟨rfl, _, r.length_parents.symm, hopened⟩

/-- A class opens its own region, with nothing but definitions in it. -/
def SingleClass (opened : List Region) : Prop :=
  ∃ inside, opened = [.mk .classBody inside] ∧ Only (· ≠ .block) inside

theorem classDefinition_opens (hn : nested.Opens tokens) :
    Opens tokens fails SingleClass past (classDefinition nested) fun _ => past := by
  refine .step advance_gives fun keyword hkeyword => .step looks_gives fun isNested _ => ?_
  extract_lets finish
  have hfinish : ∀ u, Opens tokens fails SingleClass past (finish u) fun _ => past := by
    intro u
    refine .step (definedName_gives hkeyword) fun found hname => .step endOfStatement_gives fun _ _ => ?_
    obtain ⟨name, nameSpan⟩ := found
    intro count r htokens hcount
    refine Yields.bind ((openClass_opened htokens hcount hname).mono ?_ fun _ he => he.elim)
    rintro id entered ⟨rfl, draft, hdraft, hentered⟩
    have hmembers : Opens tokens False (Only (· ≠ .block)) [] (inFreshBlock .classBody do
        iterate (classItem nested r.classes.size name) ()
        expectEnd .classBody keyword) fun _ => [] :=
      inFreshBlock_opens (Opens.andThen (.iterate (T := fun _ => []) fun _ => classItem_opens hn) fun _ =>
        (expectEnd_gives hkeyword).result fun _ _ _ => .refl _)
    refine Yields.bind ((hmembers count entered (hentered.tokens.trans htokens)
      (Nat.le_trans hcount hentered.errors)).mono ?_ fun _ he => he.1.elim)
    rintro _ r' ⟨inside, hinside, hkinds, -⟩
    refine ⟨_, (hentered.trans hinside).closeClass hdraft, ⟨inside, rfl, hkinds⟩, ?_⟩
    intro flawed _ before hbefore
    simpa using hbefore.append (.definition (by simp [Region.kind]) .nil)
  split
  · exact .step (remark_gives (.token hkeyword)) fun u _ => hfinish u
  · exact hfinish ()

/-! ### At any depth -/

theorem Nested.opens_level (tokens : Array Token) (n : Nat) : (Nested.level n).Opens tokens := by
  induction n with
  | zero =>
    refine ⟨fun _ past => ?_, fun _ _ => .pure (.refl _), fun _ _ => .pure (.refl _)⟩
    exact .step peek_gives fun _ htoken => .step (remark_gives (.token htoken)) fun _ _ =>
      .pure (by simp)
  | succ n ih =>
    refine ⟨fun _ _ => statement_opens ih, fun _ _ => ?_, fun _ _ => ?_⟩
    · refine (routineDefinition_opens ih).shaped ?_
      rintro _ ⟨inside, rfl⟩
      simp [Only, Region.kind]
    · refine (classDefinition_opens ih).shaped ?_
      rintro _ ⟨inside, rfl, -⟩
      simp [Only, Region.kind]

/-- Read from here, the part never gives up.  It comes back to where the reader stands, and has opened
regions of which `S` holds.  Of these it keeps `T a`, where `a` is what it gives; blocks are left out
only where an error was reported. -/
def Reader.Balances (r : Reader) (x : Read α) (S : List Region → Prop) (T : α → List Region) : Prop :=
  ∃ a r' opened, x r = .ok a r' ∧ r.Opened r.errors r' opened ∧ S opened ∧
    Mirrors (r.errors < r'.errors) opened (T a)

theorem Opens.balances {α : Type} {x : Read α} {T : α → List Region}
    (h : Opens r.tokens False S [] x T) : r.Balances x S T := by
  have hrun := h r.errors r rfl (Nat.le_refl _)
  unfold Yields at hrun
  cases hx : x r with
  | error _ _ =>
    rw [hx] at hrun
    exact hrun.1.elim
  | ok a r' =>
    rw [hx] at hrun
    obtain ⟨opened, hopened, hshape, hkept⟩ := hrun
    exact ⟨a, r', opened, hx, hopened, hshape, hkept _ id [] .nil⟩

/-- **Reading is balanced.**  A reader comes back from statements, blocks, routines and classes to where
it stood, and the scopes that were opened are those of what was read. -/
theorem context_balanced (r : Reader) (n : Nat) :
    r.Balances (statement (Nested.level n)) (Only (· = .block)) (fun found => found.elim [] Stmt.regions) ∧
      r.Balances (block (Nested.level n)) (Single .block) (fun body => [Stmt.blockRegion body]) ∧
      r.Balances (routineDefinition (Nested.level n)) SingleRoutine (fun _ => []) ∧
      r.Balances (classDefinition (Nested.level n)) SingleClass (fun _ => []) := by
  have hn := Nested.opens_level r.tokens n
  exact ⟨(statement_opens hn).balances, (block_opens hn).balances, (routineDefinition_opens hn).balances,
    (classDefinition_opens hn).balances⟩

/-- A routine that is written inside a block, next to a variable. -/
def routineInBlock : String :=
  "If True Then
    Declare Integer near = 1
    Module m()
    End Module
End If
"

/-- The scope of the routine does not hang under that of the block which it is written in. -/
theorem parent_of_routineInBlock :
    (Program.ofSource routineInBlock).2 = [] ∧
      (Program.ofSource routineInBlock).1.symbols.entries.map (·.scope) = #[1] ∧
      (Program.ofSource routineInBlock).1.routines.map (·.scope) = #[2] ∧
      (Program.ofSource routineInBlock).1.symbols.scopes.map (·.parent)
        = #[none, some 0, some 0, some 2] := by
  decide +kernel

end Primer.Grammar
