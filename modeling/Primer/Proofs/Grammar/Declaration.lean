/-
Declarations say only what is in order where they stand, of the names they introduce as well.

A declaration adds a variable to the scope at hand and keeps it where the home of the scope keeps
its variables.  Nothing that was there before changes, and the variable belongs to a routine only
if that routine is open.
-/
import Primer.Proofs.Grammar.Expression

namespace Primer.Grammar

variable {kind : DeclarationKind} {init : Option Initializer} {name : Token} {rank : Nat}

/-! ### Adding a variable -/

namespace Reader

variable {r : Reader} {homes : List Home} {home : Home}

/-- The reader after a name was declared. -/
def declaring (r : Reader) (name : Token) (type : TypeName) (rank : Nat) (kind : DeclarationKind) :
    Reader :=
  { r with layout := (r.layout.declare name.lexeme type rank kind name.span).2 }

variable (name : Token) (type : TypeName) (rank : Nat) (kind : DeclarationKind)

theorem variableAt_declaring (r : Reader) (x : VarId) :
    (r.declaring name type rank kind).variableAt x
      = if x = r.layout.table.entries.size
        then r.layout.declared name.lexeme type rank kind name.span else r.variableAt x :=
  r.layout.variableAt_declare name.lexeme type rank kind name.span x

theorem size_declaring (r : Reader) :
    (r.declaring name type rank kind).layout.table.entries.size
      = r.layout.table.entries.size + 1 :=
  r.layout.size_entries_declare name.lexeme type rank kind name.span

theorem grows_declaring (hs : r.layout.scope < r.layout.table.scopes.size) :
    r.Grows (r.declaring name type rank kind) := by
  have counted := r.layout.counted_nextPlace kind
  refine
    { entries := ?_
      variableAt := ?_
      parents := ?_
      classScopes := fun _ _ hc => hc
      routines := fun _ _ ho => ho
      problems := fun _ hp => hp
      pendingCalls := fun _ hc => hc
      toSameContext := ⟨rfl, rfl, rfl⟩
      scope := counted.scope
      saved := counted.saved
      openRoutines := counted.routines
      outer := congrArg (List.map (·.params)) counted.outer
      classes := counted.classes }
  · rw [size_declaring]
    exact Nat.le_succ _
  · intro x hx
    rw [variableAt_declaring, if_neg (Nat.ne_of_lt hx)]
  · intro s q hq
    show ((r.layout.declare name.lexeme type rank kind name.span).2.table.scopeAt s).parent = some q
    rw [Layout.scopeAt_declare _ _ _ _ _ _ hs]
    split
    · rename_i h
      subst h
      exact hq
    · exact hq

theorem leads_declaring (hs : r.layout.scope < r.layout.table.scopes.size)
    (hk : ∀ b, kind ≠ .parameter b) : r.Leads (r.declaring name type rank kind) := by
  refine ⟨grows_declaring name type rank kind hs, ?_⟩
  have hparams := r.layout.params_nextPlace hk
  show (r.layout.nextPlace kind).2.2.routines.head?.map (·.params) = _
  rw [← List.head?_map, ← List.head?_map, hparams]

/-- **A declaration keeps what was known of the reader**, as it keeps what was known of the
layout. -/
theorem Sound.declaring (h : r.Sound homes home)
    (hl : (r.layout.declare name.lexeme type rank kind name.span).2.Sound homes r.classScopes home) :
    (r.declaring name type rank kind).Sound homes home := by
  have grows := grows_declaring name type rank kind h.layout.scope_lt
  refine h.relayout ⟨rfl, rfl, rfl, rfl⟩ grows.toExtends hl grows.openRoutines grows.openClasses ?_ ?_
  · intro x hge hx id hid
    rw [size_declaring] at hx
    rw [variableAt_declaring, if_pos (Nat.le_antisymm (Nat.le_of_lt_succ hx) hge)] at hid
    -- The new variable belongs to the routine at hand.
    have hcurrent : r.layout.routines.head?.map (·.id) = some id := hid
    rw [← List.head?_map] at hcurrent
    exact List.mem_of_mem_head? hcurrent
  · intro c s hc hclosed
    show ((r.layout.declare name.lexeme type rank kind name.span).2.table.scopeAt s).members = _
    rw [Layout.scopeAt_declare _ _ _ _ _ _ h.layout.scope_lt, if_neg]
    intro heq
    subst heq
    -- Only an open class has its field scope at hand.
    have hhome := h.layout.home_eq ((h.layout.table.classHomes c _).mp hc)
    have hfields := h.layout.fields
    rw [← hhome] at hfields
    have hcurrent : r.layout.classes.head?.map (·.id) = some c := hfields.symm
    rw [← List.head?_map] at hcurrent
    exact hclosed (List.mem_of_mem_head? hcurrent)

/-- What was declared can be seen from where it was declared. -/
theorem Sound.sees_declaring (h : (r.declaring name type rank kind).Sound homes home) :
    (r.declaring name type rank kind).Sees home r.layout.table.entries.size := by
  have hlt : r.layout.table.entries.size
      < (r.declaring name type rank kind).layout.table.entries.size := by
    rw [size_declaring]
    exact Nat.lt_succ_self _
  refine ⟨hlt, h.layout.seen hlt ?_⟩
  have hscope : (r.declaring name type rank kind).layout.scope = r.layout.scope :=
    (r.layout.counted_nextPlace kind).scope
  rw [hscope]
  show ((r.declaring name type rank kind).variableAt _).scope = _
  rw [variableAt_declaring, if_pos rfl]
  rfl

end Reader

variable {home : Home} {fails : Prop} {old : List Note}

/-- Names of this kind are declared at such a home. -/
def DeclaredAt (home : Home) : DeclarationKind → Prop
  | .plain | .constant => home.HoldsStatements
  | .field => ∃ c, home = some (.classBody c)
  | .parameter _ => False

theorem DeclaredAt.sound {homes : List Home} {classScopes : Array ScopeId} {l : Layout}
    (hk : DeclaredAt home kind) (h : l.Sound homes classScopes home) (name : String)
    (type : TypeName) (rank : Nat) (span : Span) :
    (l.declare name type rank kind span).2.Sound homes classScopes home := by
  cases kind with
  | plain => exact h.declare_plain hk (Or.inl rfl)
  | constant => exact h.declare_plain hk (Or.inr rfl)
  | field =>
    obtain ⟨c, rfl⟩ := hk
    exact h.declare_field
  | parameter _ => exact hk.elim

/-- What is declared is kept where its home keeps its variables. -/
theorem DeclaredAt.storage {homes : List Home} {classScopes : Array ScopeId} {l : Layout}
    (hk : DeclaredAt home kind) (h : l.Sound homes classScopes home) (name : String)
    (type : TypeName) (rank : Nat) (span : Span) :
    (l.declared name type rank kind span).storage = home.storage := by
  have hplain : home.HoldsStatements → (l.nextPlace .plain).1 = home.storage := by
    intro hs
    have hroutine := h.routine hs
    unfold Layout.currentRoutine at hroutine
    cases home with
    | none =>
      have hnone : l.routines = [] := by simpa [Home.routine?] using hroutine.symm
      simp [Layout.nextPlace, hnone, Layout.nextStatic, Home.storage]
    | some d =>
      cases d with
      | classBody c => exact absurd rfl (hs c)
      | routine id inside =>
        cases hr : l.routines with
        | nil => simp [hr, Home.routine?] at hroutine
        | cons o rest => simp [Layout.nextPlace, hr, Home.storage]
  cases kind with
  | plain => exact hplain hk
  | constant => exact hplain hk
  | field =>
    obtain ⟨c, rfl⟩ := hk
    have hclass := h.fields
    unfold Layout.currentClass at hclass
    cases hc : l.classes with
    | nil => simp [hc, Home.fields?] at hclass
    | cons o rest => simp [Layout.declared, Layout.nextPlace, hc, Home.storage]
  | parameter _ => exact hk.elim

theorem declareName_yields (r : Reader) {type : TypeName} :
    Yields (declareName name type rank kind) r
      (fun id r' => id = r.layout.table.entries.size ∧ (r.declaring name type rank kind).Quiet r')
      (fun _ => False) := by
  refine Yields.look_bind (Yields.modifyGet_bind ?_)
  cases r.layout.firstDeclaration? name.lexeme with
  | some line => exact ⟨rfl, Reader.quiet_report _ _⟩
  | none => exact ⟨rfl, .refl _⟩

theorem declareName_reads {type : TypeName} (hk : DeclaredAt home kind) :
    Reads home fails old (declareName name type rank kind)
      (fun id => [.declared id, .sized id rank, .mention id]) := by
  rintro known r ⟨homes, hknown, hr⟩ hold
  refine (declareName_yields r).mono ?_ (fun _ h => h.elim)
  rintro id r' ⟨rfl, hq⟩
  have hsound := hr.declaring name type rank kind (hk.sound hr.layout _ _ _ _)
  have hleads := Reader.leads_declaring name type rank kind hr.layout.scope_lt
    (fun b hb => by rw [hb] at hk; exact hk)
  refine ⟨hleads.trans hq.leads, ⟨homes, hknown, hsound.quiet hq⟩, fun n hn => ?_⟩
  have hsees := hsound.sees_declaring name type rank kind
  rcases List.mem_cons.mp hn with rfl | hn
  · refine Or.inl (hq.extends.allows (n := .declared _) ⟨hsees.1, ?_⟩)
    rw [Reader.variableAt_declaring, if_pos rfl]
    exact hk.storage hr.layout _ _ _ _
  rcases List.mem_cons.mp hn with rfl | hn
  · refine Or.inl (hq.extends.allows (n := .sized _ _) ⟨hsees.1, ?_⟩)
    rw [Reader.variableAt_declaring, if_pos rfl]
    rfl
  · obtain rfl := List.mem_singleton.mp hn
    exact Or.inl (hq.extends.sees hsees)

/-! ### Types and starting values -/

theorem typeName_reads :
    Reads home fails old typeName (fun _ => []) := by
  refine advance_reads.bind fun token => ?_
  split
  · exact .pure (by simp)
  · exact deferType_reads.bind fun _ => .pure (by simp)

theorem declaredType?_reads :
    Reads home True old declaredType? (fun _ => []) := by
  refine look_reads.bind fun _ => ?_
  split
  · exact typeName_reads.map (by simp)
  · refine check_reads.bind fun _ => ?_
    split
    · exact .pure (by simp)
    · exact look_reads.bind fun _ => abandon_reads

theorem initializerOne_reads :
    Reads home True old (Initializer.one <$> expression) Initializer.notes :=
  expression_reads.map (by simp [Initializer.notes_one])

theorem listWithin_reads (n : Nat) : ∀ {old},
    Reads home True old (listWithin n) Initializer.notes := by
  induction n with
  | zero => exact fun {old} => expect_reads.bind fun _ => .pure (by simp [Initializer.mem_notes_list])
  | succ n ih =>
    intro old
    refine expect_reads.bind fun _ => check_reads.bind fun _ => ?_
    extract_lets finish
    have hfinish : ∀ items old, (∀ v ∈ items.flatMap Initializer.notes, v ∈ old) →
        Reads home True old (finish items) Initializer.notes := by
      intro items old hitems
      exact expect_reads.bind fun _ => .pure (by grind)
    split
    · exact hfinish [] _ (by simp)
    · refine .bind (m := (·.flatMap Initializer.notes)) (commaSeparated_reads ?_) fun items =>
        hfinish items _ (by simp +contextual)
      intro old
      refine check_reads.bind fun _ => ?_
      split
      · exact ih
      · exact initializerOne_reads

theorem initializerList_reads : Reads home True old initializerList Initializer.notes :=
  .choose (fun r => listWithin r.remaining) (fun _ => rfl) fun r => listWithin_reads r.remaining

theorem initializerItem_reads : Reads home True old initializerItem Initializer.notes := by
  refine check_reads.bind fun _ => ?_
  split
  · exact initializerList_reads
  · exact initializerOne_reads

theorem initializer_reads {isArray : Bool} :
    Reads home True old (initializer isArray) Initializer.notesOf := by
  refine check_reads.bind fun _ => ?_
  split
  · refine peek_reads.bind fun _ => initializerList_reads.bind fun list => ?_
    split
    · exact .pure (by simp +contextual [Initializer.notesOf])
    · exact report_reads.bind fun _ => .pure (by simp [Initializer.notesOf])
  · refine expression_reads.bind fun first => check_reads.bind fun _ => ?_
    split
    · refine .bind (.iterate (m := (·.flatMap Initializer.notes)) ?_ fun items => ?_) fun items => ?_
      · simp +contextual [Initializer.notes_one]
      · refine accept_reads.bind fun _ => ?_
        split
        · exact initializerItem_reads.bind fun _ => .pure (by grind)
        · exact .pure (by simp)
      · refine .pure ?_
        simp only [Initializer.notesOf, Initializer.mem_notes_list]
        grind
    · refine .pure ?_
      simp +contextual [Initializer.notesOf, Initializer.notes_one]

theorem startingValue_reads {isArray : Bool} :
    Reads home True old (startingValue name isArray) Initializer.notesOf := by
  refine check_reads.bind fun _ => ?_
  split
  · exact advance_reads.bind fun _ => initializer_reads
  · refine check_reads.bind fun _ => ?_
    split
    · exact peek_reads.bind fun _ => report_reads.bind fun _ => advance_reads.bind fun _ =>
        initializer_reads
    · exact .pure (by simp [Initializer.notesOf])

theorem literalMismatch_reads {declared : TypeName} {value : Expr} :
    Reads home fails old (literalMismatch declared value) (fun _ => []) := by
  unfold literalMismatch
  split
  · exact .pure (by simp)
  · split
    · exact .pure (by simp)
    · exact report_reads.bind fun _ => .pure (by simp)

theorem checkedInitializer_reads {declared : TypeName}
    (h : ∀ v ∈ Initializer.notesOf init, v ∈ old) :
    Reads home fails old (checkedInitializer declared rank init) Initializer.notesOf := by
  unfold checkedInitializer
  split
  · refine literalMismatch_reads.bind fun _ => ?_
    split
    · exact .pure (by simp [Initializer.notesOf])
    · exact .pure (by simpa using h)
  · exact .pure h

/-! ### Sizes -/

/-- What the sizes that are given say. -/
def notesGiven (sizes : List (Option Expr)) : List Note := sizes.flatMap Expr.notesOf

theorem sizeGroup_reads : Reads home True old sizeGroup notesGiven := by
  refine check_reads.bind fun _ => ?_
  extract_lets finish
  have hfinish : ∀ sizes old, (∀ v ∈ notesGiven sizes, v ∈ old) →
      Reads home True old (finish sizes) notesGiven :=
    fun sizes old hsizes => expect_reads.bind fun _ => .pure hsizes
  split
  · exact hfinish [none] _ (by simp [notesGiven, Expr.notesOf])
  · refine .bind (m := notesGiven) ?_ fun sizes => hfinish sizes _ (by simp +contextual)
    refine (commaSeparated_reads expression_reads).map ?_
    simp [notesGiven, List.flatMap_map, Expr.notesOf]

theorem sizes_reads : Reads home True old sizes notesGiven := by
  refine .iterate (by simp [notesGiven]) fun sizes => accept_reads.bind fun _ => ?_
  split
  · refine sizeGroup_reads.bind fun group => .pure ?_
    simp only [Option.elim_some, notesGiven, List.flatMap_append]
    grind
  · exact .pure (by simp)

theorem settleSize_yields (r : Reader) {size : Option Expr} :
    Yields (settleSize rank init name size) r
      (fun e r' => r.Quiet r' ∧ ∀ n ∈ e.notes, n ∈ Expr.notesOf size) (fun _ => False) := by
  have hmissing : Yields (settleSize.missing name) r
      (fun e r' => r.Quiet r' ∧ ∀ n ∈ e.notes, n ∈ Expr.notesOf size) (fun _ => False) :=
    ⟨r.quiet_report _, by simp [Expr.notes]⟩
  unfold settleSize
  split
  · exact ⟨.refl r, fun _ hn => hn⟩
  · split
    · split
      · exact ⟨.refl r, by simp [Expr.notes]⟩
      · exact hmissing
    · exact hmissing

/-- Every dimension gets its size, and there are no others. -/
theorem settleSizes_yields (r : Reader) (given : List (Option Expr)) :
    Yields (settleSizes rank init name given) r
      (fun dims r' => r.Quiet r' ∧ dims.length = given.length ∧
        ∀ n ∈ Expr.notesAll dims, n ∈ notesGiven given) (fun _ => False) := by
  induction given generalizing r with
  | nil => exact ⟨.refl r, rfl, by simp [Expr.notesAll]⟩
  | cons size rest ih =>
    refine Yields.bind ((settleSize_yields r).mono ?_ (fun _ h => h))
    rintro first r₁ ⟨hq₁, hfirst⟩
    refine Yields.bind ((ih r₁).mono ?_ (fun _ h => h))
    rintro others r₂ ⟨hq₂, hlength, hothers⟩
    refine ⟨hq₁.trans hq₂, congrArg Nat.succ hlength, fun n hn => ?_⟩
    simp only [Expr.notesAll, List.mem_append] at hn
    simp only [notesGiven, List.flatMap_cons, List.mem_append]
    exact hn.imp (hfirst n) (hothers n)

/-! ### Declarations -/

theorem settleType_reads {declared : Option TypeName} {reported : Bool} :
    Reads home fails old (settleType declared reported init name) (fun _ => []) := by
  unfold settleType
  split
  · exact .pure (by simp)
  · split
    · exact .pure (by simp)
    · exact report_reads.bind fun _ => .pure (by simp)

theorem declarator_reads {declared : Option TypeName} {reported : Bool}
    (hk : DeclaredAt home kind) :
    Reads home True old (declarator kind declared reported) (fun found => found.1.notes) := by
  refine expect_reads.bind fun name => sizes_reads.bind fun given => ?_
  refine startingValue_reads.bind fun init => settleType_reads.bind fun settled => ?_
  refine .quietly (fun r => settleSizes_yields r given) fun dims ⟨hrank, hdims⟩ => ?_
  refine (declareName_reads hk).bind fun id => ?_
  extract_lets finish
  have hfinish : ∀ u old,
      (∀ n ∈ .declared id :: .sized id given.length :: .mention id :: notesGiven given, n ∈ old) →
      (∀ n ∈ Initializer.notesOf init, n ∈ old) →
      Reads home True old (finish u) (fun found => found.1.notes) := by
    intro u old hrest hinit
    refine (checkedInitializer_reads hinit).bind fun kept => look_reads.bind fun last => .pure ?_
    simp only [Declaration.notes, hrank]
    grind
  split
  · exact report_reads.bind fun u => hfinish u _ (by simp +contextual) (by simp +contextual)
  · exact hfinish () _ (by simp +contextual) (by simp +contextual)

theorem declarators_reads (hk : DeclaredAt home kind) :
    Reads home True old (declarators kind) Declaration.notesAll := by
  refine declaredType?_reads.bind fun declared => (declarator_reads hk).bind fun first => ?_
  refine .bind (.iterate (m := fun found => Declaration.notesAll found.1) ?_ fun found => ?_)
    fun found => ?_
  · simp +contextual [Declaration.notesAll]
  · refine accept_reads.bind fun _ => ?_
    split
    · exact (declarator_reads hk).bind fun next => .pure (by grind [Declaration.notesAll])
    · exact .pure (by simp)
  · exact .pure (by simp +contextual [Declaration.notesAll])

theorem declarationStatement_reads {start : Span} (hk : DeclaredAt home kind) :
    Reads home True old (declarationStatement kind start) Stmt.notes :=
  (declarators_reads hk).bind fun _ => look_reads.bind fun _ => endOfStatement_reads.bind fun _ =>
    .pure (by simp +contextual [Stmt.notes])

end Primer.Grammar
