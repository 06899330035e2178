/-
Blocks, routines and classes come back to where they started.

What stands in a block is read at the home of the block; a routine or class inside of it is
read at a home of its own.  Either way the reader returns to the scope it came from, with
everything it knew before.  How statements are read is left open here: it is enough that
they keep to their home.
-/
import Primer.Proofs.Grammar.Declaration
import Primer.Proofs.Grammar.Definition

namespace Primer.Grammar

variable {home : Home} {fails : Prop} {old : List Note} {nested : Nested} {known homes : List Home}
  {name : String} {id : ClassId} {r r₀ r' : Reader} {span : Span} {kind : BlockKind}
  {params : List VarId} {keyword : Token} {line : Nat}

/-- Statements and definitions keep to the home they stand at and are never given up. -/
structure Nested.Sound (nested : Nested) : Prop where
  statement : ∀ home fails old, home.HoldsStatements →
    Reads home fails old nested.statement (·.elim [] Stmt.notes)
  routine : ∀ home fails (old : List Note), Reads home fails old nested.routine (fun _ => [])
  classDef : ∀ home fails (old : List Note), Reads home fails old nested.classDef (fun _ => [])

/-! ### Blocks -/

theorem blockItem_reads (hn : nested.Sound) (hs : home.HoldsStatements) {statements : List Stmt}
    (h : ∀ n ∈ Stmt.notesAll statements, n ∈ old) :
    Reads home fails old (blockItem nested statements) (·.elim [] Stmt.notesAll) := by
  refine get_reads.bind fun r => ?_
  extract_lets kind
  clear_value kind
  split
  · exact .pure (by simp)
  · split
    · exact (hn.routine _ _ _).bind fun _ => .pure (by simpa using h)
    · exact (hn.routine _ _ _).bind fun _ => .pure (by simpa using h)
    · exact (hn.classDef _ _ _).bind fun _ => .pure (by simpa using h)
    · refine (hn.statement _ _ _ hs).bind fun found => ?_
      split
      · refine .pure ?_
        simp only [Option.elim_some, Stmt.notesAll]
        grind
      · exact .pure (by simpa using h)

theorem block_reads (hn : nested.Sound) (hs : home.HoldsStatements) :
    Reads home fails old (block nested) Stmt.blockNotes := by
  rintro known r ⟨homes, hknown, hr⟩ hold
  refine Yields.look_bind (Yields.modify_bind ?_)
  have hinside := hr.pushScope hs
  have hpush : r.Extends { r with layout := r.layout.pushScope } :=
    .of_addScope (q := r.layout.scope) rfl (fun _ _ hc => hc) (fun _ _ ho => ho) rfl rfl
  have hloop : Reads home False [] (iterate (blockItem nested) []) Stmt.notesAll :=
    .iterate (by simp [Stmt.notesAll]) fun statements => blockItem_reads hn hs (by simp +contextual)
  -- The homes of all scopes so far are known inside, so that of the scope to go back to is.
  refine hloop.next (.refl _) ⟨_, List.prefix_rfl, hinside⟩ ?_ False.elim
  rintro statements r' hleads ⟨homes', hknown', hr'⟩ hallows
  refine Yields.modify_bind ?_
  have hparent : (r'.layout.table.scopeAt r'.layout.scope).parent = some r.layout.scope := by
    rw [hleads.scope]
    refine hleads.parents _ _ ?_
    show ((r.layout.table.addScope r.layout.scope).scopeAt r.layout.table.scopes.size).parent = _
    rw [SymbolTable.scopeAt_addScope, if_pos rfl]
  have hhomes : homes'[r.layout.scope]? = some home := by
    obtain ⟨more, rfl⟩ := hknown'
    rw [List.append_assoc]
    exact (List.getElem?_append_left (List.getElem?_eq_some_iff.mp hr.layout.here).1).trans
      hr.layout.here
  rw [Reader.popScope_eq hparent]
  refine ⟨?_, ⟨homes', ?_, hr'.backTo hhomes⟩, ?_⟩
  · exact
      { toExtends := (hpush.trans hleads.toExtends).trans
          (.of_table rfl (fun _ _ hc => hc) (fun _ _ ho => ho) rfl rfl)
        toSameContext := ⟨hleads.openBlocks, hleads.loopDepth, hleads.inTest⟩
        scope := rfl
        saved := hleads.saved
        openRoutines := hleads.openRoutines
        outer := hleads.outer
        classes := hleads.classes
        params := hleads.params }
  · exact hknown.trans ((List.prefix_append _ _).trans hknown')
  · intro n hn
    refine hallows n ?_
    rw [Stmt.mem_notesAll]
    have hn' : n ∈ Stmt.notesAll statements.reverse := hn
    rw [Stmt.mem_notesAll] at hn'
    simpa using hn'

/-- Which constructs and loops are open says nothing about definitions. -/
theorem Reader.still_blocks (r : Reader) (blocks : List BlockKind) (depth : Nat) :
    r.Still { r with openBlocks := blocks, loopDepth := depth } :=
  ⟨⟨rfl, rfl, rfl, rfl⟩, rfl, fun _ hp => hp, fun _ hc => hc⟩

theorem inBlock_reads {α : Type} {part : Read α} {m : α → List Note}
    (h : Reads home False old part m) : Reads home fails old (inBlock kind part) m := by
  intro known r hr hold
  have hinside := r.still_blocks (kind :: r.openBlocks) r.loopDepth
  refine Yields.modify_bind ((around_yields h hr hinside
    (fun v hv => (hold v hv).mono hinside.extends (Nat.le_refl _))
    (fun r₂ => r₂.still_blocks _ _) ?_).mono ?_ (fun _ he => he.elim))
  · intro r₂ hsame
    exact ⟨by simp [hsame.openBlocks], hsame.loopDepth, hsame.inTest⟩
  · rintro a r' ⟨hleads, hr', r₂, hinside, he, hpermits⟩
    refine ⟨hleads, hr', fun v hv => (hpermits v hv).mono he (Nat.le_of_eq ?_)⟩
    rw [hinside.loopDepth, hleads.loopDepth]

/-- A loop is what the jumps of its body are for. -/
theorem inLoop_reads {α : Type} {part : Read α} {m : α → List Note}
    (h : Reads home False [] part m) :
    Reads home fails old (inLoop part) (fun a => Note.inLoop (m a)) := by
  intro known r hr _
  refine Yields.modify_bind ((around_yields h hr (r.still_blocks _ _) (by simp)
    (fun r₂ => r₂.still_blocks _ _) ?_).mono ?_ (fun _ he => he.elim))
  · intro r₂ hsame
    exact ⟨hsame.openBlocks, by simp [hsame.loopDepth], hsame.inTest⟩
  · rintro a r' ⟨hleads, hr', r₂, -, he, hpermits⟩
    refine ⟨hleads, hr', fun v hv => ?_⟩
    obtain ⟨hv, hjump⟩ := Note.mem_inLoop.mp hv
    exact Or.inl (he.allows ((hpermits v hv).allows_of_not_jump hjump))

/-- The loops outside are for none of the jumps inside. -/
theorem inFreshBlock_yields {α : Type} {part : Read α} {m : α → List Note}
    (h : Reads home False [] part m) (hr : r.Stands known home) :
    Yields (inFreshBlock kind part) r
      (fun a r' => r.Leads r' ∧ r'.Stands known home ∧ ∀ v ∈ m a, r'.Allows home v)
      (fun _ => False) := by
  refine Yields.get_bind (Yields.modify_bind ((around_yields h hr (r.still_blocks _ _) (by simp)
    (fun r₂ => r₂.still_blocks _ _) ?_).mono ?_ (fun _ he => he)))
  · intro r₂ hsame
    exact ⟨rfl, rfl, hsame.inTest⟩
  · rintro a r' ⟨hleads, hr', r₂, hinside, he, hpermits⟩
    exact ⟨hleads, hr', fun v hv => he.allows ((hpermits v hv).allows hinside.loopDepth)⟩

/-! ### Parameters -/

theorem parameterType_reads : Reads home True old parameterType (fun _ => []) := by
  refine acceptAny?_reads.bind fun mark => ?_
  split
  · refine look_reads.bind fun _ => ?_
    split
    · exact report_reads.bind fun _ => typeName_reads.bind fun _ => .pure (by simp)
    · refine check_reads.bind fun _ => ?_
      split
      · exact report_reads.bind fun _ => .pure (by simp)
      · exact look_reads.bind fun _ => abandon_reads
  · refine look_reads.bind fun _ => ?_
    split
    · exact typeName_reads.bind fun _ => .pure (by simp)
    · refine check_reads.bind fun _ => ?_
      split
      · exact peek_reads.bind fun _ => report_reads.bind fun _ => .pure (by simp)
      · exact look_reads.bind fun _ => abandon_reads

theorem refMark_reads {marked : Bool} : Reads home fails old (refMark marked) (fun _ => []) := by
  refine acceptAny?_reads.bind fun mark => ?_
  split
  · extract_lets finish
    split
    · exact report_reads.bind fun _ => .pure (by simp)
    · exact .pure (by simp)
  · exact .pure (by simp)

theorem parameterRank_reads {type : TypeName} {name : Token} :
    Reads home True old (parameterRank type name) (fun _ => []) := by
  refine .iterate (by simp) fun rank => accept_reads.bind fun _ => ?_
  split
  · refine check_reads.bind fun _ => ?_
    extract_lets finish
    have hfinish : ∀ u (old : List Note), Reads home True old (finish u) (·.elim [] fun _ => []) :=
      fun _ _ => expect_reads.bind fun _ => .pure (by simp)
    split
    · exact hfinish () _
    · exact peek_reads.bind fun _ => report_reads.bind fun _ => skipWhile_reads.bind fun u =>
        hfinish u _
  · exact .pure (by simp)

/-- The parameters read so far, latest first, while `r₀` is being left behind. -/
structure Reader.ReadsParams (r₀ : Reader) (known : List Home) (home : Home) (id : RoutineId)
    (params : List VarId) (r : Reader) : Prop where
  grows : r₀.Grows r
  stands : r.Stands known home
  params : r.HasParams id params.reverse

theorem Reader.ReadsParams.leads {id : RoutineId} (h : r₀.ReadsParams known home id params r)
    (hl : r.Leads r') (hr : r'.Stands known home) :
    r₀.ReadsParams known home id params r' :=
  ⟨h.grows.trans hl.toGrows, hr, h.params.leads hl⟩

/-- A parameter takes the next number below the base. -/
theorem Reader.ReadsParams.declaring {id : RoutineId} (h : r₀.ReadsParams known home id params r)
    (hs : home.HoldsStatements) (name : Token) (type : TypeName) (rank : Nat) (byRef : Bool) :
    r₀.ReadsParams known home id (r.layout.table.entries.size :: params)
      (r.declaring name type rank (.parameter byRef)) := by
  obtain ⟨homes, hknown, hr⟩ := h.stands
  obtain ⟨o, rest, hopen, hid, hlength⟩ := h.params.head
  have hgrows := grows_declaring name type rank (.parameter byRef) hr.layout.scope_lt
  have hplace : r.layout.nextPlace (.parameter byRef)
      = (if byRef then .refArgument else .argument, -((o.params : Int) + 1),
          { r.layout with routines := { o with params := o.params + 1 } :: rest }) := by
    simp [Layout.nextPlace, hopen]
  refine ⟨h.grows.trans hgrows, ⟨homes, hknown, ?_⟩, ?_, ?_⟩
  · exact hr.declaring name type rank _ (hr.layout.declare_parameter hs hopen)
  · refine ⟨{ o with params := o.params + 1 }, rest, ?_, hid, ?_⟩
    · show (r.layout.nextPlace (.parameter byRef)).2.2.routines = _
      rw [hplace]
    · simpa using hlength
  · intro i x hx
    rw [List.reverse_cons, List.getElem?_append] at hx
    split at hx
    · obtain ⟨hlt, hrest⟩ := h.params.params i x hx
      rw [hgrows.variableAt x hlt]
      exact ⟨Nat.lt_of_lt_of_le hlt hgrows.entries, hrest⟩
    · -- The new one comes after the others.
      rename_i hge
      have hi : i = params.reverse.length := by
        have hlt := (List.getElem?_eq_some_iff.mp hx).1
        simp only [List.length_singleton] at hlt
        omega
      have hx' : r.layout.table.entries.size = x := by
        have hmem := List.mem_of_getElem? hx
        exact (List.mem_singleton.mp hmem).symm
      rw [← hx', variableAt_declaring, if_pos rfl, size_declaring]
      refine ⟨Nat.lt_succ_self _, ?_, ?_, ?_⟩
      · cases byRef <;> simp [Variable.IsArgument, Layout.declared, hplace]
      · rw [hi, ← hlength]
        simp [Layout.declared, hplace]
      · simp [Layout.declared, Layout.currentRoutine, hopen, hid]

section Parameters

variable {r₀ : Reader} {known : List Home} {id : RoutineId} {line : Nat} {r : Reader}
  {params : List VarId}

theorem parameter_yields (hs : home.HoldsStatements) (h : r₀.ReadsParams known home id params r) :
    Yields parameter r (fun x r' => r₀.ReadsParams known home id (x :: params) r')
      (fun r' => r₀.ReadsParams known home id params r') := by
  have hE : ∀ r', r.Leads r' → r'.Stands known home → r₀.ReadsParams known home id params r' :=
    fun r' hl hr => h.leads hl hr
  refine parameterType_reads.next (.refl r) h.stands (fun found r hl hr _ => ?_) (fun _ => hE)
  refine refMark_reads.next hl hr (fun byRef r hl hr _ => ?_) False.elim
  refine expect_reads.next hl hr (fun name r hl hr _ => ?_) (fun _ => hE)
  refine parameterRank_reads.next hl hr (fun rank r' hl hr _ => ?_) (fun _ => hE)
  refine (declareName_yields r').mono ?_ (fun _ he => he.elim)
  rintro x r'' ⟨rfl, hq⟩
  have hnew := (hE r' hl hr).declaring hs name found.1 rank byRef
  obtain ⟨homes, hknown, hsound⟩ := hnew.stands
  exact hnew.leads hq.leads ⟨homes, hknown, hsound.quiet hq⟩

theorem parameterOrSkip_yields (hs : home.HoldsStatements)
    (h : r₀.ReadsParams known home id params r) :
    Yields (parameterOrSkip line params) r
      (fun params' r' => r₀.ReadsParams known home id params' r') (fun _ => False) := by
  have hparam := parameter_yields hs h
  refine Yields.bind ?_
  unfold Yields attempt
  unfold Yields at hparam
  cases hx : parameter r with
  | ok x r' =>
    rw [hx] at hparam
    exact hparam
  | error _ r' =>
    rw [hx] at hparam
    refine skipWhile_reads.next (.refl r') hparam.stands (fun _ r'' hl hr _ => ?_) False.elim
    exact hparam.leads hl hr

theorem parameters_yields (hs : home.HoldsStatements) {keyword : Token}
    (h : r₀.ReadsParams known home id [] r) :
    Yields (parameters keyword) r
      (fun params r' => r₀.ReadsParams known home id params.reverse r') (fun _ => False) := by
  refine accept_reads.next (.refl r) h.stands (fun opened r' hl hr _ => ?_) False.elim
  have h' := h.leads hl hr
  split
  · refine check_reads.next (.refl r') hr (fun empty r hl hr _ => ?_) False.elim
    have h' := h'.leads hl hr
    extract_lets finish
    have hfinish : ∀ params r, r₀.ReadsParams known home id params r →
        Yields (finish params) r
          (fun params r' => r₀.ReadsParams known home id params.reverse r') (fun _ => False) := by
      intro params r h
      refine accept_reads.next (.refl r) h.stands (fun closed r' hl hr _ => ?_) False.elim
      have h' := h.leads hl hr
      extract_lets give
      have hgive : ∀ u r, r₀.ReadsParams known home id params r →
          Yields (give u) r
            (fun params r' => r₀.ReadsParams known home id params.reverse r') (fun _ => False) := by
        intro u r h
        show r₀.ReadsParams known home id params.reverse.reverse r
        rw [List.reverse_reverse]
        exact h
      split
      · exact hgive () _ h'
      · refine look_reads.next (.refl r') hr (fun span r hl hr _ => ?_) False.elim
        have h' := h'.leads hl hr
        refine report_reads.next (.refl r) hr (fun u r hl hr _ => ?_) False.elim
        exact hgive u r (h'.leads hl hr)
    split
    · exact hfinish [] r h'
    · refine Yields.bind ((parameterOrSkip_yields hs h').mono (fun first r h' => ?_) (fun _ he => he))
      refine Yields.bind (Yields.mono (Yields.iterate h' ?_) (fun params r h' => hfinish params r h')
        (fun _ he => he))
      intro params r h
      refine accept_reads.next (.refl r) h.stands (fun more r' hl hr _ => ?_) False.elim
      have h' := h.leads hl hr
      split
      · exact Yields.bind ((parameterOrSkip_yields hs h').mono (fun _ _ h => h) (fun _ he => he))
      · exact h'
  · refine reportMissing_reads.next (.refl r') hr (fun _ r hl hr _ => ?_) False.elim
    exact h'.leads hl hr

end Parameters

/-! ### Routines -/

theorem returnType_reads {kind : RoutineKind} :
    Reads home fails old (returnType kind) (fun _ => []) := by
  unfold returnType
  split
  · exact .pure (by simp)
  · refine look_reads.bind fun _ => ?_
    split
    · exact typeName_reads.map (by simp)
    · exact reportMissing_reads.bind fun _ => .pure (by simp)

theorem definedName_reads {problem : Problem} :
    Reads home fails old (definedName keyword problem) (fun _ => []) := by
  refine check_reads.bind fun _ => ?_
  split
  · exact advance_reads.bind fun _ => .pure (by simp)
  · exact look_reads.bind fun _ => report_reads.bind fun _ => .pure (by simp)

namespace Reader

variable {r r' : Reader} {homes known : List Home} {draft : Routine}

theorem MetNested.leads (h : r.MetNested) (e : r.Extends r') : r'.MetNested := by
  obtain ⟨word, span, hmem⟩ := h
  exact ⟨word, span, e.problems _ hmem⟩

theorem Sound.surrounding_routineParent (h : r.Sound homes home) :
    r.surrounding r.layout.currentClass = some r.layout.routineParent := by
  unfold Layout.currentClass Layout.routineParent
  cases hc : r.layout.classes with
  | nil => rfl
  | cons o rest => exact (h.layout.classes o (by simp [hc])).1

theorem owns_openedRoutine (r : Reader) (draft : Routine) :
    (r.openedRoutine draft).Owns draft.classId r.routines.size :=
  ⟨draft, by simp [openedRoutine], rfl⟩

theorem hasParams_openedRoutine (r : Reader) (draft : Routine) :
    (r.openedRoutine draft).HasParams r.routines.size [] :=
  ⟨⟨{ id := r.routines.size }, r.layout.routines, rfl, rfl, rfl⟩, by simp⟩

/-- Closing a routine leads back to where it was opened. -/
theorem Grows.closeRoutine (h : (r.openedRoutine draft).Grows r') (id : RoutineId) (scope : ScopeId)
    (params : List VarId) (body : Block Stmt) :
    r.Leads (r'.closedRoutine id scope params body) := by
  have hsaved : r'.layout.saved = r.layout.scope :: r.layout.saved := h.saved
  have hids : r'.layout.routines.map (·.id) = r.routines.size :: r.openRoutines := h.openRoutines
  have hparams : r'.layout.routines.tail.map (·.params) = r.layout.routines.map (·.params) := h.outer
  refine
    { toExtends := ((extends_openedRoutine r draft).trans h.toExtends).trans
        (extends_closedRoutine r' id scope params body)
      toSameContext := ⟨h.openBlocks, h.loopDepth, h.inTest⟩
      scope := ?_
      saved := ?_
      openRoutines := ?_
      outer := ?_
      classes := h.classes
      params := ?_ }
  · show r'.layout.saved.headD _ = _
    rw [hsaved]
    rfl
  · show r'.layout.saved.tail = _
    rw [hsaved]
    rfl
  · show r'.layout.routines.tail.map (·.id) = _
    rw [List.map_tail, hids]
    rfl
  · show r'.layout.routines.tail.tail.map (·.params) = _
    rw [List.map_tail, hparams, List.map_tail]
  · show r'.layout.routines.tail.head?.map (·.params) = _
    rw [← List.head?_map, hparams, List.head?_map]

end Reader

theorem registerRoutine_yields (hr : r.Sound homes home) {id : RoutineId} {classId : Option ClassId}
    (ho : r.Owns classId id) :
    Yields (registerRoutine id name span classId) r (fun _ r' => r.Leads r' ∧ r'.Sound homes home)
      (fun _ => False) := by
  unfold registerRoutine
  split
  · exact ⟨.refl r, hr⟩
  · refine Yields.get_bind ?_
    split
    · exact ⟨(r.quiet_report _).leads, hr.quiet (r.quiet_report _)⟩
    · exact ⟨r.leads_nameRoutine id name classId, hr.nameRoutine ho⟩

/-- The routine is a method of the class around it, unless it stands inside another routine. -/
def Reader.Accepts (r : Reader) (draft : Routine) : Prop :=
  draft.classId = r.layout.currentClass ∨ draft.classId = none ∧ r.MetNested

theorem routineBody_yields (hn : nested.Sound) (hr : r.Stands known home) {draft : Routine}
    {nameSpan : Span} (hdraft : r.Accepts draft) :
    Yields (routineBody nested keyword draft nameSpan) r
      (fun _ r' => r.Leads r' ∧ r'.Stands known home) (fun _ => False) := by
  obtain ⟨homes, hknown, hr⟩ := hr
  have hclass : ∀ c, draft.classId = some c → c < r.classes.size := by
    intro c hc
    rcases hdraft with heq | ⟨heq, -⟩
    · exact hr.class_lt (heq.symm.trans hc)
    · simp [heq] at hc
  have hs : r.routineHome.HoldsStatements := by intro c hc; cases hc
  -- From here on the reader stands inside the routine.
  refine Yields.bind (Yields.look_bind (Yields.modify_bind (Yields.bind
    ((registerRoutine_yields (hr.openRoutine hclass) (r.owns_openedRoutine draft)).mono ?_
      (fun _ he => he)))))
  rintro _ r₂ ⟨hl₂, hr₂⟩
  refine Yields.pure (Yields.look_bind ?_)
  have hstart : r₂.ReadsParams (homes ++ [r.routineHome]) r.routineHome r.routines.size [] r₂ :=
    ⟨.refl r₂, ⟨_, List.prefix_rfl, hr₂⟩, (r.hasParams_openedRoutine draft).leads hl₂⟩
  refine Yields.bind ((parameters_yields hs hstart).mono ?_ (fun _ he => he))
  rintro params r₃ ⟨hg₃, hr₃, hp₃⟩
  rw [List.reverse_reverse] at hp₃
  refine endOfStatement_reads.next (.refl r₃) hr₃ (fun _ r₄ hl₄ hr₄ _ => ?_) False.elim
  have hbody : Reads r.routineHome False [] (do
      let body ← block nested
      expectEnd (blockKind draft.kind) keyword
      pure body) Stmt.blockNotes :=
    (block_reads hn hs).bind fun _ => expectEnd_reads.bind fun _ => .pure (by simp +contextual)
  refine Yields.bind ((inFreshBlock_yields hbody hr₄).mono ?_ (fun _ he => he))
  rintro body r₅ ⟨hl₅, ⟨homes₅, hknown₅, hr₅⟩, hallows⟩
  replace hl₅ := hl₄.trans hl₅
  have hg₅ : (r.openedRoutine draft).Grows r₅ :=
    (hl₂.toGrows.trans hg₃).trans hl₅.toGrows
  have e₅ := (r.extends_openedRoutine draft).trans hg₅.toExtends
  have hsaved : r₅.layout.saved = r.layout.scope :: r.layout.saved := hg₅.saved
  have hids : r₅.layout.routines.map (·.id) = r.routines.size :: r.openRoutines := hg₅.openRoutines
  have hclasses : r₅.layout.currentClass = r.layout.currentClass := by
    have := hg₅.openClasses
    unfold Layout.currentClass
    rw [← List.head?_map, ← List.head?_map]
    exact congrArg List.head? this
  have hclosed : (r₅.closedRoutine r.routines.size r₂.layout.scope params body).Sound homes₅ home := by
    refine hr₅.closeRoutine (hp₃.leads hl₅) ⟨r.layout.routineParent, ?_, ?_⟩ hallows ?_ ?_ ?_ ?_
    · exact e₅.surrounding hr.surrounding_routineParent
    · rw [hl₂.scope]
      refine hg₅.parents _ _ ?_
      show ((r.layout.table.addScope r.layout.routineParent).scopeAt
        r.layout.table.scopes.size).parent = _
      rw [SymbolTable.scopeAt_addScope, if_pos rfl]
    · have howns := hg₅.routines _ _ (r.owns_openedRoutine draft)
      rcases hdraft with heq | ⟨heq, hmet⟩
      · rw [← heq]
        exact Or.inl howns
      · rw [heq] at howns
        exact Or.inr ⟨howns, hmet.leads e₅⟩
    · rw [hsaved]
      obtain ⟨more, rfl⟩ := hknown₅
      rw [List.append_assoc]
      exact (List.getElem?_append_left (List.getElem?_eq_some_iff.mp hr.layout.here).1).trans
        hr.layout.here
    · rw [hclasses]
      exact hr.layout.fields
    · intro hhome
      rw [hr.layout.routine hhome, ← List.head?_map, List.map_tail, hids]
      exact (List.head?_map ..).symm
  have hdone : r.Leads (r₅.closedRoutine r.routines.size r₂.layout.scope params body) :=
    hg₅.closeRoutine _ _ _ _
  have hstands : (r₅.closedRoutine r.routines.size r₂.layout.scope params body).Stands known home :=
    ⟨homes₅, hknown.trans ((List.prefix_append _ _).trans hknown₅), hclosed⟩
  refine Yields.modify_bind ?_
  split
  · exact (report_reads.bind fun _ => .pure (m := fun _ => []) (by simp)).next hdone hstands
      (fun _ r' hl hr _ => ⟨hl, hr⟩) False.elim
  · exact ⟨hdone, hstands⟩

theorem routineDefinition_reads (hn : nested.Sound) :
    Reads home fails old (routineDefinition nested) (fun _ => []) := by
  intro known r hr _
  refine advance_reads.next (.refl r) hr (fun keyword r₁ hl₁ hr₁ _ => ?_) False.elim
  extract_lets kind
  refine Yields.look_bind ?_
  extract_lets finish
  have hfinish : ∀ u r₂, r.Leads r₂ → r₂.Stands known home →
      (r₁.layout.currentRoutine.isSome → r₂.MetNested) →
      Yields (finish u) r₂ (fun _ r' => r.Leads r' ∧ r'.Stands known home ∧
        ∀ n ∈ ([] : List Note), r'.Permits home n)
        (fun r' => r.Leads r' ∧ r'.Stands known home ∧ fails) := by
    intro u r₂ hl₂ hr₂ hmet
    refine returnType_reads.next (.refl r₂) hr₂ (fun returned r₃ hl₃ hr₃ _ => ?_) False.elim
    refine definedName_reads.next hl₃ hr₃ (fun named r₄ hl₄ hr₄ _ => ?_) False.elim
    have hl := hl₂.trans hl₄
    have hrest : ∀ draft, r₄.Accepts draft →
        Yields (routineBody nested keyword draft named.2) r₄ (fun _ r' => r.Leads r' ∧
          r'.Stands known home ∧ ∀ n ∈ ([] : List Note), r'.Permits home n)
          (fun r' => r.Leads r' ∧ r'.Stands known home ∧ fails) := by
      intro draft hdraft
      refine (routineBody_yields hn hr₄ hdraft).mono ?_ (fun _ he => he.elim)
      rintro _ r' ⟨hl', hr'⟩
      exact ⟨hl.trans hl', hr', by simp⟩
    split
    extract_lets body
    split
    · rename_i hin
      refine Yields.bind (Yields.pure (hrest _ ?_))
      exact Or.inr ⟨rfl, (hmet hin).leads hl₄.toExtends⟩
    · refine Yields.look_bind (hrest _ ?_)
      exact Or.inl rfl
  split
  · rename_i hin
    refine Yields.modify_bind (hfinish () _ (hl₁.trans (r₁.quiet_report _).leads) ?_ ?_)
    · obtain ⟨homes, hknown, hsound⟩ := hr₁
      exact ⟨homes, hknown, hsound.quiet (r₁.quiet_report _)⟩
    · exact fun _ => ⟨_, _, Array.mem_push_self⟩
  · rename_i hin
    exact hfinish () _ hl₁ hr₁ (fun h => absurd h hin)

/-! ### Classes -/

theorem fieldDeclarations_reads :
    Reads (some (.classBody id)) fails old (fieldDeclarations id line) (fun _ => []) := by
  refine .bind (.attempt (declarators_reads ⟨id, rfl⟩)) fun found => ?_
  split
  · rename_i declarations
    refine endOfStatement_reads.bind fun _ => ?_
    rintro known r ⟨homes, hknown, hr⟩ hallows
    refine ⟨r.leads_withClass fun _ => rfl, ⟨homes, hknown, ?_⟩, by simp⟩
    refine hr.withClass (fun _ => rfl) (fun _ => rfl) fun d hd => ?_
    have hold := hr.classes.members id d hd
    refine ⟨hold.methods, hold.constructors, fun n hn => ?_, hold.bound, hold.slots⟩
    have hn' : n ∈ (d.fieldDeclarations ++ declarations).flatMap Declaration.notes := hn
    rw [List.flatMap_append] at hn'
    rcases List.mem_append.mp hn' with hn | hn
    · exact hold.declarations n hn
    · have hpermits := hallows n (List.mem_append_right _ (List.mem_append_left _ hn))
      exact hpermits.allows_of_not_jump (Declaration.not_jump hn)
  · exact skipLine_reads

theorem member_reads (hn : nested.Sound) :
    Reads (some (.classBody id)) fails old (member nested id name line) (fun _ => []) := by
  refine peek_reads.bind fun token => ?_
  split
  · exact hn.routine _ _ _
  · exact hn.routine _ _ _
  · exact hn.classDef _ _ _
  · exact advance_reads.bind fun _ => fieldDeclarations_reads
  · exact fieldDeclarations_reads
  · exact fieldDeclarations_reads
  · exact report_reads.bind fun _ => skipLine_reads

theorem classItem_reads (hn : nested.Sound) :
    Reads (some (.classBody id)) fails old (classItem nested id name ())
      (·.elim [] fun _ => []) := by
  refine get_reads.bind fun r => ?_
  split
  · exact .pure (by simp)
  · extract_lets line
    refine acceptAny?_reads.bind fun modifier => ?_
    split
    · exact (member_reads hn).bind fun _ => .pure (by simp)
    · refine onLine_reads.bind fun _ => ?_
      split
      · exact (member_reads hn).bind fun _ => .pure (by simp)
      · exact report_reads.bind fun _ => .pure (by simp)

theorem registerClass_yields (hr : r.Sound homes home) (hid : id < r.classes.size) :
    Yields (registerClass id name span) r (fun _ r' => r.Leads r' ∧ r'.Sound homes home)
      (fun _ => False) := by
  refine Yields.get_bind ?_
  split
  · exact ⟨(r.quiet_report _).leads, hr.quiet (r.quiet_report _)⟩
  · split
    · exact ⟨.refl r, hr⟩
    · refine ⟨?_, hr.nameClass hid name⟩
      exact
        { toExtends := .of_table rfl (fun _ _ hc => hc) (fun _ _ ho => ho) rfl rfl
          toSameContext := ⟨rfl, rfl, rfl⟩
          scope := rfl
          saved := rfl
          openRoutines := rfl
          outer := rfl
          classes := rfl
          params := rfl }

/-- Closing a class leads back to where it was opened. -/
theorem Reader.Leads.closeClass (h : (r.openedClass name span).Leads r') (id : ClassId) :
    r.Leads (r'.closedClass id) := by
  have hsaved : r'.layout.saved = r.layout.scope :: r.layout.saved := h.saved
  refine
    { toExtends := ((r.extends_openedClass name span).trans h.toExtends).trans
        (r'.extends_closedClass id)
      toSameContext := ⟨h.openBlocks, h.loopDepth, h.inTest⟩
      scope := ?_
      saved := ?_
      openRoutines := h.openRoutines
      outer := h.outer
      classes := ?_
      params := h.params }
  · show r'.layout.saved.headD _ = _
    rw [hsaved]
    rfl
  · show r'.layout.saved.tail = _
    rw [hsaved]
    rfl
  · show r'.layout.classes.tail.map (fun o => (o.id, o.scope)) = _
    rw [List.map_tail, h.classes]
    rfl

theorem classDefinition_reads (hn : nested.Sound) :
    Reads home fails old (classDefinition nested) (fun _ => []) := by
  intro known r hr _
  refine advance_reads.next (.refl r) hr (fun keyword r₁ hl₁ hr₁ _ => ?_) False.elim
  refine look_reads.next hl₁ hr₁ (fun isNested r₂ hl₂ hr₂ _ => ?_) False.elim
  extract_lets finish
  have hfinish : ∀ u r₃, r.Leads r₃ → r₃.Stands known home →
      Yields (finish u) r₃ (fun _ r' => r.Leads r' ∧ r'.Stands known home ∧
        ∀ n ∈ ([] : List Note), r'.Permits home n)
        (fun r' => r.Leads r' ∧ r'.Stands known home ∧ fails) := by
    intro u r₃ hl₃ hr₃
    refine definedName_reads.next hl₃ hr₃ (fun named r₄ hl₄ hr₄ _ => ?_) False.elim
    split
    rename_i name nameSpan
    refine endOfStatement_reads.next hl₄ hr₄ (fun _ r₅ hl₅ hr₅ _ => ?_) False.elim
    obtain ⟨homes, hknown, hr₅⟩ := hr₅
    have hopened := hr₅.openClass name (keyword.span.cover nameSpan)
    have hid : r₅.classes.size
        < (r₅.openedClass name (keyword.span.cover nameSpan)).classes.size := by
      simp [Reader.openedClass]
    -- From here on the reader stands inside the class.
    refine Yields.bind (Yields.look_bind (Yields.modify_bind (Yields.bind
      ((registerClass_yields hopened hid).mono ?_ (fun _ he => he.elim)))))
    rintro _ r₆ ⟨hl₆, hr₆⟩
    refine Yields.pure ?_
    have hbody : Reads (some (.classBody r₅.classes.size)) False [] (do
        iterate (classItem nested r₅.classes.size name) ()
        expectEnd .classBody keyword) (fun _ => []) :=
      .bind (.iterate (by simp) fun _ => classItem_reads hn) fun _ => expectEnd_reads
    refine Yields.bind ((inFreshBlock_yields hbody ⟨_, List.prefix_rfl, hr₆⟩).mono ?_
      (fun _ he => he.elim))
    rintro _ r₇ ⟨hl₇, ⟨homes₇, hknown₇, hr₇⟩, -⟩
    replace hl₇ := hl₆.trans hl₇
    have hsaved : r₇.layout.saved = r₅.layout.scope :: r₅.layout.saved := hl₇.saved
    have hids : r₇.layout.classes.map (·.id) = r₅.classes.size :: r₅.openClasses := hl₇.openClasses
    refine ⟨hl₅.trans (hl₇.closeClass _),
      ⟨homes₇, hknown.trans ((List.prefix_append _ _).trans hknown₇), hr₇.closeClass ?_ ?_ ?_⟩,
      by simp⟩
    · rw [hsaved]
      obtain ⟨more, rfl⟩ := hknown₇
      rw [List.append_assoc]
      exact (List.getElem?_append_left (List.getElem?_eq_some_iff.mp hr₅.layout.here).1).trans
        hr₅.layout.here
    · rw [hr₅.layout.fields, ← List.head?_map, List.map_tail, hids]
      exact (List.head?_map ..).symm
    · intro hhome
      rw [hr₅.layout.routine hhome]
      unfold Layout.currentRoutine
      rw [← List.head?_map, ← List.head?_map]
      exact congrArg List.head? hl₇.openRoutines.symm
  split
  · refine report_reads.next hl₂ hr₂ (fun u r₃ hl₃ hr₃ _ => hfinish u r₃ hl₃ hr₃) False.elim
  · exact hfinish () r₂ hl₂ hr₂

end Primer.Grammar
