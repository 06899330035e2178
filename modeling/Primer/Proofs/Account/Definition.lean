/-
Routines, classes and whole programs account for themselves.

A routine is recorded when its first line is read and gets its body when it is closed, so that what
its body lacks has been reported by then.
-/
import Primer.Grammar.Parse
import Primer.Proofs.Account.Construct

namespace Primer.Grammar

variable {tokens : Array Token} {fails : Prop} {old : Prop → Prop} {strict nested : Nested}
  {id : ClassId} {name : String} {span nameSpan : Span}

/-! ### Changes of the record -/

namespace Reader

variable (r : Reader) (count : Nat)

theorem traced_pushRoutine {draft : Routine} (hspan : Place r.tokens draft.span)
    (hbody : ∀ flawed, GroundedBlock r.tokens flawed draft.body) (id : RoutineId) :
    Traced count r
      { r with routines := r.routines.push draft, layout := r.layout.enterRoutine id } := by
  refine ⟨rfl, Nat.le_refl _, fun flawed _ h => ?_⟩
  refine ⟨h.problems, h.entries, fun routine hroutine => ?_, h.classes, h.pendingTypes, h.pendingCalls⟩
  rcases Array.mem_push.mp hroutine with hroutine | rfl
  · exact h.routines routine hroutine
  · exact ⟨hspan, hbody flawed⟩

/-- What a change of one member keeps. -/
theorem forall_mem_modify {α : Type} {P : α → Prop} {xs : Array α} {i : Nat} {f : α → α}
    (h : ∀ x ∈ xs, P x) (hf : ∀ x, P x → P (f x)) : ∀ x ∈ xs.modify i f, P x := by
  intro x hx
  obtain ⟨k, hk, rfl⟩ := Array.mem_iff_getElem.mp hx
  rw [Array.size_modify] at hk
  rw [Array.getElem_modify]
  split
  · exact hf _ (h _ (Array.getElem_mem hk))
  · exact h _ (Array.getElem_mem hk)

theorem traced_nameRoutine (id : RoutineId) (name : String) (classId : Option ClassId) :
    Traced count r (r.nameRoutine id name classId) := by
  unfold nameRoutine
  split
  · refine ⟨rfl, Nat.le_refl _, fun flawed _ h => ?_⟩
    refine ⟨h.problems, h.entries, h.routines, ?_, h.pendingTypes, h.pendingCalls⟩
    dsimp only
    exact forall_mem_modify h.classes fun _ hc => hc
  · exact ⟨rfl, Nat.le_refl _, fun flawed _ h => ⟨h.1, h.2, h.3, h.4, h.5, h.6⟩⟩

/-- The body of a routine is recorded with the flaws that were met in it. -/
theorem traced_closeRoutine (id : RoutineId) (scope : ScopeId) (params : List VarId) {body : Block Stmt}
    (hbody : r.Sure count fun flawed => GroundedBlock r.tokens flawed body) :
    Traced count r
      { r with
        layout := r.layout.exitRoutine
        routines := r.routines.modify id fun draft =>
          { draft with params, body, localCount := r.layout.localCount, scope } } := by
  refine ⟨rfl, Nat.le_refl _, fun flawed hflawed h => ?_⟩
  refine ⟨h.problems, h.entries, ?_, h.classes, h.pendingTypes, h.pendingCalls⟩
  dsimp only
  exact forall_mem_modify h.routines fun draft hdraft => ⟨hdraft.1, hbody flawed hflawed⟩

theorem traced_addFields (id : ClassId) {declarations : List Declaration}
    (hd : r.Sure count fun flawed => ∀ d ∈ declarations, GroundedDeclaration r.tokens flawed d) :
    Traced count r { r with classes := r.classes.modify id fun c =>
      { c with fieldDeclarations := c.fieldDeclarations ++ declarations } } := by
  refine ⟨rfl, Nat.le_refl _, fun flawed hflawed h => ?_⟩
  refine ⟨h.problems, h.entries, h.routines, ?_, h.pendingTypes, h.pendingCalls⟩
  dsimp only
  refine forall_mem_modify h.classes fun c hc => ⟨hc.1, fun d hdecl => ?_⟩
  rcases List.mem_append.mp hdecl with hdecl | hdecl
  · exact hc.2 d hdecl
  · exact hd flawed hflawed d hdecl

theorem traced_openClass {draft : ClassDef} (hspan : Place r.tokens draft.span)
    (hfields : draft.fieldDeclarations = []) (id : ClassId) :
    Traced count r
      { r with layout := r.layout.enterClass id, classes := r.classes.push draft } := by
  refine ⟨rfl, Nat.le_refl _, fun flawed _ h => ?_⟩
  refine ⟨h.problems, h.entries, h.routines, fun c hc => ?_, h.pendingTypes, h.pendingCalls⟩
  rcases Array.mem_push.mp hc with hc | rfl
  · exact h.classes c hc
  · exact ⟨hspan, by simp [hfields]⟩

theorem traced_closeClass (id : ClassId) :
    Traced count r
      { r with
        layout := r.layout.exitClass
        classes := r.classes.modify id (completeClass r.layout.table) } := by
  refine ⟨rfl, Nat.le_refl _, fun flawed _ h => ?_⟩
  exact ⟨h.problems, h.entries, h.routines, forall_mem_modify h.classes fun _ hc => hc,
    h.pendingTypes, h.pendingCalls⟩

end Reader

/-! ### Routines -/

theorem registerRoutine_gives {id : RoutineId} {classId : Option ClassId}
    (hspan : Place tokens span) :
    Gives .anyhow tokens fails old (registerRoutine id name span classId) Whatever := by
  unfold registerRoutine
  split
  · exact .done
  · refine get_gives.known fun r _ => ?_
    split
    · exact remark_gives hspan
    · exact modify_gives fun count r _ => r.traced_nameRoutine count id name classId

theorem openRoutine_gives {draft : Routine} (hspan : Place tokens draft.span)
    (hbody : ∀ flawed, GroundedBlock tokens flawed draft.body) (hname : Place tokens nameSpan) :
    Gives .anyhow tokens fails old (openRoutine draft nameSpan) Whatever := by
  refine looks_gives.known fun id _ => (modify_gives fun count r htokens => ?_).known fun _ _ => ?_
  · subst htokens
    exact r.traced_pushRoutine count hspan hbody id
  · exact (registerRoutine_gives hname).known fun _ _ => .done

theorem closeRoutine_gives {id : RoutineId} {scope : ScopeId} {params : List VarId} {body : Block Stmt}
    (hbody : ∀ flawed, old flawed → GroundedBlock tokens flawed body) :
    Gives .anyhow tokens fails old (closeRoutine id scope params body) Whatever := by
  refine .single fun count r htokens _ hold => ⟨?_, fun _ _ => trivial⟩
  subst htokens
  exact r.traced_closeRoutine count id scope params (hold.imp hbody)

theorem routineBody_accounts (hn : strict.Accounts tokens nested) {keyword : Token}
    {draft : Routine} (hkeyword : keyword ∈ tokens) (hspan : Place tokens draft.span)
    (hbody : ∀ flawed, GroundedBlock tokens flawed draft.body) (hname : Place tokens nameSpan) :
    Accounts .anyhow tokens fails old (routineBody strict keyword draft nameSpan)
      (routineBody nested keyword draft nameSpan) Whatever := by
  refine (openRoutine_gives hspan hbody hname).known fun id _ => looks_gives.known fun scope _ => ?_
  refine parameters_gives.known fun params _ => endOfStatement_gives.known fun _ _ => ?_
  refine Accounts.bind (Q := GroundedBlock tokens) (inFreshBlock_accounts ?_) fun body => ?_
  · exact (block_accounts hn).bind fun _ => (expectEnd_gives hkeyword).known fun _ _ =>
      .pure fun _ h => h.1
  · refine (closeRoutine_gives fun _ h => h.1).known fun _ _ => ?_
    split
    · exact remark_gives hname
    · exact .done

theorem routineDefinition_accounts (hn : strict.Accounts tokens nested) :
    Accounts .anyhow tokens fails old (routineDefinition strict) (routineDefinition nested)
      Whatever := by
  refine advance_gives.known fun keyword hkeyword => ?_
  extract_lets kind
  refine looks_gives.known fun inRoutine _ => ?_
  extract_lets finish finish'
  have hfinish : ∀ u (old : Prop → Prop),
      Accounts .anyhow tokens fails old (finish u) (finish' u) Whatever := by
    intro u old
    refine returnType_gives.known fun returned _ => (definedName_gives hkeyword).known fun found hname => ?_
    have hbody : ∀ draft : Routine, draft.span = keyword.span.cover found.2 →
        draft.body = { statements := [], span := keyword.span } → ∀ {old},
        Accounts .anyhow tokens fails old (routineBody strict keyword draft found.2)
          (routineBody nested keyword draft found.2) Whatever := by
      intro draft hspan hbody old
      refine routineBody_accounts hn hkeyword ?_ (fun flawed => ?_) hname
      · rw [hspan]
        exact .cover (.token hkeyword) hname
      · rw [hbody]
        exact ⟨.token hkeyword, trivial⟩
    split
    extract_lets body body'
    split
    · exact (Accounts.pure (Q := Whatever) fun _ _ => trivial).known fun _ _ => hbody _ rfl rfl
    · exact looks_gives.known fun _ _ => hbody _ rfl rfl
  split
  · exact (remark_gives (.token hkeyword)).known fun u _ => hfinish u _
  · exact hfinish () _

/-! ### Classes -/

/-- A line of fields that has to make sense. -/
def givenFields (id : ClassId) : Read Unit := do
  let declarations ← declarators .field
  endOfStatement
  modify fun r => { r with classes := r.classes.modify id fun c =>
    { c with fieldDeclarations := c.fieldDeclarations ++ declarations } }

theorem fieldDeclarations_accounts {line : Nat} :
    Accounts .anyhow tokens fails old (givenFields id) (fieldDeclarations id line) Whatever := by
  refine .recover declarators_gives.insist (fun _ => endOfStatement_gives.known fun _ _ => ?_)
    skipLine_gives
  refine .single fun count r htokens _ hold => ⟨?_, fun _ _ => trivial⟩
  subst htokens
  exact r.traced_addFields count id (hold.imp fun _ h => h.1)

theorem member_accounts (hn : strict.Accounts tokens nested) {className : String} {line : Nat} :
    Accounts .anyhow tokens fails old (member strict id className line) (member nested id className line)
      Whatever := by
  refine peek_gives.known fun token htoken => ?_
  split
  · exact hn.routine _ _
  · exact hn.routine _ _
  · exact hn.classDef _ _
  · exact advance_gives.known fun _ _ => fieldDeclarations_accounts.alone
  · exact fieldDeclarations_accounts.alone
  · exact fieldDeclarations_accounts.alone
  · exact (remark_gives (.token htoken)).known fun _ _ => skipLine_gives

theorem classItem_accounts (hn : strict.Accounts tokens nested) {className : String} :
    Accounts .anyhow tokens fails old (classItem strict id className ()) (classItem nested id className ())
      Whatever := by
  refine get_gives.known fun r _ => ?_
  split
  · exact .done
  · extract_lets line
    refine acceptAny?_gives.known fun found hfound => ?_
    cases found with
    | none => exact (member_accounts hn).known fun _ _ => .done
    | some modifier =>
      refine onLine_gives.known fun _ _ => ?_
      split
      · exact (member_accounts hn).known fun _ _ => .done
      · exact (remark_gives (.token (hfound _ rfl))).known fun _ _ => .done

theorem registerClass_gives (hspan : Place tokens span) :
    Gives .anyhow tokens fails old (registerClass id name span) Whatever := by
  refine get_gives.known fun r _ => ?_
  split
  · exact remark_gives hspan
  · split
    · exact .done
    · exact modify_gives fun _ _ _ => ⟨rfl, Nat.le_refl _, fun _ _ h => ⟨h.1, h.2, h.3, h.4, h.5, h.6⟩⟩

theorem openClass_gives (hname : Place tokens nameSpan) (hspan : Place tokens span) :
    Gives .anyhow tokens fails old (openClass name nameSpan span) Whatever := by
  refine looks_gives.known fun id _ => (modify_gives fun count r htokens => ?_).known fun _ _ => ?_
  · subst htokens
    exact r.traced_openClass count hspan rfl id
  · exact (registerClass_gives hname).known fun _ _ => .done

theorem classDefinition_accounts (hn : strict.Accounts tokens nested) :
    Accounts .anyhow tokens fails old (classDefinition strict) (classDefinition nested) Whatever := by
  refine advance_gives.known fun keyword hkeyword => looks_gives.known fun isNested _ => ?_
  extract_lets finish finish'
  have hfinish : ∀ u (old : Prop → Prop),
      Accounts .anyhow tokens fails old (finish u) (finish' u) Whatever := by
    intro u old
    refine (definedName_gives hkeyword).known fun found hname => ?_
    refine endOfStatement_gives.known fun _ _ => ?_
    refine (openClass_gives hname (.cover (.token hkeyword) hname)).known fun id _ => ?_
    refine Accounts.known (P := fun _ => True) (inFreshBlock_accounts ?_) fun _ _ => ?_
    · refine Accounts.known (P := fun _ => True) (.iterate (fun _ _ => trivial) fun _ => ?_) fun _ _ =>
        expectEnd_gives hkeyword
      exact (classItem_accounts hn).result fun _ next _ => by cases next <;> trivial
    · exact modify_gives fun count r _ => r.traced_closeClass count id
  split
  · exact (remark_gives (.token hkeyword)).known fun u _ => hfinish u _
  · exact hfinish () _

end Primer.Grammar
