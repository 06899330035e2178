/-
Opening and closing blocks, routines and classes.

Each of these moves the reader to another scope: into a new one at the home of what is
opened, and back to the one that was left when it is closed.  A routine or class that is
closed has to satisfy what `Sound` asks of complete ones from then on.
-/
import Primer.Proofs.Grammar.Standing

namespace Primer.Grammar

namespace Reader

variable {r r' : Reader} {homes : List Home} {home : Home} {f : ClassDef → ClassDef} {q : ScopeId}
  {c : ClassId}

/-! ### Scopes -/

theorem Sound.classScope_lt (h : r.Sound homes home) {c : Nat} {s : ScopeId}
    (hc : r.classScopes[c]? = some s) : s < r.layout.table.scopes.size := by
  rw [← h.layout.table.size]
  exact (List.getElem?_eq_some_iff.mp ((h.layout.table.classHomes c s).mp hc)).1

/-- The table is the same. -/
theorem Extends.of_table (ht : r'.layout.table = r.layout.table)
    (hclasses : ∀ (c : Nat) s, r.classScopes[c]? = some s → r'.classScopes[c]? = some s)
    (hroutines : ∀ c id, r.Owns c id → r'.Owns c id) (hproblems : r'.problems = r.problems)
    (hcalls : r'.pendingCalls = r.pendingCalls) : Extends r r' where
  entries := Nat.le_of_eq (by rw [ht])
  variableAt := by intro x _; unfold Reader.variableAt; rw [ht]
  parents := by rw [ht]; exact fun _ _ hq => hq
  classScopes := hclasses
  routines := hroutines
  problems := by rw [hproblems]; exact fun _ hp => hp
  pendingCalls := by rw [hcalls]; exact fun _ hc => hc

/-- The table has one more scope. -/
theorem Extends.of_addScope (ht : r'.layout.table = r.layout.table.addScope q)
    (hclasses : ∀ (c : Nat) s, r.classScopes[c]? = some s → r'.classScopes[c]? = some s)
    (hroutines : ∀ c id, r.Owns c id → r'.Owns c id) (hproblems : r'.problems = r.problems)
    (hcalls : r'.pendingCalls = r.pendingCalls) : Extends r r' where
  entries := by rw [ht]; exact Nat.le_refl _
  variableAt := by intro x _; unfold Reader.variableAt; rw [ht]; rfl
  parents := by
    intro s p hp
    rw [ht, SymbolTable.scopeAt_addScope, if_neg]
    · exact hp
    · exact Nat.ne_of_lt (SymbolTable.lt_size_of_parent hp)
  classScopes := hclasses
  routines := hroutines
  problems := by rw [hproblems]; exact fun _ hp => hp
  pendingCalls := by rw [hcalls]; exact fun _ hc => hc

theorem Sound.keepsFields_addScope (h : r.Sound homes home)
    (ht : r'.layout.table = r.layout.table.addScope q) : KeepsFields r r' := by
  intro c s hc _
  rw [ht, SymbolTable.scopeAt_addScope, if_neg (Nat.ne_of_lt (h.classScope_lt hc))]

theorem Sound.pushScope (h : r.Sound homes home) (hs : home.HoldsStatements) :
    ({ r with layout := r.layout.pushScope } : Reader).Sound (homes ++ [home]) home :=
  h.relayout ⟨rfl, rfl, rfl, rfl⟩
    (.of_addScope (q := r.layout.scope) rfl (fun _ _ hc => hc) (fun _ _ ho => ho) rfl rfl)
    (h.layout.pushScope hs) rfl rfl (.of_entries rfl) (h.keepsFields_addScope (q := r.layout.scope) rfl)

theorem popScope_eq {l : Layout} (h : (l.table.scopeAt l.scope).parent = some q) :
    l.popScope = { l with scope := q } := by
  unfold Layout.popScope
  rw [h]

/-- Back to a scope of the same home. -/
theorem Sound.backTo (h : r.Sound homes home) (hq : homes[q]? = some home) :
    ({ r with layout := { r.layout with scope := q } } : Reader).Sound homes home :=
  h.relayout ⟨rfl, rfl, rfl, rfl⟩ (.of_table rfl (fun _ _ hc => hc) (fun _ _ ho => ho) rfl rfl)
    (h.layout.moveTo rfl hq (List.Sublist.refl _) (List.Sublist.refl _) h.layout.fields
      h.layout.routine)
    rfl rfl (.of_entries rfl) (fun _ _ _ _ => rfl)

/-! ### Routines -/

/-- The reader at the start of a routine. -/
def openedRoutine (r : Reader) (draft : Routine) : Reader :=
  { r with routines := r.routines.push draft, layout := r.layout.enterRoutine r.routines.size }

/-- The home of a routine that is opened by the reader. -/
def routineHome (r : Reader) : Home := some (.routine r.routines.size r.layout.currentClass)

theorem extends_openedRoutine (r : Reader) (draft : Routine) : Extends r (r.openedRoutine draft) := by
  refine .of_addScope (q := r.layout.routineParent) rfl (fun _ _ hc => hc) ?_ rfl rfl
  rintro c id ⟨routine, hr, hc⟩
  refine ⟨routine, ?_, hc⟩
  show (r.routines.push draft)[id]? = some routine
  grind

theorem openRoutines_openedRoutine (r : Reader) (draft : Routine) :
    (r.openedRoutine draft).openRoutines = r.routines.size :: r.openRoutines := rfl

/-- **A routine is opened at a home of its own.** -/
theorem Sound.openRoutine (h : r.Sound homes home) {draft : Routine}
    (hdraft : ∀ c, draft.classId = some c → c < r.classes.size) :
    (r.openedRoutine draft).Sound (homes ++ [r.routineHome]) r.routineHome := by
  have e := extends_openedRoutine r draft
  have hsize : (r.openedRoutine draft).routines.size = r.routines.size + 1 := by
    simp [openedRoutine]
  have hold : ∀ (id : Nat) routine, (r.openedRoutine draft).routines[id]? = some routine →
      id = r.routines.size ∧ routine = draft ∨ r.routines[id]? = some routine := by
    intro id routine hr
    have hpush : (r.routines.push draft)[id]? = some routine := hr
    rw [Array.getElem?_push] at hpush
    split at hpush
    · rename_i heq
      exact Or.inl ⟨heq, (Option.some.inj hpush).symm⟩
    · exact Or.inr hpush
  refine ⟨?_, ?_, ?_⟩
  · refine h.layout.enterRoutine ?_ ?_
    · intro hmem
      exact Nat.lt_irrefl _ (h.routines.opened _ hmem)
    · intro x hx hid
      exact Nat.lt_irrefl _ (h.routines.owners x hx _ hid)
  · refine ⟨?_, ?_, ?_, ?_, ?_⟩
    · intro id hid
      rw [openRoutines_openedRoutine] at hid
      rw [hsize]
      rcases List.mem_cons.mp hid with rfl | hid
      · exact Nat.lt_succ_self _
      · exact Nat.lt_succ_of_lt (h.routines.opened id hid)
    · intro x hx id hid
      rw [hsize]
      exact Nat.lt_succ_of_lt (h.routines.owners x hx id hid)
    · intro id routine hr hclosed
      rw [openRoutines_openedRoutine, List.mem_cons, not_or] at hclosed
      rcases hold id routine hr with ⟨heq, -⟩ | hr
      · exact absurd heq hclosed.1
      · exact e.complete (h.routines.complete id routine hr hclosed.2)
          (fun x hge hx => absurd hx (Nat.not_lt.mpr hge))
    · intro id routine hr c hc
      rcases hold id routine hr with ⟨-, rfl⟩ | hr
      · exact hdraft c hc
      · exact h.routines.classIds id routine hr c hc
    · intro name id hid
      exact e.routines _ _ (h.routines.index name id hid)
  · exact h.classes.keep e rfl rfl rfl (h.keepsFields_addScope (q := r.layout.routineParent) rfl)

/-! ### Changing a class -/

/-- The reader after a class was changed. -/
def withClass (r : Reader) (c : ClassId) (f : ClassDef → ClassDef) : Reader :=
  { r with classes := r.classes.modify c f }

theorem getElem?_withClass (r : Reader) (c : ClassId) (f : ClassDef → ClassDef) (i : Nat) :
    (r.withClass c f).classes[i]? = if c = i then r.classes[i]?.map f else r.classes[i]? := by
  simp [withClass, Array.getElem?_modify]

theorem classScopes_withClass (r : Reader) (hscope : ∀ d, (f d).scope = d.scope) :
    (r.withClass c f).classScopes = r.classScopes := by
  refine Array.ext_getElem? fun i => ?_
  rw [classScopes_getElem?, classScopes_getElem?, getElem?_withClass]
  split
  · cases r.classes[i]? <;> simp [hscope]
  · rfl

theorem leads_withClass (r : Reader) (hscope : ∀ d, (f d).scope = d.scope) :
    r.Leads (r.withClass c f) where
  toExtends := .of_table rfl (by rw [classScopes_withClass r hscope]; exact fun _ _ hc => hc)
    (fun _ _ ho => ho) rfl rfl
  toSameContext := ⟨rfl, rfl, rfl⟩
  scope := rfl
  saved := rfl
  openRoutines := rfl
  outer := rfl
  classes := rfl
  params := rfl

/-- A class may get more members. -/
theorem Sound.withClass (h : r.Sound homes home) (hscope : ∀ d, (f d).scope = d.scope)
    (hfields : ∀ d, (f d).fields = d.fields)
    (hmembers : ∀ d, r.classes[c]? = some d → r.MembersSound c (f d)) :
    (r.withClass c f).Sound homes home := by
  have hscopes := classScopes_withClass r (c := c) hscope
  have e := (leads_withClass r (c := c) hscope).toExtends
  have hsize : (r.withClass c f).classes.size = r.classes.size := by simp [Reader.withClass]
  refine ⟨by rw [hscopes]; exact h.layout, ?_, ?_, ?_, ?_⟩
  · exact h.routines.keep e rfl rfl (Nat.le_of_eq hsize.symm) rfl (.of_entries rfl)
  · intro name i hi
    rw [hsize]
    exact h.classes.index name i hi
  · intro i d hd
    rw [getElem?_withClass] at hd
    split at hd
    · rename_i heq
      subst heq
      obtain ⟨before, hbefore, rfl⟩ := Option.map_eq_some_iff.mp hd
      exact e.members (hmembers before hbefore)
    · exact e.members (h.classes.members i d hd)
  · intro i d hd hclosed
    rw [getElem?_withClass] at hd
    split at hd
    · obtain ⟨before, hbefore, rfl⟩ := Option.map_eq_some_iff.mp hd
      rw [hfields, hscope]
      exact h.classes.fields i before hbefore hclosed
    · exact h.classes.fields i d hd hclosed

/-! ### Naming routines -/

theorem leads_nameRoutine (r : Reader) (id : RoutineId) (name : String) (classId : Option ClassId) :
    r.Leads (r.nameRoutine id name classId) := by
  cases classId with
  | some c => exact leads_withClass r fun _ => rfl
  | none =>
    exact
      { toExtends := .of_table rfl (fun _ _ hc => hc) (fun _ _ ho => ho) rfl rfl
        toSameContext := ⟨rfl, rfl, rfl⟩
        scope := rfl
        saved := rfl
        openRoutines := rfl
        outer := rfl
        classes := rfl
        params := rfl }

theorem Sound.nameRoutine (h : r.Sound homes home) {id : RoutineId} {name : String}
    {classId : Option ClassId} (ho : r.Owns classId id) :
    (r.nameRoutine id name classId).Sound homes home := by
  -- What an index finds after an insertion is the new entry or an old one.
  have hinsert : ∀ (index : NameIndex) (other : String) found,
      (index.insert name id)[other]? = some found → found = id ∨ index[other]? = some found := by
    intro index other found hfound
    rw [Std.TreeMap.getElem?_insert] at hfound
    split at hfound
    · exact Or.inl (Option.some.inj hfound).symm
    · exact Or.inr hfound
  cases classId with
  | some c =>
    refine h.withClass (fun _ => rfl) (fun _ => rfl) fun d hd => ?_
    have hold := h.classes.members c d hd
    refine ⟨fun other found hfound => ?_, hold.constructors, hold.declarations, hold.bound,
      hold.slots⟩
    rcases hinsert d.methods other found hfound with rfl | hfound
    · exact ho
    · exact hold.methods other found hfound
  | none =>
    refine ⟨h.layout, ?_, ?_⟩
    · refine ⟨h.routines.opened, h.routines.owners, ?_, h.routines.classIds, ?_⟩
      · intro i routine hr hclosed
        exact (leads_nameRoutine r id name none).complete (h.routines.complete i routine hr hclosed)
          (fun x hge hx => absurd hx (Nat.not_lt.mpr hge))
      · intro other found hfound
        rcases hinsert r.routineIndex other found hfound with rfl | hfound
        · exact ho
        · exact h.routines.index other found hfound
    · exact h.classes.keep (leads_nameRoutine r id name none).toExtends rfl rfl rfl
        (fun _ _ _ _ => rfl)

/-! ### Closing a routine -/

/-- These are the parameters of the routine at hand, in order. -/
structure HasParams (r : Reader) (id : RoutineId) (params : List VarId) : Prop where
  head : ∃ o rest, r.layout.routines = o :: rest ∧ o.id = id ∧ o.params = params.length
  params : ∀ (i : Nat) x, params[i]? = some x →
    x < r.layout.table.entries.size ∧ (r.variableAt x).IsArgument ∧
      (r.variableAt x).offset = -((i : Int) + 1) ∧ (r.variableAt x).routine = some id

theorem HasParams.leads {id : RoutineId} {params : List VarId} (h : r.HasParams id params)
    (l : r.Leads r') : r'.HasParams id params where
  head := by
    obtain ⟨o, rest, hr, hid, hlength⟩ := h.head
    have hids : r'.layout.routines.map (·.id) = o.id :: rest.map (·.id) := by
      simpa [openRoutines, hr] using l.openRoutines
    have hparams : r'.layout.routines.head?.map (·.params) = some o.params := by
      simpa [hr] using l.params
    cases hr' : r'.layout.routines with
    | nil => simp [hr'] at hids
    | cons o' rest' =>
      simp only [hr', List.map_cons, List.cons.injEq] at hids
      simp only [hr', List.head?_cons, Option.map_some, Option.some.injEq] at hparams
      exact ⟨o', rest', rfl, hids.1.trans hid, hparams.trans hlength⟩
  params := by
    intro i x hx
    obtain ⟨hlt, hrest⟩ := h.params i x hx
    rw [l.variableAt x hlt]
    exact ⟨Nat.lt_of_lt_of_le hlt l.entries, hrest⟩

/-- The reader at the end of a routine. -/
def closedRoutine (r : Reader) (id : RoutineId) (scope : ScopeId) (params : List VarId)
    (body : Block Stmt) : Reader :=
  { r with
    layout := r.layout.exitRoutine
    routines := r.routines.modify id fun draft =>
      { draft with params, body, localCount := r.layout.localCount, scope } }

section Closing

variable {id : RoutineId} {scope : ScopeId} {params : List VarId} {body : Block Stmt}

theorem getElem?_closedRoutine {i : Nat} {routine : Routine}
    (h : (r.closedRoutine id scope params body).routines[i]? = some routine) :
    ∃ draft, r.routines[i]? = some draft ∧ routine.classId = draft.classId ∧
      (i ≠ id → routine = draft) ∧
      (i = id → routine.params = params ∧ routine.body = body ∧ routine.scope = scope ∧
        routine.localCount = r.layout.localCount) := by
  have hmodify : (r.routines.modify id _)[i]? = some routine := h
  rw [Array.getElem?_modify] at hmodify
  split at hmodify
  · rename_i heq
    obtain ⟨draft, hdraft, rfl⟩ := Option.map_eq_some_iff.mp hmodify
    exact ⟨draft, hdraft, rfl, fun hne => absurd heq.symm hne, fun _ => ⟨rfl, rfl, rfl, rfl⟩⟩
  · rename_i hne
    exact ⟨routine, hmodify, rfl, fun _ => rfl, fun heq => absurd heq.symm hne⟩

theorem extends_closedRoutine (r : Reader) (id : RoutineId) (scope : ScopeId) (params : List VarId)
    (body : Block Stmt) : r.Extends (r.closedRoutine id scope params body) := by
  refine .of_table rfl (fun _ _ hc => hc) ?_ rfl rfl
  rintro c i ⟨routine, hr, hc⟩
  show ∃ other, (r.routines.modify id _)[i]? = some other ∧ other.classId = c
  rw [Array.getElem?_modify]
  split
  · rw [hr]
    exact ⟨_, rfl, hc⟩
  · exact ⟨routine, hr, hc⟩

/-- **A routine that is closed is complete.** -/
theorem Sound.closeRoutine {inside : Option ClassId} {outer : Home}
    (h : r.Sound homes (some (.routine id inside))) (hparams : r.HasParams id params)
    (hscope : ∃ s, r.surrounding inside = some s ∧
      (r.layout.table.scopeAt scope).parent = some s)
    (hbody : ∀ n ∈ Stmt.blockNotes body, r.Allows (some (.routine id inside)) n)
    (hclass : r.Owns inside id ∨ r.Owns none id ∧ r.MetNested)
    (houter : homes[r.layout.saved.headD SymbolTable.globalScope]? = some outer)
    (hfields : outer.fields? = r.layout.currentClass)
    (hroutine : outer.HoldsStatements →
      outer.routine? = r.layout.routines.tail.head?.map (·.id)) :
    (r.closedRoutine id scope params body).Sound homes outer := by
  have e := extends_closedRoutine r id scope params body
  obtain ⟨o, rest, hr, hid, hlength⟩ := hparams.head
  have hopen : r.openRoutines = id :: (r.closedRoutine id scope params body).openRoutines := by
    simp [openRoutines, closedRoutine, Layout.exitRoutine, Layout.restoreScope, hr, hid]
  have hsize : (r.closedRoutine id scope params body).routines.size = r.routines.size := by
    simp [closedRoutine]
  refine ⟨?_, ⟨?_, ?_, ?_, ?_, ?_⟩, ?_⟩
  · exact h.layout.moveTo rfl houter (List.tail_sublist _) (List.Sublist.refl _) hfields hroutine
  · intro i hi
    rw [hsize]
    exact h.routines.opened i (by rw [hopen]; exact List.mem_cons_of_mem _ hi)
  · intro x hx i hi
    rw [hsize]
    exact h.routines.owners x hx i hi
  · intro i routine hi hclosed
    obtain ⟨draft, hdraft, hdraftClass, hother, hsame⟩ := getElem?_closedRoutine hi
    by_cases heq : i = id
    · subst heq
      obtain ⟨rfl, rfl, rfl, hlocals⟩ := hsame rfl
      have hcount : r.layout.localCount = o.locals := by simp [Layout.localCount, hr]
      obtain ⟨s, hs, hparent⟩ := hscope
      refine e.complete (r := r) ⟨hparams.params, ?_, inside, s, hs, hparent, hbody, ?_⟩
        (fun x hge hx => absurd hx (Nat.not_lt.mpr hge))
      · intro x hx hxid
        rw [hlocals, hcount, ← hlength]
        exact h.layout.frames o (by simp [hr]) x hx (by rw [hid]; exact hxid)
      · rcases hclass with ⟨other, hget, hclassId⟩ | ⟨⟨other, hget, hclassId⟩, hmet⟩
        · obtain rfl := Option.some.inj (hdraft.symm.trans hget)
          exact Or.inl (hdraftClass.trans hclassId)
        · obtain rfl := Option.some.inj (hdraft.symm.trans hget)
          exact Or.inr ⟨hdraftClass.trans hclassId, hmet⟩
    · rw [hother heq]
      refine e.complete (h.routines.complete i draft hdraft ?_)
        (fun x hge hx => absurd hx (Nat.not_lt.mpr hge))
      rw [hopen, List.mem_cons, not_or]
      exact ⟨heq, hclosed⟩
  · intro i routine hi c hc
    obtain ⟨draft, hdraft, hdraftClass, -⟩ := getElem?_closedRoutine hi
    exact h.routines.classIds i draft hdraft c (hdraftClass ▸ hc)
  · intro name i hi
    exact e.routines _ _ (h.routines.index name i hi)
  · exact h.classes.keep e rfl rfl rfl (fun _ _ _ _ => rfl)

end Closing

/-! ### Classes -/

/-- The reader at the start of a class. -/
def openedClass (r : Reader) (name : String) (span : Span) : Reader :=
  let layout := r.layout.enterClass r.classes.size
  { r with
    layout
    classes := r.classes.push
      { name, fields := [], fieldDeclarations := [], fieldIndex := {}, methods := {}
        constructor := none, scope := layout.scope, span } }

theorem classScopes_openedClass (r : Reader) (name : String) (span : Span) :
    (r.openedClass name span).classScopes = r.classScopes.push r.layout.table.scopes.size := by
  simp [classScopes, openedClass, Layout.enterClass, Layout.openScope]

theorem extends_openedClass (r : Reader) (name : String) (span : Span) :
    r.Extends (r.openedClass name span) := by
  refine .of_addScope (q := SymbolTable.globalScope) rfl ?_ (fun _ _ ho => ho) rfl rfl
  intro c s hc
  rw [classScopes_openedClass]
  grind

/-- **A class is opened at a home of its own.** -/
theorem Sound.openClass (h : r.Sound homes home) (name : String) (span : Span) :
    (r.openedClass name span).Sound (homes ++ [some (.classBody r.classes.size)])
      (some (.classBody r.classes.size)) := by
  have e := extends_openedClass r name span
  have hsize : (r.openedClass name span).classes.size = r.classes.size + 1 := by
    simp [openedClass]
  have hlayout := h.layout.enterClass
  rw [show r.classScopes.size = r.classes.size by simp [classScopes]] at hlayout
  refine ⟨by rw [classScopes_openedClass]; exact hlayout, ?_, ?_, ?_, ?_⟩
  · exact h.routines.keep e rfl rfl (by rw [hsize]; exact Nat.le_succ _) rfl (.of_entries rfl)
  · intro other c hc
    rw [hsize]
    exact Nat.lt_succ_of_lt (h.classes.index other c hc)
  · intro c d hd
    have hpush : (r.classes.push _)[c]? = some d := hd
    rw [Array.getElem?_push] at hpush
    split at hpush
    · obtain rfl := Option.some.inj hpush
      exact ⟨by simp, by simp, by simp [Declaration.notesAll], by simp, rfl⟩
    · exact e.members (h.classes.members c d hpush)
  · intro c d hd hclosed
    have hopen : (r.openedClass name span).openClasses = r.classes.size :: r.openClasses := rfl
    rw [hopen, List.mem_cons, not_or] at hclosed
    have hpush : (r.classes.push _)[c]? = some d := hd
    rw [Array.getElem?_push, if_neg hclosed.1] at hpush
    rw [h.classes.fields c d hpush hclosed.2]
    have hkeeps : KeepsFields r (r.openedClass name span) :=
      h.keepsFields_addScope (q := SymbolTable.globalScope) rfl
    rw [hkeeps c d.scope (by rw [classScopes_getElem?, hpush]; rfl) hclosed.2]

/-- A class may be found by its name. -/
theorem Sound.nameClass (h : r.Sound homes home) {id : ClassId} (hid : id < r.classes.size)
    (name : String) :
    ({ r with classIndex := r.classIndex.insert name id } : Reader).Sound homes home := by
  have e : r.Extends { r with classIndex := r.classIndex.insert name id } :=
    .of_table rfl (fun _ _ hc => hc) (fun _ _ ho => ho) rfl rfl
  refine ⟨h.layout, h.routines.keep e rfl rfl (Nat.le_refl _) rfl (.of_entries rfl), ?_, ?_, ?_⟩
  · intro other c hc
    have hinsert : (r.classIndex.insert name id)[other]? = some c := hc
    rw [Std.TreeMap.getElem?_insert] at hinsert
    split at hinsert
    · rw [← Option.some.inj hinsert]
      exact hid
    · exact h.classes.index other c hinsert
  · exact fun c d hd => e.members (h.classes.members c d hd)
  · exact h.classes.fields

/-- A name leads to the slot of the last field that has it. -/
theorem getElem?_fieldSlots (table : SymbolTable) (fields : List VarId) (name : String) :
    (fieldSlots table fields)[name]? =
      (fields.reverse.find? fun x => (table.variableAt x).name == name).map fun x =>
        (table.variableAt x).offset.toNat := by
  unfold fieldSlots
  rw [← List.foldr_reverse]
  induction fields.reverse with
  | nil => simp
  | cons x rest ih =>
    rw [List.foldr_cons, Std.TreeMap.getElem?_insert, List.find?_cons, ih]
    by_cases hname : (table.variableAt x).name = name
    · simp [hname]
    · have hbeq : ((table.variableAt x).name == name) = false := by simpa using hname
      rw [if_neg (by simpa using hname), hbeq]

/-- The reader at the end of a class. -/
def closedClass (r : Reader) (id : ClassId) : Reader :=
  { r with
    layout := r.layout.exitClass
    classes := r.classes.modify id (completeClass r.layout.table) }

theorem extends_closedClass (r : Reader) (id : ClassId) : r.Extends (r.closedClass id) := by
  refine .of_table rfl ?_ (fun _ _ ho => ho) rfl rfl
  have hscopes : (r.closedClass id).classScopes = r.classScopes :=
    classScopes_withClass r (c := id) (f := completeClass r.layout.table) fun _ => rfl
  rw [hscopes]
  exact fun _ _ hc => hc

/-- **A class that is closed lists its fields.** -/
theorem Sound.closeClass {id : ClassId} {outer : Home} (h : r.Sound homes (some (.classBody id)))
    (houter : homes[r.layout.saved.headD SymbolTable.globalScope]? = some outer)
    (hfields : outer.fields? = r.layout.classes.tail.head?.map (·.id))
    (hroutine : outer.HoldsStatements → outer.routine? = r.layout.currentRoutine) :
    (r.closedClass id).Sound homes outer := by
  have e := extends_closedClass r id
  have hscopes : (r.closedClass id).classScopes = r.classScopes :=
    classScopes_withClass r (c := id) (f := completeClass r.layout.table) fun _ => rfl
  have hsize : (r.closedClass id).classes.size = r.classes.size := by simp [closedClass]
  have hget : ∀ (c : Nat) d, (r.closedClass id).classes[c]? = some d →
      ∃ before, r.classes[c]? = some before ∧
        (c ≠ id ∧ d = before ∨ c = id ∧ d = completeClass r.layout.table before) := by
    intro c d hd
    have hmodify := getElem?_withClass r id (completeClass r.layout.table) c
    rw [show (r.withClass id (completeClass r.layout.table)).classes[c]? = some d from hd] at hmodify
    split at hmodify
    · rename_i heq
      obtain ⟨before, hbefore, rfl⟩ := Option.map_eq_some_iff.mp hmodify.symm
      exact ⟨before, hbefore, Or.inr ⟨heq.symm, rfl⟩⟩
    · rename_i hne
      exact ⟨d, hmodify.symm, Or.inl ⟨fun heq => hne heq.symm, rfl⟩⟩
  refine ⟨?_, ?_, ?_, ?_, ?_⟩
  · rw [hscopes]
    exact h.layout.moveTo rfl houter (List.Sublist.refl _) (List.tail_sublist _) hfields hroutine
  · exact h.routines.keep e rfl rfl (Nat.le_of_eq hsize.symm) rfl (.of_entries rfl)
  · intro name c hc
    rw [hsize]
    exact h.classes.index name c hc
  · intro c d hd
    obtain ⟨before, hbefore, ⟨-, rfl⟩ | ⟨-, rfl⟩⟩ := hget c d hd
    · exact e.members (h.classes.members c _ hbefore)
    · -- The constructor is one of the methods.
      have hold := e.members (h.classes.members c before hbefore)
      exact ⟨hold.methods, fun i hi => hold.methods _ i hi, hold.declarations,
        fun x hx => ((h.layout.table.listed _ x).mp (Array.mem_toList_iff.mp hx)).1, rfl⟩
  · intro c d hd hclosed
    obtain ⟨before, hbefore, ⟨hne, rfl⟩ | ⟨-, rfl⟩⟩ := hget c d hd
    · refine h.classes.fields c _ hbefore ?_
      intro hmem
      have hcurrent : some id = r.layout.classes.head?.map (·.id) := h.layout.fields
      unfold openClasses at hmem
      cases hcs : r.layout.classes with
      | nil => simp [hcs] at hmem
      | cons o rest =>
        rw [hcs, List.map_cons, List.mem_cons] at hmem
        rcases hmem with heq | hmem
        · simp [hcs] at hcurrent
          exact hne (heq.trans hcurrent.symm)
        · refine hclosed ?_
          simpa [openClasses, closedClass, Layout.exitClass, Layout.restoreScope, hcs] using hmem
    · rfl

end Reader

end Primer.Grammar
