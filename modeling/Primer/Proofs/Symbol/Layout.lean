/-
What the operations of a layout keep.

`Layout.Sound` says that a layout stands at a home: the scope at hand belongs to it, the
routine and the class at hand are those of the home, and every variable of an open routine
lies inside the part of the frame that has been given out so far.  Opening a scope and
declaring a name keep this, each in the homes where the grammar does it.
-/
import Primer.Proofs.Symbol.Homes

namespace Primer

namespace SymbolTable

variable {homes : List Home} {classScopes : Array ScopeId} {t : SymbolTable} {s : ScopeId}

/-- The table with one more scope. -/
def addScope (t : SymbolTable) (parent : ScopeId) : SymbolTable :=
  { t with scopes := t.scopes.push { parent := some parent } }

/-- The table with one more variable, listed in a scope. -/
def addVariable (t : SymbolTable) (scope : ScopeId) (v : Variable) : SymbolTable :=
  { t with
    entries := t.entries.push v
    scopes := t.scopes.modify scope fun s => { s with members := s.members.push t.entries.size } }

/-! ### Reading a changed table -/

theorem scopeAt_eq (t : SymbolTable) (s : ScopeId) : t.scopeAt s = t.scopes[s]?.getD default := by
  simp [scopeAt]

theorem variableAt_eq (t : SymbolTable) (id : VarId) :
    t.variableAt id = t.entries[id]?.getD default := by
  simp [variableAt]

@[simp] theorem variableAt_addScope (t : SymbolTable) (q : ScopeId) (id : VarId) :
    (t.addScope q).variableAt id = t.variableAt id := rfl

@[simp] theorem entries_addScope (t : SymbolTable) (q : ScopeId) :
    (t.addScope q).entries = t.entries := rfl

@[simp] theorem size_scopes_addScope (t : SymbolTable) (q : ScopeId) :
    (t.addScope q).scopes.size = t.scopes.size + 1 := by
  simp [addScope]

theorem scopeAt_addScope (t : SymbolTable) (q s : ScopeId) :
    (t.addScope q).scopeAt s
      = if s = t.scopes.size then { parent := some q } else t.scopeAt s := by
  rw [scopeAt_eq, scopeAt_eq]
  simp only [addScope, Array.getElem?_push]
  split <;> simp

theorem scopeAt_beyond (h : t.scopes.size ≤ s) : t.scopeAt s = default := by
  rw [scopeAt_eq, Array.getElem?_eq_none h]
  rfl

theorem lt_size_of_parent {q : ScopeId} (h : (t.scopeAt s).parent = some q) :
    s < t.scopes.size := by
  by_contra hge
  rw [scopeAt_beyond (Nat.not_lt.mp hge)] at h
  cases h

theorem lt_size_of_member {k : Nat} {id : VarId} (h : (t.scopeAt s).members[k]? = some id) :
    s < t.scopes.size := by
  by_contra hge
  rw [scopeAt_beyond (Nat.not_lt.mp hge)] at h
  cases h

theorem variableAt_addVariable (t : SymbolTable) (s : ScopeId) (v : Variable) (id : VarId) :
    (t.addVariable s v).variableAt id = if id = t.entries.size then v else t.variableAt id := by
  rw [variableAt_eq, variableAt_eq]
  simp only [addVariable, Array.getElem?_push]
  split <;> simp

@[simp] theorem size_scopes_addVariable (t : SymbolTable) (s : ScopeId) (v : Variable) :
    (t.addVariable s v).scopes.size = t.scopes.size := by
  simp [addVariable]

@[simp] theorem size_entries_addVariable (t : SymbolTable) (s : ScopeId) (v : Variable) :
    (t.addVariable s v).entries.size = t.entries.size + 1 := by
  simp [addVariable]

theorem scopeAt_addVariable (t : SymbolTable) (hs : s < t.scopes.size) (v : Variable)
    (u : ScopeId) :
    (t.addVariable s v).scopeAt u
      = if u = s then
          { t.scopeAt s with members := (t.scopeAt s).members.push t.entries.size }
        else t.scopeAt u := by
  rw [scopeAt_eq, scopeAt_eq, scopeAt_eq]
  simp only [addVariable, Array.getElem?_modify]
  by_cases h : s = u
  · subst h
    simp [Array.getElem?_eq_getElem hs]
  · rw [if_neg h, if_neg (fun hc => h hc.symm)]

/-! ### Homes of a changed table -/

/-- A new scope may belong to the home of its parent or to one right inside it. -/
theorem Homed.addScope (ok : t.Homed homes classScopes) {q : ScopeId} {outer home : Home}
    (hq : homes[q]? = some outer) (hhome : home = outer ∨ home.around? = some outer)
    {classScopes' : Array ScopeId}
    (hmono : ∀ (c : Nat) s, classScopes[c]? = some s → classScopes'[c]? = some s)
    (hclass : ∀ (c : Nat) (s : Nat),
      classScopes'[c]? = some s ↔ (homes ++ [home])[s]? = some (some (.classBody c))) :
    (t.addScope q).Homed (homes ++ [home]) classScopes' := by
  have hlt : q < homes.length := (List.getElem?_eq_some_iff.mp hq).1
  -- Nothing changes for the scopes that were there before.
  have hold : ∀ s < t.scopes.size, (homes ++ [home])[s]? = homes[s]? := fun s hs =>
    List.getElem?_append_left (by rw [ok.size]; exact hs)
  have hnew : (homes ++ [home])[t.scopes.size]? = some home := by
    rw [← ok.size]; simp
  refine
    { size := by simp [SymbolTable.addScope, ok.size]
      root := by
        rw [List.getElem?_append_left (List.getElem?_eq_some_iff.mp ok.root).1]
        exact ok.root
      parents := ?_
      listed := ?_
      ordered := fun s => by
        rw [scopeAt_addScope]
        split
        · exact .nil
        · exact ok.ordered s
      placed := fun id hid => by
        rw [variableAt_addScope, size_scopes_addScope]
        exact Nat.lt_succ_of_lt (ok.placed id hid)
      seen := ?_
      statics := ok.statics
      locals := ok.locals
      apart := ok.apart
      classHomes := hclass
      fields := ?_ }
  · intro s p hp
    rw [scopeAt_addScope] at hp
    split at hp
    · rename_i hs
      obtain rfl : q = p := by simpa using hp
      subst hs
      refine ⟨by rw [← ok.size]; exact hlt, ?_⟩
      rw [hnew, List.getElem?_append_left hlt, hq]
      rcases hhome with rfl | haround
      · exact Or.inl rfl
      · exact Or.inr ⟨home, rfl, haround⟩
    · have hsize : s < t.scopes.size := lt_size_of_parent hp
      obtain ⟨hps, hrel⟩ := ok.parents s p hp
      exact ⟨hps, by rw [hold s hsize, hold p (Nat.lt_trans hps hsize)]; exact hrel⟩
  · intro s id
    rw [scopeAt_addScope]
    split
    · rename_i hs
      subst hs
      simp only [variableAt_addScope, entries_addScope, Array.not_mem_empty, false_iff,
        not_and]
      intro hid hscope
      exact absurd (ok.placed id hid) (by rw [hscope]; exact Nat.lt_irrefl _)
    · exact ok.listed s id
  · intro id hid h hh
    rw [variableAt_addScope, hold _ (ok.placed id hid)] at hh
    exact (ok.seen id hid h hh).moreClasses hmono
  · intro c s hcs k id hk
    rw [scopeAt_addScope] at hk
    split at hk
    · simp at hk
    · have hsize : s < t.scopes.size := lt_size_of_member hk
      have hhome := (hclass c s).mp hcs
      rw [hold s hsize] at hhome
      exact ok.fields c s ((ok.classHomes c s).mpr hhome) k id hk

/-- What a variable must be like to be added to the scope `s` of a table. -/
structure Fits (homes : List Home) (classScopes : Array ScopeId) (t : SymbolTable)
    (s : ScopeId) (v : Variable) : Prop where
  scope : v.scope = s
  size : s < t.scopes.size
  seen : ∀ h, homes[s]? = some h → v.SeenFrom classScopes h
  statics : v.storage = .static → 0 ≤ v.offset ∧ v.offset < t.staticCount
  locals : v.storage = .frame → 0 ≤ v.offset
  /-- The offset is new in its part of the stack. -/
  apart : ∀ id < t.entries.size, (t.variableAt id).Beside v → (t.variableAt id).offset ≠ v.offset
  /-- In the field scope of a class it is the next field. -/
  field : ∀ c : Nat, classScopes[c]? = some s →
    v.storage = .field ∧ v.offset = (t.scopeAt s).members.size

theorem Homed.addVariable (ok : t.Homed homes classScopes) {v : Variable}
    (fits : Fits homes classScopes t s v) : (t.addVariable s v).Homed homes classScopes := by
  have hs := fits.size
  -- An old variable is read as before, and the new one is `v`.
  have hcases : ∀ id < (t.addVariable s v).entries.size,
      (id < t.entries.size ∧ (t.addVariable s v).variableAt id = t.variableAt id) ∨
        (id = t.entries.size ∧ (t.addVariable s v).variableAt id = v) := by
    intro id hid
    rw [size_entries_addVariable] at hid
    rw [variableAt_addVariable]
    by_cases h : id = t.entries.size
    · exact Or.inr ⟨h, by rw [if_pos h]⟩
    · exact Or.inl ⟨by omega, by rw [if_neg h]⟩
  refine
    { size := by rw [size_scopes_addVariable]; exact ok.size
      root := ok.root
      parents := ?_
      listed := ?_
      ordered := ?_
      placed := ?_
      seen := ?_
      statics := ?_
      locals := ?_
      apart := ?_
      classHomes := ok.classHomes
      fields := ?_ }
  · intro u q hq
    rw [scopeAt_addVariable t hs] at hq
    split at hq
    · rename_i hu
      subst hu
      exact ok.parents u q hq
    · exact ok.parents u q hq
  · intro u id
    rw [scopeAt_addVariable t hs, size_entries_addVariable, variableAt_addVariable]
    by_cases hid : id = t.entries.size
    · subst hid
      rw [if_pos rfl]
      split
      · rename_i hu
        simp [hu, fits.scope]
      · rename_i hu
        have hnot : t.entries.size ∉ (t.scopeAt u).members := fun hmem =>
          Nat.lt_irrefl _ ((ok.listed u _).mp hmem).1
        simp only [hnot, false_iff, not_and]
        intro _ hscope
        exact hu (hscope.symm.trans fits.scope)
    · rw [if_neg hid]
      have hlt : id < t.entries.size + 1 ↔ id < t.entries.size :=
        ⟨fun h => Nat.lt_of_le_of_ne (Nat.le_of_lt_succ h) hid, Nat.lt_succ_of_lt⟩
      rw [hlt, ← ok.listed u id]
      split
      · rename_i hu
        subst hu
        simp [hid]
      · rfl
  · intro u
    rw [scopeAt_addVariable t hs]
    split
    · rename_i hu
      subst hu
      rw [Array.toList_push, List.pairwise_append]
      refine ⟨ok.ordered u, List.pairwise_singleton _ _, fun id hid id' hid' => ?_⟩
      rw [List.mem_singleton.mp hid']
      exact ((ok.listed u id).mp (Array.mem_toList_iff.mp hid)).1
    · exact ok.ordered u
  · intro id hid
    rw [size_scopes_addVariable]
    rcases hcases id hid with ⟨hold, heq⟩ | ⟨-, heq⟩
    · rw [heq]; exact ok.placed id hold
    · rw [heq, fits.scope]; exact hs
  · intro id hid h hh
    rcases hcases id hid with ⟨hold, heq⟩ | ⟨-, heq⟩
    · rw [heq] at hh ⊢; exact ok.seen id hold h hh
    · rw [heq] at hh ⊢; exact fits.seen h (by rw [← fits.scope]; exact hh)
  · intro id hid hst
    rcases hcases id hid with ⟨hold, heq⟩ | ⟨-, heq⟩
    · rw [heq] at hst ⊢; exact ok.statics id hold hst
    · rw [heq] at hst ⊢; exact fits.statics hst
  · intro id hid hst
    rcases hcases id hid with ⟨hold, heq⟩ | ⟨-, heq⟩
    · rw [heq] at hst ⊢; exact ok.locals id hold hst
    · rw [heq] at hst ⊢; exact fits.locals hst
  · intro id hid id' hid' hbeside ho
    rcases hcases id hid with ⟨hold, heq⟩ | ⟨hnew, heq⟩ <;>
      rcases hcases id' hid' with ⟨hold', heq'⟩ | ⟨hnew', heq'⟩ <;>
      rw [heq, heq'] at hbeside ho
    · exact ok.apart id hold id' hold' hbeside ho
    · exact absurd ho (fits.apart id hold hbeside)
    · exact absurd ho.symm (fits.apart id' hold' hbeside.symm)
    · rw [hnew, hnew']
  · intro c u hcu k id hk
    rw [scopeAt_addVariable t hs] at hk
    split at hk
    · rename_i hu
      subst hu
      simp only [Array.getElem?_push] at hk
      split at hk
      · rename_i hlast
        obtain rfl : t.entries.size = id := by simpa using hk
        rw [variableAt_addVariable, if_pos rfl, hlast]
        exact fits.field c hcu
      · rw [variableAt_addVariable, if_neg]
        · exact ok.fields c u hcu k id hk
        · rintro rfl
          exact Nat.lt_irrefl _ ((ok.listed u _).mp (Array.mem_of_getElem? hk)).1
    · rw [variableAt_addVariable, if_neg]
      · exact ok.fields c u hcu k id hk
      · rintro rfl
        exact Nat.lt_irrefl _ ((ok.listed u _).mp (Array.mem_of_getElem? hk)).1

end SymbolTable

/-! ### Layouts -/

namespace Layout

variable {homes : List Home} {classScopes : Array ScopeId} {home : Home} {l : Layout}

/-- The layout stands at a home. -/
structure Sound (homes : List Home) (classScopes : Array ScopeId) (home : Home) (l : Layout) :
    Prop where
  table : l.table.Homed homes classScopes
  here : homes[l.scope]? = some home
  fields : home.fields? = l.currentClass
  routine : home.HoldsStatements → home.routine? = l.currentRoutine
  distinct : (l.routines.map (·.id)).Nodup
  /-- Frames are given out to the variables of a routine and to no others. -/
  frames : ∀ o ∈ l.routines, ∀ id < l.table.entries.size,
    (l.table.variableAt id).routine = some o.id →
      (l.table.variableAt id).InFrame o.params o.locals
  classDistinct : (l.classes.map (·.id)).Nodup
  classes : ∀ o ∈ l.classes, classScopes[o.id]? = some o.scope ∧
    o.fields = (l.table.scopeAt o.scope).members.size

theorem Sound.scope_lt (h : l.Sound homes classScopes home) : l.scope < l.table.scopes.size := by
  rw [← h.table.size]
  exact (List.getElem?_eq_some_iff.mp h.here).1

/-- The field scope of an open class is a scope of the table. -/
theorem Sound.class_lt (h : l.Sound homes classScopes home) {o : OpenClass} (ho : o ∈ l.classes) :
    o.scope < l.table.scopes.size := by
  rw [← h.table.size]
  exact (List.getElem?_eq_some_iff.mp ((h.table.classHomes _ _).mp (h.classes o ho).1)).1

/-- The last home of a list with one more. -/
theorem eq_of_getElem?_append {a b : Home} {s : Nat} (hs : homes.length ≤ s)
    (h : (homes ++ [a])[s]? = some b) : a = b := by
  rw [List.getElem?_append_right hs] at h
  have hmem := List.mem_of_getElem? h
  exact (List.mem_singleton.mp hmem).symm

/-- A home that holds statements is not one of those that stand for classes. -/
theorem classHomes_append (ok : l.table.Homed homes classScopes) (hs : home.HoldsStatements)
    (c s : Nat) :
    classScopes[c]? = some s ↔ (homes ++ [home])[s]? = some (some (.classBody c)) := by
  rw [ok.classHomes c s]
  rcases Nat.lt_or_ge s homes.length with hlt | hge
  · rw [List.getElem?_append_left hlt]
  · constructor
    · intro h
      rw [List.getElem?_eq_none hge] at h
      cases h
    · intro h
      exact absurd (eq_of_getElem?_append hge h) (hs c)

/-- The new home of a class is the one that stands for it. -/
theorem classHomes_push (ok : l.table.Homed homes classScopes) (c s : Nat) :
    (classScopes.push homes.length)[c]? = some s ↔
      (homes ++ [some (.classBody classScopes.size)])[s]? = some (some (.classBody c)) := by
  rw [Array.getElem?_push]
  rcases Nat.lt_or_ge s homes.length with hlt | hge
  · rw [List.getElem?_append_left hlt, ← ok.classHomes c s]
    by_cases hc : c = classScopes.size
    · subst hc
      rw [if_pos rfl]
      constructor
      · intro h
        exact absurd hlt (Nat.not_lt.mpr (Nat.le_of_eq (Option.some.inj h)))
      · intro h
        exact absurd (Array.getElem?_eq_some_iff.mp h).1 (Nat.lt_irrefl _)
    · rw [if_neg hc]
  · constructor
    · intro h
      split at h
      · rename_i hc
        obtain rfl : homes.length = s := Option.some.inj h
        rw [hc]
        simp
      · rw [ok.classHomes c s, List.getElem?_eq_none hge] at h
        cases h
    · intro h
      have hlt := (List.getElem?_eq_some_iff.mp h).1
      rw [List.length_append, List.length_singleton] at hlt
      have hc := eq_of_getElem?_append hge h
      rw [Option.some.injEq, Definition.classBody.injEq] at hc
      rw [if_pos hc.symm]
      exact congrArg some (Nat.le_antisymm hge (Nat.le_of_lt_succ hlt))

theorem Sound.pushScope (h : l.Sound homes classScopes home) (hs : home.HoldsStatements) :
    l.pushScope.Sound (homes ++ [home]) classScopes home where
  table := h.table.addScope h.here (Or.inl rfl) (fun _ _ hc => hc) (classHomes_append h.table hs)
  here := by
    show (homes ++ [home])[l.table.scopes.size]? = some home
    rw [← h.table.size]
    simp
  fields := h.fields
  routine := h.routine
  distinct := h.distinct
  frames := h.frames
  classDistinct := h.classDistinct
  classes := by
    intro o ho
    refine ⟨(h.classes o ho).1, (h.classes o ho).2.trans ?_⟩
    show _ = ((l.table.addScope l.scope).scopeAt o.scope).members.size
    rw [SymbolTable.scopeAt_addScope, if_neg (Nat.ne_of_lt (h.class_lt ho))]

/-- Going back to another scope, with fewer definitions open. -/
theorem Sound.moveTo (h : l.Sound homes classScopes home) {outer : Home} {l' : Layout}
    (ht : l'.table = l.table) (hhere : homes[l'.scope]? = some outer)
    (hroutines : l'.routines.Sublist l.routines) (hclasses : l'.classes.Sublist l.classes)
    (hfields : outer.fields? = l'.currentClass)
    (hroutine : outer.HoldsStatements → outer.routine? = l'.currentRoutine) :
    l'.Sound homes classScopes outer where
  table := by rw [ht]; exact h.table
  here := hhere
  fields := hfields
  routine := hroutine
  distinct := h.distinct.sublist (hroutines.map _)
  frames := by
    intro o ho
    rw [ht]
    exact h.frames o (hroutines.subset ho)
  classDistinct := h.classDistinct.sublist (hclasses.map _)
  classes := by
    intro o ho
    rw [ht]
    exact h.classes o (hclasses.subset ho)

/-- Where a routine is opened: in the class at hand, or in the program. -/
theorem Sound.routineParent (h : l.Sound homes classScopes home) (id : RoutineId) :
    ∃ outer, homes[l.routineParent]? = some outer ∧
      Home.around? (some (.routine id l.currentClass)) = some outer := by
  unfold Layout.routineParent Layout.currentClass
  cases hc : l.classes with
  | nil => exact ⟨none, h.table.root, rfl⟩
  | cons o rest =>
    refine ⟨some (.classBody o.id), ?_, rfl⟩
    exact (h.table.classHomes o.id o.scope).mp (h.classes o (by simp [hc])).1

theorem Sound.enterRoutine (h : l.Sound homes classScopes home) {id : RoutineId}
    (hid : id ∉ l.routines.map (·.id))
    (hfresh : ∀ x < l.table.entries.size, (l.table.variableAt x).routine ≠ some id) :
    (l.enterRoutine id).Sound (homes ++ [some (.routine id l.currentClass)]) classScopes
      (some (.routine id l.currentClass)) where
  table := by
    obtain ⟨outer, hparent, haround⟩ := h.routineParent id
    exact h.table.addScope hparent (Or.inr haround) (fun _ _ hc => hc)
      (classHomes_append h.table (by intro c hc; cases hc))
  here := by
    show (homes ++ [some (.routine id l.currentClass)])[l.table.scopes.size]? = _
    rw [← h.table.size]
    simp
  fields := rfl
  routine := fun _ => rfl
  distinct := by
    show (id :: l.routines.map (·.id)).Nodup
    exact List.nodup_cons.mpr ⟨hid, h.distinct⟩
  frames := by
    intro o ho x hx hr
    rcases List.mem_cons.mp ho with rfl | ho
    · exact absurd hr (hfresh x hx)
    · exact h.frames o ho x hx hr
  classDistinct := h.classDistinct
  classes := by
    intro o ho
    refine ⟨(h.classes o ho).1, (h.classes o ho).2.trans ?_⟩
    show _ = ((l.table.addScope l.routineParent).scopeAt o.scope).members.size
    rw [SymbolTable.scopeAt_addScope, if_neg (Nat.ne_of_lt (h.class_lt ho))]

theorem Sound.enterClass (h : l.Sound homes classScopes home) :
    (l.enterClass classScopes.size).Sound (homes ++ [some (.classBody classScopes.size)])
      (classScopes.push l.table.scopes.size) (some (.classBody classScopes.size)) where
  table := by
    rw [← h.table.size]
    refine h.table.addScope h.table.root (Or.inr rfl) ?_ (classHomes_push h.table)
    grind
  here := by
    show (homes ++ [some (.classBody classScopes.size)])[l.table.scopes.size]? = _
    rw [← h.table.size]
    simp
  fields := rfl
  routine := fun hs => absurd rfl (hs classScopes.size)
  distinct := h.distinct
  frames := h.frames
  classDistinct := by
    show (classScopes.size :: l.classes.map (·.id)).Nodup
    refine List.nodup_cons.mpr ⟨?_, h.classDistinct⟩
    intro hmem
    obtain ⟨o, ho, hid⟩ := List.mem_map.mp hmem
    have := (Array.getElem?_eq_some_iff.mp (h.classes o ho).1).1
    omega
  classes := by
    intro o ho
    show _ ∧ _ = ((l.table.addScope SymbolTable.globalScope).scopeAt o.scope).members.size
    rcases List.mem_cons.mp ho with rfl | ho
    · refine ⟨by simp [Layout.openScope], ?_⟩
      rw [SymbolTable.scopeAt_addScope]
      simp [Layout.openScope]
    · obtain ⟨hscope, hfields⟩ := h.classes o ho
      rw [SymbolTable.scopeAt_addScope, if_neg (Nat.ne_of_lt (h.class_lt ho))]
      refine ⟨?_, hfields⟩
      grind

/-! ### Declaring names

A declaration takes the next static, the next slot of the frame or the next field, and
lists the variable in the scope at hand.  The three cases differ in which counter moves.
-/

/-- A home has one scope at hand, so the home of that scope is known. -/
theorem Sound.home_eq (h : l.Sound homes classScopes home) {other : Home}
    (ho : homes[l.scope]? = some other) : other = home :=
  Option.some.inj (ho.symm.trans h.here)

/-- What is declared in the scope at hand may be mentioned there. -/
theorem Sound.seen (h : l.Sound homes classScopes home) {id : VarId}
    (hid : id < l.table.entries.size) (hscope : (l.table.variableAt id).scope = l.scope) :
    (l.table.variableAt id).SeenFrom classScopes home :=
  h.table.seen id hid home (by rw [hscope]; exact h.here)

/-- The layout after a variable got its place: one of the counters may have moved. -/
theorem Sound.add (h : l.Sound homes classScopes home) {statics : Nat}
    {routines : List OpenRoutine} {classes : List OpenClass} {v : Variable}
    (hstatics : l.table.staticCount ≤ statics)
    (fits : SymbolTable.Fits homes classScopes { l.table with staticCount := statics } l.scope v)
    (hroutines : routines.map (·.id) = l.routines.map (·.id))
    (hgrown : ∀ o ∈ routines, ∃ old ∈ l.routines,
      old.id = o.id ∧ old.params ≤ o.params ∧ old.locals ≤ o.locals)
    (hnew : ∀ o ∈ routines, v.routine = some o.id → v.InFrame o.params o.locals)
    (hclasses : classes.map (fun o => (o.id, o.scope)) = l.classes.map (fun o => (o.id, o.scope)))
    (hfields : ∀ o ∈ classes,
      o.fields = ((l.table.addVariable l.scope v).scopeAt o.scope).members.size) :
    (Layout.addVariable
      { l with table := { l.table with staticCount := statics }, routines, classes } v).Sound
        homes classScopes home := by
  have hmore : { l.table with staticCount := statics }.Homed homes classScopes :=
    { h.table with
      statics := fun id hid hst => by
        obtain ⟨hlo, hhi⟩ := h.table.statics id hid hst
        exact ⟨hlo, Int.lt_of_lt_of_le hhi (Int.ofNat_le.mpr hstatics)⟩ }
  have hids : classes.map (·.id) = l.classes.map (·.id) := by
    have := congrArg (List.map Prod.fst) hclasses
    simpa [List.map_map, Function.comp_def] using this
  refine
    { table := hmore.addVariable fits
      here := h.here
      fields := ?_
      routine := ?_
      distinct := by rw [show (Layout.addVariable _ v).routines = routines from rfl, hroutines]
                     exact h.distinct
      frames := ?_
      classDistinct := by rw [show (Layout.addVariable _ v).classes = classes from rfl, hids]
                          exact h.classDistinct
      classes := ?_ }
  · rw [h.fields]
    show l.classes.head?.map (·.id) = classes.head?.map (·.id)
    rw [← List.head?_map, ← List.head?_map, hids]
  · intro hs
    rw [h.routine hs]
    show l.routines.head?.map (·.id) = routines.head?.map (·.id)
    rw [← List.head?_map, ← List.head?_map, hroutines]
  · intro o ho id hid hr
    show ((SymbolTable.addVariable _ l.scope v).variableAt id).InFrame o.params o.locals
    have hr' : ((SymbolTable.addVariable { l.table with staticCount := statics } l.scope
      v).variableAt id).routine = some o.id := hr
    rw [SymbolTable.variableAt_addVariable] at hr' ⊢
    split at hr'
    · rename_i hlast
      rw [if_pos hlast]
      exact hnew o ho hr'
    · rename_i hlast
      rw [if_neg hlast]
      have hlt : id < l.table.entries.size + 1 := by
        simpa [Layout.addVariable] using hid
      obtain ⟨old, hold, hoid, hparams, hlocals⟩ := hgrown o ho
      obtain ⟨hframe, harg⟩ := h.frames old hold id
        (Nat.lt_of_le_of_ne (Nat.le_of_lt_succ hlt) hlast) (by rw [hoid]; exact hr')
      refine ⟨fun hst => ?_, fun ha => ?_⟩
      · obtain ⟨hlo, hhi⟩ := hframe hst
        exact ⟨hlo, Int.lt_of_lt_of_le hhi (Int.ofNat_le.mpr hlocals)⟩
      · obtain ⟨hlo, hhi⟩ := harg ha
        exact ⟨Int.le_trans (Int.neg_le_neg (Int.ofNat_le.mpr hparams)) hlo, hhi⟩
  · intro o ho
    refine ⟨?_, hfields o ho⟩
    have hmem : (o.id, o.scope) ∈ l.classes.map (fun o => (o.id, o.scope)) := by
      rw [← hclasses]
      exact List.mem_map_of_mem ho
    obtain ⟨old, hold, heq⟩ := List.mem_map.mp hmem
    obtain ⟨hid, hscope⟩ := Prod.mk.inj heq
    rw [← hid, ← hscope]
    exact (h.classes old hold).1

/-- Outside of class bodies no field scope is the scope at hand. -/
theorem Sound.not_classScope (h : l.Sound homes classScopes home) (hs : home.HoldsStatements)
    (c : Nat) : classScopes[c]? ≠ some l.scope := by
  intro hc
  exact hs c (h.home_eq ((h.table.classHomes c _).mp hc)).symm

theorem Sound.fields_elsewhere (h : l.Sound homes classScopes home) (hs : home.HoldsStatements)
    (v : Variable) : ∀ o ∈ l.classes,
      o.fields = ((l.table.addVariable l.scope v).scopeAt o.scope).members.size := by
  intro o ho
  obtain ⟨hclass, hfields⟩ := h.classes o ho
  rw [SymbolTable.scopeAt_addVariable _ h.scope_lt, if_neg]
  · exact hfields
  · intro heq
    rw [heq] at hclass
    exact h.not_classScope hs _ hclass

/-- The variable that `declare` makes. -/
def declared (l : Layout) (name : String) (type : TypeName) (rank : Nat) (kind : DeclarationKind)
    (span : Span) : Variable :=
  { name, type, storage := (l.nextPlace kind).1, offset := (l.nextPlace kind).2.1, rank
    isConstant := kind == .constant, scope := l.scope, routine := l.currentRoutine, span }

variable {name : String} {type : TypeName} {rank : Nat} {kind : DeclarationKind} {span : Span}

/-- Taking a place moves one counter and nothing else. -/
structure Counted (l taken : Layout) : Prop where
  entries : taken.table.entries = l.table.entries
  scopes : taken.table.scopes = l.table.scopes
  scope : taken.scope = l.scope
  saved : taken.saved = l.saved
  routines : taken.routines.map (·.id) = l.routines.map (·.id)
  outer : taken.routines.tail = l.routines.tail
  classes : taken.classes.map (fun o => (o.id, o.scope)) = l.classes.map (fun o => (o.id, o.scope))

theorem counted_nextPlace (l : Layout) (kind : DeclarationKind) :
    Counted l (l.nextPlace kind).2.2 := by
  cases kind with
  | field => cases hc : l.classes <;> constructor <;> simp [nextPlace, nextStatic, hc]
  | plain => cases hr : l.routines <;> constructor <;> simp [nextPlace, nextStatic, hr]
  | constant => cases hr : l.routines <;> constructor <;> simp [nextPlace, nextStatic, hr]
  | parameter b => cases hr : l.routines <;> constructor <;> simp [nextPlace, nextStatic, hr]

/-- Only parameters are counted as such. -/
theorem params_nextPlace (l : Layout) (h : ∀ b, kind ≠ .parameter b) :
    (l.nextPlace kind).2.2.routines.map (·.params) = l.routines.map (·.params) := by
  cases kind with
  | parameter b => exact absurd rfl (h b)
  | field => cases hc : l.classes <;> simp [nextPlace, nextStatic, hc]
  | plain => cases hr : l.routines <;> simp [nextPlace, nextStatic, hr]
  | constant => cases hr : l.routines <;> simp [nextPlace, nextStatic, hr]

theorem declare_eq : l.declare name type rank kind span =
    (l.table.entries.size,
      (l.nextPlace kind).2.2.addVariable (l.declared name type rank kind span)) := rfl

theorem declare_table (l : Layout) (name : String) (type : TypeName) (rank : Nat)
    (kind : DeclarationKind) (span : Span) : ∃ statics,
    (l.declare name type rank kind span).2.table
      = { l.table with staticCount := statics }.addVariable l.scope
          (l.declared name type rank kind span) := by
  have counted := counted_nextPlace l kind
  refine ⟨(l.nextPlace kind).2.2.table.staticCount, ?_⟩
  rw [declare_eq]
  simp [Layout.addVariable, SymbolTable.addVariable, counted.entries, counted.scopes, counted.scope]

theorem size_entries_declare (l : Layout) (name : String) (type : TypeName) (rank : Nat)
    (kind : DeclarationKind) (span : Span) :
    (l.declare name type rank kind span).2.table.entries.size = l.table.entries.size + 1 := by
  obtain ⟨statics, htable⟩ := l.declare_table name type rank kind span
  rw [htable, SymbolTable.size_entries_addVariable]

theorem variableAt_declare (l : Layout) (name : String) (type : TypeName) (rank : Nat)
    (kind : DeclarationKind) (span : Span) (x : VarId) :
    (l.declare name type rank kind span).2.table.variableAt x
      = if x = l.table.entries.size then l.declared name type rank kind span
        else l.table.variableAt x := by
  obtain ⟨statics, htable⟩ := l.declare_table name type rank kind span
  rw [htable, SymbolTable.variableAt_addVariable]
  rfl

theorem scopeAt_declare (l : Layout) (name : String) (type : TypeName) (rank : Nat)
    (kind : DeclarationKind) (span : Span) (hs : l.scope < l.table.scopes.size) (s : ScopeId) :
    (l.declare name type rank kind span).2.table.scopeAt s
      = if s = l.scope then
          { l.table.scopeAt l.scope with
            members := (l.table.scopeAt l.scope).members.push l.table.entries.size }
        else l.table.scopeAt s := by
  obtain ⟨statics, htable⟩ := l.declare_table name type rank kind span
  rw [htable]
  exact SymbolTable.scopeAt_addVariable { l.table with staticCount := statics } hs _ s

/-- A local or a static. -/
theorem Sound.declare_plain (h : l.Sound homes classScopes home) (hs : home.HoldsStatements)
    (hkind : kind = .plain ∨ kind = .constant) :
    (l.declare name type rank kind span).2.Sound homes classScopes home := by
  have hplace : l.nextPlace kind = l.nextPlace .plain := by rcases hkind with rfl | rfl <;> rfl
  cases hr : l.routines with
  | nil =>
    have hnext : l.nextPlace kind = l.nextStatic := by rw [hplace]; simp [nextPlace, hr]
    rw [declare_eq, hnext]
    have hstorage : (l.declared name type rank kind span).storage = .static := by
      simp [declared, hnext, nextStatic]
    have hoffset : (l.declared name type rank kind span).offset = l.table.staticCount := by
      simp [declared, hnext, nextStatic]
    refine h.add (Nat.le_succ _) ?_ rfl (fun o ho => ⟨o, ho, rfl, Nat.le_refl _, Nat.le_refl _⟩) ?_
      rfl (h.fields_elsewhere hs _)
    · exact
        { scope := rfl
          size := h.scope_lt
          seen := fun _ _ => by simp [Variable.SeenFrom, hstorage]
          statics := fun _ => by rw [hoffset]; exact ⟨by omega, Int.ofNat_lt.mpr (Nat.lt_succ_self _)⟩
          locals := fun hc => by simp [hstorage] at hc
          apart := fun id hid hbeside => by
            rw [hoffset]
            exact Int.ne_of_lt (h.table.statics id hid (hbeside.static hstorage)).2
          field := fun c hc => absurd hc (h.not_classScope hs c) }
    · intro o ho
      simp [hr] at ho
  | cons r rest =>
    have hnext : l.nextPlace kind
        = (Storage.frame, (r.locals : Int), { l with routines := { r with locals := r.locals + 1 } :: rest }) := by
      rw [hplace]; simp [nextPlace, hr]
    rw [declare_eq, hnext]
    have hstorage : (l.declared name type rank kind span).storage = .frame := by
      simp [declared, hnext]
    have hoffset : (l.declared name type rank kind span).offset = r.locals := by
      simp [declared, hnext]
    have hroutine : l.currentRoutine = some r.id := by simp [currentRoutine, hr]
    refine h.add (Nat.le_refl _) ?_ (by simp [hr]) ?_ ?_ rfl (h.fields_elsewhere hs _)
    · exact
        { scope := rfl
          size := h.scope_lt
          seen := fun other hother => by
            rw [h.home_eq hother]
            simp only [Variable.SeenFrom, hstorage]
            exact ⟨r.id, by rw [h.routine hs, hroutine], hroutine⟩
          statics := fun hc => by simp [hstorage] at hc
          locals := fun _ => by rw [hoffset]; omega
          apart := fun id hid hbeside => by
            obtain ⟨hst, hid'⟩ := hbeside.frame hstorage
            rw [hoffset]
            exact Int.ne_of_lt ((h.frames r (by simp [hr]) id hid (hid'.trans hroutine)).1 hst).2
          field := fun c hc => absurd hc (h.not_classScope hs c) }
    · intro o ho
      rcases List.mem_cons.mp ho with rfl | ho
      · exact ⟨r, by simp [hr], rfl, Nat.le_refl _, Nat.le_succ _⟩
      · exact ⟨o, by simp [hr, ho], rfl, Nat.le_refl _, Nat.le_refl _⟩
    · intro o ho hor
      have hro : r.id = o.id := Option.some.inj (hroutine.symm.trans hor)
      rcases List.mem_cons.mp ho with rfl | ho
      · refine ⟨fun _ => ?_, fun hc => ?_⟩
        · rw [hoffset]; exact ⟨by omega, Int.ofNat_lt.mpr (Nat.lt_succ_self _)⟩
        · simp [Variable.IsArgument, hstorage] at hc
      · -- The routine at hand is open once.
        have hnodup := h.distinct
        rw [hr, List.map_cons, List.nodup_cons] at hnodup
        exact absurd (by rw [hro]; exact List.mem_map_of_mem ho) hnodup.1

/-- A parameter of the routine at hand. -/
theorem Sound.declare_parameter (h : l.Sound homes classScopes home) (hs : home.HoldsStatements)
    {r : OpenRoutine} {rest : List OpenRoutine} (hr : l.routines = r :: rest) {byRef : Bool} :
    (l.declare name type rank (.parameter byRef) span).2.Sound homes classScopes home := by
  have hnext : l.nextPlace (.parameter byRef)
      = (if byRef then .refArgument else .argument, -((r.params : Int) + 1),
          { l with routines := { r with params := r.params + 1 } :: rest }) := by
    simp [nextPlace, hr]
  rw [declare_eq, hnext]
  have hoffset : (l.declared name type rank (.parameter byRef) span).offset
      = -((r.params : Int) + 1) := by
    simp [declared, hnext]
  have harg : (l.declared name type rank (.parameter byRef) span).IsArgument := by
    cases byRef <;> simp [Variable.IsArgument, declared, hnext]
  have hroutine : l.currentRoutine = some r.id := by simp [currentRoutine, hr]
  refine h.add (Nat.le_refl _) ?_ (by simp [hr]) ?_ ?_ rfl (h.fields_elsewhere hs _)
  · exact
      { scope := rfl
        size := h.scope_lt
        seen := fun other hother => by
          rw [h.home_eq hother]
          have hseen : ∃ i, home.routine? = some i ∧ l.currentRoutine = some i :=
            ⟨r.id, by rw [h.routine hs, hroutine], hroutine⟩
          rcases harg with hst | hst <;> simp only [Variable.SeenFrom, hst] <;> exact hseen
        statics := fun hc => by rcases harg with hst | hst <;> simp [hst] at hc
        locals := fun hc => by rcases harg with hst | hst <;> simp [hst] at hc
        apart := fun id hid hbeside heq => by
          obtain ⟨hid', hidr⟩ := hbeside.argument harg
          have hin := (h.frames r (by simp [hr]) id hid (hidr.trans hroutine)).2 hid'
          rw [heq, hoffset] at hin
          omega
        field := fun c hc => absurd hc (h.not_classScope hs c) }
  · intro o ho
    rcases List.mem_cons.mp ho with rfl | ho
    · exact ⟨r, by simp [hr], rfl, Nat.le_succ _, Nat.le_refl _⟩
    · exact ⟨o, by simp [hr, ho], rfl, Nat.le_refl _, Nat.le_refl _⟩
  · intro o ho hor
    have hro : r.id = o.id := Option.some.inj (hroutine.symm.trans hor)
    rcases List.mem_cons.mp ho with rfl | ho
    · refine ⟨fun hc => ?_, fun _ => ?_⟩
      · rcases harg with hst | hst <;> simp [hst] at hc
      · rw [hoffset]; exact ⟨by simp, by omega⟩
    · have hnodup := h.distinct
      rw [hr, List.map_cons, List.nodup_cons] at hnodup
      exact absurd (by rw [hro]; exact List.mem_map_of_mem ho) hnodup.1

/-- A field of the class at hand. -/
theorem Sound.declare_field {c : ClassId}
    (h : l.Sound homes classScopes (some (.classBody c))) :
    (l.declare name type rank .field span).2.Sound homes classScopes (some (.classBody c)) := by
  obtain ⟨o, rest, hc, ho⟩ : ∃ o rest, l.classes = o :: rest ∧ o.id = c := by
    have hfields : some c = l.currentClass := h.fields
    unfold currentClass at hfields
    cases hc : l.classes with
    | nil => simp [hc] at hfields
    | cons o rest => exact ⟨o, rest, rfl, by simpa [hc] using hfields.symm⟩
  subst ho
  have hnext : l.nextPlace .field
      = (Storage.field, (o.fields : Int), { l with classes := { o with fields := o.fields + 1 } :: rest }) := by
    simp [nextPlace, hc]
  obtain ⟨hclass, hcount⟩ := h.classes o (by simp [hc])
  -- A class has one field scope, and that is the scope at hand.
  have hscope : o.scope = l.scope := by
    have := (h.table.classHomes o.id l.scope).mpr h.here
    exact Option.some.inj (hclass.symm.trans this)
  rw [declare_eq, hnext]
  have hstorage : (l.declared name type rank .field span).storage = .field := by
    simp [declared, hnext]
  have hoffset : (l.declared name type rank .field span).offset = o.fields := by
    simp [declared, hnext]
  refine h.add (Nat.le_refl _) ?_ rfl (fun o ho => ⟨o, ho, rfl, Nat.le_refl _, Nat.le_refl _⟩) ?_
    (by simp [hc]) ?_
  · exact
      { scope := rfl
        size := h.scope_lt
        seen := fun other hother => by
          rw [h.home_eq hother]
          simp only [Variable.SeenFrom, hstorage]
          exact ⟨o.id, rfl, by rw [hclass, hscope]; rfl⟩
        statics := fun hc => by simp [hstorage] at hc
        locals := fun hc => by simp [hstorage] at hc
        apart := fun id _ hbeside => by simp [Variable.Beside, Variable.IsArgument, hstorage] at hbeside
        field := fun d _ => ⟨hstorage, by rw [hoffset, hcount, hscope]⟩ }
  · intro p _ _
    refine ⟨fun hc => ?_, fun hc => ?_⟩
    · simp [hstorage] at hc
    · simp [Variable.IsArgument, hstorage] at hc
  · intro p hp
    rw [SymbolTable.scopeAt_addVariable _ h.scope_lt]
    rcases List.mem_cons.mp hp with rfl | hp
    · rw [if_pos hscope, Array.size_push, ← hscope, ← hcount]
    · obtain ⟨hpclass, hpcount⟩ := h.classes p (by simp [hc, hp])
      rw [if_neg]
      · exact hpcount
      · intro heq
        have hhome := h.home_eq ((h.table.classHomes p.id l.scope).mp (heq ▸ hpclass))
        rw [Option.some.injEq, Definition.classBody.injEq] at hhome
        have hnodup := h.classDistinct
        rw [hc, List.map_cons, List.nodup_cons] at hnodup
        exact absurd (by rw [← hhome]; exact List.mem_map_of_mem hp) hnodup.1

end Layout

end Primer
