/-
What a layout shows is in sight.

While statements are read, the symbol table grows, but only the scope at hand and those around it
are looked at.  `Layout.Shows` says that they declare what is in sight, so that a name is found as
the variable it stands for.  Opening and closing a scope and declaring a name keep this.
-/
import Primer.Proofs.Spelling.Statement
import Primer.Proofs.Symbol.Layout

namespace Primer

open Grammar

namespace SymbolTable

variable {t t' : SymbolTable} {scope : ScopeId} {here : List (String × VarId)}
  {around : List (List (String × VarId))} {name : String}

/-- The scope itself declares these variables under these names. -/
structure Lists (t : SymbolTable) (scope : ScopeId) (here : List (String × VarId)) : Prop where
  members : (t.scopeAt scope).members.toList.map (fun id => ((t.variableAt id).name, id)) = here
  known : ∀ id ∈ (t.scopeAt scope).members, id < t.entries.size

/-- So do the scope and all those around it. -/
def Shows (t : SymbolTable) :
    ScopeId → List (String × VarId) → List (List (String × VarId)) → Prop
  | scope, here, [] => t.Lists scope here ∧ (t.scopeAt scope).parent = none
  | scope, here, next :: more => t.Lists scope here ∧
    ∃ parent, (t.scopeAt scope).parent = some parent ∧ parent < scope ∧ t.Shows parent next more

theorem Shows.lists (h : t.Shows scope here around) : t.Lists scope here := by
  cases around with
  | nil => exact h.1
  | cons next more => exact h.1

theorem lookup_pairs (f : VarId → String) (ids : List VarId) :
    (ids.map fun id => (f id, id)).lookup name = ids.find? fun id => f id == name := by
  induction ids with
  | nil => rfl
  | cons id ids ih =>
    rw [List.map_cons, List.lookup_cons, List.find?_cons, ih]
    by_cases hname : f id = name
    · rw [hname, beq_self_eq_true]
    · rw [beq_false_of_ne hname, beq_false_of_ne (Ne.symm hname)]

theorem Lists.findIn? (h : t.Lists scope here) : t.findIn? scope name = here.lookup name := by
  rw [← h.members, lookup_pairs, SymbolTable.findIn?, ← Array.find?_toList]

/-- A name is looked up in the nearest scope first. -/
theorem Shows.lookup? (h : t.Shows scope here around) :
    t.lookup? scope name = (here :: around).findSome? (·.lookup name) := by
  induction around generalizing scope here with
  | nil =>
    obtain ⟨hlists, hparent⟩ := h
    rw [SymbolTable.lookup?, hlists.findIn?, hparent]
    cases hfound : here.lookup name <;> simp [hfound]
  | cons next more ih =>
    obtain ⟨hlists, parent, hparent, hlt, hmore⟩ := h
    rw [SymbolTable.lookup?, hlists.findIn?, hparent, List.findSome?_cons, ← ih hmore]
    cases hfound : here.lookup name <;> simp [hlt]

theorem Lists.of_same (h : t.Lists scope here) (hscope : t'.scopeAt scope = t.scopeAt scope)
    (hnames : ∀ id < t.entries.size, (t'.variableAt id).name = (t.variableAt id).name)
    (hsize : t.entries.size ≤ t'.entries.size) : t'.Lists scope here := by
  refine ⟨?_, fun id hid => Nat.lt_of_lt_of_le (h.known id (hscope ▸ hid)) hsize⟩
  rw [← h.members, hscope]
  refine List.map_congr_left fun id hid => ?_
  rw [hnames id (h.known id (Array.mem_toList_iff.mp hid))]

/-- What happens to other scopes does not matter. -/
theorem Shows.of_same (h : t.Shows scope here around)
    (hscopes : ∀ u ≤ scope, t'.scopeAt u = t.scopeAt u)
    (hnames : ∀ id < t.entries.size, (t'.variableAt id).name = (t.variableAt id).name)
    (hsize : t.entries.size ≤ t'.entries.size) : t'.Shows scope here around := by
  have hscope := hscopes scope (Nat.le_refl _)
  induction around generalizing scope here with
  | nil => exact ⟨h.1.of_same hscope hnames hsize, hscope ▸ h.2⟩
  | cons next more ih =>
    obtain ⟨hlists, parent, hparent, hlt, hmore⟩ := h
    have houter : ∀ u ≤ parent, t'.scopeAt u = t.scopeAt u := fun u hu =>
      hscopes u (Nat.le_trans hu (Nat.le_of_lt hlt))
    exact ⟨hlists.of_same hscope hnames hsize, parent, hscope ▸ hparent, hlt,
      ih hmore houter (houter parent (Nat.le_refl _))⟩

end SymbolTable

/-- The variables of the layout are those that were declared, and what is in sight from its scope is
what it shows. -/
structure Layout.Shows (l : Layout) (s : Sight) : Prop where
  declared : l.table.entries.toList.map (fun v => (v.name, v.type)) = s.declared
  scopes : l.table.Shows l.scope s.here s.around
  inside : l.scope < l.table.scopes.size

namespace Layout.Shows

variable {l : Layout} {s : Sight}

/-- Before anything has been declared. -/
protected theorem start : Layout.Shows {} {} :=
  ⟨rfl, ⟨⟨rfl, fun id hid => absurd hid (Array.not_mem_empty id)⟩, rfl⟩, by decide⟩

theorem lookup? (h : l.Shows s) : l.lookup? = s.lookup? :=
  funext fun _ => h.scopes.lookup?

theorem size_eq (h : l.Shows s) : l.table.entries.size = s.declared.length := by
  rw [← h.declared, List.length_map, Array.length_toList]

theorem pushScope (h : l.Shows s) : l.pushScope.Shows s.enter := by
  have hscope : ∀ u, (l.table.addScope l.scope).scopeAt u
      = if u = l.table.scopes.size then { parent := some l.scope } else l.table.scopeAt u :=
    l.table.scopeAt_addScope l.scope
  have hnew := hscope l.table.scopes.size
  rw [if_pos rfl] at hnew
  refine ⟨h.declared, ⟨⟨?_, ?_⟩, l.scope, ?_, h.inside, ?_⟩, ?_⟩
  · show ((l.table.addScope l.scope).scopeAt l.table.scopes.size).members.toList.map _ = []
    rw [hnew]
    rfl
  · show ∀ id ∈ ((l.table.addScope l.scope).scopeAt l.table.scopes.size).members, _
    rw [hnew]
    exact fun id hid => absurd hid (Array.not_mem_empty id)
  · show ((l.table.addScope l.scope).scopeAt l.table.scopes.size).parent = _
    rw [hnew]
  · refine h.scopes.of_same (fun u hu => ?_) (fun _ _ => rfl) (Nat.le_refl _)
    have hold : u ≠ l.table.scopes.size := Nat.ne_of_lt (Nat.lt_of_le_of_lt hu h.inside)
    exact (hscope u).trans (if_neg hold)
  · show l.table.scopes.size < (l.table.addScope l.scope).scopes.size
    rw [SymbolTable.size_scopes_addScope]
    exact Nat.lt_succ_self _

theorem popScope (h : l.Shows s) : l.popScope.Shows s.leave := by
  have hscopes := h.scopes
  unfold Layout.popScope Sight.leave
  cases haround : s.around with
  | nil =>
    rw [haround] at hscopes
    rw [hscopes.2]
    exact h
  | cons next more =>
    rw [haround] at hscopes
    obtain ⟨-, parent, hparent, hlt, hmore⟩ := hscopes
    rw [hparent]
    exact ⟨h.declared, hmore, Nat.lt_trans hlt h.inside⟩

theorem declare (h : l.Shows s) (name : String) (type : TypeName) (kind : DeclarationKind)
    (span : Span) :
    (l.declare name type 0 kind span).1 = s.declared.length ∧
      (l.declare name type 0 kind span).2.Shows (s.declare name type) := by
  obtain ⟨statics, htable⟩ := l.declare_table name type 0 kind span
  have hscope : (l.declare name type 0 kind span).2.scope = l.scope :=
    (l.counted_nextPlace kind).scope
  have hat := l.scopeAt_declare name type 0 kind span h.inside
  have hhere := hat l.scope
  rw [if_pos rfl] at hhere
  have hvariable := l.variableAt_declare name type 0 kind span
  have hsize := l.size_entries_declare name type 0 kind span
  have hnames : ∀ id < l.table.entries.size,
      ((l.declare name type 0 kind span).2.table.variableAt id).name
        = (l.table.variableAt id).name := by
    intro id hid
    rw [hvariable, if_neg (Nat.ne_of_lt hid)]
  have hlists : (l.declare name type 0 kind span).2.table.Lists l.scope
      (s.here ++ [(name, s.declared.length)]) := by
    have hlists := h.scopes.lists
    refine ⟨?_, fun id hid => ?_⟩
    · rw [hhere, Array.toList_push, List.map_append, ← h.size_eq, ← hlists.members]
      congr 1
      · refine List.map_congr_left fun id hid => ?_
        rw [hnames id (hlists.known id (Array.mem_toList_iff.mp hid))]
      · simp [hvariable, Layout.declared]
    · rw [hhere] at hid
      rw [hsize]
      rcases Array.mem_push.mp hid with hold | rfl
      · exact Nat.lt_succ_of_lt (hlists.known id hold)
      · exact Nat.lt_succ_self _
  refine ⟨h.size_eq, ?_, ?_, ?_⟩
  · rw [htable]
    simp [SymbolTable.addVariable, Layout.declared, Sight.declare, h.declared]
  · have hscopes := h.scopes
    rw [hscope]
    show SymbolTable.Shows _ _ (s.here ++ [(name, s.declared.length)]) s.around
    cases haround : s.around with
    | nil =>
      rw [haround] at hscopes
      exact ⟨hlists, by rw [hhere]; exact hscopes.2⟩
    | cons next more =>
      rw [haround] at hscopes
      obtain ⟨-, parent, hparent, hlt, hmore⟩ := hscopes
      refine ⟨hlists, parent, by rw [hhere]; exact hparent, hlt, hmore.of_same ?_ hnames ?_⟩
      · intro u hu
        rw [hat, if_neg (Nat.ne_of_lt (Nat.lt_of_le_of_lt hu hlt))]
      · rw [hsize]
        exact Nat.le_succ _
  · rw [hscope, htable, SymbolTable.size_scopes_addVariable]
    exact h.inside

end Layout.Shows

end Primer
