/-
Layouts under any sequence of operations.

`Layout.Sound` is about the sequences that the grammar produces.  This file asks what is
left when the operations come in any order, balanced or not: definitions closed that were
never opened, blocks left in the middle of a routine, fields declared outside of classes.

A layout keeps no record of which entry of a routine a variable was declared in, so a
history is kept beside it.  The history numbers the entries of routines and classes and
notes for each variable the counter that its offset was drawn from.  The main result is
`orderly_after`: scopes form a tree, every variable is listed in its own scope only,
every counter is drawn from in order, and a lookup finds the first variable of a name in
the nearest scope that has one.
-/
import Primer.Proofs.Symbol.Layout

namespace Primer

/-! ### Operations and their history -/

/-- What can be asked of a layout. -/
inductive Layout.Operation where
  | declare (name : String) (type : TypeName) (rank : Nat) (kind : DeclarationKind) (span : Span)
  | pushScope
  | popScope
  | enterClass (id : ClassId)
  | exitClass
  | enterRoutine (id : RoutineId)
  | exitRoutine

def Layout.perform (l : Layout) : Layout.Operation → Layout
  | .declare name type rank kind span => (l.declare name type rank kind span).2
  | .pushScope => l.pushScope
  | .popScope => l.popScope
  | .enterClass id => l.enterClass id
  | .exitClass => l.exitClass
  | .enterRoutine id => l.enterRoutine id
  | .exitRoutine => l.exitRoutine

/-- The layout after a sequence of operations. -/
def Layout.after (operations : List Layout.Operation) : Layout :=
  operations.foldl Layout.perform {}

/-- What an offset is drawn from: the statics, or something of one entry of a routine or class. -/
inductive Counter where
  | statics
  | params (entry : Nat)
  | locals (entry : Nat)
  | fields (entry : Nat)
  deriving DecidableEq

namespace Counter

/-- The offset that is drawn after `drawn` others. -/
def offset : Counter → Nat → Int
  | .params _, drawn => -((drawn : Int) + 1)
  | .statics, drawn | .locals _, drawn | .fields _, drawn => drawn

/-- The variables of a counter live in this kind of storage. -/
def Serves : Counter → Storage → Prop
  | .statics, s => s = .static
  | .params _, s => s = .argument ∨ s = .refArgument
  | .locals _, s => s = .frame
  | .fields _, s => s = .field

/-- The entry that a counter belongs to is one of the first `entries`. -/
def Before (entries : Nat) : Counter → Prop
  | .statics => True
  | .params entry | .locals entry | .fields entry => entry < entries

theorem Before.mono {c : Counter} {entries entries' : Nat} (h : c.Before entries)
    (hle : entries ≤ entries') : c.Before entries' := by
  cases c with
  | statics => trivial
  | params entry => exact Nat.lt_of_lt_of_le h hle
  | locals entry => exact Nat.lt_of_lt_of_le h hle
  | fields entry => exact Nat.lt_of_lt_of_le h hle

end Counter

/-- What has happened to a layout, as far as counters are concerned. -/
structure History where
  /-- How often a routine or a class was entered. -/
  entries : Nat := 0
  /-- The entries of routines that are open, innermost first. -/
  routines : List Nat := []
  /-- The entries of classes that are open, innermost first. -/
  classes : List Nat := []
  /-- The counter of each variable, in order of declaration. -/
  counters : List Counter := []

namespace History

/-- The counter for a declaration: that of the innermost entry, or the statics outside of all. -/
def counterFor (h : History) : DeclarationKind → Counter
  | .field => (h.classes.head?.map Counter.fields).getD .statics
  | .parameter _ => (h.routines.head?.map Counter.params).getD .statics
  | .plain | .constant => (h.routines.head?.map Counter.locals).getD .statics

/-- One more variable, with an offset from the counter. -/
def draw (h : History) (c : Counter) : History := { h with counters := h.counters ++ [c] }

def record (h : History) : Layout.Operation → History
  | .declare _ _ _ kind _ => h.draw (h.counterFor kind)
  | .pushScope | .popScope => h
  | .enterClass _ => { h with entries := h.entries + 1, classes := h.entries :: h.classes }
  | .exitClass => { h with classes := h.classes.tail }
  | .enterRoutine _ => { h with entries := h.entries + 1, routines := h.entries :: h.routines }
  | .exitRoutine => { h with routines := h.routines.tail }

/-- The history of a sequence of operations. -/
def of (operations : List Layout.Operation) : History := operations.foldl History.record {}

/-- The variables whose offsets were drawn from a counter, in order of declaration. -/
def drawn (h : History) (c : Counter) : List VarId :=
  (List.range h.counters.length).filter fun id => h.counters[id]? = some c

variable {h : History}

/-- One more variable changes its own counter and no other. -/
theorem drawn_draw (h : History) (own c : Counter) :
    (h.draw own).drawn c = h.drawn c ++ if own = c then [h.counters.length] else [] := by
  have hold : ∀ id ∈ List.range h.counters.length,
      decide ((h.counters ++ [own])[id]? = some c) = decide (h.counters[id]? = some c) := by
    intro id hid
    rw [List.getElem?_append_left (List.mem_range.mp hid)]
  show (List.range (h.counters ++ [own]).length).filter
    (fun id => (h.counters ++ [own])[id]? = some c) = _
  rw [List.length_append, List.length_singleton, List.range_succ, List.filter_append,
    List.filter_congr hold]
  refine congrArg (h.drawn c ++ ·) ?_
  by_cases hown : own = c <;> simp [hown]

theorem drawn_draw_of_ne (h : History) {own c : Counter} (hne : own ≠ c) :
    (h.draw own).drawn c = h.drawn c := by
  rw [drawn_draw, if_neg hne, List.append_nil]

theorem length_drawn_draw_self (h : History) (own : Counter) :
    ((h.draw own).drawn own).length = (h.drawn own).length + 1 := by
  rw [drawn_draw, if_pos rfl, List.length_append, List.length_singleton]

theorem mem_drawn {c : Counter} {id : VarId} :
    id ∈ h.drawn c ↔ h.counters[id]? = some c := by
  simp only [drawn, List.mem_filter, List.mem_range, decide_eq_true_eq, and_iff_right_iff_imp]
  intro hid
  exact (List.getElem?_eq_some_iff.mp hid).1

/-- Nothing was drawn from a counter that no variable has. -/
theorem drawn_eq_nil {c : Counter} (hc : c ∉ h.counters) : h.drawn c = [] := by
  rw [List.eq_nil_iff_forall_not_mem]
  intro id hid
  exact hc (List.mem_of_getElem? (mem_drawn.mp hid))

end History

/-! ### Scopes

Whatever the order of operations, a scope is opened under one that exists already, and the
layout goes back only to scopes that it has been in.
-/

/-- The scopes of a layout form a tree that lists every variable once. -/
structure Layout.Nested (l : Layout) : Prop where
  scope : l.scope < l.table.scopes.size
  saved : ∀ s ∈ l.saved, s < l.table.scopes.size
  classes : ∀ o ∈ l.classes, o.scope < l.table.scopes.size
  root : (l.table.scopeAt SymbolTable.globalScope).parent = none
  parents : ∀ s < l.table.scopes.size, s ≠ SymbolTable.globalScope →
    ∃ q < s, (l.table.scopeAt s).parent = some q
  placed : ∀ id < l.table.entries.size, (l.table.variableAt id).scope < l.table.scopes.size
  /-- A scope lists the variables that name it as theirs, the earliest first. -/
  listed : ∀ s, (l.table.scopeAt s).members.toList
    = (List.range l.table.entries.size).filter fun id => (l.table.variableAt id).scope = s

namespace Layout.Nested

variable {l : Layout}

theorem size_pos (n : l.Nested) : SymbolTable.globalScope < l.table.scopes.size :=
  Nat.lt_of_le_of_lt (Nat.zero_le _) n.scope

theorem empty : ({} : Layout).Nested where
  scope := Nat.one_pos
  saved := by simp
  classes := by simp
  root := rfl
  parents := by
    intro s hs hne
    exact absurd (Nat.lt_one_iff.mp hs) hne
  placed := by
    intro id hid
    exact absurd hid (Nat.not_lt_zero id)
  listed := by
    intro s
    have hmembers : ({} : SymbolTable).scopeAt s = { parent := none } := by
      cases s with
      | zero => rfl
      | succ s => rfl
    rw [show ({} : Layout).table.scopeAt s = _ from hmembers]
    rfl

/-- Going to a scope that exists, with nothing opened. -/
theorem moveTo (n : l.Nested) {l' : Layout} (ht : l'.table = l.table)
    (hscope : l'.scope < l.table.scopes.size) (hsaved : ∀ s ∈ l'.saved, s ∈ l.saved)
    (hclasses : ∀ o ∈ l'.classes, o ∈ l.classes) : l'.Nested where
  scope := by rw [ht]; exact hscope
  saved := fun s hs => by rw [ht]; exact n.saved s (hsaved s hs)
  classes := fun o ho => by rw [ht]; exact n.classes o (hclasses o ho)
  root := by rw [ht]; exact n.root
  parents := by rw [ht]; exact n.parents
  placed := by rw [ht]; exact n.placed
  listed := by rw [ht]; exact n.listed

/-- Opening a scope under one that exists. -/
theorem openScope (n : l.Nested) {q : ScopeId} (hq : q < l.table.scopes.size) :
    (l.openScope q).Nested := by
  have hat : ∀ s, (l.openScope q).table.scopeAt s
      = if s = l.table.scopes.size then { parent := some q } else l.table.scopeAt s :=
    SymbolTable.scopeAt_addScope l.table q
  have hsize : (l.openScope q).table.scopes.size = l.table.scopes.size + 1 :=
    SymbolTable.size_scopes_addScope l.table q
  refine
    { scope := ?_
      saved := fun s hs => by rw [hsize]; exact Nat.lt_succ_of_lt (n.saved s hs)
      classes := fun o ho => by rw [hsize]; exact Nat.lt_succ_of_lt (n.classes o ho)
      root := ?_
      parents := ?_
      placed := fun id hid => by rw [hsize]; exact Nat.lt_succ_of_lt (n.placed id hid)
      listed := ?_ }
  · rw [hsize]
    exact Nat.lt_succ_self _
  · rw [hat, if_neg (Nat.ne_of_lt n.size_pos)]
    exact n.root
  · intro s hs hne
    rw [hsize] at hs
    rw [hat]
    by_cases hnew : s = l.table.scopes.size
    · exact ⟨q, by rw [hnew]; exact hq, by rw [if_pos hnew]⟩
    · rw [if_neg hnew]
      exact n.parents s (by omega) hne
  · intro s
    rw [hat]
    by_cases hnew : s = l.table.scopes.size
    · -- No variable names a scope that has just been opened.
      rw [if_pos hnew]
      symm
      show List.filter _ (List.range l.table.entries.size) = []
      rw [List.filter_eq_nil_iff]
      intro id hid
      have hlt := n.placed id (List.mem_range.mp hid)
      intro hs
      rw [show (l.table.variableAt id).scope = s from of_decide_eq_true hs, hnew] at hlt
      exact Nat.lt_irrefl _ hlt
    · rw [if_neg hnew]
      exact n.listed s

theorem popScope (n : l.Nested) : l.popScope.Nested := by
  unfold Layout.popScope
  cases hp : (l.table.scopeAt l.scope).parent with
  | none => exact n
  | some q =>
    have hne : l.scope ≠ SymbolTable.globalScope := by
      intro hroot
      rw [hroot, n.root] at hp
      cases hp
    obtain ⟨q', hlt, hq'⟩ := n.parents l.scope n.scope hne
    obtain rfl : q' = q := Option.some.inj (hq'.symm.trans hp)
    exact n.moveTo rfl (Nat.lt_trans hlt n.scope) (fun s hs => hs) (fun o ho => ho)

/-- Going back finds a scope, also when there is none to go back to. -/
theorem restoreScope (n : l.Nested) : l.restoreScope.Nested := by
  refine n.moveTo rfl ?_ (fun s hs => List.mem_of_mem_tail hs) (fun o ho => ho)
  show l.saved.headD SymbolTable.globalScope < l.table.scopes.size
  cases hs : l.saved with
  | nil => exact n.size_pos
  | cons s rest => exact n.saved s (by simp [hs])

theorem enterClass (n : l.Nested) (id : ClassId) : (l.enterClass id).Nested := by
  have inside := n.openScope n.size_pos
  refine { inside with saved := ?_, classes := ?_ }
  · intro s hs
    rcases List.mem_cons.mp hs with rfl | hs
    · exact Nat.lt_of_lt_of_le n.scope (by simp [Layout.enterClass, Layout.openScope])
    · exact inside.saved s hs
  · intro o ho
    rcases List.mem_cons.mp ho with rfl | ho
    · exact inside.scope
    · exact inside.classes o ho

theorem routineParent_lt (n : l.Nested) : l.routineParent < l.table.scopes.size := by
  unfold Layout.routineParent
  cases hc : l.classes with
  | nil => exact n.size_pos
  | cons o rest => exact n.classes o (by simp [hc])

theorem enterRoutine (n : l.Nested) (id : RoutineId) : (l.enterRoutine id).Nested := by
  have inside := n.openScope n.routineParent_lt
  refine { inside with saved := ?_ }
  intro s hs
  rcases List.mem_cons.mp hs with rfl | hs
  · exact Nat.lt_of_lt_of_le n.scope (by simp [Layout.enterRoutine, Layout.openScope])
  · exact inside.saved s hs

theorem exitClass (n : l.Nested) : l.exitClass.Nested := by
  refine Nested.restoreScope (l := { l with classes := l.classes.tail }) ?_
  exact n.moveTo rfl n.scope (fun s hs => hs) (fun o ho => List.mem_of_mem_tail ho)

theorem exitRoutine (n : l.Nested) : l.exitRoutine.Nested := by
  refine Nested.restoreScope (l := { l with routines := l.routines.tail }) ?_
  exact n.moveTo rfl n.scope (fun s hs => hs) (fun o ho => ho)

theorem declare (n : l.Nested) (name : String) (type : TypeName) (rank : Nat)
    (kind : DeclarationKind) (span : Span) : (l.declare name type rank kind span).2.Nested := by
  have counted := counted_nextPlace l kind
  have hat := l.scopeAt_declare name type rank kind span n.scope
  have hvar := l.variableAt_declare name type rank kind span
  have hentries := l.size_entries_declare name type rank kind span
  have hsize : (l.declare name type rank kind span).2.table.scopes.size = l.table.scopes.size := by
    obtain ⟨statics, htable⟩ := l.declare_table name type rank kind span
    rw [htable, SymbolTable.size_scopes_addVariable]
  -- Declaring changes no parent.
  have hparent : ∀ s, ((l.declare name type rank kind span).2.table.scopeAt s).parent
      = (l.table.scopeAt s).parent := by
    intro s
    rw [hat]
    split
    · rename_i hs
      rw [hs]
    · rfl
  refine
    { scope := ?_
      saved := ?_
      classes := ?_
      root := by rw [hparent]; exact n.root
      parents := by
        intro s hs hne
        rw [hparent]
        exact n.parents s (by rw [← hsize]; exact hs) hne
      placed := ?_
      listed := ?_ }
  · rw [hsize]
    show (l.nextPlace kind).2.2.scope < _
    rw [counted.scope]
    exact n.scope
  · intro s hs
    rw [hsize]
    refine n.saved s ?_
    rw [← counted.saved]
    exact hs
  · intro o ho
    rw [hsize]
    have hmem : (o.id, o.scope) ∈ l.classes.map fun o => (o.id, o.scope) := by
      rw [← counted.classes]
      exact List.mem_map_of_mem ho
    obtain ⟨old, hold, heq⟩ := List.mem_map.mp hmem
    rw [← (Prod.mk.inj heq).2]
    exact n.classes old hold
  · intro id hid
    rw [hentries] at hid
    rw [hsize, hvar]
    by_cases hnew : id = l.table.entries.size
    · rw [if_pos hnew]
      exact n.scope
    · rw [if_neg hnew]
      exact n.placed id (by omega)
  · intro s
    -- The old variables are listed as before; the new one comes last, in its own scope.
    have hold : (List.range l.table.entries.size).filter (fun id =>
          ((l.declare name type rank kind span).2.table.variableAt id).scope = s)
        = (List.range l.table.entries.size).filter fun id => (l.table.variableAt id).scope = s := by
      refine List.filter_congr ?_
      intro id hid
      rw [hvar, if_neg (Nat.ne_of_lt (List.mem_range.mp hid))]
    rw [hentries, List.range_succ, List.filter_append, hold, ← n.listed s, hat]
    have hown : ((l.declare name type rank kind span).2.table.variableAt l.table.entries.size).scope
        = l.scope := by
      rw [hvar, if_pos rfl]
      rfl
    by_cases hs : s = l.scope
    · rw [if_pos hs, hs]
      simp [hown]
    · rw [if_neg hs]
      simp [hown, Ne.symm hs]

/-- No operation breaks the tree. -/
theorem perform (n : l.Nested) (op : Layout.Operation) : (l.perform op).Nested := by
  cases op with
  | declare name type rank kind span => exact n.declare name type rank kind span
  | pushScope => exact n.openScope n.scope
  | popScope => exact n.popScope
  | enterClass id => exact n.enterClass id
  | exitClass => exact n.exitClass
  | enterRoutine id => exact n.enterRoutine id
  | exitRoutine => exact n.exitRoutine

end Layout.Nested

/-! ### Counters -/

/-- The counters of a layout stand where its history says. -/
structure Layout.Tallied (h : History) (l : Layout) : Prop where
  statics : l.table.staticCount = (h.drawn .statics).length
  params : l.routines.map (·.params) = h.routines.map fun e => (h.drawn (.params e)).length
  locals : l.routines.map (·.locals) = h.routines.map fun e => (h.drawn (.locals e)).length
  fields : l.classes.map (·.fields) = h.classes.map fun e => (h.drawn (.fields e)).length

namespace History

/-- Every entry has a number of its own, and every counter belongs to an entry. -/
structure Numbered (h : History) : Prop where
  routines : ∀ e ∈ h.routines, e < h.entries
  classes : ∀ e ∈ h.classes, e < h.entries
  routinesNodup : h.routines.Nodup
  classesNodup : h.classes.Nodup
  counters : ∀ c ∈ h.counters, c.Before h.entries

namespace Numbered

variable {h : History}

theorem before_counterFor (n : h.Numbered) (kind : DeclarationKind) :
    (h.counterFor kind).Before h.entries := by
  have hroutine : ∀ counter : Nat → Counter, (∀ e, e < h.entries → (counter e).Before h.entries) →
      ((h.routines.head?.map counter).getD .statics).Before h.entries := by
    intro counter hcounter
    cases hr : h.routines with
    | nil => trivial
    | cons e rest => exact hcounter e (n.routines e (by simp [hr]))
  cases kind with
  | plain => exact hroutine .locals fun e he => he
  | constant => exact hroutine .locals fun e he => he
  | parameter byRef => exact hroutine .params fun e he => he
  | field =>
    show ((h.classes.head?.map Counter.fields).getD .statics).Before h.entries
    cases hc : h.classes with
    | nil => trivial
    | cons e rest => exact n.classes e (by simp [hc])

/-- Nothing was drawn from the counters of an entry to come. -/
theorem drawn_entries (n : h.Numbered) {c : Counter} (hc : ¬ c.Before h.entries) :
    h.drawn c = [] :=
  drawn_eq_nil fun hmem => hc (n.counters c hmem)

theorem record (n : h.Numbered) (op : Layout.Operation) : (h.record op).Numbered := by
  have hlt : ∀ {es : List Nat}, (∀ e ∈ es, e < h.entries) → ∀ e ∈ es, e < h.entries + 1 :=
    fun hes e he => Nat.lt_succ_of_lt (hes e he)
  have hcons : ∀ {es : List Nat}, (∀ e ∈ es, e < h.entries) →
      ∀ e ∈ h.entries :: es, e < h.entries + 1 := by
    intro es hes e he
    rcases List.mem_cons.mp he with rfl | he
    · exact Nat.lt_succ_self _
    · exact Nat.lt_succ_of_lt (hes e he)
  have hfresh : ∀ {es : List Nat}, (∀ e ∈ es, e < h.entries) → h.entries ∉ es :=
    fun hes he => Nat.lt_irrefl _ (hes _ he)
  have hcounters : ∀ c ∈ h.counters, c.Before (h.entries + 1) :=
    fun c hc => (n.counters c hc).mono (Nat.le_succ _)
  cases op with
  | declare name type rank kind span =>
    refine { n with counters := ?_ }
    intro c (hc : c ∈ h.counters ++ [h.counterFor kind])
    rcases List.mem_append.mp hc with hc | hc
    · exact n.counters c hc
    · rw [List.mem_singleton.mp hc]
      exact n.before_counterFor kind
  | pushScope => exact n
  | popScope => exact n
  | enterClass id =>
    exact ⟨hlt n.routines, hcons n.classes, n.routinesNodup,
      List.nodup_cons.mpr ⟨hfresh n.classes, n.classesNodup⟩, hcounters⟩
  | exitClass =>
    exact ⟨n.routines, fun e he => n.classes e (List.mem_of_mem_tail he), n.routinesNodup,
      n.classesNodup.sublist (List.tail_sublist _), n.counters⟩
  | enterRoutine id =>
    exact ⟨hcons n.routines, hlt n.classes, List.nodup_cons.mpr ⟨hfresh n.routines, n.routinesNodup⟩,
      n.classesNodup, hcounters⟩
  | exitRoutine =>
    exact ⟨fun e he => n.routines e (List.mem_of_mem_tail he), n.classes,
      n.routinesNodup.sublist (List.tail_sublist _), n.classesNodup, n.counters⟩

end Numbered

end History

namespace Layout.Tallied

variable {h : History} {l : Layout}

/-- The counts of some entries are as before, if none of them is that of the counter drawn from. -/
theorem map_length_draw (h : History) {own : Counter} {counter : Nat → Counter} {es : List Nat}
    (hne : ∀ e ∈ es, own ≠ counter e) :
    (es.map fun e => ((h.draw own).drawn (counter e)).length)
      = es.map fun e => (h.drawn (counter e)).length := by
  refine List.map_congr_left ?_
  intro e he
  rw [h.drawn_draw_of_ne (hne e he)]

/-- The head of a list of different entries is counted once more, the rest is as before. -/
theorem map_length_draw_head (h : History) {counter : Nat → Counter} {e : Nat} {es : List Nat}
    (hinj : Function.Injective counter) (hnodup : (e :: es).Nodup) :
    ((e :: es).map fun e' => ((h.draw (counter e)).drawn (counter e')).length)
      = ((h.drawn (counter e)).length + 1) :: es.map fun e' => (h.drawn (counter e')).length := by
  rw [List.map_cons, h.length_drawn_draw_self, map_length_draw h]
  intro e' he' heq
  exact (List.nodup_cons.mp hnodup).1 (hinj heq ▸ he')

/-- The place that the layout gives out is the next one of the counter. -/
structure Gives (h : History) (c : Counter) (place : Storage × Int × Layout) : Prop where
  storage : c.Serves place.1
  offset : place.2.1 = c.offset (h.drawn c).length
  tallied : place.2.2.Tallied (h.draw c)

theorem nextStatic (t : l.Tallied h) : Gives h .statics l.nextStatic where
  storage := rfl
  offset := congrArg Int.ofNat t.statics
  tallied := by
    refine ⟨?_, ?_, ?_, ?_⟩
    · rw [h.length_drawn_draw_self, ← t.statics]
      rfl
    · show l.routines.map _ = h.routines.map _
      rw [map_length_draw h (by simp), t.params]
    · show l.routines.map _ = h.routines.map _
      rw [map_length_draw h (by simp), t.locals]
    · show l.classes.map _ = h.classes.map _
      rw [map_length_draw h (by simp), t.fields]

/-- Drawing from an entry of a routine leaves the statics and the fields. -/
theorem ofRoutines (t : l.Tallied h) {own : Counter} {routines : List OpenRoutine}
    (hstatics : own ≠ .statics) (hfields : ∀ e, own ≠ .fields e)
    (hparams : routines.map (·.params)
      = h.routines.map fun e => ((h.draw own).drawn (.params e)).length)
    (hlocals : routines.map (·.locals)
      = h.routines.map fun e => ((h.draw own).drawn (.locals e)).length) :
    ({ l with routines } : Layout).Tallied (h.draw own) where
  statics := by
    rw [h.drawn_draw_of_ne hstatics]
    exact t.statics
  params := hparams
  locals := hlocals
  fields := by
    show l.classes.map _ = h.classes.map _
    rw [map_length_draw h (fun e _ => hfields e), t.fields]

/-- The routine at hand goes with the innermost entry. -/
theorem routines_cases (t : l.Tallied h) :
    (l.routines = [] ∧ h.routines = []) ∨
      ∃ r rest e es, l.routines = r :: rest ∧ h.routines = e :: es ∧
        r.params = (h.drawn (.params e)).length ∧ r.locals = (h.drawn (.locals e)).length := by
  have hparams := t.params
  have hlocals := t.locals
  cases hl : l.routines with
  | nil =>
    refine Or.inl ⟨rfl, ?_⟩
    rw [hl, List.map_nil] at hparams
    exact List.map_eq_nil_iff.mp hparams.symm
  | cons r rest =>
    cases hr : h.routines with
    | nil => simp [hl, hr] at hparams
    | cons e es =>
      rw [hl, hr, List.map_cons, List.map_cons, List.cons.injEq] at hparams hlocals
      exact Or.inr ⟨r, rest, e, es, rfl, rfl, hparams.1, hlocals.1⟩

theorem nextLocal (t : l.Tallied h) (n : h.Numbered) :
    Gives h (h.counterFor .plain) (l.nextPlace .plain) := by
  rcases t.routines_cases with ⟨hl, hr⟩ | ⟨r, rest, e, es, hl, hr, hparams, hlocals⟩
  · rw [show h.counterFor .plain = .statics by simp [History.counterFor, hr],
      show l.nextPlace .plain = l.nextStatic by simp [Layout.nextPlace, hl]]
    exact t.nextStatic
  · rw [show h.counterFor .plain = .locals e by simp [History.counterFor, hr],
      show l.nextPlace .plain = (.frame, (r.locals : Int),
        { l with routines := { r with locals := r.locals + 1 } :: rest }) by
          simp [Layout.nextPlace, hl]]
    refine ⟨rfl, congrArg Int.ofNat hlocals, t.ofRoutines (by simp) (by simp) ?_ ?_⟩
    · rw [map_length_draw h (by simp), ← t.params, hl]
      rfl
    · have hnodup := n.routinesNodup
      have hall := t.locals
      rw [hr] at hnodup
      rw [hl, hr, List.map_cons, List.map_cons, List.cons.injEq] at hall
      rw [hr, map_length_draw_head h (fun _ _ => Counter.locals.inj) hnodup, ← hlocals, ← hall.2]
      rfl

theorem nextParameter (t : l.Tallied h) (n : h.Numbered) (byRef : Bool) :
    Gives h (h.counterFor (.parameter byRef)) (l.nextPlace (.parameter byRef)) := by
  rcases t.routines_cases with ⟨hl, hr⟩ | ⟨r, rest, e, es, hl, hr, hparams, hlocals⟩
  · rw [show h.counterFor (.parameter byRef) = .statics by simp [History.counterFor, hr],
      show l.nextPlace (.parameter byRef) = l.nextStatic by simp [Layout.nextPlace, hl]]
    exact t.nextStatic
  · rw [show h.counterFor (.parameter byRef) = .params e by simp [History.counterFor, hr],
      show l.nextPlace (.parameter byRef) = (if byRef then .refArgument else .argument,
        -((r.params : Int) + 1), { l with routines := { r with params := r.params + 1 } :: rest }) by
          simp [Layout.nextPlace, hl]]
    refine ⟨?_, by rw [hparams]; rfl, t.ofRoutines (by simp) (by simp) ?_ ?_⟩
    · cases byRef with
      | false => exact Or.inl rfl
      | true => exact Or.inr rfl
    · have hnodup := n.routinesNodup
      have hall := t.params
      rw [hr] at hnodup
      rw [hl, hr, List.map_cons, List.map_cons, List.cons.injEq] at hall
      rw [hr, map_length_draw_head h (fun _ _ => Counter.params.inj) hnodup, ← hparams, ← hall.2]
      rfl
    · rw [map_length_draw h (by simp), ← t.locals, hl]
      rfl

theorem nextField (t : l.Tallied h) (n : h.Numbered) :
    Gives h (h.counterFor .field) (l.nextPlace .field) := by
  have hfields := t.fields
  cases hl : l.classes with
  | nil =>
    rw [hl, List.map_nil] at hfields
    have hr : h.classes = [] := List.map_eq_nil_iff.mp hfields.symm
    rw [show h.counterFor .field = .statics by simp [History.counterFor, hr],
      show l.nextPlace .field = l.nextStatic by simp [Layout.nextPlace, hl]]
    exact t.nextStatic
  | cons o rest =>
    cases hr : h.classes with
    | nil => simp [hl, hr] at hfields
    | cons e es =>
      rw [hl, hr, List.map_cons, List.map_cons, List.cons.injEq] at hfields
      rw [show h.counterFor .field = .fields e by simp [History.counterFor, hr],
        show l.nextPlace .field = (.field, (o.fields : Int),
          { l with classes := { o with fields := o.fields + 1 } :: rest }) by
            simp [Layout.nextPlace, hl]]
      refine ⟨rfl, congrArg Int.ofNat hfields.1, ?_, ?_, ?_, ?_⟩
      · rw [h.drawn_draw_of_ne (by simp)]
        exact t.statics
      · show l.routines.map _ = h.routines.map _
        rw [map_length_draw h (by simp), t.params]
      · show l.routines.map _ = h.routines.map _
        rw [map_length_draw h (by simp), t.locals]
      · have hnodup := n.classesNodup
        rw [hr] at hnodup
        show (o.fields + 1) :: rest.map _ = h.classes.map _
        rw [hr, map_length_draw_head h (fun _ _ => Counter.fields.inj) hnodup, ← hfields.1,
          ← hfields.2]

/-- A declaration takes the next offset of its counter and moves this counter only. -/
theorem nextPlace (t : l.Tallied h) (n : h.Numbered) (kind : DeclarationKind) :
    Gives h (h.counterFor kind) (l.nextPlace kind) := by
  cases kind with
  | plain => exact t.nextLocal n
  | constant => exact t.nextLocal n
  | parameter byRef => exact t.nextParameter n byRef
  | field => exact t.nextField n

/-- Entering a routine starts its counters, from which nothing was drawn before. -/
theorem enterRoutine (t : l.Tallied h) (n : h.Numbered) (id : RoutineId) :
    (l.enterRoutine id).Tallied (h.record (.enterRoutine id)) where
  statics := t.statics
  params := by
    show 0 :: l.routines.map _ = (h.drawn (.params h.entries)).length :: h.routines.map _
    rw [n.drawn_entries (c := .params h.entries) (Nat.lt_irrefl h.entries), t.params]
    rfl
  locals := by
    show 0 :: l.routines.map _ = (h.drawn (.locals h.entries)).length :: h.routines.map _
    rw [n.drawn_entries (c := .locals h.entries) (Nat.lt_irrefl h.entries), t.locals]
    rfl
  fields := t.fields

theorem enterClass (t : l.Tallied h) (n : h.Numbered) (id : ClassId) :
    (l.enterClass id).Tallied (h.record (.enterClass id)) where
  statics := t.statics
  params := t.params
  locals := t.locals
  fields := by
    show 0 :: l.classes.map _ = (h.drawn (.fields h.entries)).length :: h.classes.map _
    rw [n.drawn_entries (c := .fields h.entries) (Nat.lt_irrefl h.entries), t.fields]
    rfl

theorem exitRoutine (t : l.Tallied h) : l.exitRoutine.Tallied (h.record .exitRoutine) where
  statics := t.statics
  params := by
    show l.routines.tail.map _ = h.routines.tail.map _
    rw [List.map_tail, List.map_tail, t.params]
    rfl
  locals := by
    show l.routines.tail.map _ = h.routines.tail.map _
    rw [List.map_tail, List.map_tail, t.locals]
    rfl
  fields := t.fields

theorem exitClass (t : l.Tallied h) : l.exitClass.Tallied (h.record .exitClass) where
  statics := t.statics
  params := t.params
  locals := t.locals
  fields := by
    show l.classes.tail.map _ = h.classes.tail.map _
    rw [List.map_tail, List.map_tail, t.fields]
    rfl

theorem popScope (t : l.Tallied h) : l.popScope.Tallied h := by
  unfold Layout.popScope
  split
  · exact ⟨t.statics, t.params, t.locals, t.fields⟩
  · exact t

theorem perform (t : l.Tallied h) (n : h.Numbered) (op : Layout.Operation) :
    (l.perform op).Tallied (h.record op) := by
  cases op with
  | declare name type rank kind span =>
    have taken := (t.nextPlace n kind).tallied
    exact ⟨taken.statics, taken.params, taken.locals, taken.fields⟩
  | pushScope => exact ⟨t.statics, t.params, t.locals, t.fields⟩
  | popScope => exact t.popScope
  | enterClass id => exact t.enterClass n id
  | exitClass => exact t.exitClass
  | enterRoutine id => exact t.enterRoutine n id
  | exitRoutine => exact t.exitRoutine

end Layout.Tallied

/-- The layout agrees with its history: every variable got the next offset of its counter. -/
structure Layout.Tracked (h : History) (l : Layout) : Prop where
  nested : l.Nested
  numbered : h.Numbered
  tallied : l.Tallied h
  count : h.counters.length = l.table.entries.size
  stored : ∀ (id : Nat) (c : Counter), h.counters[id]? = some c →
    c.Serves (l.table.variableAt id).storage
  offsets : ∀ c, (h.drawn c).map (fun id => (l.table.variableAt id).offset)
    = (List.range (h.drawn c).length).map c.offset

namespace Layout.Tracked

variable {h : History} {l : Layout}

theorem empty : ({} : Layout).Tracked {} where
  nested := Nested.empty
  numbered :=
    { routines := by simp
      classes := by simp
      routinesNodup := List.nodup_nil
      classesNodup := List.nodup_nil
      counters := by simp }
  tallied := ⟨rfl, rfl, rfl, rfl⟩
  count := rfl
  stored := by simp
  offsets := fun _ => rfl

/-- Only declarations make variables. -/
theorem of_entries (t : l.Tracked h) (op : Layout.Operation)
    (hentries : (l.perform op).table.entries = l.table.entries)
    (hcounters : (h.record op).counters = h.counters) :
    (l.perform op).Tracked (h.record op) := by
  have hvar : ∀ id, (l.perform op).table.variableAt id = l.table.variableAt id := by
    intro id
    rw [SymbolTable.variableAt_eq, SymbolTable.variableAt_eq, hentries]
  have hdrawn : ∀ c, (h.record op).drawn c = h.drawn c := by
    intro c
    rw [History.drawn, History.drawn, hcounters]
  refine
    { nested := t.nested.perform op
      numbered := t.numbered.record op
      tallied := t.tallied.perform t.numbered op
      count := by rw [hcounters, hentries]; exact t.count
      stored := ?_
      offsets := ?_ }
  · intro id c hc
    rw [hvar]
    exact t.stored id c (by rw [← hcounters]; exact hc)
  · intro c
    simp only [hdrawn, hvar]
    exact t.offsets c

/-- A declared variable is the last one drawn from its counter. -/
theorem declare (t : l.Tracked h) (name : String) (type : TypeName) (rank : Nat)
    (kind : DeclarationKind) (span : Span) :
    (l.perform (.declare name type rank kind span)).Tracked
      (h.record (.declare name type rank kind span)) := by
  have hgives := t.tallied.nextPlace t.numbered kind
  have hvar := l.variableAt_declare name type rank kind span
  -- The old variables are read as before.
  have hold : ∀ id < l.table.entries.size,
      (l.declare name type rank kind span).2.table.variableAt id = l.table.variableAt id := by
    intro id hid
    rw [hvar, if_neg (Nat.ne_of_lt hid)]
  have hnew : (l.declare name type rank kind span).2.table.variableAt l.table.entries.size
      = l.declared name type rank kind span := by
    rw [hvar, if_pos rfl]
  refine
    { nested := t.nested.perform _
      numbered := t.numbered.record _
      tallied := t.tallied.perform t.numbered _
      count := ?_
      stored := ?_
      offsets := ?_ }
  · show (h.counters ++ [_]).length = (l.declare name type rank kind span).2.table.entries.size
    rw [l.size_entries_declare, List.length_append, List.length_singleton, t.count]
  · intro id c (hc : (h.counters ++ [h.counterFor kind])[id]? = some c)
    show c.Serves ((l.declare name type rank kind span).2.table.variableAt id).storage
    rcases Nat.lt_or_ge id h.counters.length with hlt | hge
    · rw [List.getElem?_append_left hlt] at hc
      rw [hold id (by rw [← t.count]; exact hlt)]
      exact t.stored id c hc
    · rw [List.getElem?_append_right hge] at hc
      obtain ⟨hid, rfl⟩ := List.getElem?_eq_some_iff.mp hc
      rw [List.length_singleton] at hid
      obtain rfl : id = l.table.entries.size := by rw [← t.count]; omega
      rw [hnew, List.getElem_singleton]
      exact hgives.storage
  · intro c
    show ((h.draw (h.counterFor kind)).drawn c).map
      (fun id => ((l.declare name type rank kind span).2.table.variableAt id).offset)
        = (List.range ((h.draw (h.counterFor kind)).drawn c).length).map c.offset
    have hsame : (h.drawn c).map
        (fun id => ((l.declare name type rank kind span).2.table.variableAt id).offset)
          = (h.drawn c).map fun id => (l.table.variableAt id).offset := by
      refine List.map_congr_left ?_
      intro id hid
      have hlt := (List.getElem?_eq_some_iff.mp (History.mem_drawn.mp hid)).1
      rw [hold id (by rw [← t.count]; exact hlt)]
    rw [h.drawn_draw]
    by_cases hown : h.counterFor kind = c
    · rw [if_pos hown, List.map_append, hsame, t.offsets c, List.length_append,
        List.length_singleton, List.range_succ, List.map_append, List.map_singleton,
        List.map_singleton, t.count, hnew, ← hown]
      exact congrArg (_ ++ [·]) hgives.offset
    · rw [if_neg hown, List.append_nil, hsame, t.offsets c]

theorem perform (t : l.Tracked h) (op : Layout.Operation) :
    (l.perform op).Tracked (h.record op) := by
  cases op with
  | declare name type rank kind span => exact t.declare name type rank kind span
  | pushScope => exact t.of_entries .pushScope rfl rfl
  | popScope =>
    refine t.of_entries .popScope ?_ rfl
    show l.popScope.table.entries = l.table.entries
    unfold Layout.popScope
    split <;> rfl
  | enterClass id => exact t.of_entries (.enterClass id) rfl rfl
  | exitClass => exact t.of_entries .exitClass rfl rfl
  | enterRoutine id => exact t.of_entries (.enterRoutine id) rfl rfl
  | exitRoutine => exact t.of_entries .exitRoutine rfl rfl

theorem run (t : l.Tracked h) (operations : List Layout.Operation) :
    (operations.foldl Layout.perform l).Tracked (operations.foldl History.record h) := by
  induction operations generalizing h l with
  | nil => exact t
  | cons op rest ih => exact ih (t.perform op)

/-- The statics of the table are the variables drawn from the counter of the statics. -/
theorem statics_eq (t : l.Tracked h) :
    l.table.statics = (h.drawn .statics).map l.table.variableAt := by
  have hall : l.table.entries.toList
      = (List.range l.table.entries.size).map l.table.variableAt := by
    refine List.ext_getElem? ?_
    intro k
    rcases Nat.lt_or_ge k l.table.entries.size with hlt | hge
    · simp [hlt, SymbolTable.variableAt]
    · simp [hge]
  rw [SymbolTable.statics, hall, List.filter_map, History.drawn, t.count]
  refine congrArg _ (List.filter_congr ?_)
  intro id hid
  have hlt : id < h.counters.length := by rw [t.count]; exact List.mem_range.mp hid
  have hserves := t.stored id _ (List.getElem?_eq_getElem hlt)
  rw [List.getElem?_eq_getElem hlt]
  cases hc : h.counters[id] <;> rw [hc] at hserves
  · simp [show (l.table.variableAt id).storage = .static from hserves]
  · rcases hserves with hst | hst <;> simp [hst]
  · simp [show (l.table.variableAt id).storage = .frame from hserves]
  · simp [show (l.table.variableAt id).storage = .field from hserves]

end Layout.Tracked

/-! ### Lookups -/

namespace SymbolTable

/-- The variable `id` is one of that name in the scope. -/
def Declares (t : SymbolTable) (s : ScopeId) (name : String) (id : VarId) : Prop :=
  id < t.entries.size ∧ (t.variableAt id).scope = s ∧ (t.variableAt id).name = name

/-- The scopes from `s` outward, along the parents. -/
inductive Chain (t : SymbolTable) : ScopeId → List ScopeId → Prop
  | last {s : ScopeId} (h : (t.scopeAt s).parent = none) : Chain t s [s]
  | inside {s q : ScopeId} {outer : List ScopeId} (h : (t.scopeAt s).parent = some q)
      (hq : Chain t q outer) : Chain t s (s :: outer)

/-- What a lookup along a chain of scopes gives. -/
def FindsFirst (t : SymbolTable) (chain : List ScopeId) (name : String) : Option VarId → Prop
  | some id => ∃ inner s outer, chain = inner ++ s :: outer ∧
      (∀ u ∈ inner, ∀ x, ¬ t.Declares u name x) ∧
      t.Declares s name id ∧ ∀ x < id, ¬ t.Declares s name x
  | none => ∀ u ∈ chain, ∀ x, ¬ t.Declares u name x

variable {t : SymbolTable}

theorem FindsFirst.outward {s : ScopeId} {chain : List ScopeId} {name : String}
    {found : Option VarId} (hs : ∀ x, ¬ t.Declares s name x) (h : t.FindsFirst chain name found) :
    t.FindsFirst (s :: chain) name found := by
  cases found with
  | some id =>
    obtain ⟨inner, u, outer, rfl, hinner, hfound⟩ := h
    refine ⟨s :: inner, u, outer, rfl, ?_, hfound⟩
    intro v hv
    rcases List.mem_cons.mp hv with rfl | hv
    · exact hs
    · exact hinner v hv
  | none =>
    intro u hu
    rcases List.mem_cons.mp hu with rfl | hu
    · exact hs
    · exact h u hu

end SymbolTable

namespace Layout.Nested

open SymbolTable

variable {l : Layout}

/-- A scope is searched in order of declaration. -/
theorem findIn?_eq (n : l.Nested) (s : ScopeId) (name : String) :
    l.table.findIn? s name = (List.range l.table.entries.size).find? fun id =>
      (l.table.variableAt id).scope = s ∧ (l.table.variableAt id).name = name := by
  rw [SymbolTable.findIn?, ← Array.find?_toList, n.listed s, List.find?_filter]
  congr 1
  funext id
  simp [Bool.decide_and]

theorem declares_of_findIn? (n : l.Nested) {s : ScopeId} {name : String} {id : VarId}
    (h : l.table.findIn? s name = some id) :
    l.table.Declares s name id ∧ ∀ x < id, ¬ l.table.Declares s name x := by
  rw [n.findIn?_eq, List.find?_range_eq_some] at h
  obtain ⟨hid, hlt, hfirst⟩ := h
  refine ⟨⟨List.mem_range.mp hlt, of_decide_eq_true hid⟩, ?_⟩
  intro x hx hdeclares
  have hnot := hfirst x hx
  rw [Bool.not_eq_true', decide_eq_false_iff_not] at hnot
  exact hnot hdeclares.2

theorem not_declares_of_findIn? (n : l.Nested) {s : ScopeId} {name : String}
    (h : l.table.findIn? s name = none) (x : VarId) : ¬ l.table.Declares s name x := by
  rw [n.findIn?_eq, List.find?_eq_none] at h
  intro hdeclares
  exact h x (List.mem_range.mpr hdeclares.1) (decide_eq_true hdeclares.2)

/--
A lookup goes outward through all scopes of the chain.

The induction is on the scope: parents have smaller numbers, so the chain ends and the
lookup never stops before it.
-/
theorem findsFirst_lookup? (n : l.Nested) :
    ∀ s < l.table.scopes.size, ∃ chain, l.table.Chain s chain ∧
      ∀ name, l.table.FindsFirst chain name (l.table.lookup? s name) := by
  intro s
  induction s using Nat.strongRecOn with
  | ind s ih =>
    intro hs
    by_cases hroot : s = globalScope
    · subst hroot
      refine ⟨[globalScope], .last n.root, ?_⟩
      intro name
      unfold SymbolTable.lookup?
      cases hfind : l.table.findIn? globalScope name with
      | some id =>
        exact ⟨[], globalScope, [], rfl, by simp, n.declares_of_findIn? hfind⟩
      | none =>
        simp only [n.root]
        intro u hu
        rw [List.mem_singleton.mp hu]
        exact n.not_declares_of_findIn? hfind
    · obtain ⟨q, hlt, hq⟩ := n.parents s hs hroot
      obtain ⟨outer, hchain, houter⟩ := ih q hlt (Nat.lt_trans hlt hs)
      refine ⟨s :: outer, .inside hq hchain, ?_⟩
      intro name
      unfold SymbolTable.lookup?
      cases hfind : l.table.findIn? s name with
      | some id => exact ⟨[], s, outer, rfl, by simp, n.declares_of_findIn? hfind⟩
      | none =>
        simp only [hq, if_pos hlt]
        exact (houter name).outward (n.not_declares_of_findIn? hfind)

end Layout.Nested

/-! ### All operations -/

/-- What a layout and its history satisfy after any sequence of operations. -/
structure Layout.Orderly (h : History) (l : Layout) : Prop where
  scope : l.scope < l.table.scopes.size
  root : (l.table.scopeAt SymbolTable.globalScope).parent = none
  parents : ∀ s < l.table.scopes.size, s ≠ SymbolTable.globalScope →
    ∃ q < s, (l.table.scopeAt s).parent = some q
  /-- Every variable is listed in the scope that it names and in no other, in order. -/
  placed : ∀ id < l.table.entries.size, (l.table.variableAt id).scope < l.table.scopes.size
  listed : ∀ s, (l.table.scopeAt s).members.toList
    = (List.range l.table.entries.size).filter fun id => (l.table.variableAt id).scope = s
  /-- Every variable has a counter, which fits its storage. -/
  counted : h.counters.length = l.table.entries.size
  stored : ∀ (id : Nat) (c : Counter), h.counters[id]? = some c →
    c.Serves (l.table.variableAt id).storage
  statics : l.table.statics.map (·.offset) = (List.range l.table.staticCount).map Int.ofNat
  /-- The parameters of an entry of a routine get -1, -2 and so on, its locals 0, 1 and so on. -/
  params : ∀ e, (h.drawn (.params e)).map (fun id => (l.table.variableAt id).offset)
    = (List.range (h.drawn (.params e)).length).map fun (k : Nat) => -((k : Int) + 1)
  locals : ∀ e, (h.drawn (.locals e)).map (fun id => (l.table.variableAt id).offset)
    = (List.range (h.drawn (.locals e)).length).map Int.ofNat
  fields : ∀ e, (h.drawn (.fields e)).map (fun id => (l.table.variableAt id).offset)
    = (List.range (h.drawn (.fields e)).length).map Int.ofNat
  /-- Closing a routine or class gives how much was declared in its entry. -/
  localCount : l.localCount
    = (h.routines.head?.map fun e => (h.drawn (.locals e)).length).getD 0
  fieldCount : l.fieldCount
    = (h.classes.head?.map fun e => (h.drawn (.fields e)).length).getD 0
  lookup : ∀ s < l.table.scopes.size, ∃ chain, l.table.Chain s chain ∧
    ∀ name, l.table.FindsFirst chain name (l.table.lookup? s name)

/-- **Layouts are orderly after any sequence of operations**, balanced or not. -/
theorem Layout.orderly_after (operations : List Layout.Operation) :
    (Layout.after operations).Orderly (History.of operations) := by
  have tracked : (Layout.after operations).Tracked (History.of operations) :=
    Layout.Tracked.empty.run operations
  have nested := tracked.nested
  refine
    { scope := nested.scope
      root := nested.root
      parents := nested.parents
      placed := nested.placed
      listed := nested.listed
      counted := tracked.count
      stored := tracked.stored
      statics := ?_
      params := fun e => tracked.offsets (.params e)
      locals := fun e => tracked.offsets (.locals e)
      fields := fun e => tracked.offsets (.fields e)
      localCount := ?_
      fieldCount := ?_
      lookup := nested.findsFirst_lookup? }
  · rw [tracked.statics_eq, List.map_map, tracked.tallied.statics]
    exact tracked.offsets .statics
  · unfold Layout.localCount
    rw [← List.head?_map, ← List.head?_map, tracked.tallied.locals]
  · unfold Layout.fieldCount
    rw [← List.head?_map, ← List.head?_map, tracked.tallied.fields]

end Primer
