/-
Where a reader stands, and what it has read so far.

A reader changes in many small steps, and what is known of a program at the end has to
hold at every one of them.  `Reader.Sound` collects it: the layout stands at a home, every
routine that has been closed owns its frame and says only what it may of its variables, and
every number that was given out leads somewhere.  `Extends` says that a reader only ever adds to
what it has, and `Leads` that a part of a program, once read, leaves the reader where it
found it.
-/
import Primer.Grammar.Class
import Primer.Proofs.Symbol.Layout
import Primer.Proofs.Tree.Notes

namespace Primer.Grammar

namespace Reader

/-- The field scope of every class. -/
def classScopes (r : Reader) : Array ScopeId := r.classes.map (·.scope)

/-- The routines that are being read, innermost first. -/
def openRoutines (r : Reader) : List RoutineId := r.layout.routines.map (·.id)

/-- The classes that are being read, innermost first. -/
def openClasses (r : Reader) : List ClassId := r.layout.classes.map (·.id)

/-- The variable exists and may be mentioned at `home`. -/
def Sees (r : Reader) (home : Home) (x : VarId) : Prop :=
  x < r.layout.table.entries.size ∧ (r.variableAt x).SeenFrom r.classScopes home

/-- An error was reported. -/
def Flawed (r : Reader) : Prop := ∃ found ∈ r.problems, found.1.isError

/-- What a tree at `home` may say: it names what can be seen, it assigns no constant and declares
what is kept there, with as many sizes as the variable has dimensions, its calls are noted to be
checked, and it returns only from a routine. -/
def Allows (r : Reader) (home : Home) : Note → Prop
  | .mention x => r.Sees home x
  | .target x => r.Flawed ∨ x < r.layout.table.entries.size ∧ (r.variableAt x).isConstant = false
  | .declared x => x < r.layout.table.entries.size ∧ (r.variableAt x).storage = home.storage
  | .sized x rank => x < r.layout.table.entries.size ∧ (r.variableAt x).rank = rank
  | .called name args span =>
    { name, target := .routine home.fields?, args := argumentPlaces args, span } ∈ r.pendingCalls
  | .made className args span =>
    { name := className, target := .constructor, args := argumentPlaces args, span }
      ∈ r.pendingCalls
  | .returns => r.Flawed ∨ home.routine?.isSome
  | .jump => r.Flawed

/-- What a tree may say at the cursor, where a jump can be for a loop around it. -/
def Permits (r : Reader) (home : Home) (n : Note) : Prop :=
  r.Allows home n ∨ n.isJump ∧ 0 < r.loopDepth

/-- The routine exists and is a method of this class, or of none. -/
def Owns (r : Reader) (classId : Option ClassId) (id : RoutineId) : Prop :=
  ∃ routine, r.routines[id]? = some routine ∧ routine.classId = classId

/-- The scope around a routine that is written in this class, or in none. -/
def surrounding (r : Reader) : Option ClassId → Option ScopeId
  | some c => r.classScopes[c]?
  | none => some SymbolTable.globalScope

/-- A routine inside another one was reported. -/
def MetNested (r : Reader) : Prop :=
  ∃ word span, (Problem.nestedRoutine word, span) ∈ r.problems

/-- The routine has been read to its end. -/
structure Complete (r : Reader) (id : RoutineId) (routine : Routine) : Prop where
  params : ∀ (i : Nat) x, routine.params[i]? = some x →
    x < r.layout.table.entries.size ∧ (r.variableAt x).IsArgument ∧
      (r.variableAt x).offset = -((i : Int) + 1) ∧ (r.variableAt x).routine = some id
  frame : ∀ x < r.layout.table.entries.size, (r.variableAt x).routine = some id →
    (r.variableAt x).InFrame routine.params.length routine.localCount
  written : ∃ inside s, r.surrounding inside = some s ∧
    (r.layout.table.scopeAt routine.scope).parent = some s ∧
    (∀ n ∈ Stmt.blockNotes routine.body, r.Allows (some (.routine id inside)) n) ∧
    (routine.classId = inside ∨ routine.classId = none ∧ r.MetNested)

/-- The routines that have been met so far. -/
structure RoutinesSound (r : Reader) : Prop where
  opened : ∀ id ∈ r.openRoutines, id < r.routines.size
  owners : ∀ x < r.layout.table.entries.size, ∀ id, (r.variableAt x).routine = some id →
    id < r.routines.size
  complete : ∀ (id : Nat) routine, r.routines[id]? = some routine → id ∉ r.openRoutines →
    r.Complete id routine
  classIds : ∀ (id : Nat) routine, r.routines[id]? = some routine →
    ∀ c, routine.classId = some c → c < r.classes.size
  index : ∀ (name : String) id, r.routineIndex[name]? = some id → r.Owns none id

/-- What a class has so far belongs to it. -/
structure MembersSound (r : Reader) (c : ClassId) (d : ClassDef) : Prop where
  methods : ∀ (name : String) id, d.methods[name]? = some id → r.Owns (some c) id
  constructors : ∀ id, d.constructor = some id → r.Owns (some c) id
  declarations : ∀ n ∈ Declaration.notesAll d.fieldDeclarations, r.Allows (some (.classBody c)) n
  bound : ∀ x ∈ d.fields, x < r.layout.table.entries.size
  slots : d.fieldIndex = fieldSlots r.layout.table d.fields

/-- The classes that have been met so far. -/
structure ClassesSound (r : Reader) : Prop where
  index : ∀ (name : String) c, r.classIndex[name]? = some c → c < r.classes.size
  members : ∀ (c : Nat) d, r.classes[c]? = some d → r.MembersSound c d
  fields : ∀ (c : Nat) d, r.classes[c]? = some d → c ∉ r.openClasses →
    d.fields = (r.layout.table.scopeAt d.scope).members.toList

/-- What has been read so far holds together, and the reader stands at `home`. -/
structure Sound (homes : List Home) (home : Home) (r : Reader) : Prop where
  layout : r.layout.Sound homes r.classScopes home
  routines : r.RoutinesSound
  classes : r.ClassesSound

/-! ### Adding to what has been read -/

/-- Nothing that `r` has is lost or changed in `r'`. -/
structure Extends (r r' : Reader) : Prop where
  entries : r.layout.table.entries.size ≤ r'.layout.table.entries.size
  variableAt : ∀ x < r.layout.table.entries.size, r'.variableAt x = r.variableAt x
  parents : ∀ s q, (r.layout.table.scopeAt s).parent = some q →
    (r'.layout.table.scopeAt s).parent = some q
  classScopes : ∀ (c : Nat) s, r.classScopes[c]? = some s → r'.classScopes[c]? = some s
  routines : ∀ c id, r.Owns c id → r'.Owns c id
  problems : ∀ p ∈ r.problems, p ∈ r'.problems
  pendingCalls : ∀ c ∈ r.pendingCalls, c ∈ r'.pendingCalls

variable {r r' r'' : Reader} {homes : List Home} {home : Home} {n : Note}

theorem Extends.refl (r : Reader) : Extends r r :=
  ⟨Nat.le_refl _, fun _ _ => rfl, fun _ _ h => h, fun _ _ h => h, fun _ _ h => h, fun _ h => h,
    fun _ h => h⟩

theorem Extends.trans (h : Extends r r') (h' : Extends r' r'') : Extends r r'' where
  entries := Nat.le_trans h.entries h'.entries
  variableAt := fun x hx =>
    (h'.variableAt x (Nat.lt_of_lt_of_le hx h.entries)).trans (h.variableAt x hx)
  parents := fun s q hq => h'.parents s q (h.parents s q hq)
  classScopes := fun c s hs => h'.classScopes c s (h.classScopes c s hs)
  routines := fun c id ho => h'.routines c id (h.routines c id ho)
  problems := fun p hp => h'.problems p (h.problems p hp)
  pendingCalls := fun c hc => h'.pendingCalls c (h.pendingCalls c hc)

theorem Extends.sees (h : Extends r r') {x : VarId} (hx : r.Sees home x) : r'.Sees home x := by
  refine ⟨Nat.lt_of_lt_of_le hx.1 h.entries, ?_⟩
  rw [h.variableAt x hx.1]
  exact hx.2.moreClasses h.classScopes

theorem Extends.flawed (h : Extends r r') (hr : r.Flawed) : r'.Flawed := by
  obtain ⟨found, hfound, herror⟩ := hr
  exact ⟨found, h.problems found hfound, herror⟩

theorem Extends.allows (h : Extends r r') (hn : r.Allows home n) : r'.Allows home n := by
  cases n with
  | mention x => exact h.sees hn
  | target x =>
    rcases hn with hflawed | ⟨hlt, hconstant⟩
    · exact Or.inl (h.flawed hflawed)
    · exact Or.inr ⟨Nat.lt_of_lt_of_le hlt h.entries, by rw [h.variableAt x hlt]; exact hconstant⟩
  | declared x =>
    obtain ⟨hlt, hstorage⟩ := hn
    exact ⟨Nat.lt_of_lt_of_le hlt h.entries, by rw [h.variableAt x hlt]; exact hstorage⟩
  | sized x rank =>
    obtain ⟨hlt, hrank⟩ := hn
    exact ⟨Nat.lt_of_lt_of_le hlt h.entries, by rw [h.variableAt x hlt]; exact hrank⟩
  | called name args span => exact h.pendingCalls _ hn
  | made className args span => exact h.pendingCalls _ hn
  | returns => exact hn.imp_left h.flawed
  | jump => exact h.flawed hn

theorem Extends.surrounding (h : Extends r r') {inside : Option ClassId} {s : ScopeId}
    (hs : r.surrounding inside = some s) : r'.surrounding inside = some s := by
  cases inside with
  | none => exact hs
  | some c => exact h.classScopes c s hs

/-- A closed routine stays as it is, as long as no variables are added to it. -/
theorem Extends.complete (h : Extends r r') {id : RoutineId} {routine : Routine}
    (hc : r.Complete id routine)
    (hnew : ∀ x, r.layout.table.entries.size ≤ x → x < r'.layout.table.entries.size →
      (r'.variableAt x).routine ≠ some id) :
    r'.Complete id routine where
  params := by
    intro i x hx
    obtain ⟨hlt, hrest⟩ := hc.params i x hx
    rw [h.variableAt x hlt]
    exact ⟨Nat.lt_of_lt_of_le hlt h.entries, hrest⟩
  frame := by
    intro x hx hr
    rcases Nat.lt_or_ge x r.layout.table.entries.size with hlt | hge
    · rw [h.variableAt x hlt] at hr ⊢
      exact hc.frame x hlt hr
    · exact absurd hr (hnew x hge hx)
  written := by
    obtain ⟨inside, s, hs, hparent, hbody, hclass⟩ := hc.written
    refine ⟨inside, s, h.surrounding hs, h.parents _ _ hparent, fun n hn => h.allows (hbody n hn), ?_⟩
    rcases hclass with heq | ⟨hnone, word, span, hmem⟩
    · exact Or.inl heq
    · exact Or.inr ⟨hnone, word, span, h.problems _ hmem⟩

theorem Extends.members (h : Extends r r') {c : ClassId} {d : ClassDef} (hm : r.MembersSound c d) :
    r'.MembersSound c d where
  methods := fun name id hid => h.routines _ _ (hm.methods name id hid)
  constructors := fun id hid => h.routines _ _ (hm.constructors id hid)
  declarations := fun n hn => h.allows (hm.declarations n hn)
  bound := fun x hx => Nat.lt_of_lt_of_le (hm.bound x hx) h.entries
  slots := hm.slots.trans <| List.foldl_rel rfl fun x hx index _ heq => by
    have hsame : r'.layout.table.variableAt x = r.layout.table.variableAt x :=
      h.variableAt x (hm.bound x hx)
    simp only [← heq, hsame]

/-- The scope of a class is the one its definition records. -/
theorem classScopes_getElem? (r : Reader) (c : Nat) :
    r.classScopes[c]? = r.classes[c]?.map (·.scope) := by
  simp [classScopes]

theorem Sound.class_lt (h : r.Sound homes home) {c : ClassId}
    (hc : r.layout.currentClass = some c) : c < r.classes.size := by
  unfold Layout.currentClass at hc
  cases hcs : r.layout.classes with
  | nil => simp [hcs] at hc
  | cons o rest =>
    obtain rfl : o.id = c := by simpa [hcs] using hc
    have hlt := (Array.getElem?_eq_some_iff.mp (h.layout.classes o (by simp [hcs])).1).1
    simpa [classScopes] using hlt

/-! ### Steps that read no definition -/

/-- No variable was added to a routine other than those that are open in `r`. -/
def AddsInside (r r' : Reader) : Prop :=
  ∀ x, r.layout.table.entries.size ≤ x → x < r'.layout.table.entries.size →
    ∀ id, (r'.variableAt x).routine = some id → id ∈ r.openRoutines

theorem AddsInside.of_entries (h : r'.layout.table.entries = r.layout.table.entries) :
    AddsInside r r' := by
  intro x hge hx
  rw [h] at hx
  exact absurd hx (Nat.not_lt.mpr hge)

/-- The fields of a class are all declared by the time it is closed. -/
def KeepsFields (r r' : Reader) : Prop :=
  ∀ (c : Nat) s, r.classScopes[c]? = some s → c ∉ r.openClasses →
    (r'.layout.table.scopeAt s).members = (r.layout.table.scopeAt s).members

theorem RoutinesSound.keep (h : r.RoutinesSound) (e : Extends r r')
    (hroutines : r'.routines = r.routines) (hindex : r'.routineIndex = r.routineIndex)
    (hclasses : r.classes.size ≤ r'.classes.size) (hopen : r'.openRoutines = r.openRoutines)
    (hnew : AddsInside r r') : r'.RoutinesSound where
  opened := by
    rw [hopen, hroutines]
    exact h.opened
  owners := by
    intro x hx id hid
    rw [hroutines]
    rcases Nat.lt_or_ge x r.layout.table.entries.size with hlt | hge
    · rw [e.variableAt x hlt] at hid
      exact h.owners x hlt id hid
    · exact h.opened id (hnew x hge hx id hid)
  complete := by
    intro id routine hr hclosed
    rw [hroutines] at hr
    rw [hopen] at hclosed
    refine e.complete (h.complete id routine hr hclosed) ?_
    intro x hge hx hid
    exact hclosed (hnew x hge hx id hid)
  classIds := by
    intro id routine hr c hc
    rw [hroutines] at hr
    exact Nat.lt_of_lt_of_le (h.classIds id routine hr c hc) hclasses
  index := by
    intro name id hid
    rw [hindex] at hid
    exact e.routines _ _ (h.index name id hid)

theorem ClassesSound.keep (h : r.ClassesSound) (e : Extends r r') (hclasses : r'.classes = r.classes)
    (hindex : r'.classIndex = r.classIndex) (hopen : r'.openClasses = r.openClasses)
    (hfields : KeepsFields r r') : r'.ClassesSound where
  index := by
    rw [hindex, hclasses]
    exact h.index
  members := by
    intro c d hd
    rw [hclasses] at hd
    exact e.members (h.members c d hd)
  fields := by
    intro c d hd hclosed
    rw [hclasses] at hd
    rw [hopen] at hclosed
    rw [hfields c d.scope (by rw [classScopes_getElem?, hd]; rfl) hclosed]
    exact h.fields c d hd hclosed

/-- The definitions are the same. -/
structure SameDefinitions (r r' : Reader) : Prop where
  routines : r'.routines = r.routines
  classes : r'.classes = r.classes
  routineIndex : r'.routineIndex = r.routineIndex
  classIndex : r'.classIndex = r.classIndex

theorem SameDefinitions.classScopes (h : SameDefinitions r r') : r'.classScopes = r.classScopes := by
  unfold Reader.classScopes
  rw [h.classes]

/-- Only the layout changed, and it did so inside the definitions that are open. -/
theorem Sound.relayout (h : r.Sound homes home) {homes' : List Home} {home' : Home}
    (same : SameDefinitions r r') (e : Extends r r')
    (hl : r'.layout.Sound homes' r'.classScopes home')
    (hroutines : r'.openRoutines = r.openRoutines) (hclasses : r'.openClasses = r.openClasses)
    (hnew : AddsInside r r') (hfields : KeepsFields r r') : r'.Sound homes' home' where
  layout := hl
  routines := h.routines.keep e same.routines same.routineIndex
    (Nat.le_of_eq (by rw [same.classes])) hroutines hnew
  classes := h.classes.keep e same.classes same.classIndex hclasses hfields

/-- The constructs, loops and tests around the cursor are the same. -/
structure SameContext (r r' : Reader) : Prop where
  openBlocks : r'.openBlocks = r.openBlocks
  loopDepth : r'.loopDepth = r.loopDepth
  inTest : r'.inTest = r.inTest

theorem SameContext.refl (r : Reader) : SameContext r r := ⟨rfl, rfl, rfl⟩

theorem SameContext.trans (h : SameContext r r') (h' : SameContext r' r'') : SameContext r r'' where
  openBlocks := h'.openBlocks.trans h.openBlocks
  loopDepth := h'.loopDepth.trans h.loopDepth
  inTest := h'.inTest.trans h.inTest

/-- Neither the layout nor the definitions changed. -/
structure Still (r r' : Reader) : Prop extends SameDefinitions r r' where
  layout : r'.layout = r.layout
  problems : ∀ p ∈ r.problems, p ∈ r'.problems
  pendingCalls : ∀ c ∈ r.pendingCalls, c ∈ r'.pendingCalls

/-- Nor did what is around the cursor. -/
structure Quiet (r r' : Reader) : Prop extends Still r r', SameContext r r'

theorem Still.extends (h : Still r r') : Extends r r' where
  entries := Nat.le_of_eq (by rw [h.layout])
  variableAt := by intro x _; unfold Reader.variableAt; rw [h.layout]
  parents := by rw [h.layout]; exact fun _ _ hq => hq
  classScopes := by rw [h.classScopes]; exact fun _ _ hs => hs
  routines := by unfold Owns; rw [h.routines]; exact fun _ _ ho => ho
  problems := h.problems
  pendingCalls := h.pendingCalls

theorem Sound.still (h : r.Sound homes home) (q : Still r r') : r'.Sound homes home := by
  refine h.relayout q.toSameDefinitions q.extends ?_ ?_ ?_ (.of_entries (by rw [q.layout])) ?_
  · rw [q.layout, q.classScopes]
    exact h.layout
  · unfold openRoutines; rw [q.layout]
  · unfold openClasses; rw [q.layout]
  · unfold KeepsFields
    rw [q.layout]
    exact fun _ _ _ _ => rfl

theorem Sound.quiet (h : r.Sound homes home) (q : Quiet r r') : r'.Sound homes home :=
  h.still q.toStill

/-! ### Coming back to the same place -/

/-- The reader is back where it was; the routine at hand may have got more parameters. -/
structure Grows (r r' : Reader) : Prop extends Extends r r', SameContext r r' where
  scope : r'.layout.scope = r.layout.scope
  saved : r'.layout.saved = r.layout.saved
  openRoutines : r'.openRoutines = r.openRoutines
  outer : r'.layout.routines.tail.map (·.params) = r.layout.routines.tail.map (·.params)
  classes : r'.layout.classes.map (fun o => (o.id, o.scope))
    = r.layout.classes.map (fun o => (o.id, o.scope))

/-- The reader is back where it was. -/
structure Leads (r r' : Reader) : Prop extends Grows r r' where
  params : r'.layout.routines.head?.map (·.params) = r.layout.routines.head?.map (·.params)

theorem Grows.refl (r : Reader) : Grows r r := 
  ⟨Extends.refl r, SameContext.refl r, rfl, rfl, rfl, rfl, rfl⟩

theorem Grows.trans (h : Grows r r') (h' : Grows r' r'') : Grows r r'' where
  toExtends := h.toExtends.trans h'.toExtends
  toSameContext := h.toSameContext.trans h'.toSameContext
  scope := h'.scope.trans h.scope
  saved := h'.saved.trans h.saved
  openRoutines := h'.openRoutines.trans h.openRoutines
  outer := h'.outer.trans h.outer
  classes := h'.classes.trans h.classes

theorem Leads.refl (r : Reader) : Leads r r := ⟨Grows.refl r, rfl⟩

theorem Leads.trans (h : Leads r r') (h' : Leads r' r'') : Leads r r'' :=
  ⟨h.toGrows.trans h'.toGrows, h'.params.trans h.params⟩

theorem Quiet.leads (h : Quiet r r') : Leads r r' where
  toExtends := h.extends
  toSameContext := h.toSameContext
  scope := by rw [h.layout]
  saved := by rw [h.layout]
  openRoutines := by unfold Reader.openRoutines; rw [h.layout]
  outer := by rw [h.layout]
  classes := by rw [h.layout]
  params := by rw [h.layout]

/-- Reading on with something else around the cursor, until what was around it is back. -/
theorem Leads.around {r₁ r₂ : Reader} (h : Leads r₁ r₂) (hbefore : Still r r₁) (hafter : Still r₂ r')
    (hcontext : SameContext r r') : Leads r r' where
  toExtends := (hbefore.extends.trans h.toExtends).trans hafter.extends
  toSameContext := hcontext
  scope := by rw [hafter.layout, h.scope, hbefore.layout]
  saved := by rw [hafter.layout, h.saved, hbefore.layout]
  openRoutines := by
    have := h.openRoutines
    unfold Reader.openRoutines at this ⊢
    rw [hafter.layout, this, hbefore.layout]
  outer := by rw [hafter.layout, h.outer, hbefore.layout]
  classes := by rw [hafter.layout, h.classes, hbefore.layout]
  params := by rw [hafter.layout, h.params, hbefore.layout]

theorem Grows.openClasses (h : Grows r r') : r'.openClasses = r.openClasses := by
  have := congrArg (List.map Prod.fst) h.classes
  simpa [Reader.openClasses, List.map_map, Function.comp_def] using this

theorem Permits.mono (hn : r.Permits home n) (he : Extends r r')
    (hdepth : r.loopDepth ≤ r'.loopDepth) : r'.Permits home n :=
  hn.imp he.allows (And.imp_right (Nat.lt_of_lt_of_le · hdepth))

theorem Permits.leads (hn : r.Permits home n) (h : Leads r r') : r'.Permits home n :=
  hn.mono h.toExtends (Nat.le_of_eq h.loopDepth.symm)

/-- Outside of loops, what is said is in order for good. -/
theorem Permits.allows (hn : r.Permits home n) (h : r.loopDepth = 0) : r.Allows home n := by
  rcases hn with hn | ⟨_, hdepth⟩
  · exact hn
  · omega

theorem Permits.allows_of_not_jump (hn : r.Permits home n) (h : n.isJump = false) :
    r.Allows home n := by
  rcases hn with hn | ⟨hjump, _⟩
  · exact hn
  · simp [h] at hjump

/-- The reader stands at a home, and the homes of the first scopes are known. -/
def Stands (known : List Home) (home : Home) (r : Reader) : Prop :=
  ∃ homes, known <+: homes ∧ r.Sound homes home

end Reader

end Primer.Grammar
