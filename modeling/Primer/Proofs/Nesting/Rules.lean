/-
Rules for what a step of reading opens.

`Reader.Opened count r r' opened` says that `r'` stands where `r` stood, and that the scopes, routines and
classes that were added since are those of the regions `opened`.  `Opens` carries this through the
grammar, together with how much of what was opened is kept in the statements that are read.
-/
import Mathlib.Data.List.Forall2
import Primer.Grammar.Class
import Primer.Proofs.Account.Statement
import Primer.Proofs.Nesting.Forest

namespace Primer.Grammar

open Region (Opening)

/-- What a routine that was opened has been recorded with. -/
structure Records (flawed : Prop) (opening : Opening) (routine : Routine) : Prop where
  scope : routine.scope = opening.scope
  body : Mirrors flawed opening.region.inside [Stmt.blockRegion routine.body]

namespace Reader

/-- The scopes that regions have if they are opened next. -/
def openings (r : Reader) (regions : List Region) : List Opening :=
  Region.openingsIn r.layout.scope r.layout.routineParent r.parents.length regions

/-- Since `r` nothing but these regions was opened, and all of them were closed again.  A flaw may be
counted on once more than `count` errors were reported. -/
structure Opened (count : Nat) (r r' : Reader) (opened : List Region) : Prop extends Stays r r' where
  tokens : r'.tokens = r.tokens
  errors : r.errors ≤ r'.errors
  parents : r'.parents = r.parents ++ (r.openings opened).map fun o => some o.parent
  routines : ∃ added, r'.routines.toList = r.routines.toList ++ added ∧
    ∀ flawed : Prop, (count < r'.errors → flawed) →
      List.Forall₂ (Records flawed) ((r.openings opened).filter (·.region.kind = .routine)) added
  classes : r'.classes.toList.map (·.scope) = r.classes.toList.map (·.scope)
    ++ ((r.openings opened).filter (·.region.kind = .classBody)).map (·.scope)

variable {count : Nat} {r r' r'' : Reader} {regions regions' : List Region}

theorem Stays.routineParent (h : r.Stays r') : r'.layout.routineParent = r.layout.routineParent := by
  have hscope := congrArg (Option.map Prod.snd) h.classAtHand
  simp only [Option.map_map] at hscope
  exact congrArg (Option.getD · SymbolTable.globalScope) hscope

theorem Plain.opened (h : r.Plain r') : Opened count r r' [] where
  toStays := h.toStays
  tokens := h.tokens
  errors := h.errors
  parents := by simpa [openings, Region.openingsIn] using h.parents
  routines := ⟨[], by simpa using congrArg Array.toList h.routines, fun _ _ => .nil⟩
  classes := by simp [h.classes, openings, Region.openingsIn]

theorem Opened.openings_append (h : Opened count r r' regions) :
    r.openings (regions ++ regions') = r.openings regions ++ r'.openings regions' := by
  have hlength : r'.parents.length = r.parents.length + (r.openings regions).length := by
    simp [h.parents]
  unfold openings at hlength ⊢
  rw [Region.openingsIn_append, h.scope, h.routineParent, hlength]

theorem Opened.trans (h : Opened count r r' regions) (h' : Opened count r' r'' regions') :
    Opened count r r'' (regions ++ regions') where
  toStays := h.toStays.trans h'.toStays
  tokens := h'.tokens.trans h.tokens
  errors := Nat.le_trans h.errors h'.errors
  parents := by rw [h'.parents, h.parents, h.openings_append, List.map_append, List.append_assoc]
  routines := by
    obtain ⟨added, hadded, hrecords⟩ := h.routines
    obtain ⟨added', hadded', hrecords'⟩ := h'.routines
    refine ⟨added ++ added', by rw [hadded', hadded, List.append_assoc], fun flawed hflawed => ?_⟩
    rw [h.openings_append, List.filter_append]
    refine List.rel_append (hrecords flawed fun hlt => hflawed ?_) (hrecords' flawed hflawed)
    exact Nat.lt_of_lt_of_le hlt h'.errors
  classes := by
    rw [h'.classes, h.classes, h.openings_append, List.filter_append, List.map_append,
      List.append_assoc]

/-! ### Opening and closing a region -/

/-- In `r'`, a region of this kind is at hand that was just opened in `r`. -/
structure Enters (kind : RegionKind) (r r' : Reader) : Prop where
  scope : r'.layout.scope = r.parents.length
  parents : r'.parents = r.parents ++ [some (kind.parent r.layout.scope r.layout.routineParent)]
  around : r'.layout.routineParent = kind.around r.parents.length r.layout.routineParent

theorem Enters.openings {kind : RegionKind} (h : Enters kind r r') (inside : List Region) :
    r.openings [.mk kind inside]
      = ⟨.mk kind inside, r.parents.length, kind.parent r.layout.scope r.layout.routineParent⟩ ::
        r'.openings inside := by
  unfold Reader.openings
  rw [Region.openingsIn_singleton, h.scope, h.around, h.parents, List.length_append]
  rfl

theorem Enters.opened_parents {kind : RegionKind} (h : Enters kind r r')
    (hopened : Opened count r' r'' regions) :
    r''.parents = r.parents ++ (r.openings [.mk kind regions]).map fun o => some o.parent := by
  rw [hopened.parents, h.parents, h.openings]
  simp

theorem length_parents (r : Reader) : r.parents.length = r.layout.table.scopes.size := by
  simp [parents]

theorem parents_openScope (r : Reader) (parent : ScopeId) :
    parents { r with layout := r.layout.openScope parent } = r.parents ++ [some parent] := by
  simp [parents, Layout.openScope]

theorem enters_pushScope (r : Reader) : Enters .block r { r with layout := r.layout.pushScope } where
  scope := r.length_parents.symm
  parents := r.parents_openScope r.layout.scope
  around := rfl

theorem parent_scopeAt {s parent : ScopeId} (h : r.parents[s]? = some (some parent)) :
    (r.layout.table.scopeAt s).parent = some parent := by
  rw [parents, List.getElem?_map, Array.getElem?_toList] at h
  obtain ⟨scope, hscope, hparent⟩ := Option.map_eq_some_iff.mp h
  rw [SymbolTable.scopeAt, Array.getD_eq_getD_getElem?, hscope]
  exact hparent

/-- The scope under which a block was opened is found again. -/
theorem Opened.popScope (h : Opened count { r with layout := r.layout.pushScope } r' regions) :
    r'.layout.popScope = { r'.layout with scope := r.layout.scope } := by
  have hparent : (r'.layout.table.scopeAt r'.layout.scope).parent = some r.layout.scope := by
    refine parent_scopeAt ?_
    rw [h.parents, h.scope, r.enters_pushScope.parents, r.enters_pushScope.scope]
    simp [RegionKind.parent]
  unfold Layout.popScope
  rw [hparent]

theorem Opened.closeBlock (h : Opened count { r with layout := r.layout.pushScope } r' regions) :
    Opened count r { r' with layout := r'.layout.popScope } [.mk .block regions] := by
  have hparents := r.enters_pushScope.opened_parents h
  have hopenings := r.enters_pushScope.openings regions
  rw [h.popScope]
  obtain ⟨added, hadded, hrecords⟩ := h.routines
  refine ⟨⟨⟨h.openBlocks, h.loopDepth, h.inTest⟩, rfl, h.saved, h.routine, h.outerRoutines, h.classAtHand, h.outerClasses⟩,
    h.tokens, h.errors, hparents, ⟨added, hadded, fun flawed hflawed => ?_⟩, ?_⟩
  · rw [hopenings]
    exact hrecords flawed hflawed
  · rw [hopenings]
    exact h.classes

theorem enters_enterRoutine (r : Reader) (draft : Routine) (id : RoutineId) :
    Enters .routine r
      { r with routines := r.routines.push draft, layout := r.layout.enterRoutine id } where
  scope := r.length_parents.symm
  parents := r.parents_openScope r.layout.routineParent
  around := rfl

theorem Opened.closeRoutine {draft : Routine} {body : Block Stmt}
    (h : Opened count
      { r with routines := r.routines.push draft, layout := r.layout.enterRoutine r.routines.size } r'
      regions)
    (params : List VarId) (hbody : r'.Sure count fun flawed => Mirrors flawed regions [Stmt.blockRegion body]) :
    Opened count r
      { r' with
        layout := r'.layout.exitRoutine
        routines := r'.routines.modify r.routines.size fun draft =>
          { draft with params, body, localCount := r'.layout.localCount, scope := r.parents.length } }
      [.mk .routine regions] := by
  have hparents := (r.enters_enterRoutine draft r.routines.size).opened_parents h
  have hopenings := (r.enters_enterRoutine draft r.routines.size).openings regions
  obtain ⟨added, hadded, hrecords⟩ := h.routines
  have hsaved : r'.layout.saved = r.layout.scope :: r.layout.saved := h.saved
  have hroutines : r'.layout.routines.tail = r.layout.routines := h.outerRoutines
  refine ⟨⟨⟨h.openBlocks, h.loopDepth, h.inTest⟩, ?_, ?_, ?_, ?_, h.classAtHand, h.outerClasses⟩,
    h.tokens, h.errors, hparents, ?_, ?_⟩
  · simp [Layout.exitRoutine, Layout.restoreScope, hsaved]
  · simp [Layout.exitRoutine, Layout.restoreScope, hsaved]
  · simp [Layout.exitRoutine, Layout.restoreScope, Layout.currentRoutine, hroutines]
  · simp [Layout.exitRoutine, Layout.restoreScope, hroutines]
  · refine ⟨{ draft with params, body, localCount := r'.layout.localCount, scope := r.parents.length } ::
      added, ?_, fun flawed hflawed => ?_⟩
    · simp [Array.toList_modify, hadded, List.modify_eq_take_drop]
    · rw [hopenings]
      exact .cons ⟨rfl, hbody flawed hflawed⟩ (hrecords flawed hflawed)
  · rw [hopenings]
    exact h.classes

theorem enters_enterClass (r : Reader) (draft : ClassDef) (id : ClassId) :
    Enters .classBody r { r with layout := r.layout.enterClass id, classes := r.classes.push draft } where
  scope := r.length_parents.symm
  parents := r.parents_openScope SymbolTable.globalScope
  around := r.length_parents.symm

theorem scopes_modify (classes : Array ClassDef) (id : ClassId) {f : ClassDef → ClassDef}
    (hf : ∀ c, (f c).scope = c.scope) :
    (classes.modify id f).toList.map (·.scope) = classes.toList.map (·.scope) := by
  refine List.ext_getElem? fun i => ?_
  simp only [List.getElem?_map, Array.getElem?_toList, Array.getElem?_modify]
  split
  · simp [Function.comp_def, hf]
  · rfl

theorem Opened.closeClass {draft : ClassDef} {id : ClassId} (hdraft : draft.scope = r.parents.length)
    (h : Opened count
      { r with layout := r.layout.enterClass id, classes := r.classes.push draft } r' regions) :
    Opened count r
      { r' with
        layout := r'.layout.exitClass
        classes := r'.classes.modify id (completeClass r'.layout.table) }
      [.mk .classBody regions] := by
  have hparents := (r.enters_enterClass draft id).opened_parents h
  have hopenings := (r.enters_enterClass draft id).openings regions
  obtain ⟨added, hadded, hrecords⟩ := h.routines
  have hsaved : r'.layout.saved = r.layout.scope :: r.layout.saved := h.saved
  have hclasses : r'.layout.classes.tail = r.layout.classes := h.outerClasses
  refine ⟨⟨⟨h.openBlocks, h.loopDepth, h.inTest⟩, ?_, ?_, h.routine, h.outerRoutines, ?_, ?_⟩,
    h.tokens, h.errors, hparents, ⟨added, hadded, fun flawed hflawed => ?_⟩, ?_⟩
  · simp [Layout.exitClass, Layout.restoreScope, hsaved]
  · simp [Layout.exitClass, Layout.restoreScope, hsaved]
  · simp [Layout.exitClass, Layout.restoreScope, hclasses]
  · simp [Layout.exitClass, Layout.restoreScope, hclasses]
  · rw [hopenings]
    exact hrecords flawed hflawed
  · rw [hopenings]
    refine (scopes_modify _ id (f := completeClass r'.layout.table) fun _ => rfl).trans ?_
    refine h.classes.trans ?_
    simp [hdraft, Region.kind]

/-- Other constructs and loops stand around the cursor while the regions are opened. -/
theorem Opened.around {openBlocks : List BlockKind} {loopDepth : Nat}
    (h : Opened count { r with openBlocks, loopDepth } r' regions) :
    Opened count r { r' with openBlocks := r.openBlocks, loopDepth := r.loopDepth } regions :=
  ⟨⟨⟨rfl, rfl, h.inTest⟩, h.scope, h.saved, h.routine, h.outerRoutines, h.classAtHand, h.outerClasses⟩,
    h.tokens, h.errors, h.parents, h.routines, h.classes⟩

end Reader

/-! ### Steps of reading -/

/-- What may be said of regions that are opened one after the other. -/
class Additive (S : List Region → Prop) : Prop where
  nil : S []
  append : ∀ {opened opened'}, S opened → S opened' → S (opened ++ opened')

/-- Side by side, there are only regions of these kinds. -/
def Only (kinds : RegionKind → Prop) (opened : List Region) : Prop :=
  ∀ region ∈ opened, kinds region.kind

instance (kinds : RegionKind → Prop) : Additive (Only kinds) where
  nil := by simp [Only]
  append := fun h h' region hregion => (List.mem_append.mp hregion).elim (h region) (h' region)

theorem Only.mono {kinds kinds' : RegionKind → Prop} (h : ∀ kind, kinds kind → kinds' kind)
    {opened : List Region} (hopened : Only kinds opened) : Only kinds' opened :=
  fun region hregion => h _ (hopened region hregion)

/-- There is a single region of this kind. -/
def Single (kind : RegionKind) (opened : List Region) : Prop := ∃ inside, opened = [.mk kind inside]

theorem Single.only {kind : RegionKind} {kinds : RegionKind → Prop} (hkind : kinds kind)
    {opened : List Region} (h : Single kind opened) : Only kinds opened := by
  obtain ⟨inside, rfl⟩ := h
  simpa [Only, Region.kind] using hkind

/-- The step opens regions of which `S` holds.  If `past` is kept of what was opened before, then `T a`
is kept of it and of what the step opens, where `a` is what the step gives. -/
def Opens (tokens : Array Token) (fails : Prop) (S : List Region → Prop) (past : List Region)
    (x : Read α) (T : α → List Region) : Prop :=
  ∀ count r, r.tokens = tokens → count ≤ r.errors →
    Yields x r
      (fun a r' => ∃ opened, r.Opened count r' opened ∧ S opened ∧
        r'.Sure count fun flawed => ∀ before, Mirrors flawed before past →
          Mirrors flawed (before ++ opened) (T a))
      (fun r' => fails ∧ count < r'.errors ∧
        ∃ opened, r.Opened count r' opened ∧ (opened = [] ∨ S opened))

namespace Opens

variable {α β : Type} {tokens : Array Token} {fails : Prop} {S : List Region → Prop}
  {past : List Region} {x : Read α} {T : α → List Region}

theorem pure [hS : Additive S] {a : α} (h : past.Perm (T a)) :
    Opens tokens fails S past (Pure.pure a) T :=
  fun _ r _ _ => ⟨[], (Reader.Plain.refl r).opened, hS.nil, fun _ _ before hbefore => by
    simpa using hbefore.order h⟩

theorem bind [hS : Additive S] {f : α → Read β} {T' : β → List Region}
    (hx : Opens tokens fails S past x T) (hf : ∀ a, Opens tokens fails S (T a) (f a) T') :
    Opens tokens fails S past (x >>= f) T' := by
  intro count r htokens hcount
  refine Yields.bind ((hx count r htokens hcount).mono ?_ fun _ he => he)
  rintro a r' ⟨opened, hopened, hshape, hkept⟩
  have hnext := hf a count r' (hopened.tokens.trans htokens) (Nat.le_trans hcount hopened.errors)
  refine hnext.mono ?_ ?_
  · rintro b r'' ⟨opened', hopened', hshape', hkept'⟩
    refine ⟨opened ++ opened', hopened.trans hopened', hS.append hshape hshape', ?_⟩
    intro flawed hflawed before hbefore
    rw [← List.append_assoc]
    exact hkept' flawed hflawed _ (hkept.later hopened'.errors flawed hflawed before hbefore)
  · rintro r'' ⟨hfails, hlt, opened', hopened', hshape'⟩
    refine ⟨hfails, hlt, opened ++ opened', hopened.trans hopened', Or.inr (hS.append hshape ?_)⟩
    rcases hshape' with rfl | hshape'
    · exact hS.nil
    · exact hshape'

/-- A first step that opens nothing. -/
theorem step {Q : Prop → α → Prop} {f : α → Read β} {T : β → List Region}
    (hx : Gives .plainly tokens fails Nothing x Q)
    (hf : ∀ a, Q True a → Opens tokens fails S past (f a) T) :
    Opens tokens fails S past (x >>= f) T := by
  intro count r htokens hcount
  refine Yields.bind ((hx count r htokens hcount fun _ _ => trivial).mono ?_ ?_)
  · rintro a r' ⟨-, hplain, ha⟩
    have hopened : r.Opened count r' [] := Reader.Plain.opened hplain
    have hnext := hf a (ha True fun _ => trivial) count r' (hopened.tokens.trans htokens)
      (Nat.le_trans hcount hopened.errors)
    refine hnext.mono ?_ ?_
    · rintro b r'' ⟨opened, hopened', hrest⟩
      exact ⟨opened, hopened.trans hopened', hrest⟩
    · rintro r'' ⟨hfails, hlt, opened, hopened', hshape⟩
      exact ⟨hfails, hlt, opened, hopened.trans hopened', hshape⟩
  · rintro r' ⟨hplain, hfails, hlt⟩
    exact ⟨hfails, hlt, [], Reader.Plain.opened hplain, Or.inl rfl⟩

theorem plain [Additive S] {Q : Prop → α → Prop} (h : Gives .plainly tokens fails Nothing x Q) :
    Opens tokens fails S past x fun _ => past := by
  rw [← bind_pure x]
  exact step h fun _ _ => pure (.refl _)

/-- A last step that opens nothing. -/
theorem andThen {f : α → Read β} {T' : β → List Region} (hx : Opens tokens False S past x T)
    (hf : ∀ a, Gives .plainly tokens False Nothing (f a) fun _ b => (T a).Perm (T' b)) :
    Opens tokens fails S past (x >>= f) T' := by
  intro count r htokens hcount
  refine Yields.bind ((hx count r htokens hcount).mono ?_ fun _ he => he.1.elim)
  rintro a r' ⟨opened, hopened, hshape, hkept⟩
  have hnext := hf a count r' (hopened.tokens.trans htokens) (Nat.le_trans hcount hopened.errors)
    fun _ _ => trivial
  refine hnext.mono ?_ fun _ he => he.2.1.elim
  rintro b r'' ⟨-, hplain, hperm⟩
  have hopened' : r'.Opened count r'' [] := Reader.Plain.opened hplain
  refine ⟨opened, by simpa using hopened.trans hopened', hshape, fun flawed hflawed before hbefore => ?_⟩
  exact (hkept.later hopened'.errors flawed hflawed before hbefore).order
    (hperm True fun _ => trivial)

/-- An error is reported, and the last regions are left out because of it. -/
theorem leaveOut [hS : Additive S] {more : List Region}
    (h : Gives .plainly tokens fails Nothing x fun flawed _ => flawed) :
    Opens tokens fails S (past ++ more) x fun _ => past := by
  intro count r htokens hcount
  refine (h count r htokens hcount fun _ _ => trivial).mono ?_ ?_
  · rintro a r' ⟨-, hplain, herror⟩
    refine ⟨[], Reader.Plain.opened hplain, hS.nil, fun flawed hflawed before hbefore => ?_⟩
    simpa using hbefore.leaveOut (herror flawed hflawed)
  · rintro r' ⟨hplain, hfails, hlt⟩
    exact ⟨hfails, hlt, [], Reader.Plain.opened hplain, Or.inl rfl⟩

theorem shaped {S' : List Region → Prop} (h : Opens tokens fails S past x T)
    (hS : ∀ {opened}, S opened → S' opened) : Opens tokens fails S' past x T := by
  intro count r htokens hcount
  refine (h count r htokens hcount).mono ?_ ?_
  · rintro a r' ⟨opened, hopened, hshape, hkept⟩
    exact ⟨opened, hopened, hS hshape, hkept⟩
  · rintro r' ⟨hfails, hlt, opened, hopened, hshape⟩
    exact ⟨hfails, hlt, opened, hopened, hshape.imp_right hS⟩

/-- A part that may be given up; what it has opened is then left out. -/
theorem attempt [hS : Additive S] (h : Opens tokens True S past x T) :
    Opens tokens fails S past (Grammar.attempt x) fun found => found.elim past T := by
  intro count r htokens hcount
  have hx := h count r htokens hcount
  unfold Yields at hx ⊢
  unfold Grammar.attempt
  cases hres : x r with
  | ok a r' =>
    rw [hres] at hx
    exact hx
  | error _ r' =>
    rw [hres] at hx
    obtain ⟨-, hlt, opened, hopened, hshape⟩ := hx
    refine ⟨opened, hopened, ?_, fun flawed hflawed before hbefore => ?_⟩
    · rcases hshape with rfl | hshape
      · exact hS.nil
      · exact hshape
    · simpa using hbefore.append (.nothing (hflawed hlt) opened)

/-- A loop, each turn of which keeps what was kept before. -/
theorem iterate [Additive S] {turn : α → Read (Option α)} {start : α}
    (h : ∀ a, Opens tokens fails S (T a) (turn a) fun next => next.elim (T a) T) :
    Opens tokens fails S (T start) (Grammar.iterate turn start) T := by
  have hturns : ∀ turns a, Opens tokens fails S (T a) (iterateFor turn turns a) T := by
    intro turns
    induction turns with
    | zero => exact fun a => pure (.refl _)
    | succ turns ih =>
      intro a
      refine (h a).bind fun next => ?_
      cases next with
      | none => exact pure (.refl _)
      | some b => exact ih b
  exact fun count r => hturns r.remaining start count r

/-- A part that is kept as it is, behind what was kept before. -/
theorem behind (h : Opens tokens fails S [] x T) :
    Opens tokens fails S past x fun a => past ++ T a := by
  intro count r htokens hcount
  refine (h count r htokens hcount).mono ?_ fun _ he => he
  rintro a r' ⟨opened, hopened, hshape, hkept⟩
  refine ⟨opened, hopened, hshape, fun flawed hflawed before hbefore => ?_⟩
  exact hbefore.append (hkept flawed hflawed [] .nil)

end Opens

/-! ### Constructs around the cursor -/

section Around

variable {α : Type} {tokens : Array Token} {fails : Prop} {S : List Region → Prop}
  {past : List Region} {x : Read α} {T : α → List Region}

/-- A part that never gives up, with other constructs and loops around the cursor while it is read. -/
theorem around_opens (h : Opens tokens False S past x T) {count : Nat} {r : Reader}
    (htokens : r.tokens = tokens) (hcount : count ≤ r.errors) {openBlocks : List BlockKind}
    {loopDepth : Nat} {after : Reader → Reader}
    (hafter : ∀ r', r'.openBlocks = openBlocks → r'.loopDepth = loopDepth →
      after r' = { r' with openBlocks := r.openBlocks, loopDepth := r.loopDepth }) :
    Yields (do let result ← x; modify after; pure result) { r with openBlocks, loopDepth }
      (fun a r' => ∃ opened, r.Opened count r' opened ∧ S opened ∧
        r'.Sure count fun flawed => ∀ before, Mirrors flawed before past →
          Mirrors flawed (before ++ opened) (T a))
      (fun r' => fails ∧ count < r'.errors ∧
        ∃ opened, r.Opened count r' opened ∧ (opened = [] ∨ S opened)) := by
  refine Yields.bind ((h count { r with openBlocks, loopDepth } htokens hcount).mono ?_
    fun _ he => he.1.elim)
  rintro a r' ⟨opened, hopened, hshape, hkept⟩
  refine Yields.modify_bind (Yields.pure ?_)
  rw [hafter r' hopened.openBlocks hopened.loopDepth]
  exact ⟨opened, hopened.around, hshape, hkept⟩

theorem inBlock_opens {kind : BlockKind} (h : Opens tokens False S past x T) :
    Opens tokens fails S past (inBlock kind x) T := by
  refine fun count r htokens hcount => Yields.modify_bind (around_opens h htokens hcount ?_)
  intro r' hblocks hdepth
  simp [hblocks, hdepth]

theorem inLoop_opens (h : Opens tokens False S past x T) :
    Opens tokens fails S past (inLoop x) T := by
  refine fun count r htokens hcount => Yields.modify_bind (around_opens h htokens hcount ?_)
  intro r' hblocks hdepth
  simp [hblocks, hdepth]

theorem inFreshBlock_opens {kind : BlockKind} (h : Opens tokens False S past x T) :
    Opens tokens fails S past (inFreshBlock kind x) T :=
  fun _ _ htokens hcount => Yields.get_bind (Yields.modify_bind
    (around_opens h htokens hcount fun _ _ _ => rfl))

end Around

end Primer.Grammar
