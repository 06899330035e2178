/-
Every program that is read is well addressed, whatever its tokens are.

A reader starts outside of all definitions and is back there at the end, with every
routine and class closed.  What `Sound` says of a reader then says of its program that
every variable lies where it is looked for, and, unless an error was found, that no
constant is assigned and that nothing is left that is not there to be left.
-/
import Primer.Proofs.Grammar.Statement

namespace Primer

open Grammar

/-! ### Reading all statements -/

section Statements

variable {fails : Prop} {old : List Note}

theorem atAnyDepth_reads {α : Type} {home : Home} {part : Nested → Read α} {m : α → List Note}
    (h : ∀ nested : Nested, nested.Sound → Reads home fails old (part nested) m) :
    Reads home fails old (atAnyDepth part) m :=
  .choose (fun r => part (Nested.level r.remaining)) (fun _ => rfl) fun r =>
    h _ (Nested.sound_level r.remaining)

theorem programItem_reads {statements : List Stmt}
    (h : ∀ v ∈ Stmt.notesAll statements, v ∈ old) :
    Reads none fails old (programItem statements) (·.elim [] Stmt.notesAll) := by
  refine get_reads.bind fun r => ?_
  split
  · exact .pure (by simp)
  · split
    · exact (atAnyDepth_reads fun _ hn => routineDefinition_reads hn).bind fun _ =>
        .pure (by simpa using h)
    · exact (atAnyDepth_reads fun _ hn => routineDefinition_reads hn).bind fun _ =>
        .pure (by simpa using h)
    · exact (atAnyDepth_reads fun _ hn => classDefinition_reads hn).bind fun _ =>
        .pure (by simpa using h)
    · exact advance_reads.bind fun _ => report_reads.bind fun _ => .pure (by simpa using h)
    · exact advance_reads.bind fun _ => report_reads.bind fun _ => .pure (by simpa using h)
    · have hs : Home.HoldsStatements none := by intro c hc; cases hc
      refine (atAnyDepth_reads fun _ hn => statement_reads hn hs).bind fun found => ?_
      split
      · refine .pure ?_
        simp only [Option.elim_some, Stmt.notesAll]
        grind
      · exact .pure (by simpa using h)

theorem programStatements_reads :
    Reads none fails old programStatements Stmt.notesAll := by
  refine Reads.map (m := Stmt.notesAll) ?_ ?_
  · exact .iterate (by simp [Stmt.notesAll]) fun _ => programItem_reads (by simp +contextual)
  · simp [Stmt.mem_notesAll]

end Statements

/-! ### From the first reader to the last -/

theorem Layout.sound_start : Layout.Sound [none] #[] none {} where
  table :=
    { size := rfl
      root := rfl
      parents := by
        intro s q hq
        cases s with
        | zero => cases hq
        | succ s => simp [SymbolTable.scopeAt] at hq; cases hq
      listed := by
        intro s id
        have hempty : (SymbolTable.scopeAt {} s).members = #[] := by cases s <;> rfl
        simp [hempty]
      ordered := by
        intro s
        have hempty : (SymbolTable.scopeAt {} s).members = #[] := by cases s <;> rfl
        simp [hempty]
      placed := by simp
      seen := by simp
      statics := by simp
      locals := by simp
      apart := by simp
      classHomes := by
        intro c s
        cases s <;> simp
      fields := by simp }
  here := rfl
  fields := rfl
  routine := fun _ => rfl
  distinct := by simp
  frames := by simp
  classDistinct := by simp
  classes := by simp

theorem Grammar.Reader.sound_ofTokens (tokens : List Token) :
    (Reader.ofTokens tokens).Sound [none] none where
  layout := by
    rw [show (Reader.ofTokens tokens).classScopes = #[] by simp [Reader.classScopes, Reader.ofTokens]]
    exact Layout.sound_start
  routines := ⟨by simp [Reader.openRoutines, Reader.ofTokens], by simp [Reader.ofTokens],
    by simp [Reader.ofTokens], by simp [Reader.ofTokens], by simp [Reader.ofTokens]⟩
  classes := ⟨by simp [Reader.ofTokens], by simp [Reader.ofTokens], by simp [Reader.ofTokens]⟩

/-- The reader when all tokens have been read. -/
structure Grammar.Reader.Finished (r : Reader) (statements : List Stmt) : Prop where
  sound : ∃ homes, r.Sound homes none
  closedRoutines : r.openRoutines = []
  closedClasses : r.openClasses = []
  statements : ∀ n ∈ Stmt.notesAll statements, r.Allows none n

/-- Reading always comes to an end, and what was read then holds together. -/
theorem programStatements_finishes (tokens : List Token) :
    ∃ statements r, programStatements (Reader.ofTokens tokens) = .ok statements r ∧
      r.Finished statements := by
  have hreads : Reads none False [] programStatements Stmt.notesAll := programStatements_reads
  have hrun := hreads [none] (Reader.ofTokens tokens)
    ⟨[none], List.prefix_rfl, Reader.sound_ofTokens tokens⟩ (by simp)
  unfold Yields at hrun
  cases hx : programStatements (Reader.ofTokens tokens) with
  | ok statements r =>
    rw [hx] at hrun
    obtain ⟨hleads, ⟨homes, -, hsound⟩, hallows⟩ := hrun
    exact ⟨statements, r, rfl, ⟨homes, hsound⟩, hleads.openRoutines, hleads.openClasses,
      fun n hn => (hallows n hn).allows hleads.loopDepth⟩
  | error _ r =>
    rw [hx] at hrun
    exact hrun.2.2.elim

theorem finished_readFrom (tokens : List Token) :
    (readFrom programStatements (Reader.ofTokens tokens)).2.Finished
      (readFrom programStatements (Reader.ofTokens tokens)).1 := by
  obtain ⟨statements, r, hread, hfinished⟩ := programStatements_finishes tokens
  unfold readFrom
  rw [hread]
  exact hfinished

/-! ### The program of a finished reader -/

/-- What may be said where declarations make variables of this storage. -/
def Program.Permits (p : Program) (kept : Storage) : Note → Prop
  | .mention _ | .sized .. | .called .. | .made .. => True
  | .target x => (p.symbols.variableAt x).isConstant = false
  | .declared x => (p.symbols.variableAt x).storage = kept
  | .returns => kept = .frame
  | .jump => False

/-- No constant is assigned by its name, and every variable is kept where it is declared. -/
structure Program.Disciplined (p : Program) : Prop where
  statements : Stmt.EveryIn (Stmt.Says (p.Permits .static)) p.statements
  bodies : ∀ r < p.routines.size, Stmt.EveryBlock (Stmt.Says (p.Permits .frame)) (p.routine r).body
  fieldDeclarations : ∀ c < p.classes.size, ∀ d ∈ (p.classDef c).fieldDeclarations,
    (p.symbols.variableAt d.id).storage = .field

/-- Every jump is for a loop of the statements or body it stands in, and only routines return. -/
structure Program.Enclosed (p : Program) : Prop where
  statements : .jump ∉ Stmt.notesAll p.statements ∧ .returns ∉ Stmt.notesAll p.statements
  bodies : ∀ r < p.routines.size, .jump ∉ Stmt.blockNotes (p.routine r).body

namespace Grammar.Reader.Finished

variable {r : Reader} {statements : List Stmt} {inside : Option ClassId} {routine : Routine}
  {id : Nat} {d : ClassDef} {home : Home} {c : Nat}

theorem exists_get {α : Type} {xs : Array α} {i : Nat} (h : i < xs.size) : ∃ x, xs[i]? = some x :=
  ⟨_, Array.getElem?_eq_getElem h⟩

theorem routine_eq (hr : r.routines[id]? = some routine) :
    (Program.ofReader statements r).routine id = routine := by
  simp [Program.routine, Program.ofReader, hr]

theorem classDef_eq (hd : r.classes[c]? = some d) :
    (Program.ofReader statements r).classDef c = d := by
  simp [Program.classDef, Program.ofReader, hd]

theorem classScope_eq (hd : r.classes[c]? = some d) :
    r.classScopes[c]? = some d.scope := by
  rw [Reader.classScopes_getElem?, hd]
  rfl

theorem around (hr : r.routines[id]? = some routine) {s : ScopeId}
    (hs : r.surrounding inside = some s)
    (hparent : (r.layout.table.scopeAt routine.scope).parent = some s) :
    (Program.ofReader statements r).Around id inside := by
  have hscope : (r.layout.table.scopeAt ((Program.ofReader statements r).routine id).scope).parent
      = some s := by
    rw [routine_eq hr]
    exact hparent
  cases inside with
  | none => exact hscope.trans hs.symm
  | some c =>
    have hc : r.classScopes[c]? = some s := hs
    rw [Reader.classScopes_getElem?] at hc
    obtain ⟨d, hd, rfl⟩ := Option.map_eq_some_iff.mp hc
    refine ⟨(Array.getElem?_eq_some_iff.mp hd).1, hscope.trans ?_⟩
    rw [classDef_eq hd]

/-- Without errors, what the reader allows is what the program permits. -/
theorem permits {n : Note} (hflawed : ¬ r.Flawed) (hn : r.Allows home n) :
    (Program.ofReader statements r).Permits home.storage n := by
  cases n with
  | mention x | sized x rank | called name args span | made className args span => trivial
  | target x => exact (hn.resolve_left hflawed).2
  | declared x => exact hn.2
  | returns =>
    have hroutine := hn.resolve_left hflawed
    match home, hroutine with
    | some (.routine ..), _ => rfl
  | jump => exact hflawed hn

variable (h : r.Finished statements)

include h

theorem complete (hr : r.routines[id]? = some routine) :
    r.Complete id routine := by
  obtain ⟨homes, hsound⟩ := h.sound
  exact hsound.routines.complete id routine hr (by rw [h.closedRoutines]; simp)

theorem fields (hd : r.classes[c]? = some d) :
    d.fields = (r.layout.table.scopeAt d.scope).members.toList := by
  obtain ⟨homes, hsound⟩ := h.sound
  exact hsound.classes.fields c d hd (by rw [h.closedClasses]; simp)

/-- What the reader saw is where the program looks for it. -/
theorem sees {x : VarId} (hx : r.Sees home x) :
    (Program.ofReader statements r).Sees home x := by
  obtain ⟨homes, hsound⟩ := h.sound
  obtain ⟨hlt, hseen⟩ := hx
  refine ⟨hlt, ?_⟩
  unfold Variable.SeenFrom at hseen
  have hentry : (Program.ofReader statements r).symbols.variableAt x = r.variableAt x := rfl
  rw [hentry]
  -- What lives in a frame belongs to a complete routine.
  have hframe : (∃ id, home.routine? = some id ∧ (r.variableAt x).routine = some id) →
      (r.variableAt x).storage = .frame ∨ (r.variableAt x).IsArgument →
      ∃ id, home.routine? = some id ∧ (r.variableAt x).routine = some id ∧
        -(((Program.ofReader statements r).routine id).params.length : Int)
          ≤ (r.variableAt x).offset ∧
        (r.variableAt x).offset < ((Program.ofReader statements r).routine id).localCount := by
    rintro ⟨id, hhome, hid⟩ hstorage
    obtain ⟨routine, hget⟩ := exists_get (hsound.routines.owners x hlt id hid)
    obtain ⟨hlocal, harg⟩ := (h.complete hget).frame x hlt hid
    refine ⟨id, hhome, hid, ?_⟩
    rw [routine_eq hget]
    rcases hstorage with hst | hst
    · have := hlocal hst
      omega
    · have := harg hst
      omega
  cases hst : (r.variableAt x).storage with
  | static => exact hsound.layout.table.statics x hlt hst
  | field =>
    rw [hst] at hseen
    obtain ⟨c, hhome, hc⟩ := hseen
    refine ⟨c, hhome, ?_⟩
    rw [Reader.classScopes_getElem?] at hc
    obtain ⟨d, hd, hscope⟩ := Option.map_eq_some_iff.mp hc
    rw [classDef_eq hd, h.fields hd, Array.mem_toList_iff]
    exact (hsound.layout.table.listed d.scope x).mpr ⟨hlt, hscope.symm⟩
  | frame =>
    rw [hst] at hseen
    exact hframe hseen (Or.inl hst)
  | argument =>
    rw [hst] at hseen
    exact hframe hseen (Or.inr (Or.inl hst))
  | refArgument =>
    rw [hst] at hseen
    exact hframe hseen (Or.inr (Or.inr hst))

theorem inBounds : (Program.ofReader statements r).InBounds := by
  obtain ⟨homes, hsound⟩ := h.sound
  have htable := hsound.layout.table
  have hvariable : ∀ v ∈ r.layout.table.entries, ∃ x < r.layout.table.entries.size,
      r.layout.table.variableAt x = v := by
    intro v hv
    obtain ⟨x, hx, rfl⟩ := Array.mem_iff_getElem.mp hv
    exact ⟨x, hx, by simp [SymbolTable.variableAt, hx]⟩
  have hscope : ∀ s ∈ r.layout.table.scopes, ∃ i, r.layout.table.scopeAt i = s := by
    intro s hs
    obtain ⟨i, hi, rfl⟩ := Array.mem_iff_getElem.mp hs
    exact ⟨i, by simp [SymbolTable.scopeAt, hi]⟩
  have howns : ∀ c id, r.Owns c id → id < r.routines.size := by
    rintro c id ⟨routine, hr, -⟩
    exact (Array.getElem?_eq_some_iff.mp hr).1
  exact
    { scopes := by
        intro v hv
        obtain ⟨x, hx, rfl⟩ := hvariable v hv
        exact htable.placed x hx
      routines := by
        intro v hv id hid
        obtain ⟨x, hx, rfl⟩ := hvariable v hv
        exact hsound.routines.owners x hx id hid
      parents := by
        intro s hs q hq
        obtain ⟨i, rfl⟩ := hscope s hs
        exact Nat.lt_trans (htable.parents i q hq).1 (SymbolTable.lt_size_of_parent hq)
      members := by
        intro s hs x hx
        obtain ⟨i, rfl⟩ := hscope s hs
        exact ((htable.listed i x).mp hx).1
      routineScopes := by
        intro routine hr
        obtain ⟨id, hid⟩ := Array.getElem?_of_mem hr
        obtain ⟨_, _, -, hparent, -⟩ := (h.complete hid).written
        exact SymbolTable.lt_size_of_parent hparent
      routineClasses := by
        intro routine hr c hc
        obtain ⟨id, hid⟩ := Array.getElem?_of_mem hr
        exact hsound.routines.classIds id routine hid c hc
      params := by
        intro routine hr x hx
        obtain ⟨id, hid⟩ := Array.getElem?_of_mem hr
        obtain ⟨i, hi⟩ := List.getElem?_of_mem hx
        exact ((h.complete hid).params i x hi).1
      classScopes := by
        intro d hd
        obtain ⟨c, hc⟩ := Array.getElem?_of_mem hd
        exact hsound.classScope_lt (classScope_eq hc)
      fields := by
        intro d hd x hx
        obtain ⟨c, hc⟩ := Array.getElem?_of_mem hd
        rw [h.fields hc, Array.mem_toList_iff] at hx
        exact ((htable.listed d.scope x).mp hx).1
      methods := by
        intro d hd name id hid
        obtain ⟨c, hc⟩ := Array.getElem?_of_mem hd
        exact howns _ id ((hsound.classes.members c d hc).methods name id hid)
      constructors := by
        intro d hd id hid
        obtain ⟨c, hc⟩ := Array.getElem?_of_mem hd
        exact howns _ id ((hsound.classes.members c d hc).constructors id hid)
      routineIndex := fun name id hid => howns _ id (hsound.routines.index name id hid)
      classIndex := hsound.classes.index }

theorem wellAddressed : (Program.ofReader statements r).WellAddressed where
  inBounds := h.inBounds
  params := by
    intro id hid i x hx
    obtain ⟨routine, hget⟩ := exists_get hid
    rw [routine_eq hget] at hx
    obtain ⟨-, harg, hoffset, -⟩ := (h.complete hget).params i x hx
    exact ⟨harg, hoffset⟩
  bodies := by
    intro id hid
    obtain ⟨routine, hget⟩ := exists_get hid
    obtain ⟨inside, s, hs, hparent, hbody, -⟩ := (h.complete hget).written
    refine ⟨inside, around hget hs hparent, fun x hx => ?_⟩
    rw [routine_eq hget] at hx
    exact h.sees (hbody _ ((Stmt.blockMention_mem _).mpr hx))
  statements := fun x hx => h.sees (h.statements _ ((Stmt.mentionAll_mem _).mpr hx))
  fieldDeclarations := by
    intro c hc x hx
    obtain ⟨homes, hsound⟩ := h.sound
    obtain ⟨d, hget⟩ := exists_get hc
    rw [classDef_eq hget] at hx
    have hmention := (Declaration.mention_mem _).mpr hx
    exact h.sees ((hsound.classes.members c _ hget).declarations _ hmention)
  fields := by
    intro c hc k x hx
    obtain ⟨homes, hsound⟩ := h.sound
    obtain ⟨d, hget⟩ := exists_get hc
    rw [classDef_eq hget, h.fields hget, Array.getElem?_toList] at hx
    exact hsound.layout.table.fields c d.scope (classScope_eq hget) k x hx

theorem wellLinked : (Program.ofReader statements r).WellLinked := by
  obtain ⟨homes, hsound⟩ := h.sound
  have howns : ∀ c id, r.Owns c id → ((Program.ofReader statements r).routine id).classId = c := by
    rintro c id ⟨routine, hr, hc⟩
    rw [routine_eq hr]
    exact hc
  exact
    { apart := hsound.layout.table.apart
      statics := hsound.layout.table.statics
      locals := hsound.layout.table.locals
      arguments := by
        intro x hx harg id hid
        obtain ⟨routine, hget⟩ := exists_get (hsound.routines.owners x hx id hid)
        rw [routine_eq hget]
        have hcomplete := h.complete hget
        obtain ⟨hlow, hhigh⟩ := (hcomplete.frame x hx hid).2 harg
        -- The offset picks out a parameter, and no two parameters share one.
        obtain ⟨i, hi⟩ : ∃ i : Nat, (r.variableAt x).offset = -((i : Int) + 1) :=
          ⟨(-(r.variableAt x).offset - 1).toNat, by omega⟩
        have hlt : i < routine.params.length := by omega
        have hparam := List.getElem?_eq_getElem hlt
        obtain ⟨hx', harg', hoffset', hid'⟩ := hcomplete.params i _ hparam
        have heq := hsound.layout.table.apart x hx _ hx'
          (Or.inr ⟨Or.inr ⟨harg, harg'⟩, hid.trans hid'.symm⟩) (hi.trans hoffset'.symm)
        exact ⟨i, by rw [heq]; exact hparam, hi⟩
      methods := by
        intro c hc name id hid
        obtain ⟨d, hget⟩ := exists_get hc
        rw [classDef_eq hget] at hid
        exact howns _ id ((hsound.classes.members c _ hget).methods name id hid)
      constructors := by
        intro c hc id hid
        obtain ⟨d, hget⟩ := exists_get hc
        rw [classDef_eq hget] at hid
        exact howns _ id ((hsound.classes.members c _ hget).constructors id hid)
      routineIndex := fun name id hid => howns _ id (hsound.routines.index name id hid) }

/-- A scope is around routines for one reason only: it is the field scope of a class, or the global
scope. -/
theorem surrounding_inj {inside inside' : Option ClassId} {s : ScopeId}
    (hs : r.surrounding inside = some s) (hs' : r.surrounding inside' = some s) :
    inside = inside' := by
  obtain ⟨homes, hsound⟩ := h.sound
  have htable := hsound.layout.table
  have hglobal : ∀ {c : ClassId}, r.classScopes[c]? ≠ some SymbolTable.globalScope := by
    intro c hc
    have hhome := (htable.classHomes c _).mp hc
    rw [htable.root] at hhome
    cases hhome
  match inside, inside', hs, hs' with
  | none, none, _, _ => rfl
  | none, some c, rfl, hc => exact absurd hc hglobal
  | some c, none, hc, rfl => exact absurd hc hglobal
  | some c, some c', hc, hc' =>
    have hhome := (htable.classHomes c s).mp hc
    rw [(htable.classHomes c' s).mp hc'] at hhome
    cases hhome
    rfl

omit h in
/-- What is around a routine of the program was around it when it was read. -/
theorem surrounding_of_around (hr : r.routines[id]? = some routine)
    (hinside : (Program.ofReader statements r).Around id inside) :
    ∃ s, r.surrounding inside = some s ∧
      (r.layout.table.scopeAt routine.scope).parent = some s := by
  cases inside with
  | none =>
    have hparent : (r.layout.table.scopeAt
        ((Program.ofReader statements r).routine id).scope).parent =
          some SymbolTable.globalScope := hinside
    rw [routine_eq hr] at hparent
    exact ⟨_, rfl, hparent⟩
  | some c =>
    obtain ⟨hc, hparent⟩ := hinside
    obtain ⟨d, hd⟩ := exists_get hc
    rw [routine_eq hr, classDef_eq hd] at hparent
    exact ⟨d.scope, classScope_eq hd, hparent⟩

/-- A routine belongs to the class around it, or stands inside another one and belongs to none. -/
theorem classId_cases (hid : id < r.routines.size)
    (hinside : (Program.ofReader statements r).Around id inside) :
    ((Program.ofReader statements r).routine id).classId = inside ∨
      ((Program.ofReader statements r).routine id).classId = none ∧ r.MetNested := by
  obtain ⟨routine, hget⟩ := exists_get hid
  obtain ⟨written, s, hs, hparent, -, hclass⟩ := (h.complete hget).written
  obtain ⟨s', hs', hparent'⟩ := surrounding_of_around hget hinside
  obtain rfl : s = s' := Option.some.inj (hparent.symm.trans hparent')
  obtain rfl := h.surrounding_inj hs hs'
  rw [routine_eq hget]
  exact hclass

/-- Without routines inside routines, each belongs to the class around it. -/
theorem classId_eq (hmet : ¬ r.MetNested) (hid : id < r.routines.size)
    (hinside : (Program.ofReader statements r).Around id inside) :
    ((Program.ofReader statements r).routine id).classId = inside :=
  (h.classId_cases hid hinside).resolve_right fun hnested => hmet hnested.2

/-- A method is written in its class. -/
theorem around_eq {c : ClassId} (hid : id < r.routines.size)
    (hinside : (Program.ofReader statements r).Around id inside)
    (hc : ((Program.ofReader statements r).routine id).classId = some c) : inside = some c := by
  rcases h.classId_cases hid hinside with heq | ⟨hnone, -⟩
  · exact heq.symm.trans hc
  · rw [hnone] at hc
    cases hc

/-- The fields of a class are where their names lead. -/
theorem slot_lt {c : ClassId} {name : String} {slot : Nat}
    (hslot : ((Program.ofReader statements r).classDef c).fieldIndex[name]? = some slot) :
    slot < ((Program.ofReader statements r).classDef c).fields.length := by
  obtain ⟨homes, hsound⟩ := h.sound
  cases hd : r.classes[c]? with
  | some d =>
    rw [classDef_eq hd] at hslot ⊢
    rw [(hsound.classes.members c d hd).slots, Reader.getElem?_fieldSlots] at hslot
    obtain ⟨x, hx, rfl⟩ := Option.map_eq_some_iff.mp hslot
    obtain ⟨k, hk⟩ := List.getElem?_of_mem (List.mem_reverse.mp (List.mem_of_find?_eq_some hx))
    have hlt := (List.getElem?_eq_some_iff.mp hk).1
    rw [h.fields hd, Array.getElem?_toList] at hk
    rw [(hsound.layout.table.fields c d.scope (classScope_eq hd) k x hk).2]
    exact hlt
  | none =>
    have hdefault : (Program.ofReader statements r).classDef c = default := by
      simp [Program.classDef, Program.ofReader, hd]
    have hempty : (default : ClassDef).fieldIndex = (∅ : NameIndex) := rfl
    rw [hdefault, hempty] at hslot
    simp at hslot

theorem unnested (hmet : ¬ r.MetNested) : (Program.ofReader statements r).Unnested :=
  fun _ hid _ hwritten => h.classId_eq hmet hid hwritten

/-- **What the program says at one of its homes the reader allowed there.** -/
theorem allows (hhome : (Program.ofReader statements r).Houses home) :
    ∀ n ∈ (Program.ofReader statements r).notesAt home, r.Allows home n := by
  obtain ⟨homes, hsound⟩ := h.sound
  match home, hhome with
  | none, _ => exact h.statements
  | some (.routine id inside), ⟨hid, hinside⟩ =>
    obtain ⟨routine, hget⟩ := exists_get hid
    obtain ⟨written, s, hs, hparent, hbody, -⟩ := (h.complete hget).written
    obtain ⟨s', hs', hparent'⟩ := surrounding_of_around hget hinside
    obtain rfl : s = s' := Option.some.inj (hparent.symm.trans hparent')
    obtain rfl := h.surrounding_inj hs hs'
    simp only [Program.notesAt, routine_eq hget]
    exact hbody
  | some (.classBody c), hc =>
    obtain ⟨d, hget⟩ := exists_get hc
    simp only [Program.notesAt, classDef_eq hget]
    exact (hsound.classes.members c d hget).declarations

theorem disciplined (hflawed : ¬ r.Flawed) : (Program.ofReader statements r).Disciplined where
  statements := Stmt.everyIn_of_notes _ fun n hn _ => permits hflawed (h.statements n hn)
  bodies := by
    intro id hid
    obtain ⟨routine, hget⟩ := exists_get hid
    obtain ⟨inside, s, -, -, hbody, -⟩ := (h.complete hget).written
    rw [routine_eq hget]
    exact Stmt.everyBlock_of_notes _ fun n hn _ => permits hflawed (hbody n hn)
  fieldDeclarations := by
    intro c hc d hd
    obtain ⟨homes, hsound⟩ := h.sound
    obtain ⟨definition, hget⟩ := exists_get hc
    rw [classDef_eq hget] at hd
    have hnote := Declaration.declared_mem (List.mem_map_of_mem (f := (·.id)) hd)
    exact permits hflawed ((hsound.classes.members c _ hget).declarations _ hnote)

theorem enclosed (hflawed : ¬ r.Flawed) : (Program.ofReader statements r).Enclosed where
  statements := by
    refine ⟨fun hjump => hflawed (h.statements _ hjump), fun hreturns => ?_⟩
    have hroutine := (h.statements _ hreturns).resolve_left hflawed
    simp [Home.routine?] at hroutine
  bodies := by
    intro id hid hjump
    obtain ⟨routine, hget⟩ := exists_get hid
    obtain ⟨inside, s, -, -, hbody, -⟩ := (h.complete hget).written
    rw [routine_eq hget] at hjump
    exact hflawed (hbody _ hjump)

end Grammar.Reader.Finished

namespace Program

variable {source : String}

/-- **In every program, whatever its tokens are, every variable lies where it is looked for.** -/
theorem wellAddressed_ofTokens (tokens : List Token) : (ofTokens tokens).1.WellAddressed :=
  (finished_readFrom tokens).wellAddressed

/-- What a reader finds wrong is told. -/
theorem not_flawed_ofSource (h : ∀ d ∈ (ofSource source).2, d.isError = false) :
    ¬ (readFrom programStatements (Reader.ofTokens (scan source).1)).2.Flawed := by
  rintro ⟨⟨problem, span⟩, hmem, herror⟩
  have hfound : problem.wording.at span ∈ (ofSource source).2 := by
    refine List.mem_mergeSort.mpr (List.mem_append_right _ (List.mem_mergeSort.mpr ?_))
    refine List.mem_map.mpr ⟨(problem, span), ?_, rfl⟩
    exact List.mem_append_left _ (Array.mem_toList_iff.mpr hmem)
  have hclean : problem.isError = false := h _ hfound
  rw [hclean] at herror
  cases herror

/-- A routine inside a routine is an error of the program. -/
theorem unnested_ofSource (h : ∀ d ∈ (ofSource source).2, d.isError = false) :
    (ofSource source).1.Unnested := by
  refine (finished_readFrom (scan source).1).unnested ?_
  rintro ⟨word, span, hmem⟩
  exact not_flawed_ofSource h ⟨_, hmem, rfl⟩

/-- **To assign a constant is an error of the program.** -/
theorem disciplined_ofSource (h : ∀ d ∈ (ofSource source).2, d.isError = false) :
    (ofSource source).1.Disciplined :=
  (finished_readFrom (scan source).1).disciplined (not_flawed_ofSource h)

/-- **To leave a loop or a routine where there is none is an error of the program.** -/
theorem enclosed_ofSource (h : ∀ d ∈ (ofSource source).2, d.isError = false) :
    (ofSource source).1.Enclosed :=
  (finished_readFrom (scan source).1).enclosed (not_flawed_ofSource h)

end Program

end Primer
