/-
Declarations and calls obey a contract.

One lemma for each function that runs a part of a program, each following the definition.  How the
parts of the program are run further down is a parameter here, as it is in the definitions.  What a
call does with its frame is left to the contract: `runRoutine_obeys` takes what is known inside of
the frame and gives what is known outside of it, possibly by another contract.
-/
import Primer.Machine.Expression
import Primer.Proofs.Run.Contract

namespace Primer

variable {engine : Engine σ}

/-- The object of the call is of the class of its routine, and the places that its arguments name are
there. -/
structure Contract.Owned (K : Contract engine) (g : Stage) (m : Machine σ) (call : Call) : Prop where
  belongs : K.Classed → m.heap.Belongs call.this (engine.program.routine call.routine).classId
  present : ∀ place, .alias place ∈ call.args → K.Present g m place

/-- What evaluates the expressions of a program and runs its routines obeys the contract. -/
structure Inner.Answers (K : Contract engine) (inner : Inner σ) : Prop where
  eval : ∀ {g : Stage} {m : Machine σ} {e : Expr}, g.Ready engine.program → K.Here g m →
    g.Knows engine.program e.notes → Obeys K g m (inner.eval e) Anything
  run : ∀ {g : Stage} {m : Machine σ} {call : Call}, g.Ready engine.program → K.Here g m →
    g.Callable engine.program call → K.Owned g m call →
      Obeys K (g.during call) m (inner.run call) Anything

/-- What runs the parts of a program obeys the contract. -/
structure Inner.Honours (K : Contract engine) (inner : Inner σ) : Prop extends inner.Answers K where
  exec : ∀ {g : Stage} {m : Machine σ} {s : Stmt}, g.Ready engine.program → K.Here g m →
    g.home.HoldsStatements → g.Knows engine.program s.notes →
    s.Every (K.Fits g.home.routine?) → Obeys K g m (inner.exec s) Anything

/-- The place that was found, if any: the code can get at it, there is something, and it may be
written to if the variable that names it may. -/
def Contract.Finds (K : Contract engine) (g : Stage) (e : Expr) (found : Option (Place × Kind))
    (m : Machine σ) : Prop :=
  ∀ place kind, found = some (place, kind) → g.shape.Solid place ∧ K.Present g m place ∧
    ((∀ x, e.named? = some x → K.Assigns g m x) → K.Offers g m place kind)

/-- What a parameter is bound to: it fits, and if it is a place, something is there. -/
def Contract.Binds (K : Contract engine) (g : Stage) (v : Variable) (c : Cell) (m : Machine σ) : Prop :=
  c.Fits g v ∧ ∀ place, c.alias? = some place → K.Present g m place

theorem Contract.Binds.later {K : Contract engine} {g : Stage} {v : Variable} {c : Cell}
    {m m' : Machine σ} (h : K.Binds g v c m) (hleads : K.Leads g m m') : K.Binds g v c m' :=
  ⟨h.1, fun place hplace => K.present (h.2 place hplace) hleads⟩

theorem Contract.Finds.target {K : Contract engine} {g : Stage} {m : Machine σ} {e : Expr}
    {place : Place} {kind : Kind} (h : K.Finds g e (some (place, kind)) m)
    (hassigns : ∀ x, e.named? = some x → K.Assigns g m x) : K.Target g m place kind := by
  obtain ⟨hsolid, hpresent, hoffers⟩ := h place kind rfl
  exact ⟨hsolid, hpresent, hoffers hassigns⟩

namespace Engine

variable {inner : Inner σ} {K : Contract engine} {g : Stage} {m : Machine σ} {call : Call}
  {m' : Machine σ} {v : Variable} {e : Expr}

theorem finds_none : K.Finds g e none m := fun _ _ hfound => by cases hfound

theorem binds_direct {w : Value} : K.Binds g v (.direct w) m :=
  ⟨Cell.fits_direct, fun _ hplace => by cases hplace⟩

theorem element_obeys {ref : ArrayRef} {indices : List Int64} {span : Span} (h : K.Here g m) :
    Obeys K g m (element ref indices span) (K.Finds g e) := by
  refine .look_bind ?_
  split
  · exact .report_bind h rfl fun m' hstep => .pure hstep.here finds_none
  · rename_i hsize
    have hoffers := K.atElement (Grid.locate (m.heap.grid ref).extents indices).1 h.stays h.holds hsize
    have hpresent := K.presentElement indices h.stays h.holds hsize
    refine (Obeys.forM h fun problem _ m' hstep => .report hstep.here rfl).bind fun _ m' hstep _ => ?_
    refine .pure hstep.here fun place kind hfound => ?_
    cases hfound
    exact ⟨trivial, K.present hpresent hstep.leads, fun _ => K.offers hoffers hstep.leads⟩

theorem fieldOf_obeys {ref : ObjectRef} {c : ClassId} {name : String} {span : Span} (h : K.Here g m)
    (hc : m.heap.classId? ref = some c) :
    Obeys K g m (engine.fieldOf ref c name span) (K.Finds g e) := by
  unfold fieldOf
  extract_lets classDef
  split
  · rename_i slot hslot
    refine .pure h fun place kind hfound => ?_
    cases hfound
    exact ⟨trivial, K.presentField h.stays h.holds hc hslot,
      fun _ => K.atField ref slot _ h.stays h.holds⟩
  · exact .report_bind h rfl fun m' hstep => .pure hstep.here finds_none

/-! ### Arrays that declarations make -/

/-- There is always room for an array without elements. -/
theorem allows_zeros (engine : Engine σ) (first : Nat) (rest : List Nat) :
    engine.allows ((first :: rest).map fun _ => 0) := by
  have hcount : ∀ extents : List Nat, Grid.countFrom 0 extents = some 0 := by
    intro extents
    induction extents with
    | nil => rfl
    | cons extent more ih => simpa [Grid.countFrom, Grid.sizeLimit] using ih
  have hzero : Grid.count? ((first :: rest).map fun _ => 0) = some 0 := by
    simpa [Grid.count?, Grid.countFrom, Grid.sizeLimit] using hcount (rest.map fun _ => 0)
  unfold allows
  rw [hzero]
  exact decide_eq_true (Nat.zero_le _)

theorem makes_make (engine : Engine σ) {x : VarId} {extents : List Nat}
    (hallows : engine.allows extents)
    (hrank : extents.length = (engine.program.symbols.variableAt x).rank) :
    engine.Makes x (Grid.make (engine.program.symbols.variableAt x).type extents) := by
  unfold allows at hallows
  split at hallows
  · rename_i count hcount
    refine ⟨⟨rfl, hrank, ?_⟩, Grid.regular_make hcount, Grid.typed_make _ _⟩
    rw [Grid.size_make hcount]
    exact of_decide_eq_true hallows
  · cases hallows

/-- An array is declared with a size. -/
theorem dims_ne_nil {d : Declaration} (hrank : v.rank = d.dims.length) (harray : v.isArray) :
    d.dims ≠ [] := by
  have hpos : 0 < v.rank := of_decide_eq_true harray
  rw [hrank] at hpos
  exact List.ne_nil_of_length_pos hpos

/-- There are as many extents as sizes, and an array of these extents may be made. -/
theorem allows_extents {d : Declaration} {found : List Nat} (hdims : d.dims ≠ [])
    (h : engine.extents inner v d m = .ok found m') :
    found.length = d.dims.length ∧ engine.allows found := by
  obtain ⟨asked, _, hasked, h⟩ := Run.bind_eq_ok.mp h
  have hlength := Run.length_mapM hasked
  split at h
  · rename_i hallows
    cases h
    exact ⟨hlength, hallows⟩
  · cases h
    cases asked with
    | nil => exact absurd (List.eq_nil_of_length_eq_zero hlength.symm) hdims
    | cons first rest => exact ⟨by simpa using hlength, engine.allows_zeros first rest⟩

/-- Filling an array leaves it as large as it is. -/
theorem size_fillFrom {kind : Kind} {position : Nat} {cells filled : Array Value}
    {values : List Expr} (h : fillFrom inner kind position cells values m = .ok filled m') :
    filled.size = cells.size := by
  induction values generalizing position cells m with
  | nil =>
    cases h
    rfl
  | cons e rest ih =>
    rw [fillFrom] at h
    obtain ⟨v, _, -, h⟩ := Run.bind_eq_ok.mp h
    split at h
    · obtain ⟨w, _, -, h⟩ := Run.bind_eq_ok.mp h
      exact (ih h).trans Array.size_setIfInBounds
    · exact ih h

/-- Its cells may be filled. -/
theorem Makes.filled {x : VarId} {grid : Grid} (h : engine.Makes x grid) {cells : Array Value}
    (hsize : cells.size = grid.cells.size) (htyped : ∀ v ∈ cells, v.Suits grid.element.kind) :
    engine.Makes x { grid with cells } :=
  ⟨⟨h.element, h.rank, Nat.le_trans (Nat.le_of_eq hsize) h.room⟩, hsize.trans h.regular, htyped⟩

section Parts

variable (hinner : inner.Answers K) (ready : g.Ready engine.program) (h : K.Here g m)
  {d : Declaration} {e : Expr}

include hinner ready h

theorem index_obeys (he : g.Knows engine.program e.notes) :
    Obeys K g m (index inner e) Anything :=
  (hinner.eval ready h he).bind fun _ _ hstep _ =>
    .orElse hstep.here (fun _ _ _ => trivial) fun _ => trivial

theorem test_obeys (he : g.Knows engine.program e.notes) :
    Obeys K g m (test inner e) Anything := by
  refine (hinner.eval ready h he).bind fun v m' hstep _ => ?_
  split
  · exact .pure hstep.here trivial
  · split
    · exact .report_bind hstep.here rfl fun _ hstep' => .pure hstep'.here trivial
    · exact .pure hstep.here trivial

/-! ### Declarations -/

theorem extent_obeys (he : g.Knows engine.program e.notes) :
    Obeys K g m (extent inner e) Anything := by
  refine (hinner.eval ready h he).bind fun v m' hstep _ => ?_
  refine Obeys.bind (Q := Anything) (.orElse hstep.here (fun _ _ _ => trivial) fun _ => trivial)
    fun size m' hstep _ => ?_
  split
  · exact .report_bind hstep.here rfl fun _ hstep' => .pure hstep'.here trivial
  · exact .pure hstep.here trivial

theorem extents_obeys (hd : g.Knows engine.program (Expr.notesAll d.dims)) :
    Obeys K g m (engine.extents inner v d) Anything := by
  refine (Obeys.mapM h fun e hmem m' hstep =>
    extent_obeys hinner ready hstep.here (hd.all e hmem)).bind fun asked m' hstep _ => ?_
  split
  · exact .pure hstep.here trivial
  · exact .report_bind hstep.here rfl fun _ hstep' => .pure hstep'.here trivial

/-- Values that are filled in are of the kind of the array. -/
theorem fillFrom_obeys {kind : Kind} {position : Nat} {cells : Array Value} {values : List Expr}
    (hvalues : ∀ e ∈ values, g.Knows engine.program e.notes)
    (hcells : ∀ v ∈ cells, v.Suits kind) :
    Obeys K g m (fillFrom inner kind position cells values)
      fun filled _ => ∀ v ∈ filled, v.Suits kind := by
  induction values generalizing position cells m with
  | nil => exact .pure h hcells
  | cons e rest ih =>
    have hrest : ∀ e' ∈ rest, g.Knows engine.program e'.notes :=
      fun e' he' => hvalues e' (by simp [he'])
    rw [fillFrom]
    refine (hinner.eval ready h (hvalues e (by simp))).bind fun v m' hstep _ => ?_
    split
    · exact (Obeys.coerce hstep.here).bind fun w m'' hstep' hw =>
        ih hstep'.here hrest (Grid.typed_cells hcells hw position)
    · exact ih hstep.here hrest hcells

omit hinner ready in
theorem newArray_obeys {x : VarId} {grid : Grid} (hx : x < engine.program.symbols.entries.size)
    (hgrid : engine.Makes x grid) : Obeys K g m (newArray grid) fun v _ => v.Suits .array :=
  .actGet h (.newArray m hx hgrid) (Or.inl rfl)

theorem arrayValue_obeys (hd : g.Knows engine.program d.notes)
    (hx : d.id < engine.program.symbols.entries.size)
    (hrank : (engine.program.symbols.variableAt d.id).rank = d.dims.length)
    (harray : (engine.program.symbols.variableAt d.id).isArray) :
    Obeys K g m (engine.arrayValue inner (engine.program.symbols.variableAt d.id) d)
      fun w _ => w.Suits .array := by
  obtain ⟨hdims, hinit⟩ := Stage.knows_append.mp hd.tail.tail.tail
  refine ((extents_obeys hinner ready h hdims).result fun _ _ =>
    allows_extents (dims_ne_nil hrank harray)).bind fun extents m' hstep hextents => ?_
  obtain ⟨-, hlength, hallows⟩ := hextents
  have hmade := engine.makes_make hallows (hlength.trans hrank.symm)
  split
  · rename_i e heq
    rw [heq] at hinit
    simp only [Initializer.notesOf, Initializer.notes_one] at hinit
    exact (hinner.eval ready hstep.here hinit).bind fun _ _ hstep' _ => .coerce hstep'.here
  · rename_i items heq
    rw [heq] at hinit
    extract_lets grid values finish
    have hfinish : ∀ m'', K.Here g m'' →
        Obeys K g m'' (finish ()) fun w _ => w.Suits .array := by
      intro m'' h''
      refine ((fillFrom_obeys hinner ready h'' hinit.all hmade.typed).result
        fun _ _ => size_fillFrom).bind ?_
      intro cells _ hstep'' hfilled
      obtain ⟨hcells, hsize⟩ := hfilled
      exact newArray_obeys hstep''.here hx (hmade.filled hsize hcells)
    split
    · exact .report_bind hstep.here rfl fun m'' hstep' => hfinish m'' hstep'.here
    · exact hfinish m' hstep.here
  · exact newArray_obeys hstep.here hx hmade

theorem scalarValue_obeys (hd : g.Knows engine.program d.notes) :
    Obeys K g m (scalarValue inner v d) fun w _ => w.Suits v.type.kind := by
  obtain ⟨-, hinit⟩ := Stage.knows_append.mp hd.tail.tail.tail
  unfold scalarValue
  split
  · rename_i e heq
    rw [heq] at hinit
    simp only [Initializer.notesOf, Initializer.notes_one] at hinit
    exact (hinner.eval ready h hinit).bind fun _ _ hstep _ => .coerce hstep.here
  · exact .pure h (Value.suits_default v.type)

end Parts

section Whole

variable (hp : engine.program.Sound) (hinner : inner.Answers K) (ready : g.Ready engine.program)
  (h : K.Here g m) {args : List Expr} {span : Span} {object : ObjectRef} {name : String}

include hp hinner ready h

/-- What an expression names, the code at hand may write. -/
theorem place_obeys : ∀ e : Expr, g.Knows engine.program e.notes →
    Obeys K g m (engine.place inner e) (K.Finds g e)
  | .variableRef id _ span, he => by
    rw [place]
    refine (Obeys.placeOf hp ready h (he.sees hp ready (by simp [Expr.notes]))).bind
      fun place m' hstep hplace => ?_
    refine .pure hstep.here fun _ _ hfound => ?_
    cases hfound
    exact ⟨hplace.solid, hplace.present, fun hassigns => hplace.offers (hassigns id rfl)⟩
  | .index base indices span, he => by
    simp only [Expr.notes, Stage.knows_append] at he
    rw [place]
    refine (hinner.eval ready h he.1).bind fun container m' hstep _ => ?_
    refine (Obeys.mapM hstep.here fun e hmem m'' hstep' =>
      index_obeys hinner ready hstep'.here (he.2.all e hmem)).bind fun _ m'' hstep' _ => ?_
    split
    · exact element_obeys hstep'.here
    · exact .report_bind hstep'.here rfl fun _ hstep'' => .pure hstep''.here finds_none
  | .field object name span, he => by
    rw [place]
    refine (hinner.eval (e := object) ready h he).bind fun container m' hstep _ => .look_bind ?_
    split
    · rename_i ref c hfound
      exact fieldOf_obeys hstep.here (Heap.classId?_of_objectOf? hfound)
    · exact .report_bind hstep.here rfl fun _ hstep' => .pure hstep'.here finds_none
  | .grouping e _, he => by
    rw [place]
    exact place_obeys e he
  | .literal .., _ | .binary .., _ | .logical .., _ | .unary .., _ | .call .., _
  | .methodCall .., _ | .new .., _ | .invalid _, _ => .pure h finds_none

/-- A declaration ends with storing the first value of its variable. -/
theorem declare_obeys {d : Declaration} (hd : g.Knows engine.program d.notes)
    (hassigns : K.Assigns g m d.id) :
    Obeys K g m (engine.declare inner d) fun _ m' => K.Declared g m' d.id := by
  have hid : engine.program.Sees g.home d.id := hd.sees hp ready (by simp [Declaration.notes])
  refine (Obeys.placeOf hp ready h hid).bind fun place m' hstep hplace => ?_
  have hassigns := K.assigns hassigns hstep.leads
  have htarget := hplace.target hassigns
  have hstore : ∀ {w : Value} {m''}, K.Step g m' m'' →
      w.Suits (engine.program.symbols.variableAt d.id).kind →
      Obeys K g m'' (Run.store place w) fun _ m' => K.Declared g m' d.id := by
    intro w m'' hstep' hw
    have htarget := htarget.later hstep'.leads
    refine .of_ok rfl (Obeys.store ready hstep'.here htarget hw).1 ?_
    have hturned := hstep'.trans (hstep'.here.turnTo htarget.solid htarget.present)
    exact K.declares ready hturned.keeps.stays hid (K.assigns hassigns hturned.leads)
      ((hstep.keeps.stays.placeOf_eq hturned.keeps.stays _).trans hplace.found) hplace.solid hw
  split
  · rename_i harray
    have hkind : (engine.program.symbols.variableAt d.id).kind = .array := if_pos harray
    have hrank := hp.ranks g.home ready.housed d.id _
      (hd (.sized d.id d.dims.length) (by simp [Declaration.notes]) rfl)
    exact (arrayValue_obeys hinner ready hstep.here hd hid.1 hrank harray).bind
      fun w m'' hstep' hw => hstore hstep' (hkind ▸ hw)
  · rename_i harray
    have hkind : (engine.program.symbols.variableAt d.id).kind =
        (engine.program.symbols.variableAt d.id).type.kind := if_neg harray
    exact (scalarValue_obeys hinner ready hstep.here hd).bind fun w m'' hstep' hw =>
      hstore hstep' (hkind ▸ hw)

/-! ### Arguments -/

omit hp in
theorem byValue_obeys {kind : Kind} {arg : Expr} (harg : g.Knows engine.program arg.notes)
    (v : Variable) : Obeys K g m (byValue inner kind arg) (K.Binds g v) := by
  refine (hinner.eval ready h harg).bind fun value m' hstep _ => ?_
  exact (Obeys.coerce hstep.here).bind fun _ _ hstep' _ => .pure hstep'.here binds_direct

theorem bindArgument_obeys {routine : Routine} {position : Nat} {arg : Option Expr}
    (harg : ∀ e ∈ arg, g.Knows engine.program e.notes) :
    Obeys K g m (engine.bindArgument inner routine position v arg) (K.Binds g v) := by
  cases arg with
  | none => exact .pure h binds_direct
  | some e =>
    have he := harg e rfl
    rw [bindArgument]
    split
    · rename_i href
      refine (place_obeys hp hinner ready h e he).bind fun found m' hstep hfound => ?_
      split
      · rename_i place kind
        obtain ⟨hsolid, hpresent, -⟩ := hfound place kind rfl
        refine .pure hstep.here ⟨⟨fun hvalue => ?_, fun other hother => ?_⟩, fun other hother => ?_⟩
        · rw [href] at hvalue
          cases hvalue
        · cases hother
          exact hsolid
        · cases hother
          exact hpresent
      · split
        · exact .report_bind hstep.here rfl fun _ hstep' =>
            byValue_obeys hinner ready hstep'.here he v
        · exact byValue_obeys hinner ready hstep.here he v
    · exact byValue_obeys hinner ready h he v

/-- Every parameter is bound to something that fits it. -/
theorem bindFrom_obeys {routine : Routine} {position : Nat} {params : List VarId}
    (hargs : ∀ e ∈ args, g.Knows engine.program e.notes) :
    Obeys K g m (engine.bindFrom inner routine position params args)
      fun cells m' =>
        params.Forall₂ (fun x c => K.Binds g (engine.program.symbols.variableAt x) c m') cells := by
  induction params generalizing position args m with
  | nil =>
    rw [bindFrom]
    refine (Obeys.forM h fun e he m' hstep => ?_).bind fun _ _ hstep _ => .pure hstep.here .nil
    exact (hinner.eval ready hstep.here (hargs e he)).discard
  | cons x params ih =>
    rw [bindFrom]
    refine (bindArgument_obeys hp hinner ready h fun e he => ?_).bind fun c m' hstep hc => ?_
    · exact hargs e (List.mem_of_mem_head? he)
    · refine (ih hstep.here fun e he => hargs e (List.mem_of_mem_tail he)).bind
        fun cells m'' hstep' hcells => ?_
      exact .pure hstep'.here (.cons (hc.later hstep'.leads) hcells)

omit hp in
/-- A call, at the stage of its caller. -/
theorem run_obeys {id : RoutineId} {this : Option ObjectRef} {cells : List Cell}
    (hid : id < engine.program.routines.size)
    (hthis : (engine.program.routine id).classId.isSome → this.isSome)
    (hbelongs : K.Classed → m.heap.Belongs this (engine.program.routine id).classId)
    (hcells : (engine.program.routine id).params.Forall₂
      (fun x c => K.Binds g (engine.program.symbols.variableAt x) c m) cells) :
    Obeys K g m (inner.run { routine := id, this, args := cells, span }) Anything := by
  have hcall : g.Callable engine.program { routine := id, this, args := cells, span } :=
    ⟨hid, hcells.imp fun _ _ hc => hc.1, hthis⟩
  refine (hinner.run ready h hcall ⟨hbelongs, fun place hplace => ?_⟩).widen rfl rfl rfl
    fun _ hi => ready.writable_during hcall hi
  obtain ⟨i, hi⟩ := List.getElem?_of_mem hplace
  obtain ⟨hlt, hget⟩ := List.getElem?_eq_some_iff.mp hi
  have hparam := hcells.length_eq ▸ hlt
  exact (hcells.get hparam hlt).2 place (by rw [List.get_eq_getElem, hget]; rfl)

theorem invoke_obeys {id : RoutineId} {this : Option ObjectRef}
    (hid : id < engine.program.routines.size)
    (hthis : (engine.program.routine id).classId.isSome → this.isSome)
    (hbelongs : K.Classed → m.heap.Belongs this (engine.program.routine id).classId)
    (hargs : ∀ e ∈ args, g.Knows engine.program e.notes) :
    Obeys K g m (engine.invoke inner id this args span) Anything := by
  unfold invoke
  extract_lets routine finish
  have hfinish : ∀ m', K.Step g m m' → Obeys K g m' (finish ()) Anything := by
    intro m' hstep
    refine (bindFrom_obeys hp hinner ready hstep.here hargs).bind fun cells m'' hstep' hcells => ?_
    refine run_obeys hinner ready hstep'.here hid hthis (fun hclassed => ?_) hcells
    exact (hbelongs hclassed).kept (hclassed _ _ _ (hstep.trans hstep').leads)
  split
  · exact .report_bind h rfl hfinish
  · exact hfinish m h.refl

/-! ### Calls and objects -/

omit hp hinner ready h in
theorem initialFields_of_ok {classDef : ClassDef}
    (hres : classDef.fieldDeclarations.forM (engine.declare inner) (m.making object) = .ok () m') :
    engine.initialFields inner classDef object m = .ok () m'.made := by
  show Run.andFinally (classDef.fieldDeclarations.forM (engine.declare inner))
    (modify Machine.made) (m.making object) = _
  rw [Run.andFinally, hres]
  rfl

omit hp hinner ready h in
theorem initialFields_of_error {classDef : ClassDef} {e : Interrupt}
    (hres : classDef.fieldDeclarations.forM (engine.declare inner) (m.making object)
      = .error e m') :
    engine.initialFields inner classDef object m = .error e m'.made := by
  show Run.andFinally (classDef.fieldDeclarations.forM (engine.declare inner))
    (modify Machine.made) (m.making object) = _
  rw [Run.andFinally, hres]
  rfl

theorem initialFields_obeys {c : ClassId} (hc : c < engine.program.classes.size)
    (hobject : m.heap.classId? object = some c) :
    Obeys K g m (engine.initialFields inner (engine.program.classDef c) object) Anything := by
  have hmaking : K.Here (g.making c object) (m.making object) := by
    refine ⟨⟨h.stays.shape, ?_⟩, K.makes c object h.stays h.holds fun _ => hobject⟩
    show m.calls.push (some object) = g.calls.push (some object)
    rw [h.stays.calls]
  have hfields : Obeys K (g.making c object) (m.making object)
      ((engine.program.classDef c).fieldDeclarations.forM (engine.declare inner)) Anything := by
    refine .forM hmaking fun d hd m' hstep => ?_
    have hknown : (g.making c object).Knows engine.program d.notes :=
      Stage.knows_self.declaration d hd
    exact (declare_obeys hp hinner (ready.making hc object) hstep.here hknown
      (K.fields hc hd)).anything
  have hkeeps : ∀ {m'}, (g.making c object).Keeps engine.program (m.making object) m' →
      g.Keeps engine.program m m'.made := by
    intro m' hk
    refine ⟨⟨hk.stays.shape, ?_⟩, hk.cells, hk.problems⟩
    show m'.calls.pop = g.calls
    rw [hk.stays.calls]
    exact Array.pop_push
  cases hres : (engine.program.classDef c).fieldDeclarations.forM (engine.declare inner)
      (m.making object) with
  | error e m' =>
    have hcut := hfields.error hres
    exact .of_error (initialFields_of_error hres)
      ⟨hkeeps hcut.keeps, K.unmade h.stays h.holds hcut.keeps.stays hcut.fails⟩
  | ok a m' =>
    obtain ⟨hstep, -⟩ := hfields.ok hres
    obtain ⟨hholds, hleads⟩ := K.made h.stays h.holds hstep.keeps.stays hstep.holds hstep.leads
    exact .of_ok (initialFields_of_ok hres) ⟨hkeeps hstep.keeps, hholds, hleads⟩ trivial

theorem construct_obeys {className : String} (hargs : ∀ e ∈ args, g.Knows engine.program e.notes) :
    Obeys K g m (engine.construct inner className args span) Anything := by
  unfold construct
  split
  · exact .report_bind h rfl fun _ hstep => .pure hstep.here trivial
  · rename_i c hindex
    have hc := hp.inBounds.classIndex className c hindex
    refine Obeys.bind (Q := fun object m' => m'.heap.classId? object = some c)
      (.actGet h (.newInstance m ⟨hc, Array.size_replicate⟩) (by simp [Heap.addInstance, Heap.classId?]))
      fun object m' hstep hobject => ?_
    refine (initialFields_obeys hp hinner ready hstep.here hc hobject).bind fun _ m'' hstep' _ => ?_
    split
    · rename_i r hr
      refine (invoke_obeys hp hinner ready hstep'.here ?_ (fun _ => rfl) (fun hclassed => ?_)
        hargs).discard.bind fun _ _ hstep'' _ => .pure hstep''.here trivial
      · exact hp.inBounds.constructors _ (engine.program.classDef_mem hc) r hr
      · rw [hp.constructors c hc r hr]
        exact .some (hclassed _ _ _ hstep'.leads _ _ hobject)
    · exact .pure hstep'.here trivial

theorem callMethod_obeys {object : Expr} (hobject : g.Knows engine.program object.notes)
    (hargs : ∀ e ∈ args, g.Knows engine.program e.notes) :
    Obeys K g m (engine.callMethod inner object name args span) Anything := by
  refine (hinner.eval ready h hobject).bind fun receiver m' hstep _ => .look_bind ?_
  split
  · rename_i ref c hfound
    have hc : m'.heap.classId? ref = some c := Heap.classId?_of_objectOf? hfound
    extract_lets classDef
    split
    · rename_i r hr
      exact invoke_obeys hp hinner ready hstep.here (hp.method_lt hr) (fun _ => rfl)
        (fun _ => hp.belongs_method hc hr) hargs
    · exact .report_bind hstep.here rfl fun _ hstep' => .pure hstep'.here trivial
  · exact .report_bind hstep.here rfl fun _ hstep' => .pure hstep'.here trivial

omit hp hinner ready in
theorem invokeOutside_obeys {args : List Value} :
    Obeys K g m (engine.invokeOutside name args span) Anything := by
  unfold invokeOutside invokeBuiltin invokeHost
  split
  · refine .look_bind ?_
    split
    · exact .pure h trivial
    · exact .report_bind h rfl fun _ hstep => .pure hstep.here trivial
  · refine Obeys.bind (Q := Anything) (.actGet h (.invoke m name args) trivial)
      fun answer m' hstep _ => ?_
    split
    · exact .pure hstep.here trivial
    · exact .report_bind hstep.here rfl fun _ hstep' => .pure hstep'.here trivial

theorem callByName_obeys (hargs : ∀ e ∈ args, g.Knows engine.program e.notes) :
    Obeys K g m (engine.callByName inner name args span) Anything := by
  refine .look_bind ?_
  split
  · rename_i object r hfound
    obtain ⟨ref, -, hclass⟩ := Option.bind_eq_some_iff.mp hfound
    obtain ⟨c, hc, hmethod⟩ := Option.bind_eq_some_iff.mp hclass
    obtain ⟨id, hid, heq⟩ := Option.map_eq_some_iff.mp hmethod
    cases heq
    exact invoke_obeys hp hinner ready h (hp.method_lt hid) (fun _ => rfl)
      (fun _ => hp.belongs_method hc hid) hargs
  · split
    · rename_i r hr
      have hclass := hp.routineIndex name r hr
      refine invoke_obeys hp hinner ready h (hp.inBounds.routineIndex name r hr) (fun hsome => ?_)
        (fun _ => hclass ▸ .none) hargs
      rw [hclass] at hsome
      cases hsome
    · refine (Obeys.mapM h fun e he m' hstep => hinner.eval ready hstep.here (hargs e he)).bind
        fun values m' hstep _ => ?_
      exact invokeOutside_obeys hstep.here

end Whole

/-! ### Running a routine -/

section Routine

variable (hinner : inner.Honours K) (ready : g.Ready engine.program) (h : K.Here g m)

include hinner ready h

theorem statements_obeys (hhome : g.home.HoldsStatements) {statements : List Stmt}
    (hs : g.Knows engine.program (Stmt.notesAll statements))
    (hfits : Stmt.EveryIn (K.Fits g.home.routine?) statements) :
    Obeys K g m (Engine.statements inner statements) Anything := by
  induction statements generalizing m with
  | nil => exact .pure h trivial
  | cons s rest ih =>
    simp only [Stmt.notesAll, Stage.knows_append] at hs
    simp only [Stmt.EveryIn] at hfits
    refine (hinner.exec ready h hhome hs.1 hfits.1).bind fun signal m' hstep _ => ?_
    split
    · exact ih hstep.here hs.2 hfits.2
    · exact .pure hstep.here trivial

theorem block_obeys (hhome : g.home.HoldsStatements) {b : Block Stmt}
    (hb : g.Knows engine.program (Stmt.blockNotes b))
    (hfits : Stmt.EveryBlock (K.Fits g.home.routine?) b) :
    Obeys K g m (block inner b) Anything := by
  obtain ⟨statements, span⟩ := b
  simp only [Stmt.blockNotes] at hb
  simp only [Stmt.EveryBlock] at hfits
  exact statements_obeys hinner ready h hhome hb hfits

end Routine

/-- Closing a call whose frame is there. -/
theorem leave_ok (hframes : m.stack.frames ≠ []) (routine : Routine) (span : Span) :
    leave routine span m = .ok () m.leave := by
  have hopen : (!m.stack.frames.isEmpty) = true := by simpa using hframes
  show (if !(!m.stack.frames.isEmpty) then Run.fatal (.missingFrame routine.name) span
    else pure ()) m.leave = _
  rw [hopen]
  rfl

theorem resultOf_obeys (routine : Routine) (span : Span) (signal : Signal) (h : K.Here g m) :
    Obeys K g m (resultOf routine span signal) Anything := by
  unfold resultOf
  split
  · split
    · exact (Obeys.coerce h).anything
    · exact .pure h trivial
  · exact .pure h trivial

/-- A call that is not let in. -/
theorem runRoutine_refused (hlimit : engine.settings.callDepth ≤ m.calls.size) :
    engine.runRoutine inner call m = .error .stopped
      (m.report (.callDepth engine.settings.callDepth (engine.program.routine call.routine).name)
        call.span) := by
  show (if engine.settings.callDepth ≤ m.calls.size then _ else _ : Run σ Value) m = _
  rw [if_pos hlimit]
  rfl

/-- A call that is let in: its body is run in a frame of its own. -/
theorem runRoutine_entered (inner : Inner σ) (call : Call)
    (hlimit : m.calls.size < engine.settings.callDepth) :
    engine.runRoutine inner call m =
      (Run.andFinally (block inner (engine.program.routine call.routine).body)
          (leave (engine.program.routine call.routine) call.span) >>=
        resultOf (engine.program.routine call.routine) call.span)
        (m.enter call.this call.args (engine.program.routine call.routine).localCount) := by
  show (if engine.settings.callDepth ≤ m.calls.size then _ else _ : Run σ Value) m = _
  rw [if_neg (Nat.not_le_of_lt hlimit)]
  rfl

theorem runRoutine_of_ok (hlimit : m.calls.size < engine.settings.callDepth) {signal : Signal}
    (hframes : m'.stack.frames ≠ [])
    (hres : block inner (engine.program.routine call.routine).body
      (m.enter call.this call.args (engine.program.routine call.routine).localCount) =
        .ok signal m') :
    engine.runRoutine inner call m =
      resultOf (engine.program.routine call.routine) call.span signal m'.leave := by
  rw [runRoutine_entered inner call hlimit]
  simp only [Bind.bind, EStateM.bind, Run.andFinally, hres, leave_ok hframes]

theorem runRoutine_of_error (hlimit : m.calls.size < engine.settings.callDepth) {e : Interrupt}
    (hframes : m'.stack.frames ≠ [])
    (hres : block inner (engine.program.routine call.routine).body
      (m.enter call.this call.args (engine.program.routine call.routine).localCount) =
        .error e m') :
    engine.runRoutine inner call m = .error e m'.leave := by
  rw [runRoutine_entered inner call hlimit]
  simp only [Bind.bind, EStateM.bind, Run.andFinally, hres, leave_ok hframes]

/-- The frame of a call is there when the call ends. -/
theorem frames_ne_nil {p : Program} {inside : Option ClassId} (hm : m.At (g.enter p call inside)) :
    m.stack.frames ≠ [] := by
  have hframes : m.stack.frames = ⟨g.shape.base, g.shape.size⟩ :: g.shape.frames :=
    congrArg Shape.frames hm.shape
  rw [hframes]
  exact List.cons_ne_nil _ _

/-- **A call obeys a contract if what its body obeys in a frame of its own comes to that outside of
the frame.**  It changes nothing but the statics and what its arguments name. -/
theorem runRoutine_obeys {K' : Contract engine} (hp : engine.program.Sound)
    (hinner : inner.Honours K) (ready : g.Ready engine.program) (h : K'.Here g m)
    (hcall : g.Callable engine.program call)
    (hbody : Stmt.EveryBlock (K.Fits (some call.routine)) (engine.program.routine call.routine).body)
    (henter : ∀ inside, engine.program.Around call.routine inside →
      m.calls.size < engine.settings.callDepth → K.Holds (g.enter engine.program call inside)
        (m.enter call.this call.args (engine.program.routine call.routine).localCount))
    (hleave : ∀ inside m', K.Step (g.enter engine.program call inside)
      (m.enter call.this call.args (engine.program.routine call.routine).localCount) m' →
        K'.Holds g m'.leave ∧ K'.Leads g m m'.leave)
    (hcut : ∀ inside e m', K.Cut (g.enter engine.program call inside) e
      (m.enter call.this call.args (engine.program.routine call.routine).localCount) m' →
        K'.Fails g e m m'.leave) :
    Obeys K' (g.during call) m (engine.runRoutine inner call) Anything := by
  obtain ⟨hholds, hleads, hfails⟩ := K'.during g call
  have hhere : K'.Here (g.during call) m := ⟨⟨h.stays.shape, h.stays.calls⟩, hholds m h.holds⟩
  by_cases hlimit : engine.settings.callDepth ≤ m.calls.size
  · exact .of_error (runRoutine_refused hlimit)
      (hhere.stops (.fatal rfl (fun h => by cases h) (fun _ => Or.inr (Or.inl ⟨_, _, rfl⟩)) call.span))
  · have hlimit := Nat.lt_of_not_le hlimit
    obtain ⟨inside, haround, -⟩ := hp.bodies call.routine hcall.routine
    have hready := ready.enter hcall haround
    have hrun := block_obeys hinner hready ⟨Stage.at_enter ready h.stays, henter inside haround hlimit⟩
      (fun c hc => by cases hc) Stage.knows_self hbody
    cases hres : block inner (engine.program.routine call.routine).body
        (m.enter call.this call.args (engine.program.routine call.routine).localCount) with
    | error e m' =>
      have hcut' := hrun.error hres
      exact .of_error (runRoutine_of_error hlimit (frames_ne_nil hcut'.keeps.stays) hres)
        ⟨hcut'.keeps.leave h.stays, hfails _ _ _ (hcut inside e m' hcut')⟩
    | ok signal m' =>
      obtain ⟨hstep, -⟩ := hrun.ok hres
      obtain ⟨hend, hlead⟩ := hleave inside m' hstep
      have hleft : K'.Step (g.during call) m m'.leave :=
        ⟨hstep.keeps.leave h.stays, hholds _ hend, hleads _ _ hlead⟩
      have hresult := resultOf_obeys (engine.program.routine call.routine) call.span signal hleft.here
      have heq := runRoutine_of_ok hlimit (frames_ne_nil hstep.keeps.stays) hres
      cases hres' : resultOf (engine.program.routine call.routine) call.span signal m'.leave with
      | error e m'' => exact .of_error (heq.trans hres') (hleft.cut (hresult.error hres'))
      | ok v m'' => exact .of_ok (heq.trans hres') (hleft.trans (hresult.ok hres').1) trivial

end Engine

end Primer
