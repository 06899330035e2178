/-
Where code runs, and what it keeps.

A stage is where some code runs: the shape of the stack, the calls that are active, the home of
the code and the cells that it may write.  `Ready` says that the stage fits the home, so that
every variable the code mentions is where the code looks for it.  `Keeps` says that the stage is
left as it is, that only the cells that may be written change, and that no fatal problem comes up
other than those a run is allowed to end in.

A call opens a frame, runs a body whose home is the routine, and closes the frame again.  The
body may write to its own frame, to the statics and to what its parameters stand for; when the
frame is gone, that leaves the statics and the cells that the arguments named.  So a call is
run at the stage of its caller with only these cells writable, whatever else the caller could
write to.
-/
import Mathlib.Data.List.Forall2
import Primer.Machine.Statement
import Primer.Proofs.Program.Addressing
import Primer.Proofs.Run.Shape
import Primer.Proofs.Value.Store

namespace Primer

variable {p : Program} {g : Stage} {c : ClassId} {name : String} {r : RoutineId} {h h' : Heap}

/-- The program is well addressed, at all of its homes, and well linked. -/
structure Program.Sound (p : Program) : Prop extends p.WellAddressed, p.WellLinked where
  sees : ∀ home, p.Houses home → ∀ x, .mention x ∈ p.notesAt home → p.Sees home x
  /-- Arrays are declared with as many sizes as they have dimensions. -/
  ranks : ∀ home, p.Houses home → ∀ x rank, .sized x rank ∈ p.notesAt home →
    (p.symbols.variableAt x).rank = rank
  /-- Methods are written in their classes. -/
  around : ∀ r < p.routines.size, ∀ inside, p.Around r inside →
    ∀ c, (p.routine r).classId = some c → inside = some c
  slots : ∀ c (name : String) slot, (p.classDef c).fieldIndex[name]? = some slot →
    slot < (p.classDef c).fields.length

/-- Where some code runs. -/
structure Stage where
  shape : Shape
  calls : Array (Option ObjectRef)
  home : Home
  /-- The cells that may change. -/
  writable : Nat → Prop

/-- The frame at hand is one of the routine. -/
structure Shape.FrameOf (p : Program) (r : RoutineId) (h : Shape) : Prop where
  start : h.top + (p.routine r).params.length = h.base
  room : h.base + (p.routine r).localCount ≤ h.size
  locals : ∀ i < (p.routine r).localCount, h.Direct (h.base + i)
  /-- Parameters by value hold values. -/
  values : ∀ (i : Nat) x, (p.routine r).params[i]? = some x →
    (p.symbols.variableAt x).storage = .argument → h.Direct (h.base - (i + 1))
  opened : h.frames ≠ []

/-- The object of the innermost call. -/
def Stage.this? (g : Stage) : Option ObjectRef := g.calls.back?.join

/-- The stage fits the home of the code that runs on it. -/
structure Stage.Ready (p : Program) (g : Stage) : Prop where
  good : g.shape.Good
  statics : g.shape.statics = p.symbols.staticCount
  housed : p.Houses g.home
  /-- Code outside of all definitions runs outside of all calls. -/
  outermost : g.home = none → g.shape.frames = []
  frame : ∀ r, g.home.routine? = some r → g.shape.FrameOf p r
  object : p.Unnested → ∀ c, g.home.fields? = some c → g.this?.isSome
  writable : ∀ i, g.shape.Reach i → g.writable i

/-- The machine is at the stage. -/
structure Machine.At (g : Stage) (m : Machine σ) : Prop where
  shape : m.stack.shape = g.shape
  calls : m.calls = g.calls

/-- A problem that a run of the program may record. -/
def Program.Allows (p : Program) (problem : Machine.Problem) : Prop :=
  problem.isFatal → problem = .hostStop ∨ (∃ limit name, problem = .callDepth limit name) ∨
    (¬ p.Unnested ∧ ∃ name, problem = .fieldOutsideObject name)

/-- What code at a stage keeps. -/
structure Stage.Keeps (p : Program) (g : Stage) (m m' : Machine σ) : Prop where
  stays : m'.At g
  cells : ∀ i, ¬ g.writable i → m'.stack.cells[i]? = m.stack.cells[i]?
  problems : ∀ q ∈ m'.problems, q ∈ m.problems ∨ p.Allows q.1

section Rules

variable {p : Program} {g : Stage} {m m' m'' : Machine σ}

theorem Stage.Keeps.refl (h : m.At g) : g.Keeps p m m :=
  ⟨h, fun _ _ => rfl, fun _ hq => Or.inl hq⟩

/-- Nothing is lost by what touches neither the stack nor the calls. -/
theorem Stage.Keeps.of_stack (h : m.At g) (hstack : m'.stack = m.stack) (hcalls : m'.calls = m.calls)
    (hproblems : m'.problems = m.problems) : g.Keeps p m m' where
  stays := ⟨hstack ▸ h.shape, hcalls ▸ h.calls⟩
  cells := fun _ _ => by rw [hstack]
  problems := fun _ hq => Or.inl (hproblems ▸ hq)

theorem Stage.Keeps.trans (h : g.Keeps p m m') (h' : g.Keeps p m' m'') : g.Keeps p m m'' where
  stays := h'.stays
  cells := fun i hi => (h'.cells i hi).trans (h.cells i hi)
  problems := by
    intro q hq
    rcases h'.problems q hq with hq | hq
    · exact h.problems q hq
    · exact Or.inr hq

/-- What keeps to fewer cells keeps to more. -/
theorem Stage.Keeps.widen {g' : Stage} (h : g.Keeps p m m') (hshape : g'.shape = g.shape)
    (hcalls : g'.calls = g.calls) (hwritable : ∀ i, g.writable i → g'.writable i) :
    g'.Keeps p m m' where
  stays := ⟨h.stays.shape.trans hshape.symm, h.stays.calls.trans hcalls.symm⟩
  cells := fun i hi => h.cells i fun hw => hi (hwritable i hw)
  problems := h.problems

/-- A problem that does not end a run may always be recorded. -/
theorem Program.allows_of_not_fatal {problem : Machine.Problem} (h : problem.isFatal = false) :
    p.Allows problem := by
  intro hfatal
  rw [h] at hfatal
  cases hfatal

theorem Stage.Keeps.report (hm : m.At g) {problem : Machine.Problem} (h : p.Allows problem)
    (span : Span) : g.Keeps p m (m.report problem span) := by
  refine ⟨⟨hm.shape, hm.calls⟩, fun _ _ => rfl, fun q hq => ?_⟩
  have hpush : q ∈ m.problems.push (problem, span) := hq
  rcases Array.mem_push.mp hpush with hq | rfl
  · exact Or.inl hq
  · exact Or.inr h

/-- A place that the code can get at is written straight away. -/
theorem Stage.target_solid (hm : m.At g) {place : Place} (h : g.shape.Solid place) :
    m.stack.target place = place :=
  Stack.follow_solid (hm.shape ▸ h) m.stack.size

/-- A place that the code can get at may be written. -/
theorem Stage.Keeps.write (ready : g.Ready p) (hm : m.At g) {place : Place}
    (h : g.shape.Solid place) (v : Value) : g.Keeps p m (m.write place v) := by
  unfold Machine.write
  rw [Stage.target_solid hm h]
  cases place with
  | slot i =>
    obtain ⟨hreach, hdirect⟩ := h
    rw [← hm.shape] at hdirect
    refine ⟨⟨?_, hm.calls⟩, fun j hj => ?_, fun q hq => Or.inl hq⟩
    · exact (Stack.shape_write hdirect v).trans hm.shape
    · exact Stack.cells_write_ne (fun heq : i = j => hj (heq ▸ ready.writable i hreach)) _
  | element ref offset => exact .of_stack hm rfl rfl rfl
  | field ref offset => exact .of_stack hm rfl rfl rfl

end Rules

/-! ### Where variables are -/

namespace Machine.At

variable {g : Stage} {m : Machine σ} {v : Variable} {slot : Nat}

theorem size (hm : m.At g) : m.stack.cells.size = g.shape.size := by
  rw [← hm.shape, Stack.size_shape]
  rfl

theorem this? (hm : m.At g) : m.this? = g.this? := by
  unfold Machine.this? Stage.this?
  rw [hm.calls]

theorem frameSlot (hm : m.At g) (hslot : (g.shape.base : Int) + v.offset = slot)
    (hlt : slot < g.shape.size) :
    m.frameSlot v = .ok slot := by
  have hbase : m.stack.base = g.shape.base := congrArg Shape.base hm.shape
  have hfound : m.stack.frameSlot? v.offset = some slot := by
    simp only [Stack.frameSlot?, hbase, hslot, hm.size]
    simp [hlt]
  simp only [Machine.frameSlot, hfound]

/-- A variable that is kept in the frame itself. -/
theorem placeOf_frame (hm : m.At g) (hv : v.storage = .frame ∨ v.storage = .argument)
    (hslot : (g.shape.base : Int) + v.offset = slot) (hlt : slot < g.shape.size) :
    m.placeOf v = .ok (.slot slot) := by
  rcases hv with hv | hv <;> simp only [Machine.placeOf, hv, hm.frameSlot hslot hlt] <;> rfl

/-- A parameter by reference is where its cell leads. -/
theorem placeOf_ref (hm : m.At g) (hv : v.storage = .refArgument)
    (hslot : (g.shape.base : Int) + v.offset = slot) (hlt : slot < g.shape.size) :
    (g.shape.Direct slot ∧ m.placeOf v = .ok (.slot slot)) ∨
    ∃ place, g.shape.aliases[slot]? = some (some place) ∧ m.placeOf v = .ok place := by
  have hplace : m.placeOf v = .ok (m.stack.led slot) := by
    rw [Machine.placeOf_refArgument hv, hm.frameSlot hslot hlt]
    rfl
  rw [hplace, Stack.led_eq, hm.shape]
  have hget := Array.getElem?_eq_getElem hlt
  cases hcell : g.shape.aliases[slot] with
  | none =>
    rw [hcell] at hget
    exact Or.inl ⟨hget, by rw [hget]; rfl⟩
  | some place =>
    rw [hcell] at hget
    exact Or.inr ⟨place, hget, by rw [hget]; rfl⟩

end Machine.At

/-- Where a variable is depends on the stage alone. -/
theorem Machine.At.placeOf_eq {m m' : Machine σ} (hm : m.At g) (hm' : m'.At g) (v : Variable) :
    m'.placeOf v = m.placeOf v := by
  have hshape : m'.stack.shape = m.stack.shape := hm'.shape.trans hm.shape.symm
  have hslot : m'.frameSlot v = m.frameSlot v := by
    have hbase : m'.stack.base = m.stack.base := congrArg Shape.base hshape
    have hsize : m'.stack.cells.size = m.stack.cells.size := hm'.size.trans hm.size.symm
    unfold Machine.frameSlot Stack.frameSlot?
    rw [hbase, hsize]
  have hled : m'.stack.led = m.stack.led := by
    funext slot
    rw [Stack.led_eq, Stack.led_eq, hshape]
  cases hv : v.storage with
  | static => simp only [Machine.placeOf, hv]
  | frame => simp only [Machine.placeOf, hv, hslot]
  | argument => simp only [Machine.placeOf, hv, hslot]
  | refArgument => rw [Machine.placeOf_refArgument hv, Machine.placeOf_refArgument hv, hslot, hled]
  | field => simp only [Machine.placeOf, hv, hm.this?, hm'.this?]

/-- What looking for the place of a variable may come to. -/
def Stage.Finds (p : Program) (g : Stage) : Except Machine.Problem Place → Prop
  | .ok place => g.shape.Solid place
  | .error problem => p.Allows problem

namespace Stage.Ready

variable {p : Program} {g : Stage} {m : Machine σ} {x : VarId}

/-- A parameter lies in its frame, at the position that the routine lists it. -/
theorem slot_argument (hp : p.Sound) (ready : g.Ready p) (hr : g.home.routine? = some r)
    (hx : x < p.symbols.entries.size) (harg : (p.symbols.variableAt x).IsArgument)
    (hroutine : (p.symbols.variableAt x).routine = some r) :
    ∃ i : Nat, (p.routine r).params[i]? = some x ∧
      (g.shape.base : Int) + (p.symbols.variableAt x).offset = (g.shape.base - (i + 1) : Nat) ∧
      g.shape.top ≤ g.shape.base - (i + 1) ∧ g.shape.base - (i + 1) < g.shape.size := by
  obtain ⟨i, hi, hoffset⟩ := hp.arguments x hx harg r hroutine
  have hlt : i < (p.routine r).params.length := (List.getElem?_eq_some_iff.mp hi).1
  have hstart := (ready.frame r hr).start
  have hroom := (ready.frame r hr).room
  refine ⟨i, hi, ?_, ?_, ?_⟩ <;> omega

/-- **A variable that the code at hand mentions is found.** -/
theorem finds (hp : p.Sound) (ready : g.Ready p) (hm : m.At g) (hx : p.Sees g.home x) :
    g.Finds p (m.placeOf (p.symbols.variableAt x)) := by
  obtain ⟨hbound, hx⟩ := hx
  cases hstorage : (p.symbols.variableAt x).storage with
  | static =>
    simp only [hstorage] at hx
    have hstatic : (p.symbols.variableAt x).offset.toNat < g.shape.statics := by
      rw [ready.statics]
      omega
    simp only [Machine.placeOf, hstorage]
    exact ready.good.solid_static hstatic
  | frame =>
    simp only [hstorage] at hx
    obtain ⟨r, hr, -, -, hlow⟩ := hx
    have hoffset := hp.locals x hbound hstorage
    have hframe := ready.frame r hr
    obtain ⟨i, hi⟩ := Int.eq_ofNat_of_zero_le hoffset
    rw [hi] at hlow
    have hlt : i < (p.routine r).localCount := by omega
    have hroom := hframe.room
    have hstart := hframe.start
    have hslot : (g.shape.base : Int) + (p.symbols.variableAt x).offset = (g.shape.base + i : Nat) := by
      omega
    rw [hm.placeOf_frame (Or.inl hstorage) hslot (by omega)]
    exact ⟨Or.inr (Or.inl (by omega)), hframe.locals i hlt⟩
  | argument =>
    simp only [hstorage] at hx
    obtain ⟨r, hr, hroutine, -, -⟩ := hx
    obtain ⟨i, hi, hslot, htop, hlt⟩ := slot_argument hp ready hr hbound (Or.inl hstorage) hroutine
    rw [hm.placeOf_frame (Or.inr hstorage) hslot hlt]
    exact ⟨Or.inr (Or.inl htop), (ready.frame r hr).values i x hi hstorage⟩
  | refArgument =>
    simp only [hstorage] at hx
    obtain ⟨r, hr, hroutine, -, -⟩ := hx
    obtain ⟨i, -, hslot, htop, hlt⟩ := slot_argument hp ready hr hbound (Or.inr hstorage) hroutine
    rcases hm.placeOf_ref hstorage hslot hlt with ⟨hdirect, hplace⟩ | ⟨place, hget, hplace⟩
    · rw [hplace]
      exact ⟨Or.inr (Or.inl htop), hdirect⟩
    · rw [hplace]
      exact ready.good.solid_alias htop hget
  | field =>
    simp only [hstorage] at hx
    obtain ⟨c, hc, -⟩ := hx
    simp only [Machine.placeOf, hstorage, hm.this?]
    cases hthis : g.this? with
    | some object => exact trivial
    | none =>
      -- Only a routine inside a method can get here: it has the fields of the class but no object.
      refine fun _ => Or.inr (Or.inr ⟨fun hunnested => ?_, _, rfl⟩)
      have hsome := ready.object hunnested c hc
      simp [hthis] at hsome

end Stage.Ready

/-- Where code on a stage finds a variable: a parameter by reference is where its cell leads. -/
inductive Stage.Locates (p : Program) (g : Stage) (x : VarId) : Place → Prop
  | static (h : (p.symbols.variableAt x).storage = .static) :
    Locates p g x (.slot (p.symbols.variableAt x).offset.toNat)
  | frame {r : RoutineId} {i : Nat} (h : (p.symbols.variableAt x).storage = .frame)
      (hr : g.home.routine? = some r) (hx : (p.symbols.variableAt x).routine = some r)
      (hi : (p.symbols.variableAt x).offset = i) : Locates p g x (.slot (g.shape.base + i))
  | argument {r : RoutineId} {i : Nat} (h : (p.symbols.variableAt x).IsArgument)
      (hr : g.home.routine? = some r) (hi : (p.routine r).params[i]? = some x) :
    Locates p g x (.slot (g.shape.base - (i + 1)))
  | led {r : RoutineId} {i : Nat} {place : Place} (h : (p.symbols.variableAt x).IsArgument)
      (hr : g.home.routine? = some r) (hi : (p.routine r).params[i]? = some x)
      (hplace : g.shape.aliases[g.shape.base - (i + 1)]? = some (some place)) : Locates p g x place
  | field (h : (p.symbols.variableAt x).storage = .field) (object : ObjectRef) (offset : Nat) :
    Locates p g x (.field object offset)

namespace Stage.Ready

variable {p : Program} {g : Stage} {m : Machine σ} {x : VarId} {place : Place}

/-- The parameters are in the frame, below its locals. -/
theorem slot_param (ready : g.Ready p) (hr : g.home.routine? = some r) {i : Nat}
    (hi : (p.routine r).params[i]? = some x) :
    g.shape.top ≤ g.shape.base - (i + 1) ∧ g.shape.base - (i + 1) < g.shape.base ∧
      g.shape.base ≤ g.shape.size := by
  have hlt : i < (p.routine r).params.length := (List.getElem?_eq_some_iff.mp hi).1
  have hstart := (ready.frame r hr).start
  have hroom := (ready.frame r hr).room
  omega

theorem locates (hp : p.Sound) (ready : g.Ready p) (hm : m.At g) (hx : p.Sees g.home x)
    (hplace : m.placeOf (p.symbols.variableAt x) = .ok place) : g.Locates p x place := by
  obtain ⟨hbound, hx⟩ := hx
  cases hstorage : (p.symbols.variableAt x).storage with
  | static =>
    simp only [Machine.placeOf, hstorage, Except.ok.injEq] at hplace
    exact hplace ▸ .static hstorage
  | frame =>
    simp only [hstorage] at hx
    obtain ⟨r, hr, hroutine, -, hlow⟩ := hx
    obtain ⟨i, hi⟩ := Int.eq_ofNat_of_zero_le (hp.locals x hbound hstorage)
    rw [hi] at hlow
    have hroom := (ready.frame r hr).room
    have hslot : (g.shape.base : Int) + (p.symbols.variableAt x).offset = (g.shape.base + i : Nat) := by
      omega
    rw [hm.placeOf_frame (Or.inl hstorage) hslot (by omega), Except.ok.injEq] at hplace
    exact hplace ▸ .frame hstorage hr hroutine hi
  | argument =>
    simp only [hstorage] at hx
    obtain ⟨r, hr, hroutine, -, -⟩ := hx
    obtain ⟨i, hi, hslot, htop, hlt⟩ := slot_argument hp ready hr hbound (Or.inl hstorage) hroutine
    rw [hm.placeOf_frame (Or.inr hstorage) hslot hlt, Except.ok.injEq] at hplace
    exact hplace ▸ .argument (Or.inl hstorage) hr hi
  | refArgument =>
    simp only [hstorage] at hx
    obtain ⟨r, hr, hroutine, -, -⟩ := hx
    obtain ⟨i, hi, hslot, htop, hlt⟩ := slot_argument hp ready hr hbound (Or.inr hstorage) hroutine
    rcases hm.placeOf_ref hstorage hslot hlt with ⟨-, hfound⟩ | ⟨other, hget, hfound⟩
    · rw [hfound, Except.ok.injEq] at hplace
      exact hplace ▸ .argument (Or.inr hstorage) hr hi
    · rw [hfound, Except.ok.injEq] at hplace
      exact hplace ▸ .led (Or.inr hstorage) hr hi hget
  | field =>
    simp only [Machine.placeOf, hstorage] at hplace
    split at hplace
    · cases hplace
      exact .field hstorage _ _
    · cases hplace

end Stage.Ready

/-! ### Calls and new objects -/

/-- The notes are of code that may run on this stage.  Its jumps are for the loops around it. -/
def Stage.Knows (p : Program) (g : Stage) (notes : List Note) : Prop :=
  Note.All (· ∈ p.notesAt g.home) notes

@[simp] theorem Stage.knows_append {p : Program} {g : Stage} {xs ys : List Note} :
    g.Knows p (xs ++ ys) ↔ g.Knows p xs ∧ g.Knows p ys := Note.all_append

@[simp] theorem Stage.knows_inLoop {p : Program} {g : Stage} {notes : List Note} :
    g.Knows p (Note.inLoop notes) ↔ g.Knows p notes := Note.all_inLoop

theorem Stage.knows_self : g.Knows p (p.notesAt g.home) :=
  fun _ hn _ => hn

theorem Stage.Knows.subset {xs ys : List Note} (h : g.Knows p ys) (hsub : ∀ n ∈ xs, n ∈ ys) :
    g.Knows p xs := fun n hn => h n (hsub n hn)

theorem Stage.Knows.tail {n : Note} {notes : List Note} (h : g.Knows p (n :: notes)) :
    g.Knows p notes := h.subset fun _ => List.mem_cons_of_mem n

theorem Stage.Knows.all {es : List Expr} (h : g.Knows p (Expr.notesAll es)) :
    ∀ e ∈ es, g.Knows p e.notes :=
  fun e he => h.subset fun _ hn => Expr.mem_notesAll.mpr ⟨e, he, hn⟩

theorem Stage.Knows.declaration {ds : List Declaration} (h : g.Knows p (Declaration.notesAll ds)) :
    ∀ d ∈ ds, g.Knows p d.notes :=
  fun d hd => h.subset fun _ hn => List.mem_flatMap.mpr ⟨d, hd, hn⟩

/-- The variables that the code names are where it looks for them. -/
theorem Stage.Knows.sees {notes : List Note} {x : VarId} (h : g.Knows p notes) (hp : p.Sound)
    (ready : g.Ready p) (hx : .mention x ∈ notes) :
    p.Sees g.home x :=
  hp.sees g.home ready.housed x (h _ hx rfl)

/-- The object at hand, if there is one, is of the class at hand, if there is one. -/
inductive Heap.Belongs (h : Heap) : Option ObjectRef → Option ClassId → Prop
  | none : h.Belongs none none
  | some {object : ObjectRef} {c : ClassId} (hc : h.classId? object = some c) :
    h.Belongs (some object) (some c)

theorem Heap.classId?_of_objectOf? {v : Value} {object : ObjectRef}
    (hv : h.objectOf? v = some (object, c)) : h.classId? object = some c := by
  cases v with
  | object ref =>
    obtain ⟨c', hc', heq⟩ := Option.map_eq_some_iff.mp hv
    cases heq
    exact hc'
  | _ => cases hv

/-- The objects that are there keep their classes. -/
def Heap.KeepsClasses (h h' : Heap) : Prop :=
  ∀ object c, h.classId? object = some c → h'.classId? object = some c

theorem Heap.KeepsClasses.refl (h : Heap) : h.KeepsClasses h := fun _ _ hc => hc

theorem Heap.KeepsClasses.trans {h'' : Heap} (hk : h.KeepsClasses h') (hk' : h'.KeepsClasses h'') :
    h.KeepsClasses h'' :=
  fun object c hc => hk' object c (hk object c hc)

/-- What is kept keeps its class. -/
theorem Heap.Keeps.keepsClasses (hkeeps : h.Keeps h') : h.KeepsClasses h' := by
  intro ref c hc
  obtain ⟨object, hobject, rfl⟩ := Option.map_eq_some_iff.mp hc
  obtain ⟨object', hobject', halike⟩ := hkeeps.instances ref.index object hobject
  unfold Heap.classId?
  rw [hobject', Option.map_some, halike.classId]

theorem Machine.keeps_write (m : Machine σ) (place : Place) (v : Value) :
    m.heap.Keeps (m.write place v).heap := by
  unfold Machine.write
  split
  · exact .refl _
  · exact Heap.keeps_setElement _ _ _ _
  · exact Heap.keeps_setField _ _ _ _

theorem Heap.Belongs.kept {this : Option ObjectRef} {c : Option ClassId} (hb : h.Belongs this c)
    (hk : h.KeepsClasses h') : h'.Belongs this c := by
  cases hb with
  | none => exact .none
  | some hc => exact .some (hk _ _ hc)

/-- What a parameter may be bound to: a value, or, if it is one by reference, a place that the
caller can get at. -/
structure Cell.Fits (g : Stage) (v : Variable) (c : Cell) : Prop where
  value : v.storage = .argument → c.alias? = none
  place : ∀ place, c.alias? = some place → g.shape.Solid place

theorem Cell.fits_direct {v : Variable} {w : Value} : (Cell.direct w).Fits g v :=
  ⟨fun _ => rfl, fun _ hplace => by cases hplace⟩

/-- The arguments of the call fit its routine. -/
structure Stage.Callable (p : Program) (g : Stage) (call : Call) : Prop where
  routine : call.routine < p.routines.size
  args : (p.routine call.routine).params.Forall₂
    (fun x c => c.Fits g (p.symbols.variableAt x)) call.args
  object : (p.routine call.routine).classId.isSome → call.this.isSome

/-- The stage of a caller during a call: of the cells that are there, only the statics and those
that the arguments name may change. -/
def Stage.during (g : Stage) (call : Call) : Stage :=
  { g with
    writable := fun i => i < g.shape.statics ∨ g.shape.size ≤ i ∨ .alias (.slot i) ∈ call.args }

/-- The stage of the body of a call. -/
def Stage.enter (p : Program) (g : Stage) (call : Call) (inside : Option ClassId) : Stage where
  shape := g.shape.enter call.args (p.routine call.routine).localCount
  calls := g.calls.push call.this
  home := some (.routine call.routine inside)
  writable := (g.shape.enter call.args (p.routine call.routine).localCount).Reach

/-- The stage on which the fields of a new object get their first values. -/
def Stage.making (g : Stage) (c : ClassId) (object : ObjectRef) : Stage :=
  { g with calls := g.calls.push (some object), home := some (.classBody c) }

theorem Program.classDef_mem (hc : c < p.classes.size) :
    p.classDef c ∈ p.classes := by
  unfold classDef
  rw [Array.getD_eq_getD_getElem?, Array.getElem?_eq_getElem hc]
  exact Array.getElem_mem hc

/-- A number that stands for no class gives a class without methods. -/
theorem Program.lt_of_method (hr : (p.classDef c).methods[name]? = some r) :
    c < p.classes.size := by
  by_contra hc
  have hnone : p.classDef c = default := by
    unfold classDef
    rw [Array.getD_eq_getD_getElem?, Array.getElem?_eq_none (Nat.le_of_not_lt hc)]
    rfl
  have hempty : (default : ClassDef).methods = (∅ : NameIndex) := rfl
  rw [hnone, hempty] at hr
  simp at hr

theorem Program.Sound.method_lt (hp : p.Sound) (hr : (p.classDef c).methods[name]? = some r) :
    r < p.routines.size :=
  hp.inBounds.methods _ (p.classDef_mem (p.lt_of_method hr)) name r hr

/-- A method belongs to the objects of its class. -/
theorem Program.Sound.belongs_method (hp : p.Sound) {object : ObjectRef}
    (hc : h.classId? object = some c) (hr : (p.classDef c).methods[name]? = some r) :
    h.Belongs (some object) (p.routine r).classId := by
  rw [hp.methods c (p.lt_of_method hr) name r hr]
  exact .some hc

/-! ### Opening and closing a frame -/

namespace Stage

variable {p : Program} {g : Stage} {call : Call} {inside : Option ClassId} {m m' : Machine σ}

theorem Callable.fits (h : g.Callable p call) {i : Nat} {c : Cell} (hc : call.args[i]? = some c) :
    ∃ x, (p.routine call.routine).params[i]? = some x ∧ c.Fits g (p.symbols.variableAt x) := by
  obtain ⟨hi, rfl⟩ := List.getElem?_eq_some_iff.mp hc
  have hparam : i < (p.routine call.routine).params.length := h.args.length_eq ▸ hi
  exact ⟨_, List.getElem?_eq_getElem hparam, h.args.get hparam hi⟩

theorem Callable.solid (h : g.Callable p call) {place : Place} (hmem : .alias place ∈ call.args) :
    g.shape.Solid place := by
  obtain ⟨i, hi⟩ := List.getElem?_of_mem hmem
  obtain ⟨x, -, hfits⟩ := h.fits hi
  exact hfits.place place rfl

/-- What may change during a call is what the caller may change. -/
theorem Ready.writable_during (ready : g.Ready p) (h : g.Callable p call) {i : Nat}
    (hi : (g.during call).writable i) : g.writable i := by
  refine ready.writable i ?_
  rcases hi with hstatic | habove | hmem
  · exact Or.inl hstatic
  · exact Or.inr (Or.inl (Nat.le_trans ready.good.top_le habove))
  · exact (h.solid hmem).1

/-- **A call sets the stage for the body of its routine.** -/
theorem Ready.enter (ready : g.Ready p) (h : g.Callable p call)
    (haround : p.Around call.routine inside) : (g.enter p call inside).Ready p where
  good := ready.good.enter fun i hi => (h.solid hi).2
  statics := ready.statics
  housed := ⟨h.routine, haround⟩
  outermost := nofun
  frame := by
    rintro r ⟨⟩
    have hcount := h.args.length_eq
    refine ⟨?_, ?_, fun i hi => Shape.direct_enter_local hi, fun i x hx hvalue => ?_,
      List.cons_ne_nil _ _⟩
    · show g.shape.size + (p.routine call.routine).params.length = g.shape.size + call.args.length
      omega
    · exact Nat.le_of_eq Shape.size_enter.symm
    · have hi : i < call.args.length := hcount ▸ (List.getElem?_eq_some_iff.mp hx).1
      obtain ⟨y, hy, hfits⟩ := h.fits (List.getElem?_eq_getElem hi)
      obtain rfl : x = y := Option.some.inj (hx.symm.trans hy)
      show (g.shape.enter call.args _).aliases[g.shape.size + call.args.length - (i + 1)]? = _
      rw [Shape.aliases_enter_arg hi, List.getElem?_eq_getElem hi, Option.map_some,
        hfits.value hvalue]
  object := by
    intro hunnested c hc
    obtain rfl : inside = some c := hc
    have hclass := hunnested call.routine h.routine c haround
    have hthis := h.object (by rw [hclass]; rfl)
    simpa [Stage.this?, Stage.enter] using hthis
  writable := fun _ hi => hi

theorem at_enter (ready : g.Ready p) (hm : m.At g) :
    (m.enter call.this call.args (p.routine call.routine).localCount).At (g.enter p call inside) where
  shape := by
    rw [Machine.shape_enter, hm.shape]
    · rfl
    · rw [← Stack.size_shape, hm.shape]
      have hstatics : m.stack.statics = g.shape.statics := congrArg Shape.statics hm.shape
      rw [hstatics]
      exact ready.good.statics
  calls := by
    show m.calls.push call.this = g.calls.push call.this
    rw [hm.calls]

/-- **What the body of a call kept, the call keeps for its caller.** -/
theorem Keeps.leave (hm : m.At g)
    (hk : (g.enter p call inside).Keeps p
      (m.enter call.this call.args (p.routine call.routine).localCount) m') :
    (g.during call).Keeps p m m'.leave where
  stays := by
    refine ⟨Stack.shape_popFrame hk.stays.shape, ?_⟩
    show m'.calls.pop = g.calls
    rw [hk.stays.calls]
    exact Array.pop_push
  cells := by
    intro i hi
    have hlt : i < g.shape.size := by
      by_contra hge
      exact hi (Or.inr (Or.inl (Nat.le_of_not_lt hge)))
    have hbody := hk.cells i fun hreach => hi (Shape.reach_enter hreach)
    have hsize : i < m.stack.size := by
      rw [← Stack.size_shape, hm.shape]
      exact hlt
    exact (Stack.cells_popFrame hk.stays.shape hlt).trans
      (hbody.trans (Machine.cells_enter hsize))
  problems := hk.problems

theorem Ready.making (ready : g.Ready p) (hc : c < p.classes.size) (object : ObjectRef) :
    (g.making c object).Ready p where
  good := ready.good
  statics := ready.statics
  housed := hc
  outermost := nofun
  frame := fun _ hr => by cases hr
  object := fun _ _ _ => by simp [Stage.this?, Stage.making]
  writable := ready.writable

end Stage

end Primer
