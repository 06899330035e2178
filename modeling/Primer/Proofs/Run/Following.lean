/-
One run follows another.

Two runs of a program may differ in what their hosts keep besides, and in how they come to an end
when they are interrupted.  Up to there they go step by step: they give the same results, their
states are the same, and the frames that are open before a step are open after it.  As with
contracts, there is one rule for each way of putting steps together and one lemma for each function
that runs a part of a program.
-/
import Primer.Proofs.Run.Session

namespace Primer

variable {m m' : Machine σ}

/-- The machine as another host sees it. -/
def Machine.via (link : Outside σ → Outside τ) (m : Machine σ) : Machine τ where
  stack := m.stack
  heap := m.heap
  calls := m.calls
  problems := m.problems
  stopReported := m.stopReported
  misses := m.misses
  outside := link m.outside

theorem Machine.turnTo_via (link : Outside σ → Outside τ) (m : Machine σ) (place : Place) :
    (m.via link).turnTo place = (m.turnTo place).via link := by
  have hread : (m.via link).read? place = m.read? place := rfl
  unfold turnTo
  rw [hread]
  split <;> rfl

theorem Machine.write_via (link : Outside σ → Outside τ) (m : Machine σ) (place : Place) (v : Value) :
    (m.via link).write place v = (m.write place v).via link := by
  have htarget : (m.via link).stack.target place = m.stack.target place := rfl
  unfold write
  rw [htarget]
  cases m.stack.target place <;> rfl

/-- The frame that a call opens is the one that it closes. -/
theorem Machine.frames_leave {this : Option ObjectRef} {args : List Cell} {locals : Nat}
    (h : m'.stack.frames = (m.enter this args locals).stack.frames) :
    m'.stack.frames ≠ [] ∧ m'.leave.stack.frames = m.stack.frames := by
  simp only [Machine.enter, Stack.foldl_push, Stack.pushFrame] at h
  refine ⟨by rw [h]; exact List.cons_ne_nil _ _, ?_⟩
  simp only [Machine.leave, Stack.popFrame, h]

/-- A step leads from the one machine to the other: the same frames are open, and no problem is
forgotten. -/
structure Machine.Continues (m m' : Machine σ) : Prop where
  frames : m'.stack.frames = m.stack.frames
  problems : ∀ q ∈ m.problems, q ∈ m'.problems

namespace Machine.Continues

variable {m m' m'' : Machine σ}

theorem of_eq (hframes : m'.stack.frames = m.stack.frames) (hproblems : m'.problems = m.problems) :
    m.Continues m' := ⟨hframes, fun _ hq => hproblems ▸ hq⟩

theorem refl (m : Machine σ) : m.Continues m := of_eq rfl rfl

theorem trans (h : m.Continues m') (h' : m'.Continues m'') : m.Continues m'' :=
  ⟨h'.frames.trans h.frames, fun q hq => h'.problems q (h.problems q hq)⟩

theorem report (m : Machine σ) (problem : Machine.Problem) (span : Span) :
    m.Continues (m.report problem span) := ⟨rfl, fun _ hq => Array.mem_push_of_mem _ hq⟩

theorem turnTo (m : Machine σ) (place : Place) : m.Continues (m.turnTo place) := by
  obtain ⟨n, hn⟩ := m.turnTo_eq place
  rw [hn]
  exact .of_eq rfl rfl

theorem write (m : Machine σ) (place : Place) (v : Value) : m.Continues (m.write place v) := by
  unfold Machine.write
  split <;> exact .of_eq rfl rfl

end Machine.Continues

/-- How the states of two runs correspond. -/
structure Likeness (σ τ : Type) where
  link : Outside σ → Outside τ
  /-- What may be left of the two runs when they are interrupted. -/
  Left : Machine σ → Machine τ → Prop
  /-- When the first run has recorded such a problem, the runs may go different ways. -/
  Parts : Machine.Problem → Prop := fun _ => False
  stop : ∀ o, (link o).stop = o.stop
  left : ∀ m, Left m (m.via link)
  problems : ∀ {m m'}, Left m m' → m'.problems = m.problems
  handed : ∀ {m m'}, Left m m' → Left { m with problems := #[] } { m' with problems := #[] }

theorem Outside.stop_id (o : Outside σ) : (id o).stop = o.stop := rfl

/-- The first run has recorded a problem after which the runs may go different ways. -/
def Likeness.Parted (L : Likeness σ τ) (m : Machine σ) : Prop := ∃ q ∈ m.problems, L.Parts q.1

theorem Likeness.Parted.continues {L : Likeness σ τ} (h : L.Parted m) (hm : m.Continues m') :
    L.Parted m' := by
  obtain ⟨q, hq, hparts⟩ := h
  exact ⟨q, hm.problems q hq, hparts⟩

/-- The hosts do the same. -/
structure Host.Alike (L : Likeness σ τ) (host : Host σ) (other : Host τ) : Prop where
  readLine : ∀ o, other.readLine (L.link o) = ((host.readLine o).1, L.link (host.readLine o).2)
  writeLine : ∀ line o, other.writeLine line (L.link o) = L.link (host.writeLine line o)
  invoke : ∀ name args heap o, other.invoke name args heap (L.link o) =
    ((host.invoke name args heap o).1, (host.invoke name args heap o).2.1,
      L.link (host.invoke name args heap o).2.2)

/-- The settings are the same, or what the first run may not do, and the second may, parts them. -/
structure Settings.Alike (Parts : Machine.Problem → Prop) (settings other : Settings) : Prop where
  autoMain : other.autoMain = settings.autoMain
  calls : other.callDepth = settings.callDepth ∨ settings.callDepth ≤ other.callDepth ∧
    ∀ name, Parts (.callDepth settings.callDepth name)
  arrays : other.arrayElements = settings.arrayElements ∨
    settings.arrayElements ≤ other.arrayElements ∧
      ∀ name, Parts (.oversizedArray name settings.arrayElements)

theorem Settings.alike_self {Parts : Machine.Problem → Prop} (settings : Settings) :
    settings.Alike Parts settings := ⟨rfl, Or.inl rfl, Or.inl rfl⟩

/-- The same program with other settings and another host. -/
def Engine.hosted (engine : Engine σ) (settings : Settings) (host : Host τ) : Engine τ :=
  ⟨engine.program, settings, host⟩

/-- The machine that a step ends in. -/
def Run.final : EStateM.Result Interrupt (Machine σ) α → Machine σ
  | .ok _ m => m
  | .error _ m => m

/-- The results of a step that was begun in the machine `start`. -/
inductive Likeness.Same (L : Likeness σ τ) (start : Machine σ) :
    EStateM.Result Interrupt (Machine σ) α → EStateM.Result Interrupt (Machine τ) α → Prop
  | ok (a : α) {m : Machine σ} (hm : start.Continues m) : Same L start (.ok a m) (.ok a (m.via L.link))
  | error (e : Interrupt) {m : Machine σ} {m' : Machine τ} (hm : start.Continues m)
      (hleft : L.Left m m') : Same L start (.error e m) (.error e m')
  | parted {r : EStateM.Result Interrupt (Machine σ) α} {r' : EStateM.Result Interrupt (Machine τ) α}
      (hm : start.Continues (Run.final r)) (hparted : L.Parted (Run.final r)) : Same L start r r'

namespace Likeness.Same

variable {L : Likeness σ τ} {start m : Machine σ} {r : EStateM.Result Interrupt (Machine σ) α}
  {r' : EStateM.Result Interrupt (Machine τ) α}

theorem cases (h : L.Same start r r') :
    (∃ a m, r = .ok a m ∧ r' = .ok a (m.via L.link) ∧ start.Continues m) ∨
      (∃ e m m', r = .error e m ∧ r' = .error e m' ∧ start.Continues m ∧ L.Left m m') ∨
        start.Continues (Run.final r) ∧ L.Parted (Run.final r) := by
  cases h with
  | ok a hm => exact Or.inl ⟨a, _, rfl, rfl, hm⟩
  | error e hm hleft => exact Or.inr (Or.inl ⟨e, _, _, rfl, rfl, hm, hleft⟩)
  | parted hm hparted => exact Or.inr (Or.inr ⟨hm, hparted⟩)

theorem continues (h : L.Same start r r') : start.Continues (Run.final r) := by
  cases h with
  | ok a hm => exact hm
  | error e hm hleft => exact hm
  | parted hm hparted => exact hm

theorem of_continues (h : L.Same m r r') (hm : start.Continues m) : L.Same start r r' := by
  cases h with
  | ok a hm' => exact .ok a (hm.trans hm')
  | error e hm' hleft => exact .error e (hm.trans hm') hleft
  | parted hm' hparted => exact .parted (hm.trans hm') hparted

end Likeness.Same

/-- What the two runs came to is the same. -/
structure Likeness.Ends (L : Likeness σ τ) (a : Outcome × Machine σ) (b : Outcome × Machine τ) :
    Prop where
  outcome : b.1 = a.1
  left : L.Left a.2 b.2

/-- What a run came to tells of a problem after which the runs may have gone different ways. -/
def Likeness.PartedIn (L : Likeness σ τ) (o : Outcome) : Prop := ∃ q ∈ o.problems, L.Parts q.1

/-- The one step does what the other does. -/
def Follows (L : Likeness σ τ) (x : Run σ α) (y : Run τ α) : Prop :=
  ∀ m, L.Same m (x m) (y (m.via L.link))

structure Inner.Follows (L : Likeness σ τ) (inner : Inner σ) (plain : Inner τ) : Prop where
  eval : ∀ e, Primer.Follows L (inner.eval e) (plain.eval e)
  exec : ∀ s, Primer.Follows L (inner.exec s) (plain.exec s)
  run : ∀ call, Primer.Follows L (inner.run call) (plain.run call)

namespace Follows

variable {α β : Type} {L : Likeness σ τ} {x : Run σ α} {y : Run τ α} {span : Span}
  {problem : Machine.Problem} {v : Value} {place : Place}

theorem pure {a : α} : Follows L (Pure.pure a : Run σ α) (Pure.pure a) := fun m => .ok a (.refl m)

theorem throw {e : Interrupt} :
    Follows L (MonadExcept.throw e : Run σ α) (MonadExcept.throw e) := fun m =>
  .error e (.refl m) (L.left m)

theorem bind {f : α → Run σ β} {k : α → Run τ β} (hx : Follows L x y)
    (hf : ∀ a, Follows L (f a) (k a)) : Follows L (x >>= f) (y >>= k) := by
  intro m
  rcases (hx m).cases with ⟨a, m', hxm, hym, hm⟩ | ⟨e, m', n', hxm, hym, hm, hleft⟩ | ⟨hm, hparted⟩
  · rw [Run.bind_of_ok hxm, Run.bind_of_ok hym]
    exact (hf a m').of_continues hm
  · rw [Run.bind_of_error hxm, Run.bind_of_error hym]
    exact .error e hm hleft
  · -- The runs have parted, and what the first one does from here on does not undo it.
    cases hxm : x m with
    | ok a m' =>
      rw [hxm] at hm hparted
      rw [Run.bind_of_ok hxm]
      have hrest := (hf a m').continues
      exact .parted (hm.trans hrest) (hparted.continues hrest)
    | error e m' =>
      rw [hxm] at hm hparted
      rw [Run.bind_of_error hxm]
      exact .parted hm hparted

theorem map {f : α → β} (hx : Follows L x y) : Follows L (f <$> x) (f <$> y) :=
  hx.bind (f := fun a => Pure.pure (f a)) (k := fun a => Pure.pure (f a)) fun _ => pure

theorem discard (hx : Follows L x y) : Follows L (Functor.discard x) (Functor.discard y) := hx.map

theorem look {f : Machine σ → α} {k : Machine τ → α} (h : ∀ m, f m = k (m.via L.link)) :
    Follows L (Run.look f) (Run.look k) := fun m => by
  simp only [Run.look, ← h m]
  exact .ok (f m) (.refl m)

theorem updateGet {f : Machine σ → α × Machine σ} {k : Machine τ → α × Machine τ}
    (hcontinues : ∀ m : Machine σ, m.Continues (f m).2)
    (h : ∀ m, k (m.via L.link) = ((f m).1, (f m).2.via L.link)) :
    Follows L (modifyGet f) (modifyGet k) := fun m => by
  show L.Same _ (.ok (f m).1 (f m).2) (.ok (k (m.via L.link)).1 (k (m.via L.link)).2)
  rw [h m]
  exact .ok _ (hcontinues m)

theorem update {f : Machine σ → Machine σ} {k : Machine τ → Machine τ}
    (hcontinues : ∀ m : Machine σ, m.Continues (f m))
    (h : ∀ m, k (m.via L.link) = (f m).via L.link) : Follows L (modify f) (modify k) :=
  updateGet hcontinues fun m => congrArg (Prod.mk ()) (h m)

theorem ite {c : Prop} [Decidable c] {x' : Run σ α} {y' : Run τ α} (hx : Follows L x y)
    (hx' : Follows L x' y') : Follows L (if c then x else x') (if c then y else y') := by
  split
  · exact hx
  · exact hx'

theorem forM {xs : List β} {f : β → Run σ Unit} {k : β → Run τ Unit}
    (h : ∀ b, Follows L (f b) (k b)) : Follows L (xs.forM f) (xs.forM k) := by
  induction xs with
  | nil => exact pure
  | cons b rest ih => exact (h b).bind fun _ => ih

theorem mapM {xs : List β} {f : β → Run σ α} {k : β → Run τ α}
    (h : ∀ b, Follows L (f b) (k b)) : Follows L (xs.mapM f) (xs.mapM k) := by
  induction xs with
  | nil => exact pure
  | cons b rest ih =>
    rw [List.mapM_cons, List.mapM_cons]
    exact (h b).bind fun _ => ih.bind fun _ => pure

theorem loop {turn : α → Run σ (Engine.Turn α)} {turn' : α → Run τ (Engine.Turn α)}
    (h : ∀ a, Follows L (turn a) (turn' a)) (turns : Nat) (a : α) :
    Follows L (Engine.loop turn turns a) (Engine.loop turn' turns a) := by
  induction turns generalizing a with
  | zero => exact throw
  | succ turns ih =>
    refine (h a).bind fun outcome => ?_
    cases outcome with
    | again b => exact ih b
    | done signal => exact pure

/-! ### Steps of the machine -/

theorem report :
    Follows L (Run.report problem span) (Run.report problem span) :=
  update (fun m => .report m problem span) fun _ => rfl

theorem fatal :
    Follows L (Run.fatal problem span : Run σ α) (Run.fatal problem span) :=
  report.bind fun _ => throw

theorem orElse {fallback : α} (r : Except ValueError α) :
    Follows L (Run.orElse fallback span r : Run σ α) (Run.orElse fallback span r) := by
  cases r with
  | ok a => exact pure
  | error e => exact report.bind fun _ => pure

theorem coerce {kind : Kind} :
    Follows L (Run.coerce v kind span) (Run.coerce v kind span) := orElse _

theorem heedHost : Follows L (Run.heedHost span) (Run.heedHost span) := by
  unfold Run.heedHost
  refine bind (look fun m => (L.stop m.outside).symm) fun wanted => ?_
  refine ite (bind (look fun _ => rfl) fun reported => ?_) pure
  exact ite throw (bind (update (fun _ => .of_eq rfl rfl) fun _ => rfl) fun _ => fatal)

theorem placeOf {v : Variable} :
    Follows L (Run.placeOf v span) (Run.placeOf v span) := by
  unfold Run.placeOf
  refine bind (look fun _ => rfl) fun found => ?_
  cases found with
  | ok place => exact pure
  | error problem => exact fatal

theorem load : Follows L (Run.load place) (Run.load place) := by
  refine updateGet (fun m => ?_) fun m => ?_
  · exact .turnTo m place
  · exact Prod.ext rfl (m.turnTo_via L.link place)

theorem store : Follows L (Run.store place v) (Run.store place v) := by
  refine update (fun m => (Machine.Continues.turnTo m place).trans ?_) fun m => ?_
  · exact .write _ place v
  · rw [m.turnTo_via, Machine.write_via]

end Follows

/-! ### Places, declarations and calls -/

namespace Engine

/-- Make an object, with `fields` to give its fields their first values. -/
def constructBy (engine : Engine σ) (fields : ClassDef → ObjectRef → Run σ Unit) (inner : Inner σ)
    (className : String) (args : List Expr) (span : Span) : Run σ Value := do
  match engine.program.classIndex[className]? with
  | none =>
    Run.report (.noClass className) span
    pure .null
  | some id =>
    let classDef := engine.program.classDef id
    let object ← newInstance id classDef
    fields classDef object
    if let some constructor := classDef.constructor then
      discard (engine.invoke inner constructor (some object) args span)
    pure (.object object)

/-- The value of an expression, with `fields` to give the fields of new objects their first
values. -/
def evaluateBy (engine : Engine σ) (fields : ClassDef → ObjectRef → Run σ Unit) (inner : Inner σ) :
    Expr → Run σ Value
  | .new className args span => engine.constructBy fields inner className args span
  | e => engine.evaluate inner e

theorem evaluateBy_initialFields (engine : Engine σ) (inner : Inner σ) :
    engine.evaluateBy (engine.initialFields inner) inner = engine.evaluate inner := by
  funext e
  cases e <;> rfl

theorem program_hosted (engine : Engine σ) (settings : Settings) (host : Host τ) :
    (engine.hosted settings host).program = engine.program := rfl

variable {engine : Engine σ} {settings : Settings} {other : Host τ} {L : Likeness σ τ}
  {inner : Inner σ} {plain : Inner τ} (h : inner.Follows L plain) {span : Span} {body : Block Stmt}
  {args : List Expr} {position : Nat} {name : String} {v : Variable} {kind : Kind} {turns : Nat}
  {d : Declaration} {ref : ArrayRef} {routine : Routine} {params : List VarId}
  {condition target : Expr} {c : Count} {step subject : Value} {otherwise : Option (Block Stmt)}

include h

theorem index_follows (e : Expr) : Follows L (index inner e) (index plain e) :=
  (h.eval e).bind fun _ => .orElse _

theorem test_follows (e : Expr) : Follows L (test inner e) (test plain e) := by
  refine (h.eval e).bind fun v => ?_
  cases v with
  | boolean b => exact .pure
  | _ => exact .ite (Follows.report.bind fun _ => .pure) .pure

omit h in
theorem element_follows {indices : List Int64} :
    Follows L (element ref indices span) (element ref indices span) := by
  refine .bind (.look fun _ => rfl) fun grid => ?_
  refine .ite (Follows.report.bind fun _ => .pure) ?_
  exact (Follows.forM fun _ => .report).bind fun _ => .pure

omit h in
theorem fieldOf_follows {ref : ObjectRef} {c : ClassId} :
    Follows L (engine.fieldOf ref c name span)
      ((engine.hosted settings other).fieldOf ref c name span) := by
  unfold fieldOf
  simp only [program_hosted]
  split
  · exact .pure
  · exact Follows.report.bind fun _ => .pure

theorem place_follows : ∀ e : Expr,
    Follows L (engine.place inner e) ((engine.hosted settings other).place plain e)
  | .variableRef id _ span => by
    rw [place, place]
    exact Follows.placeOf.bind fun _ => .pure
  | .index base indices span => by
    rw [place, place]
    refine (h.eval base).bind fun container => ?_
    refine (Follows.mapM fun e => index_follows h e).bind fun _ => ?_
    cases container with
    | array ref => exact element_follows
    | _ => exact Follows.report.bind fun _ => .pure
  | .field object name span => by
    rw [place, place]
    refine (h.eval object).bind fun container => .bind (.look fun _ => rfl) fun found => ?_
    cases found with
    | some found => exact fieldOf_follows
    | none => exact Follows.report.bind fun _ => .pure
  | .grouping e _ => by
    rw [place, place]
    exact place_follows e
  | .literal .. | .binary .. | .logical .. | .unary .. | .call .. | .methodCall .. | .new ..
  | .invalid _ => .pure

theorem extent_follows (e : Expr) : Follows L (extent inner e) (extent plain e) := by
  refine (h.eval e).bind fun v => (Follows.orElse _).bind fun size => ?_
  exact .ite (Follows.report.bind fun _ => .pure) .pure

theorem fillFrom_follows {cells : Array Value} {values : List Expr} :
    Follows L (fillFrom inner kind position cells values)
      (fillFrom plain kind position cells values) := by
  induction values generalizing position cells with
  | nil => exact .pure
  | cons e rest ih =>
    rw [fillFrom, fillFrom]
    exact (h.eval e).bind fun v => .ite (Follows.coerce.bind fun _ => ih) ih

omit h in
theorem newArray_follows {grid : Grid} : Follows L (newArray grid) (newArray grid) :=
  .updateGet (fun _ => .of_eq rfl rfl) fun _ => rfl

/-- The sizes of an array are the same, unless the first run reports that it is too large. -/
theorem extents_follows (hsettings : engine.settings.Alike L.Parts settings) :
    Follows L (engine.extents inner v d) ((engine.hosted settings other).extents plain v d) := by
  refine (Follows.mapM fun e => extent_follows h e).bind fun asked => ?_
  have hreport : Follows L
      (do Run.report (.oversizedArray v.name engine.settings.arrayElements) d.span
          pure (asked.map fun _ => 0))
      (do Run.report (.oversizedArray v.name engine.settings.arrayElements) d.span
          pure (asked.map fun _ => 0)) := Follows.report.bind fun _ => .pure
  rcases hsettings.arrays with heq | ⟨hle, hparts⟩
  · have hallows : (engine.hosted settings other).allows asked = engine.allows asked := by
      unfold allows hosted
      rw [heq]
    rw [hallows]
    show Follows L (if engine.allows asked then _ else _) (if engine.allows asked then _ else _)
    refine .ite .pure ?_
    rw [show (engine.hosted settings other).settings = settings from rfl, heq]
    exact hreport
  · by_cases hallows : engine.allows asked
    · have hallows' : (engine.hosted settings other).allows asked := by
        unfold allows at hallows ⊢
        split at hallows
        · exact decide_eq_true (Nat.le_trans (of_decide_eq_true hallows) hle)
        · cases hallows
      rw [if_pos hallows, if_pos hallows']
      exact .pure
    · rw [if_neg hallows]
      intro m
      refine .parted (.report m _ d.span) ⟨_, Array.mem_push_self, hparts v.name⟩

theorem arrayValue_follows (hsettings : engine.settings.Alike L.Parts settings) :
    Follows L (engine.arrayValue inner v d) ((engine.hosted settings other).arrayValue plain v d) := by
  refine (extents_follows h hsettings).bind fun extents => ?_
  cases d.init with
  | none => exact newArray_follows
  | some init =>
    cases init with
    | one e => exact (h.eval e).bind fun _ => .coerce
    | list items =>
      refine .ite (Follows.report.bind fun _ => ?_) ?_ <;>
        exact (fillFrom_follows h).bind fun _ => newArray_follows

theorem scalarValue_follows :
    Follows L (scalarValue inner v d) (scalarValue plain v d) := by
  unfold scalarValue
  split
  · exact (h.eval _).bind fun _ => .coerce
  · exact .pure

theorem declare_follows (hsettings : engine.settings.Alike L.Parts settings) (d : Declaration) :
    Follows L (engine.declare inner d) ((engine.hosted settings other).declare plain d) := by
  refine Follows.placeOf.bind fun place => ?_
  exact .ite ((arrayValue_follows h hsettings).bind fun _ => .store)
    ((scalarValue_follows h).bind fun _ => .store)

theorem statements_follows (statements : List Stmt) :
    Follows L (Engine.statements inner statements) (Engine.statements plain statements) := by
  induction statements with
  | nil => exact .pure
  | cons s rest ih =>
    refine (h.exec s).bind fun signal => ?_
    cases signal with
    | next => exact ih
    | _ => exact .pure

theorem block_follows (b : Block Stmt) : Follows L (block inner b) (block plain b) :=
  statements_follows h b.statements

omit h in
theorem resultOf_follows (routine : Routine) (span : Span) (signal : Signal) :
    Follows L (resultOf routine span signal)
      (resultOf routine span signal) := by
  unfold resultOf
  split
  · split
    · exact .coerce
    · exact .pure
  · exact .pure

theorem byValue_follows {arg : Expr} :
    Follows L (byValue inner kind arg) (byValue plain kind arg) :=
  (h.eval arg).bind fun _ => Follows.coerce.bind fun _ => .pure

theorem bindArgument_follows {arg : Option Expr} :
    Follows L (engine.bindArgument inner routine position v arg)
      ((engine.hosted settings other).bindArgument plain routine position v arg) := by
  cases arg with
  | none => exact .pure
  | some e =>
    refine .ite ((place_follows h e).bind fun found => ?_) (byValue_follows h)
    cases found with
    | some found => exact .pure
    | none => exact .ite (Follows.report.bind fun _ => byValue_follows h) (byValue_follows h)

theorem bindFrom_follows :
    Follows L (engine.bindFrom inner routine position params args)
      ((engine.hosted settings other).bindFrom plain routine position params args) := by
  induction params generalizing position args with
  | nil =>
    rw [bindFrom, bindFrom]
    exact (Follows.forM fun e => (h.eval e).discard).bind fun _ => .pure
  | cons x params ih =>
    rw [bindFrom, bindFrom]
    exact (bindArgument_follows h).bind fun _ => ih.bind fun _ => .pure

theorem invoke_follows {id : RoutineId} {this : Option ObjectRef} :
    Follows L (engine.invoke inner id this args span)
      ((engine.hosted settings other).invoke plain id this args span) := by
  refine .ite (Follows.report.bind fun _ => ?_) ?_ <;>
    exact (bindFrom_follows h).bind fun _ => h.run _

omit h in
theorem invokeOutside_follows (hhost : engine.host.Alike L other) {args : List Value} :
    Follows L (engine.invokeOutside name args span)
      ((engine.hosted settings other).invokeOutside name args span) := by
  unfold invokeOutside invokeBuiltin invokeHost
  split
  · refine .bind (.look fun _ => rfl) fun answer => ?_
    cases answer with
    | ok v => exact .pure
    | error e => exact Follows.report.bind fun _ => .pure
  · refine .bind (.updateGet (fun _ => .of_eq rfl rfl) fun m => ?_) fun answer => ?_
    · have hanswer := hhost.invoke name args m.heap m.outside
      simp only [Machine.via, hosted, hanswer]
    · cases answer with
      | some v => exact .pure
      | none => exact Follows.report.bind fun _ => .pure

theorem callByName_follows (hhost : engine.host.Alike L other) :
    Follows L (engine.callByName inner name args span)
      ((engine.hosted settings other).callByName plain name args span) := by
  refine .bind (.look fun _ => rfl) fun found => ?_
  cases found with
  | some found => exact invoke_follows h
  | none =>
    simp only [program_hosted]
    split
    · exact invoke_follows h
    · exact (Follows.mapM fun e => h.eval e).bind fun _ => invokeOutside_follows hhost

theorem callMethod_follows {object : Expr} :
    Follows L (engine.callMethod inner object name args span)
      ((engine.hosted settings other).callMethod plain object name args span) := by
  refine (h.eval object).bind fun receiver => .bind (.look fun _ => rfl) fun found => ?_
  split
  · simp only [program_hosted]
    split
    · exact invoke_follows h
    · exact Follows.report.bind fun _ => .pure
  · exact Follows.report.bind fun _ => .pure

/-- The fields of a new object get their first values, and what is left of an interruption stays
alike when the object is no longer being made. -/
theorem initialFields_follows (hsettings : engine.settings.Alike L.Parts settings) (other : Host τ)
    {classDef : ClassDef} {object : ObjectRef} {y : Run τ Unit}
    (hok : ∀ m m', classDef.fieldDeclarations.forM ((engine.hosted settings other).declare plain)
      (m.making object) = .ok () m' → y m = .ok () m'.made)
    (herror : ∀ m n n' e, classDef.fieldDeclarations.forM
      ((engine.hosted settings other).declare plain) (m.making object) = .error e n' → L.Left n n' →
        ∃ left, y m = .error e left ∧ L.Left n.made left) :
    Follows L (engine.initialFields inner classDef object) y := by
  intro m
  have hfields : Follows L (classDef.fieldDeclarations.forM (engine.declare inner))
      (classDef.fieldDeclarations.forM ((engine.hosted settings other).declare plain)) :=
    .forM (declare_follows h hsettings)
  -- An object that is no longer being made leaves frames and problems as they are.
  have hmade : ∀ {m' : Machine σ}, (m.making object).Continues m' → m.Continues m'.made :=
    fun hm => ⟨hm.frames, hm.problems⟩
  rcases (hfields (m.making object)).cases with
    ⟨a, m', hxm, hym, hm⟩ | ⟨e, m', n', hxm, hym, hm, hleft⟩ | ⟨hm, hparted⟩
  · rw [initialFields_of_ok hxm, hok (m.via L.link) (m'.via L.link) hym]
    exact .ok (m := m'.made) () (hmade hm)
  · obtain ⟨left, hy, hleft⟩ := herror (m.via L.link) m' n' e hym hleft
    rw [initialFields_of_error hxm, hy]
    exact .error e (hmade hm) hleft
  · cases hxm : classDef.fieldDeclarations.forM (engine.declare inner) (m.making object) with
    | ok a m' =>
      rw [hxm] at hm hparted
      rw [initialFields_of_ok hxm]
      exact .parted (hmade hm) hparted
    | error e m' =>
      rw [hxm] at hm hparted
      rw [initialFields_of_error hxm]
      exact .parted (hmade hm) hparted

theorem constructBy_follows {fields : ClassDef → ObjectRef → Run τ Unit}
    (hfields : ∀ classDef object, Follows L (engine.initialFields inner classDef object)
      (fields classDef object)) {className : String} :
    Follows L (engine.construct inner className args span)
      ((engine.hosted settings other).constructBy fields plain className args span) := by
  unfold construct constructBy
  simp only [program_hosted]
  cases engine.program.classIndex[className]? with
  | none => exact Follows.report.bind fun _ => .pure
  | some id =>
    have hnew : Follows L (newInstance id (engine.program.classDef id))
        (newInstance id (engine.program.classDef id)) := .updateGet (fun _ => .of_eq rfl rfl) fun _ => rfl
    refine hnew.bind fun object => (hfields _ object).bind fun _ => ?_
    cases (engine.program.classDef id).constructor with
    | some r => exact (invoke_follows h).discard.bind fun _ => .pure
    | none => exact .pure

/-! ### Expressions and loops -/

theorem valueAt_follows {e : Expr} :
    Follows L (engine.valueAt inner e) ((engine.hosted settings other).valueAt plain e) := by
  refine (place_follows h e).bind fun found => ?_
  cases found with
  | some found => exact .load
  | none => exact .pure

theorem logical_follows {op : LogicalOp} {left right : Expr} :
    Follows L (logical inner op left right) (logical plain op left right) := by
  refine (test_follows h left).bind fun first => ?_
  split
  · exact .pure
  · exact .pure
  · exact test_follows h right

theorem evaluateBy_follows (hhost : engine.host.Alike L other)
    {fields : ClassDef → ObjectRef → Run τ Unit}
    (hfields : ∀ classDef object, Follows L (engine.initialFields inner classDef object)
      (fields classDef object)) (e : Expr) :
    Follows L (engine.evaluate inner e) ((engine.hosted settings other).evaluateBy fields plain e) := by
  cases e with
  | literal v span => exact .pure
  | variableRef id name span => exact valueAt_follows h
  | index base indices span => exact valueAt_follows h
  | field object name span => exact valueAt_follows h
  | binary op left right span =>
    exact (h.eval left).bind fun _ => (h.eval right).bind fun _ => .orElse _
  | logical op left right span => exact (logical_follows h).bind fun _ => .pure
  | unary op operand span => exact (h.eval operand).bind fun _ => .orElse _
  | call name args span => exact callByName_follows h hhost
  | methodCall object name args span => exact callMethod_follows h
  | new className args span => exact constructBy_follows h hfields
  | grouping e span => exact h.eval e
  | invalid span => exact .pure

theorem bodyOnce_follows :
    Follows L (bodyOnce inner body span) (bodyOnce plain body span) := by
  refine (block_follows h body).bind fun signal => ?_
  cases signal with
  | next => exact Follows.heedHost.bind fun _ => .pure
  | continueLoop => exact Follows.heedHost.bind fun _ => .pure
  | breakLoop => exact .pure
  | returned v => exact .pure

/-- What follows the body of a loop, which may end it. -/
theorem bodyOnce_bind_follows {α : Type} {next : Run σ (Turn α)} {next' : Run τ (Turn α)}
    (hnext : Follows L next next') :
    Follows L
      (do
        match ← bodyOnce inner body span with
        | some signal => pure (.done signal)
        | none => next)
      (do
        match ← bodyOnce plain body span with
        | some signal => pure (.done signal)
        | none => next') := by
  refine (bodyOnce_follows h).bind fun ending => ?_
  cases ending with
  | some signal => exact .pure
  | none => exact hnext

theorem whileLoop_follows :
    Follows L (whileLoop inner turns condition body) (whileLoop plain turns condition body) := by
  refine .loop (fun _ => (test_follows h condition).bind fun holds => ?_) turns ()
  exact .ite (bodyOnce_bind_follows h .pure) .pure

theorem doLoop_follows {exit : Bool} :
    Follows L (doLoop inner turns body condition exit) (doLoop plain turns body condition exit) := by
  refine .loop (fun _ => bodyOnce_bind_follows h ?_) turns ()
  exact (test_follows h condition).bind fun _ => .ite .pure .pure

omit h in
theorem advance_follows :
    Follows L (c.advance span) (c.advance span) := by
  refine Follows.load.bind fun current => ?_
  split
  · refine Follows.coerce.bind fun next => ?_
    split
    · exact .bind (.look fun _ => rfl) fun _ => Follows.report.bind fun _ => .pure
    · exact Follows.store.bind fun _ => .pure
  · exact Follows.report.bind fun _ => .pure

theorem forTurn_follows :
    Follows L (forTurn inner c body span) (forTurn plain c body span) := by
  refine Follows.load.bind fun current => (Follows.orElse _).bind fun finished => .ite .pure ?_
  exact bodyOnce_bind_follows h (advance_follows.bind fun _ => .ite .pure .pure)

omit h in
theorem direction_follows :
    Follows L (direction? step span) (direction? step span) := by
  unfold direction?
  split
  · exact .pure
  · exact .pure
  · exact Follows.report.bind fun _ => .pure
  · exact Follows.report.bind fun _ => .pure

omit h in
theorem stepFits_follows :
    Follows L (stepFits kind step span) (stepFits kind step span) := by
  unfold stepFits
  split
  · exact .ite (Follows.report.bind fun _ => .pure) .pure
  · exact .pure

theorem forLoop_follows {counter start stop : Expr} {step : Option Expr} :
    Follows L (engine.forLoop inner turns counter start stop step body span)
      ((engine.hosted settings other).forLoop plain turns counter start stop step body span) := by
  unfold forLoop
  refine (h.eval start).bind fun first => (h.eval stop).bind fun last => ?_
  extract_lets count count'
  have hcount : ∀ step, Follows L (count step) (count' step) := by
    intro step
    refine (place_follows h counter).bind fun found => ?_
    cases found with
    | none => exact .pure
    | some found =>
      refine direction_follows.bind fun direction => ?_
      cases direction with
      | none => exact .pure
      | some ascending =>
        refine stepFits_follows.bind fun fits => .ite ?_ .pure
        refine Follows.coerce.bind fun _ => Follows.store.bind fun _ => ?_
        exact .loop (fun _ => forTurn_follows h) turns ()
  cases step with
  | some e => exact (h.eval e).bind hcount
  | none => exact hcount _

theorem eachTurn_follows {place : Place} :
    Follows L (eachTurn inner ref place kind body span position)
      (eachTurn plain ref place kind body span position) := by
  refine .bind (.look fun _ => rfl) fun element => ?_
  cases element with
  | none => exact .pure
  | some v =>
    refine Follows.coerce.bind fun _ => Follows.store.bind fun _ => ?_
    exact bodyOnce_bind_follows h .pure

theorem forEach_follows {item array : Expr} :
    Follows L (engine.forEach inner turns item array body span)
      ((engine.hosted settings other).forEach plain turns item array body span) := by
  refine .ite .pure ((h.eval array).bind fun v => ?_)
  cases v with
  | array ref =>
    refine (place_follows h item).bind fun found => ?_
    cases found with
    | none => exact .pure
    | some found => exact .loop (fun _ => eachTurn_follows h) turns 0
  | _ => exact Follows.report.bind fun _ => .pure

/-! ### Statements -/

theorem assign_follows {value : Expr} :
    Follows L (engine.assign inner target value span)
      ((engine.hosted settings other).assign plain target value span) := by
  refine (h.eval value).bind fun v => (place_follows h target).bind fun found => ?_
  cases found with
  | some found => exact Follows.coerce.bind fun _ => .store
  | none => exact .pure

theorem display_follows (hhost : engine.host.Alike L other) {items : List Expr} :
    Follows L (engine.display inner items) ((engine.hosted settings other).display plain items) := by
  refine .bind (.mapM fun e => ?_) fun texts => .update (fun _ => .of_eq rfl rfl) fun m => ?_
  · exact (h.eval e).bind fun v => .look fun _ => rfl
  · simp only [Machine.via, hosted, hhost.writeLine]

theorem input_follows (hhost : engine.host.Alike L other) :
    Follows L (engine.input inner target span) ((engine.hosted settings other).input plain target span) := by
  refine (place_follows h target).bind fun found => ?_
  cases found with
  | none => exact .pure
  | some found =>
    refine .bind (.updateGet (fun _ => .of_eq rfl rfl) fun m => ?_) fun line => ?_
    · simp only [Machine.via, hosted, hhost.readLine]
    · cases line with
      | some line => exact Follows.coerce.bind fun _ => .store
      | none => exact Follows.report.bind fun _ => .store

theorem optionalBlock_follows {b : Option (Block Stmt)} :
    Follows L (optionalBlock inner b) (optionalBlock plain b) := by
  cases b with
  | none => exact .pure
  | some b => exact block_follows h b

theorem choose_follows {branches : List (Branch Stmt)} :
    Follows L (choose inner otherwise branches) (choose plain otherwise branches) := by
  induction branches with
  | nil => exact optionalBlock_follows h
  | cons branch rest ih => exact (test_follows h _).bind fun _ => .ite (block_follows h _) ih

theorem anyLabel_follows {labels : List Expr} :
    Follows L (anyLabel inner subject labels) (anyLabel plain subject labels) := by
  induction labels with
  | nil => exact .pure
  | cons label rest ih =>
    exact (h.eval label).bind fun _ => (Follows.orElse _).bind fun _ => .ite .pure ih

theorem select_follows {cases : List (Case Stmt)} :
    Follows L (select inner subject otherwise cases) (select plain subject otherwise cases) := by
  induction cases with
  | nil => exact optionalBlock_follows h
  | cons c rest ih => exact (anyLabel_follows h).bind fun _ => .ite (block_follows h _) ih

theorem execute_follows (hsettings : engine.settings.Alike L.Parts settings)
    (hhost : engine.host.Alike L other) (turns : Nat) (s : Stmt) :
    Follows L (engine.execute inner turns s) ((engine.hosted settings other).execute plain turns s) := by
  refine Follows.heedHost.bind fun _ => ?_
  cases s with
  | declare declarations span =>
    exact (Follows.forM fun d => declare_follows h hsettings d).bind fun _ => .pure
  | assign target value span => exact (assign_follows h).bind fun _ => .pure
  | display items span => exact (display_follows h hhost).bind fun _ => .pure
  | input target span => exact (input_follows h hhost).bind fun _ => .pure
  | call e span => exact (h.eval e).discard.bind fun _ => .pure
  | choose branches otherwise span => exact choose_follows h
  | select subject cases otherwise span => exact (h.eval subject).bind fun _ => select_follows h
  | whileLoop condition body span => exact whileLoop_follows h
  | doLoop body condition exit span => exact doLoop_follows h
  | forLoop counter start stop step body span => exact forLoop_follows h
  | forEach item array body span => exact forEach_follows h
  | returnWith value span =>
    cases value with
    | none => exact .pure
    | some e => exact (h.eval e).bind fun _ => .pure
  | breakLoop span => exact .pure
  | continueLoop span => exact .pure
  | stop span => exact .throw

/-! ### Runs -/

/-- A call opens a frame and closes it again, and what is left of an interruption stays alike when
the frame is gone. -/
theorem runRoutine_follows {call : Call} {y : Run τ Value}
    (hrefused : ∀ m, engine.settings.callDepth ≤ m.calls.size →
      L.Parts (.callDepth engine.settings.callDepth (engine.program.routine call.routine).name) ∨
        y m = .error .stopped (m.report (.callDepth engine.settings.callDepth
          (engine.program.routine call.routine).name) call.span))
    (hok : ∀ m m' signal, m.calls.size < engine.settings.callDepth → m'.stack.frames ≠ [] →
      block plain (engine.program.routine call.routine).body
        (m.enter call.this call.args (engine.program.routine call.routine).localCount) =
          .ok signal m' →
      y m = resultOf (engine.program.routine call.routine) call.span signal m'.leave)
    (herror : ∀ m n n' e, m.calls.size < engine.settings.callDepth → n.stack.frames ≠ [] →
      block plain (engine.program.routine call.routine).body
        (m.enter call.this call.args (engine.program.routine call.routine).localCount) =
          .error e n' →
      L.Left n n' → ∃ left, y m = .error e left ∧ L.Left n.leave left) :
    Follows L (engine.runRoutine inner call) y := by
  intro m
  by_cases hlimit : engine.settings.callDepth ≤ m.calls.size
  · rw [runRoutine_refused hlimit]
    rcases hrefused (m.via L.link) hlimit with hparts | hy
    · exact .parted (.report m _ call.span) ⟨_, Array.mem_push_self, hparts⟩
    · rw [hy]
      exact .error .stopped (.report m _ call.span) (L.left _)
  · have hlimit := Nat.lt_of_not_le hlimit
    have hleave : ∀ {m' : Machine σ}, (m.enter call.this call.args
        (engine.program.routine call.routine).localCount).Continues m' →
        m'.stack.frames ≠ [] ∧ m.Continues m'.leave := by
      intro m' hm
      obtain ⟨hopen, hpop⟩ := Machine.frames_leave hm.frames
      exact ⟨hopen, hpop, hm.problems⟩
    rcases (block_follows h (engine.program.routine call.routine).body (m.enter call.this call.args
      (engine.program.routine call.routine).localCount)).cases with
      ⟨signal, m', hxm, hym, hm⟩ | ⟨e, m', n', hxm, hym, hm, hleft⟩ | ⟨hm, hparted⟩
    · obtain ⟨hopen, hpop⟩ := hleave hm
      rw [runRoutine_of_ok hlimit hopen hxm, hok (m.via L.link) (m'.via L.link) signal hlimit hopen hym]
      exact (resultOf_follows _ _ _ m'.leave).of_continues hpop
    · obtain ⟨hopen, hpop⟩ := hleave hm
      obtain ⟨left, hy, hleft⟩ := herror (m.via L.link) m' n' e hlimit hopen hym hleft
      rw [runRoutine_of_error hlimit hopen hxm, hy]
      exact .error e hpop hleft
    · cases hxm : block inner (engine.program.routine call.routine).body (m.enter call.this call.args
          (engine.program.routine call.routine).localCount) with
      | ok signal m' =>
        rw [hxm] at hm hparted
        obtain ⟨hopen, hpop⟩ := hleave hm
        rw [runRoutine_of_ok hlimit hopen hxm]
        have hresult := (resultOf_follows (L := L) (engine.program.routine call.routine) call.span
          signal m'.leave).continues
        have hparted : L.Parted m'.leave := hparted
        exact .parted (hpop.trans hresult) (hparted.continues hresult)
      | error e m' =>
        rw [hxm] at hm hparted
        obtain ⟨hopen, hpop⟩ := hleave hm
        rw [runRoutine_of_error hlimit hopen hxm]
        exact .parted hpop hparted

theorem wholeProgram_follows (hsettings : engine.settings.Alike L.Parts settings) :
    Follows L (engine.wholeProgram inner) ((engine.hosted settings other).wholeProgram plain) := by
  refine (statements_follows h _).discard.bind fun _ => ?_
  rw [show (engine.hosted settings other).settings.autoMain = engine.settings.autoMain from
    hsettings.autoMain]
  refine .ite ?_ .pure
  simp only [program_hosted]
  split
  · exact .ite (h.run _).discard .pure
  · exact .pure

omit h in
theorem givenArguments_follows {args : List Value} :
    Follows L (engine.givenArguments span params args)
      ((engine.hosted settings other).givenArguments span params args) := by
  induction params generalizing args with
  | nil => exact .pure
  | cons x params ih =>
    exact (Follows.coerce.bind fun _ => .pure).bind fun _ => ih.bind fun _ => .pure

theorem routineOn_follows (name : String) (args : List Value) :
    Follows L (engine.routineOn inner name args) ((engine.hosted settings other).routineOn plain name args) := by
  unfold routineOn
  simp only [program_hosted]
  split
  · exact givenArguments_follows.bind fun _ => h.run _
  · exact Follows.report.bind fun _ => .pure

omit h in
theorem finish_follows {x : Run σ (Option Value)} {y : Run τ (Option Value)} (hx : Follows L x y)
    (m : Machine σ) : L.PartedIn (finish (x m)).1 ∨
      L.Ends (finish (x m)) (finish (y (m.via L.link))) := by
  rcases (hx m).cases with ⟨value, m', hxm, hym, -⟩ | ⟨e, m', n', hxm, hym, -, hleft⟩ | ⟨-, hparted⟩
  · rw [hxm, hym]
    exact Or.inr ⟨rfl, L.handed (L.left m')⟩
  · rw [hxm, hym]
    cases e <;> exact Or.inr ⟨by simp only [finish, L.problems hleft], L.handed hleft⟩
  · refine Or.inl ?_
    cases hxm : x m with
    | ok value m' =>
      rw [hxm] at hparted
      obtain ⟨q, hq, hparts⟩ := hparted
      exact ⟨q, Array.mem_toList_iff.mpr hq, hparts⟩
    | error e m' =>
      rw [hxm] at hparted
      obtain ⟨q, hq, hparts⟩ := hparted
      cases e <;> exact ⟨q, Array.mem_toList_iff.mpr hq, hparts⟩

theorem runProgramBy_follows (hsettings : engine.settings.Alike L.Parts settings) (other : Host τ)
    (m : Machine σ) :
    L.PartedIn (engine.runProgramBy inner m).1 ∨ L.Ends (engine.runProgramBy inner m)
      ((engine.hosted settings other).runProgramBy plain (m.via L.link)) := by
  unfold runProgramBy
  exact finish_follows (.bind (wholeProgram_follows h hsettings) fun _ => .pure) (engine.fresh m)

theorem callRoutineBy_follows (engine : Engine σ) (settings : Settings) (other : Host τ)
    (name : String) (args : List Value) (m : Machine σ) :
    L.PartedIn (engine.callRoutineBy inner name args m).1 ∨
      L.Ends (engine.callRoutineBy inner name args m)
        ((engine.hosted settings other).callRoutineBy plain name args (m.via L.link)) := by
  unfold callRoutineBy
  exact finish_follows (.map (routineOn_follows h name args)) m

end Engine

/-! ### Runs that differ in their hosts and limits only -/

/-- The states are the same, apart from what the hosts keep. -/
def Likeness.linked (link : Outside σ → Outside τ) (hstop : ∀ o, (link o).stop = o.stop)
    (Parts : Machine.Problem → Prop) : Likeness σ τ where
  link := link
  Left := fun m m' => m.via link = m'
  Parts := Parts
  stop := hstop
  left := fun _ => rfl
  problems := fun h => h ▸ rfl
  handed := fun h => h ▸ rfl

namespace Engine

variable {engine : Engine σ} {settings : Settings} {other : Host τ} {link : Outside σ → Outside τ}
  {hstop : ∀ o, (link o).stop = o.stop} {Parts : Machine.Problem → Prop}
  (hsettings : engine.settings.Alike Parts settings)

section

variable {inner : Inner σ} {plain : Inner τ} (h : inner.Follows (.linked link hstop Parts) plain)

include hsettings h

theorem initialFields_linked (classDef : ClassDef) (object : ObjectRef) :
    Follows (.linked link hstop Parts) (engine.initialFields inner classDef object)
      ((engine.hosted settings other).initialFields plain classDef object) := by
  refine initialFields_follows h hsettings other (fun m m' hres => ?_) fun m n n' e hres hleft => ?_
  · exact initialFields_of_ok hres
  · exact ⟨_, initialFields_of_error hres, congrArg Machine.made hleft⟩

theorem runRoutine_linked (call : Call) :
    Follows (.linked link hstop Parts) (engine.runRoutine inner call)
      ((engine.hosted settings other).runRoutine plain call) := by
  have hmore : engine.settings.callDepth ≤ settings.callDepth := by
    rcases hsettings.calls with heq | ⟨hle, -⟩
    · exact Nat.le_of_eq heq.symm
    · exact hle
  refine runRoutine_follows h (fun m hlimit => ?_) (fun m m' signal hlimit hopen hres => ?_)
    fun m n n' e hlimit hopen hres hleft => ?_
  · rcases hsettings.calls with heq | ⟨-, hparts⟩
    · rw [← heq] at hlimit ⊢
      exact Or.inr (runRoutine_refused (by exact hlimit))
    · exact Or.inl (hparts _)
  · exact runRoutine_of_ok (by exact Nat.lt_of_lt_of_le hlimit hmore) hopen hres
  · have hleft : n.via link = n' := hleft
    subst hleft
    exact ⟨_, runRoutine_of_error (by exact Nat.lt_of_lt_of_le hlimit hmore) hopen hres, rfl⟩

theorem evaluate_linked (hhost : engine.host.Alike (.linked link hstop Parts) other) (e : Expr) :
    Follows (.linked link hstop Parts) (engine.evaluate inner e)
      ((engine.hosted settings other).evaluate plain e) := by
  rw [← evaluateBy_initialFields (engine.hosted settings other) plain]
  exact evaluateBy_follows h hhost (initialFields_linked hsettings h) e

end

include hsettings in
/-- **Every level follows the same level with the other host and the other limits.** -/
theorem level_linked (hhost : engine.host.Alike (.linked link hstop Parts) other) (n : Nat) :
    (engine.level n).Follows (.linked link hstop Parts)
      ((engine.hosted settings other).level n) := by
  induction n with
  | zero => exact ⟨fun _ => .throw, fun _ => .throw, fun _ => .throw⟩
  | succ n ih =>
    exact ⟨evaluate_linked hsettings ih hhost, execute_follows ih hsettings hhost n,
      runRoutine_linked hsettings ih⟩

end Engine

/-! ### Sessions -/

/-- The hosts do the same with the two programs. -/
def Visit.Alike (link : Outside σ → Outside τ) : Visit σ → Visit τ → Prop
  | .program fuel, .program fuel' => fuel' = fuel
  | .routine fuel name args, .routine fuel' name' args' => fuel' = fuel ∧ name' = name ∧ args' = args
  | .between change, .between change' => ∀ heap o,
    change' heap (link o) = ((change heap o).1, link (change heap o).2)
  | _, _ => False

namespace Engine

variable {engine : Engine σ} {settings : Settings} {other : Host τ} {link : Outside σ → Outside τ}
  {hstop : ∀ o, (link o).stop = o.stop} {Parts : Machine.Problem → Prop}
  (hsettings : engine.settings.Alike Parts settings)
  {levels : Nat → Inner σ} {levels' : Nat → Inner τ}
  (hlevels : ∀ n, (levels n).Follows (.linked link hstop Parts) (levels' n))

/-- A visit with a linked host comes to this. -/
def linkedPair (link : Outside σ → Outside τ) (found : α × Machine σ) : α × Machine τ :=
  (found.1, found.2.via link)

theorem linkedPair_of_ends {a : Outcome × Machine σ} {b : Outcome × Machine τ}
    (h : (Likeness.linked link hstop Parts).Ends a b) : b = linkedPair link a :=
  Prod.ext h.outcome h.left.symm

include hsettings hlevels

theorem visitBy_linked (other : Host τ) {visit : Visit σ} {visit' : Visit τ}
    (hvisit : visit.Alike link visit') (m : Machine σ) :
    (∃ o ∈ (engine.visitBy levels visit m).1, ∃ q ∈ o.problems, Parts q.1) ∨
      (engine.hosted settings other).visitBy levels' visit' (m.via link) =
        linkedPair link (engine.visitBy levels visit m) := by
  match visit, visit', hvisit with
  | .program fuel, .program _, rfl =>
    rcases runProgramBy_follows (hlevels fuel) hsettings other m with hparted | hends
    · exact Or.inl ⟨_, rfl, hparted⟩
    · have hpair : (engine.hosted settings other).runProgramBy (levels' fuel) (m.via link) =
        linkedPair link (engine.runProgramBy (levels fuel) m) := linkedPair_of_ends hends
      exact Or.inr (by simp only [visitBy, hpair, linkedPair])
  | .routine fuel name args, .routine _ _ _, ⟨rfl, rfl, rfl⟩ =>
    rcases callRoutineBy_follows (hlevels fuel) engine settings other name args m with hparted | hends
    · exact Or.inl ⟨_, rfl, hparted⟩
    · have hpair : (engine.hosted settings other).callRoutineBy (levels' fuel) name args (m.via link) =
        linkedPair link (engine.callRoutineBy (levels fuel) name args m) := linkedPair_of_ends hends
      exact Or.inr (by simp only [visitBy, hpair, linkedPair])
  | .between change, .between change', hchange =>
    have hchanged := hchange m.heap m.outside
    exact Or.inr (by simp only [visitBy, linkedPair, Machine.via, hchanged])

/-- **Two sessions that differ in hosts and limits only come to the same, unless a limit is reached in
the first one.** -/
theorem sessionBy_linked {visits : List (Visit σ)} {visits' : List (Visit τ)}
    (hvisits : visits.Forall₂ (Visit.Alike link) visits') (m : Machine σ) :
    (∃ o ∈ (engine.sessionBy levels visits m).1, ∃ q ∈ o.problems, Parts q.1) ∨
      (engine.hosted settings other).sessionBy levels' visits' (m.via link) =
        linkedPair link (engine.sessionBy levels visits m) := by
  induction hvisits generalizing m with
  | nil => exact Or.inr rfl
  | @cons visit visit' rest rest' hvisit _ ih =>
    rcases visitBy_linked hsettings hlevels other hvisit m with ⟨o, ho, hq⟩ | hfirst
    · exact Or.inl ⟨o, List.mem_append_left _ (Option.mem_toList.mpr ho), hq⟩
    · rcases ih (engine.visitBy levels visit m).2 with ⟨o, ho, hq⟩ | hrest
      · exact Or.inl ⟨o, List.mem_append_right _ ho, hq⟩
      · refine Or.inr ?_
        simp only [sessionBy, hfirst, linkedPair] at hrest ⊢
        rw [hrest]

end Engine

end Primer
