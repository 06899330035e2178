/-
Parameters by reference lead straight to a value.

A cell that stands for another place was made by a call, for a parameter by reference, and it
names a place that the caller could get at.  If that was a slot, it lies below the frame of the
call and holds a value: a parameter that is itself by reference is passed on as the place it
stands for, not as its own cell.  So aliases are never chained, however often a parameter is
passed on, and what is read and written in the end is the variable of the first caller.
-/
import Mathlib.Logic.Relation
import Primer.Proofs.Run.Erasure

namespace Primer

/-! ### Following aliases -/

namespace Stack

/-- Aliases lead downward, out of their frame, to a value, and are followed once at most. -/
structure WellAliased (s : Stack) : Prop where
  below : ∀ t i : Nat, s.cells[t]? = some (.alias (.slot i)) →
    ∃ start, s.shape.frameStart? t = some start ∧ i < start ∧ ∃ v, s.cells[i]? = some (.direct v)
  once : ∀ (n : Nat) place, s.follow (n + 1) place = s.follow 1 place
  target : ∀ place, s.target place = s.follow 1 place
  ends : ∀ place i, s.target place = .slot i → ∀ other, s.cells[i]? ≠ some (.alias other)

variable {s : Stack}

theorem alias_slot (good : s.shape.Good) {t i : Nat} (hget : s.cells[t]? = some (.alias (.slot i))) :
    ∃ start, s.shape.frameStart? t = some start ∧ i < start ∧ s.shape.Direct i := by
  obtain ⟨start, hstart, hslot⟩ := good.aliases t _ (alias_iff.mpr hget)
  exact ⟨start, hstart, hslot i rfl⟩

/-- What a cell stands for is meant by itself. -/
theorem follow_alias (good : s.shape.Good) {t : Nat} {place : Place}
    (hget : s.cells[t]? = some (.alias place)) (n : Nat) : s.follow n place = place := by
  cases place with
  | slot i =>
    obtain ⟨-, -, -, hdirect⟩ := alias_slot good hget
    exact follow_direct hdirect n
  | element ref offset => cases n <;> rfl
  | field ref offset => cases n <;> rfl

/-- One step leads from a place to what it stands for. -/
theorem follow_succ (good : s.shape.Good) (n : Nat) (place : Place) :
    s.follow (n + 1) place = s.follow 1 place := by
  cases place with
  | slot i =>
    simp only [follow, read?]
    split
    · rename_i other hget
      exact follow_alias good hget n
    · rfl
  | element ref offset => rfl
  | field ref offset => rfl

theorem target_eq_follow_one (good : s.shape.Good) (place : Place) :
    s.target place = s.follow 1 place := by
  unfold target
  cases hsize : s.size with
  | zero =>
    -- There is no cell that could stand for a place.
    cases place with
    | slot i =>
      have hnone : s.cells[i]? = none := Array.getElem?_eq_none (by unfold size at hsize; omega)
      simp [follow, read?, hnone]
    | element ref offset => rfl
    | field ref offset => rfl
  | succ n => exact follow_succ good n place

/-- The slot that a place means in the end holds a value, or there is no such slot. -/
theorem not_alias_target (good : s.shape.Good) {place : Place} {i : Nat}
    (htarget : s.target place = .slot i) (other : Place) : s.cells[i]? ≠ some (.alias other) := by
  rw [target_eq_follow_one good] at htarget
  cases place with
  | slot j =>
    simp only [follow, read?] at htarget
    split at htarget
    · rename_i found hfound
      subst htarget
      -- A cell stands for the slot, so the slot holds a value.
      obtain ⟨-, -, -, hdirect⟩ := alias_slot good hfound
      obtain ⟨v, hv⟩ := direct_iff.mp hdirect
      rw [hv]
      simp
    · rename_i hother
      cases htarget
      exact hother other
  | element ref offset => cases htarget
  | field ref offset => cases htarget

theorem wellAliased_of_good (good : s.shape.Good) : s.WellAliased where
  below := by
    intro t i hget
    obtain ⟨start, hstart, hlt, hdirect⟩ := alias_slot good hget
    exact ⟨start, hstart, hlt, direct_iff.mp hdirect⟩
  once := follow_succ good
  target := target_eq_follow_one good
  ends := fun _ _ htarget other => not_alias_target good htarget other

end Stack

/-! ### The states of a session -/

/-- The states that are met in a session: before and after everything that is run, in the frame
of every call, and at the end. -/
inductive Engine.Meets (engine : Engine σ) (outside : Outside σ) (visits : List (Visit σ)) :
    Machine σ → Prop
  | begun {task : Task} {m : Machine σ} (h : .begun task m ∈ engine.journal outside visits) :
    Meets engine outside visits m
  | entered {call : Call} {m : Machine σ}
    (h : .begun (.run call) m ∈ engine.journal outside visits) :
    Meets engine outside visits
      (m.enter call.this call.args (engine.program.routine call.routine).localCount)
  | ended {task : Task} {before after : Machine σ}
    (h : .ended task before after ∈ engine.journal outside visits) :
    Meets engine outside visits after
  | rested : Meets engine outside visits (engine.session outside visits).2

section

variable {engine : Engine σ} {outside : Outside σ} {visits : List (Visit σ)} {m m' : Machine σ}

/-- A call that is noted sets the stage for its routine. -/
theorem Engine.ready_entered (hp : engine.program.Sound) {call : Call}
    (h : .begun (.run call) m ∈ engine.journal outside visits) :
    ∃ (g : Stage) (inside : Option ClassId), g.Callable engine.program call ∧ m.At g ∧
      (g.enter engine.program call inside).Ready engine.program ∧
      (m.enter call.this call.args (engine.program.routine call.routine).localCount).At
        (g.enter engine.program call inside) := by
  obtain ⟨g, ready, hcall, hm⟩ := sound_journal hp outside visits _ h
  have hcall : g.Callable engine.program call := hcall
  obtain ⟨inside, haround, -⟩ := hp.bodies call.routine hcall.routine
  exact ⟨g, inside, hcall, hm, ready.enter hcall haround, Stage.at_enter ready hm⟩

/-- Every state is met on a stage that is set. -/
theorem Engine.Meets.ready (hp : engine.program.Sound) (h : engine.Meets outside visits m) :
    ∃ g : Stage, g.Ready engine.program ∧ m.At g := by
  cases h with
  | begun h =>
    obtain ⟨g, ready, -, hm⟩ := sound_journal hp outside visits _ h
    exact ⟨g, ready, hm⟩
  | entered h =>
    obtain ⟨g, inside, -, -, ready, hm⟩ := ready_entered hp h
    exact ⟨_, ready, hm⟩
  | @ended task before after h =>
    obtain ⟨g, ready, -, -, hkeeps⟩ := sound_journal hp outside visits _ h
    refine ⟨g, ready, ?_⟩
    cases task <;> exact ⟨hkeeps.stays.shape, hkeeps.stays.calls⟩
  | rested => exact ⟨_, Stage.ready_rest _, (atRest_session hp outside visits).1.stays⟩

/-! ### Passing parameters on -/

/-- The two states are in the same frame: they differ in values only. -/
structure Machine.SameFrame (m m' : Machine σ) : Prop where
  shape : m'.stack.shape = m.stack.shape
  calls : m'.calls = m.calls

/-- Where a variable is does not change while its frame is at hand. -/
theorem Machine.SameFrame.placeOf (h : m.SameFrame m') (v : Variable) :
    m'.placeOf v = m.placeOf v := by
  let g : Stage := ⟨m.stack.shape, m.calls, none, fun _ => False⟩
  have hm : m.At g := ⟨rfl, rfl⟩
  have hm' : m'.At g := ⟨h.shape, h.calls⟩
  exact hm.placeOf_eq hm' v

/-- In the frame of the first state, the variable beside it is named as an argument of a call.
The second state is in the frame of that call, and the variable beside it is the parameter by
reference that the argument is for. -/
inductive Engine.Passes (engine : Engine σ) (outside : Outside σ) (visits : List (Visit σ)) :
    Machine σ × VarId → Machine σ × VarId → Prop
  | named {m m' n n' body : Machine σ} {x y : VarId} {call : Call} {k : Nat} {c : Cell}
      {inner : Inner σ} {arg : Expr}
      (hcall : .begun (.run call) m' ∈ engine.journal outside visits) (hcaller : m.SameFrame m')
      (hparam : (engine.program.routine call.routine).params[k]? = some y)
      (href : (engine.program.symbols.variableAt y).storage = .refArgument)
      (harg : arg.named? = some x) (hbinder : m.SameFrame n)
      (hbind : engine.bindArgument inner (engine.program.routine call.routine) (k + 1)
        (engine.program.symbols.variableAt y) (some arg) n = .ok c n')
      (hbound : call.args[k]? = some c)
      (hbody : (m'.enter call.this call.args
        (engine.program.routine call.routine).localCount).SameFrame body) :
    Passes engine outside visits (m, x) (body, y)

/-- Reading and writing go straight to the place, which holds a value. -/
structure Machine.Straight (m : Machine σ) (place : Place) : Prop where
  target : m.stack.target place = place
  slot : ∀ i, place = .slot i → ∃ v, m.stack.cells[i]? = some (.direct v) ∧
    m.read? place = some v ∧
    ∀ w, m.write place w = { m with stack := m.stack.write i (.direct w) }

/-- What an alias stands for is read and written straight away. -/
theorem Machine.straight_of_alias (good : m.stack.shape.Good) {t : Nat} {place : Place}
    (hget : m.stack.cells[t]? = some (.alias place)) : m.Straight place := by
  have htarget : m.stack.target place = place := Stack.follow_alias good hget m.stack.size
  refine ⟨htarget, ?_⟩
  rintro i rfl
  obtain ⟨-, -, -, hdirect⟩ := Stack.alias_slot good hget
  obtain ⟨v, hv⟩ := Stack.direct_iff.mp hdirect
  refine ⟨v, hv, ?_, fun w => ?_⟩
  · simp only [Machine.read?, htarget, Stack.read?, hv]
  · simp only [Machine.write, htarget]

/-- An expression that is the name of a variable names the place of that variable. -/
theorem Engine.place_named (engine : Engine σ) (inner : Inner σ) {x : VarId} : ∀ {e : Expr}, e.named? = some x →
    ∃ span, engine.place inner e = (do
      let p ← Run.placeOf (engine.program.symbols.variableAt x) span
      pure (some (p, (engine.program.symbols.variableAt x).kind)))
  | .variableRef id _ span, he => by
    obtain rfl : id = x := by simpa [Expr.named?] using he
    exact ⟨span, by rw [Engine.place]⟩
  | .grouping e _, he => by
    rw [Engine.place]
    exact Engine.place_named engine inner (e := e) he

/-- **A parameter by reference is bound to the place of the variable that is passed.** -/
theorem Engine.bindArgument_named {inner : Inner σ} {routine : Routine} {position : Nat}
    {v : Variable} {e : Expr} {x : VarId} {c : Cell} (hx : e.named? = some x)
    (hv : v.storage = .refArgument)
    (h : engine.bindArgument inner routine position v (some e) m = .ok c m') :
    ∃ place, m.placeOf (engine.program.symbols.variableAt x) = .ok place ∧ c = .alias place := by
  obtain ⟨span, hplace⟩ := Engine.place_named engine inner hx
  rw [Engine.bindArgument, if_pos hv, hplace] at h
  simp only [Bind.bind, EStateM.bind] at h
  cases hfound : m.placeOf (engine.program.symbols.variableAt x) with
  | error problem =>
    rw [Run.placeOf_error hfound span] at h
    cases h
  | ok place =>
    rw [Run.placeOf_ok hfound span] at h
    cases h
    exact ⟨place, rfl, rfl⟩

/-- A call whose argument is the place of a variable passes that variable. -/
theorem Engine.Passes.of_placeOf {x y : VarId} {call : Call} {k : Nat} {place : Place}
    (hcall : .begun (.run call) m' ∈ engine.journal outside visits) (hcaller : m.SameFrame m')
    (hparam : (engine.program.routine call.routine).params[k]? = some y)
    (href : (engine.program.symbols.variableAt y).storage = .refArgument)
    (hx : m'.placeOf (engine.program.symbols.variableAt x) = .ok place)
    (hbound : call.args[k]? = some (.alias place)) :
    engine.Passes outside visits (m, x) (m'.enter call.this call.args
      (engine.program.routine call.routine).localCount, y) := by
  have hbind : engine.bindArgument (engine.level 0) (engine.program.routine call.routine) (k + 1)
      (engine.program.symbols.variableAt y) (some (.variableRef x "" Span.nowhere)) m' =
        .ok (.alias place) m' := by
    rw [Engine.bindArgument, if_pos href, Engine.place]
    simp only [Bind.bind, EStateM.bind]
    rw [Run.placeOf_ok hx]
    rfl
  exact .named hcall hcaller hparam href rfl hcaller hbind hbound ⟨rfl, rfl⟩

/-- A parameter by reference is where the variable is that was passed for it. -/
theorem Engine.Passes.placeOf (hp : engine.program.Sound) {a b : Machine σ × VarId}
    (h : engine.Passes outside visits a b) :
    ∃ place, a.1.placeOf (engine.program.symbols.variableAt a.2) = .ok place ∧
      b.1.placeOf (engine.program.symbols.variableAt b.2) = .ok place ∧ b.1.Straight place := by
  obtain @⟨m, m', n, n', body, x, y, call, k, c, inner, arg, hcall, hcaller, hparam, href, harg,
    hbinder, hbind, hbound, hbody⟩ := h
  obtain ⟨place, hplace, rfl⟩ := bindArgument_named harg href hbind
  rw [hbinder.placeOf] at hplace
  obtain ⟨g, inside, hcallable, hm', ready, hentered⟩ := ready_entered hp hcall
  have hat : body.At (g.enter engine.program call inside) :=
    ⟨hbody.shape.trans hentered.shape, hbody.calls.trans hentered.calls⟩
  -- The cell of the parameter is the argument that was bound for it.
  obtain ⟨-, hoffset⟩ := hp.params call.routine hcallable.routine k y hparam
  have hk : k < call.args.length := (List.getElem?_eq_some_iff.mp hbound).1
  have hcell : (g.enter engine.program call inside).shape.aliases[
      g.shape.size + call.args.length - (k + 1)]? = some (some place) := by
    show (g.shape.enter call.args _).aliases[_]? = _
    rw [Shape.aliases_enter_arg hk, hbound]
    rfl
  have hlt : g.shape.size + call.args.length - (k + 1) <
      (g.enter engine.program call inside).shape.size := (Array.getElem?_eq_some_iff.mp hcell).1
  have hslot : ((g.enter engine.program call inside).shape.base : Int) +
      (engine.program.symbols.variableAt y).offset =
        (g.shape.size + call.args.length - (k + 1) : Nat) := by
    show ((g.shape.size + call.args.length : Nat) : Int) + _ = _
    omega
  refine ⟨place, hplace, ?_, ?_⟩
  · rcases hat.placeOf_ref href hslot hlt with ⟨hdirect, -⟩ | ⟨other, hother, hfound⟩
    · exact absurd (hcell.symm.trans hdirect) (by simp)
    · obtain rfl : place = other := by simpa using hcell.symm.trans hother
      exact hfound
  · rw [← hat.shape] at hcell
    exact Machine.straight_of_alias (hat.shape ▸ ready.good) (Stack.alias_iff.mp hcell)

/-- So it is through any chain of calls. -/
theorem Engine.Passes.placeOf_chain (hp : engine.program.Sound) {a b : Machine σ × VarId}
    (h : Relation.TransGen (engine.Passes outside visits) a b) :
    ∃ place, a.1.placeOf (engine.program.symbols.variableAt a.2) = .ok place ∧
      b.1.placeOf (engine.program.symbols.variableAt b.2) = .ok place ∧ b.1.Straight place := by
  induction h with
  | single hpass => exact hpass.placeOf hp
  | tail _ hpass ih =>
    obtain ⟨origin, hfirst, hmiddle, -⟩ := ih
    obtain ⟨place, hmiddle', hlast, hstraight⟩ := hpass.placeOf hp
    obtain rfl : origin = place := by simpa using hmiddle.symm.trans hmiddle'
    exact ⟨origin, hfirst, hlast, hstraight⟩

end

namespace Engine

/-- **In every state of every session, aliases lead downward to a value in one step, and a
parameter by reference is the variable of the first caller, however often it was passed on.**  The
states are those of the journal, which changes nothing about the session. -/
theorem aliases_lead_to_values (tokens : List Token) (settings : Settings) (host : Host σ)
    (outside : Outside σ) (visits : List (Visit σ)) :
    forgetPair ((ofTokens tokens settings host).recordedSession outside visits) =
      (ofTokens tokens settings host).session outside visits ∧
    (∀ m, (ofTokens tokens settings host).Meets outside visits m → m.stack.WellAliased) ∧
    ∀ a b, Relation.TransGen ((ofTokens tokens settings host).Passes outside visits) a b →
      ∃ place, a.1.placeOf ((Program.ofTokens tokens).1.symbols.variableAt a.2) = .ok place ∧
        b.1.placeOf ((Program.ofTokens tokens).1.symbols.variableAt b.2) = .ok place ∧
        b.1.Straight place := by
  have hp := sound_ofTokens tokens settings host
  refine ⟨recordedSession_mirrors _ outside visits, fun m hm => ?_, fun a b hchain => ?_⟩
  · obtain ⟨g, ready, hat⟩ := hm.ready hp
    exact Stack.wellAliased_of_good (hat.shape ▸ ready.good)
  · exact Passes.placeOf_chain hp hchain

/-- A routine that hands its parameter by reference on to another one. -/
def relaySource : String :=
  "Module change(Integer Ref inside)
    Set inside = 7
End Module
Module relay(Integer Ref between)
    Call change(between)
End Module
Module main()
    Declare Integer outside = 1
    Call relay(outside)
End Module
"

/-- Whether the call hands a variable, which is at the first slot, over for its first parameter. -/
def hands (p : Program) (x y : VarId) (call : Call) (m : Machine σ) : Bool :=
  (p.routine call.routine).params[0]? = some y &&
  (p.symbols.variableAt y).storage = .refArgument &&
  (m.placeOf (p.symbols.variableAt x)).toOption = some (.slot 0) &&
  (call.args[0]?).bind Cell.alias? = some (.slot 0)

/-- Whether two calls, the second made in the body of the first, hand a variable on. -/
def relays (p : Program) (x y z : VarId) : Event σ → Event σ → Bool
  | .begun (.run first) m, .begun (.run second) m' =>
    hands p x y first m && hands p y z second m' &&
    m'.stack.shape =
      (m.enter first.this first.args (p.routine first.routine).localCount).stack.shape &&
    m'.calls = m.calls.push first.this
  | _, _ => false

theorem passes_of_hands {engine : Engine σ} {outside : Outside σ} {visits : List (Visit σ)}
    {x y : VarId} {call : Call} {m m' : Machine σ}
    (hcall : .begun (.run call) m' ∈ engine.journal outside visits) (hcaller : m.SameFrame m')
    (h : hands engine.program x y call m') :
    engine.Passes outside visits (m, x) (m'.enter call.this call.args
      (engine.program.routine call.routine).localCount, y) := by
  simp only [hands, Bool.and_eq_true, decide_eq_true_eq] at h
  obtain ⟨⟨⟨hparam, href⟩, hx⟩, hbound⟩ := h
  have hplace : m'.placeOf (engine.program.symbols.variableAt x) = .ok (.slot 0) := by
    cases hfound : m'.placeOf (engine.program.symbols.variableAt x) with
    | error problem => simp [hfound, Except.toOption] at hx
    | ok place => simpa [hfound, Except.toOption] using hx
  obtain ⟨c, hc, halias⟩ := Option.bind_eq_some_iff.mp hbound
  cases c with
  | direct v => cases halias
  | «alias» place =>
    cases halias
    exact .of_placeOf hcall hcaller hparam href hplace hc

theorem chain_of_relays {engine : Engine σ} {outside : Outside σ} {visits : List (Visit σ)}
    {x y z : VarId} (h : ∃ first ∈ engine.journal outside visits,
      ∃ second ∈ engine.journal outside visits, relays engine.program x y z first second) :
    ∃ m m', Relation.TransGen (engine.Passes outside visits) (m, x) (m', z) := by
  obtain ⟨first, hfirst, second, hsecond, hrelays⟩ := h
  unfold relays at hrelays
  split at hrelays
  · rename_i outer m inner m'
    simp only [Bool.and_eq_true, decide_eq_true_eq] at hrelays
    obtain ⟨⟨⟨houter, hinner⟩, hshape⟩, hcalls⟩ := hrelays
    exact ⟨_, _, .tail (.single (passes_of_hands hfirst ⟨rfl, rfl⟩ houter))
      (passes_of_hands hsecond ⟨hshape, hcalls⟩ hinner)⟩
  · cases hrelays

/-- The parameter of `change` is the local of `main`, two calls further out. -/
theorem aliases_lead_to_values_relay :
    ∃ m m' : Machine Buffer,
      Relation.TransGen ((ofTokens (scan relaySource).1 {} (Buffer.host [])).Passes ⟨{}, false⟩
        [.program 12]) (m, 2) (m', 0) ∧
      ∃ place,
        m.placeOf ((Program.ofTokens (scan relaySource).1).1.symbols.variableAt 2) = .ok place ∧
        m'.placeOf ((Program.ofTokens (scan relaySource).1).1.symbols.variableAt 0) = .ok place ∧
        m'.Straight place := by
  have hnoted : ∃ first ∈ (ofTokens (scan relaySource).1 {} (Buffer.host [])).journal ⟨{}, false⟩
      [.program 12],
      ∃ second ∈ (ofTokens (scan relaySource).1 {} (Buffer.host [])).journal ⟨{}, false⟩
        [.program 12],
      relays (ofTokens (scan relaySource).1 {} (Buffer.host [])).program 2 1 0 first second := by
    decide +kernel
  obtain ⟨m, m', hchain⟩ := chain_of_relays hnoted
  exact ⟨m, m', hchain, (aliases_lead_to_values (scan relaySource).1 {} (Buffer.host [])
    ⟨{}, false⟩ [.program 12]).2.2 (m, 2) (m', 0) hchain⟩

end Engine

end Primer
