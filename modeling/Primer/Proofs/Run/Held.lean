/-
Constants that are held.

The statement that declares a constant has given it its value when it ends.  From then on no
statement assigns the constant by its name: that would be an error of the program.  What can still
change it is the same declaration, when it is run again, and a parameter by reference that stands for
it; and the constant of a routine is gone with the frame of its call.  `Held` says of a journal that
none of this has happened since a certain state.  As long as that is so, the code at hand gets at the
slot of the constant by the name of the constant only, which is what `Stage.Guards` says.
-/
import Primer.Proofs.Run.Typing

namespace Primer

/-! ### What is noted about a constant -/

instance Except.decidableEqOk {ε α : Type} [DecidableEq α] (a : α) :
    ∀ r : Except ε α, Decidable (r = .ok a)
  | .ok b => decidable_of_iff (b = a) (by simp)
  | .error _ => isFalse nofun

instance Cell.decidableAliasMem (place : Place) (cells : List Cell) :
    Decidable (.alias place ∈ cells) :=
  decidable_of_iff (∃ c ∈ cells, c.alias? = some place) <| by
    constructor
    · rintro ⟨c, hc, halias⟩
      cases c with
      | direct v => cases halias
      | «alias» other =>
        cases halias
        exact hc
    · exact fun h => ⟨_, h, rfl⟩

namespace Event

/-- A statement that declares the variable has ended, and the variable is kept in this slot. -/
def Sets (p : Program) (x : VarId) (i : Nat) : Event σ → Prop
  | .ended (.exec s) _ after =>
    x ∈ s.declared ∧ after.placeOf (p.symbols.variableAt x) = .ok (.slot i)
  | _ => False

/-- What has begun is neither a statement that declares the variable of this slot nor a call that is
given the slot by reference. -/
def Spares (p : Program) (x : VarId) (i : Nat) : Event σ → Prop
  | .begun (.exec s) m => x ∈ s.declared → m.placeOf (p.symbols.variableAt x) ≠ .ok (.slot i)
  | .begun (.run call) _ => .alias (.slot i) ∉ call.args
  | _ => True

instance (p : Program) (x : VarId) (i : Nat) : ∀ event : Event σ, Decidable (event.Sets p x i)
  | .ended (.exec s) _ after => inferInstanceAs (Decidable
      (x ∈ s.declared ∧ after.placeOf (p.symbols.variableAt x) = .ok (.slot i)))
  | .ended (.eval _) _ _ | .ended (.run _) _ _ | .begun .. => inferInstanceAs (Decidable False)

instance (p : Program) (x : VarId) (i : Nat) : ∀ event : Event σ, Decidable (event.Spares p x i)
  | .begun (.exec s) m => inferInstanceAs (Decidable
      (x ∈ s.declared → m.placeOf (p.symbols.variableAt x) ≠ .ok (.slot i)))
  | .begun (.run call) _ => inferInstanceAs (Decidable (.alias (.slot i) ∉ call.args))
  | .begun (.eval _) _ | .ended .. => inferInstanceAs (Decidable True)

theorem not_sets_begun {p : Program} {x : VarId} {i : Nat} {task : Task} {m : Machine σ} :
    ¬ (Event.begun task m).Sets p x i := fun h => h

/-- How many calls were active when the event was noted. -/
def depth (event : Event σ) : Nat := event.state.stack.depth

end Event

/-- The variable was declared in this state, in this slot.  Nothing that has been noted since then
may have changed it, and the call that it was declared in is still active.  The journal may begin
with a variable that is held since some state. -/
inductive Held (p : Program) (x : VarId) (i : Nat) (since : Machine σ → Prop) :
    List (Event σ) → Machine σ → Prop
  | before {s : Machine σ} (h : since s) : Held p x i since [] s
  | set {event : Event σ} {earlier : List (Event σ)} (h : event.Sets p x i) :
    Held p x i since (event :: earlier) event.state
  | kept {event : Event σ} {earlier : List (Event σ)} {s : Machine σ}
      (h : Held p x i since earlier s) (hspares : event.Spares p x i)
      (hdepth : s.stack.depth ≤ event.depth) : Held p x i since (event :: earlier) s

/-- Wherever the variable is held, its slot is as it was when it was declared. -/
def Steady (p : Program) (x : VarId) (i : Nat) (since : Machine σ → Prop) : List (Event σ) → Prop
  | [] => True
  | event :: earlier =>
    (∀ s, Held p x i since earlier s → s.stack.depth ≤ event.depth →
      event.state.stack.cells[i]? = s.stack.cells[i]?) ∧ Steady p x i since earlier

section

variable {p : Program} {x : VarId} {i : Nat} {since : Machine σ → Prop} {s : Machine σ}
  {event : Event σ} {earlier later : List (Event σ)}

/-- What happens inside of other calls does not set the variable of a call. -/
theorem Held.of_append (h : Held p x i since (later ++ earlier) s)
    (hlater : ∀ event ∈ later, s.stack.depth < event.depth) : Held p x i since earlier s := by
  induction later with
  | nil => exact h
  | cons event later ih =>
    obtain ⟨hevent, hlater⟩ := List.forall_mem_cons.mp hlater
    cases h with
    | set => exact absurd hevent (Nat.lt_irrefl _)
    | kept h => exact ih h hlater

/-- What is held goes on to be held as long as nothing happens that may change it. -/
theorem Held.append (h : Held p x i since earlier s)
    (hlater : ∀ event ∈ later, event.Spares p x i ∧ s.stack.depth ≤ event.depth) :
    Held p x i since (later ++ earlier) s := by
  induction later with
  | nil => exact h
  | cons event later ih =>
    obtain ⟨⟨hspares, hdepth⟩, hlater⟩ := List.forall_mem_cons.mp hlater
    exact .kept (ih hlater) hspares hdepth

theorem Held.of_not_sets (h : Held p x i since (event :: earlier) s) (hevent : ¬ event.Sets p x i) :
    Held p x i since earlier s ∧ event.Spares p x i ∧ s.stack.depth ≤ event.depth := by
  cases h with
  | set h => exact absurd h hevent
  | kept h hspares hdepth => exact ⟨h, hspares, hdepth⟩

theorem Steady.of_append (h : Steady p x i since (later ++ event :: earlier))
    (hs : Held p x i since earlier s) (hdepth : s.stack.depth ≤ event.depth) :
    event.state.stack.cells[i]? = s.stack.cells[i]? := by
  induction later with
  | nil => exact h.1 s hs hdepth
  | cons _ later ih => exact ih h.2

/-- The slot of a static is known. -/
theorem Held.slotOf_eq (h : Held p x i since earlier s)
    (hx : (p.symbols.variableAt x).storage = .static) (hsince : ∀ s, since s → p.slotOf x = i) :
    p.slotOf x = i := by
  induction h with
  | before h => exact hsince _ h
  | @set event _ h =>
    match event, h with
    | .ended (.exec _) _ _, h =>
      have hplace := h.2
      simp only [Machine.placeOf, hx, Except.ok.injEq, Place.slot.injEq] at hplace
      exact hplace
  | kept _ _ _ ih => exact ih

end

/-! ### What code can get at -/

/-- The code at hand gets at the slot of the variable by the name of the variable only. -/
structure Stage.Guards (p : Program) (x : VarId) (i : Nat) (g : Stage) : Prop where
  entry : x < p.symbols.entries.size
  bound : i < g.shape.size
  aliases : ∀ u, g.shape.top ≤ u → g.shape.aliases[u]? ≠ some (some (.slot i))
  place : (p.symbols.variableAt x).storage = .static ∧ p.slotOf x = i ∨
    (p.symbols.variableAt x).storage = .frame ∧ g.shape.statics ≤ i ∧
      (i < g.shape.top ∨ ∀ r, g.home.routine? = some r → (p.symbols.variableAt x).routine = some r ∧
        g.shape.base + (p.symbols.variableAt x).offset = (i : Int))

namespace Stage

variable {p : Program} {x y : VarId} {i : Nat} {g g' : Stage} {call : Call} {inside : Option ClassId}

theorem Guards.congr (h : g.Guards p x i) (hshape : g'.shape = g.shape)
    (hhome : ∀ r, g'.home.routine? = some r → g.home.routine? = some r) : g'.Guards p x i := by
  refine ⟨h.entry, hshape ▸ h.bound, hshape ▸ h.aliases, h.place.imp_right ?_⟩
  rw [hshape]
  exact fun ⟨hframe, hlow, hplace⟩ =>
    ⟨hframe, hlow, hplace.imp_right fun hplace r hr => hplace r (hhome r hr)⟩

/-- **What is found in the slot is the variable itself.** -/
theorem Guards.eq_of_locates (h : g.Guards p x i) (hp : p.Sound) (ready : g.Ready p)
    (hy : y < p.symbols.entries.size) (hplace : g.Locates p y (.slot i)) : y = x := by
  have htop := ready.good.statics_le_top
  have hslot : (p.symbols.variableAt x).storage = .static → p.slotOf x < g.shape.statics :=
    fun hx => ready.statics ▸ hp.slotOf_lt ⟨h.entry, hx⟩
  have hoffset : (p.symbols.variableAt x).storage = .frame → 0 ≤ (p.symbols.variableAt x).offset :=
    hp.locals x h.entry
  cases hplace with
  | static hstatic =>
    rcases h.place with ⟨hx, hi⟩ | ⟨-, hlow, -⟩
    · exact (hp.slotOf_inj ⟨h.entry, hx⟩ ⟨hy, hstatic⟩ hi).symm
    · have hlt := ready.statics ▸ hp.slotOf_lt ⟨hy, hstatic⟩
      exact absurd hlow (Nat.not_le_of_lt hlt)
  | frame hframe hr hroutine hk =>
    have hstart := (ready.frame _ hr).start
    rcases h.place with ⟨hx, hi⟩ | ⟨hx, -, hlt | hthere⟩
    · have := hslot hx
      omega
    · omega
    · obtain ⟨hroutine', hi⟩ := hthere _ hr
      refine hp.apart y hy x h.entry (Or.inr ⟨Or.inl ⟨hframe, hx⟩, hroutine.trans hroutine'.symm⟩) ?_
      omega
  | argument harg hr hk =>
    obtain ⟨hlow, hhigh, -⟩ := ready.slot_param hr hk
    rcases h.place with ⟨hx, hi⟩ | ⟨hx, -, hlt | hthere⟩
    · have := hslot hx
      omega
    · omega
    · have := (hthere _ hr).2
      have := hoffset hx
      omega
  | led harg hr hk halias => exact absurd halias (h.aliases _ (ready.slot_param hr hk).1)

/-- Outside of all calls a static is guarded. -/
theorem Ready.guards_static (ready : g.Ready p) (hp : p.Sound) (hframes : g.shape.frames = [])
    (hx : p.Static x) : g.Guards p x (p.slotOf x) where
  entry := hx.bound
  bound := by
    have := hp.slotOf_lt hx
    have := ready.statics
    have := ready.good.statics
    omega
  aliases := by
    intro u _ halias
    obtain ⟨start, hstart, -⟩ := ready.good.aliases u _ halias
    simp [Shape.frameStart?, hframes] at hstart
  place := Or.inl ⟨hx.storage, rfl⟩

/-- **What is declared is guarded**: nothing stands for a slot of the frame at hand. -/
theorem Ready.guards_declared (ready : g.Ready p) (hp : p.Sound) (hx : p.Sees g.home x)
    (hstorage : (p.symbols.variableAt x).storage = g.home.storage)
    (hplace : g.Locates p x (.slot i)) : g.Guards p x i := by
  have hnoArgument : ¬ (p.symbols.variableAt x).IsArgument := by
    unfold Variable.IsArgument
    rw [hstorage]
    cases hhome : g.home with
    | none => simp [Home.storage]
    | some definition => cases definition <;> simp [Home.storage]
  cases hplace with
  | static hstatic =>
    refine ready.guards_static hp (ready.outermost ?_) ⟨hx.1, hstatic⟩
    rw [hstatic] at hstorage
    cases hhome : g.home with
    | none => rfl
    | some definition => cases definition <;> simp [Home.storage, hhome] at hstorage
  | @frame r k hframe hr hroutine hk =>
    have hseen := hx.2
    simp only [hframe] at hseen
    obtain ⟨r', hr', -, -, hlt⟩ := hseen
    obtain rfl : r = r' := Option.some.inj (hr.symm.trans hr')
    have hroom := (ready.frame r hr).room
    have hstart := (ready.frame r hr).start
    have htop := ready.good.statics_le_top
    refine ⟨hx.1, by omega, fun u _ halias => ?_, Or.inr ⟨hframe, by omega, Or.inr ?_⟩⟩
    · obtain ⟨start, hfound, hbelow⟩ := ready.good.aliases u _ halias
      have := ready.good.frameStart_le_top hfound
      have := (hbelow _ rfl).1
      omega
    · rintro r' hr'
      obtain rfl : r = r' := Option.some.inj (hr.symm.trans hr')
      exact ⟨hroutine, by omega⟩
  | argument harg => exact absurd harg hnoArgument
  | led harg => exact absurd harg hnoArgument

/-- A call that is not given the slot by reference cannot get at it. -/
theorem Guards.enter (h : g.Guards p x i) (hargs : .alias (.slot i) ∉ call.args) :
    (g.enter p call inside).Guards p x i where
  entry := h.entry
  bound := by
    have hsize : (g.enter p call inside).shape.size =
      g.shape.size + call.args.length + (p.routine call.routine).localCount := Shape.size_enter
    have := h.bound
    omega
  aliases := fun _ hu halias => hargs (Shape.mem_args_of_aliases_enter hu halias)
  place := h.place.imp_right fun ⟨hframe, hlow, _⟩ => ⟨hframe, hlow, Or.inl h.bound⟩

end Stage

end Primer
