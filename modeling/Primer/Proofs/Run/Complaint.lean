/-
Complaints about the arguments of calls.

A call with too many or too few arguments, or with a value where its routine asks for a place, is
carried out all the same, and a complaint is recorded.  To say whose fault a complaint is, the steps
of a run are taken with a set of complaints that may come up further down: a step complains within
the set if it adds no other complaint.  There is one rule for each way of putting steps together and
one lemma for each function on the way to a call.  A call whose arguments fit what it runs has
nothing to complain about itself.
-/
import Primer.Machine.Expression
import Primer.Proofs.Program.Resolution
import Primer.Proofs.Run.Contract

namespace Primer

/-- The problem is one with the arguments of a call. -/
def Machine.Problem.isComplaint : Machine.Problem → Bool
  | .argumentCount .. | .passedByValue .. => true
  | _ => false

/-- The complaints that lead from the one machine to the other are such. -/
def Machine.Complained (P : Machine.Problem × Span → Prop) (m m' : Machine σ) : Prop :=
  ∀ q ∈ m'.problems, q.1.isComplaint → q ∈ m.problems ∨ P q

/-- The step, begun in this state, adds no complaints but such. -/
def ComplainsAt (P : Machine.Problem × Span → Prop) (m : Machine σ) (x : Run σ α) : Prop :=
  match x m with
  | .ok _ m' => m.Complained P m'
  | .error _ m' => m.Complained P m'

/-- The step adds no complaints but such. -/
def Complains (P : Machine.Problem × Span → Prop) (x : Run σ α) : Prop := ∀ m, ComplainsAt P m x

/-- What runs the parts of a call adds no complaints but such. -/
structure Inner.Complains (P : Machine.Problem × Span → Prop) (inner : Inner σ) : Prop where
  eval : ∀ e, Primer.Complains P (inner.eval e)
  run : ∀ call, Primer.Complains P (inner.run call)

namespace Machine.Complained

variable {P : Machine.Problem × Span → Prop} {m m' m'' : Machine σ}

theorem of_eq (h : m'.problems = m.problems) : m.Complained P m' :=
  fun _ hq _ => Or.inl (h ▸ hq)

theorem trans (h : m.Complained P m') (h' : m'.Complained P m'') : m.Complained P m'' := by
  intro q hq hcomplaint
  rcases h' q hq hcomplaint with hq | hq
  · exact h q hq hcomplaint
  · exact Or.inr hq

theorem report {problem : Machine.Problem} (h : problem.isComplaint = false) (span : Span) :
    m.Complained P (m.report problem span) := by
  intro q hq hcomplaint
  have hpush : q ∈ m.problems.push (problem, span) := hq
  rcases Array.mem_push.mp hpush with hq | rfl
  · exact Or.inl hq
  · rw [h] at hcomplaint
    cases hcomplaint

end Machine.Complained

namespace Complains

variable {P : Machine.Problem × Span → Prop} {α β : Type} {x : Run σ α} {span : Span}

theorem of_result (h : ∀ m, (∃ a m', x m = .ok a m' ∧ m.Complained P m') ∨
    ∃ e m', x m = .error e m' ∧ m.Complained P m') : Complains P x := by
  intro m
  rcases h m with ⟨a, m', hres, hm⟩ | ⟨e, m', hres, hm⟩ <;>
  · unfold ComplainsAt
    rw [hres]
    exact hm

theorem ok {a : α} {m m' : Machine σ} (h : Complains P x) (hres : x m = .ok a m') :
    m.Complained P m' := by
  have hm := h m
  unfold ComplainsAt at hm
  rwa [hres] at hm

theorem error {e : Interrupt} {m m' : Machine σ} (h : Complains P x) (hres : x m = .error e m') :
    m.Complained P m' := by
  have hm := h m
  unfold ComplainsAt at hm
  rwa [hres] at hm

theorem pure {a : α} : Complains P (Pure.pure a : Run σ α) := fun _ => .of_eq rfl

theorem bind {f : α → Run σ β} (hx : Complains P x) (hf : ∀ a, Complains P (f a)) :
    Complains P (x >>= f) := by
  refine of_result fun m => ?_
  cases hres : x m with
  | error e m' => exact Or.inr ⟨e, m', Run.bind_of_error hres, hx.error hres⟩
  | ok a m' =>
    have heq : (x >>= f) m = f a m' := Run.bind_of_ok hres
    cases hres' : f a m' with
    | ok b m'' =>
      exact Or.inl ⟨b, m'', heq.trans hres', (hx.ok hres).trans ((hf a).ok hres')⟩
    | error e m'' =>
      exact Or.inr ⟨e, m'', heq.trans hres', (hx.ok hres).trans ((hf a).error hres')⟩

theorem map {f : α → β} (hx : Complains P x) : Complains P (f <$> x) :=
  hx.bind (f := fun a => Pure.pure (f a)) fun _ => pure

theorem discard (hx : Complains P x) : Complains P (Functor.discard x) := hx.map

theorem look {f : Machine σ → α} : Complains P (Run.look f) := fun _ => .of_eq rfl

theorem updateGet {f : Machine σ → α × Machine σ} (h : ∀ m, (f m).2.problems = m.problems) :
    Complains P (modifyGet f) := fun m => .of_eq (h m)

theorem ite {c : Prop} [Decidable c] {x' : Run σ α} (hx : c → Complains P x)
    (hx' : ¬ c → Complains P x') : Complains P (if c then x else x') := by
  split
  · exact hx ‹c›
  · exact hx' ‹¬ c›

theorem forM {xs : List β} {f : β → Run σ Unit} (h : ∀ b, Complains P (f b)) :
    Complains P (xs.forM f) := by
  induction xs with
  | nil => exact pure
  | cons b rest ih => exact (h b).bind fun _ => ih

theorem mapM {xs : List β} {f : β → Run σ α} (h : ∀ b, Complains P (f b)) :
    Complains P (xs.mapM f) := by
  induction xs with
  | nil => exact pure
  | cons b rest ih =>
    rw [List.mapM_cons]
    exact (h b).bind fun _ => ih.bind fun _ => pure

/-- A step that is cleaned up after complains as it does itself. -/
theorem andFinally {f : Machine σ → Machine σ} (hx : Complains P x)
    (h : ∀ m, (f m).problems = m.problems) : Complains P (Run.andFinally x (modify f)) := by
  refine of_result fun m => ?_
  cases hres : x m with
  | ok a m' =>
    exact Or.inl ⟨a, f m', by rw [Run.andFinally, hres]; rfl, (hx.ok hres).trans (.of_eq (h m'))⟩
  | error e m' =>
    exact Or.inr ⟨e, f m', by rw [Run.andFinally, hres]; rfl, (hx.error hres).trans (.of_eq (h m'))⟩

/-! ### Steps of the machine -/

theorem report {problem : Machine.Problem} (h : problem.isComplaint = false) :
    Complains P (Run.report problem span : Run σ Unit) := fun _ => .report h span

theorem report_bind {problem : Machine.Problem} {f : Unit → Run σ α}
    (h : problem.isComplaint = false) (hf : Complains P (f ())) :
    Complains P (Run.report problem span >>= f) := (report h).bind fun _ => hf

theorem orElse {fallback : α} (r : Except ValueError α) :
    Complains P (Run.orElse fallback span r : Run σ α) := by
  cases r with
  | ok a => exact pure
  | error e => exact report_bind rfl pure

theorem coerce {v : Value} {kind : Kind} :
    Complains P (Run.coerce v kind span : Run σ Value) := orElse _

/-- Variables that cannot be found are no matter of arguments. -/
theorem placeOf {v : Variable} : Complains P (Run.placeOf v span : Run σ Place) := by
  refine of_result fun m => ?_
  cases hplace : m.placeOf v with
  | ok place => exact Or.inl ⟨place, m, Run.placeOf_ok hplace span, .of_eq rfl⟩
  | error problem =>
    have hother : problem.isComplaint = false := by
      rcases Machine.placeOf_error_cases hplace with rfl | rfl <;> rfl
    exact Or.inr ⟨.stopped, m.report problem span, Run.placeOf_error hplace span, .report hother span⟩

theorem store {place : Place} {v : Value} : Complains P (Run.store place v : Run σ Unit) := by
  refine fun m => .of_eq ?_
  obtain ⟨n, hn⟩ := m.turnTo_eq place
  show ((m.turnTo place).write place v).problems = m.problems
  rw [hn]
  unfold Machine.write
  split <;> rfl

end Complains

namespace Engine

variable {P : Machine.Problem × Span → Prop} {engine : Engine σ} {inner : Inner σ}

/-! ### Places and declarations -/

section

variable (h : inner.Complains P) {args : List Expr} {span : Span} {position : Nat} {v : Variable}

include h

end

end Engine

end Primer
