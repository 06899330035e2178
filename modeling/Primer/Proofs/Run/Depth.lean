/-
The limit on calls.

There are never more routines being run than the limit allows, counting on the way the objects that
are being made.  A routine that is called at the limit is the end of the run, with one fatal problem
that says so.  Objects themselves are not counted when they are made: their fields may make other
objects, and these again others, however many calls are active.
-/
import Primer.Proofs.Run.Ending

namespace Primer

namespace Engine

variable {engine : Engine σ} {visit : Visit σ} {m s : Machine σ}

theorem bounded_noted (hp : engine.program.Sound) (hm : m.AtRest engine.program) :
    ∀ event ∈ engine.noted visit m, event.Bounded engine.settings.callDepth := by
  cases ho : (engine.visitBy engine.level visit m).1 with
  | none =>
    rw [noted_eq_nil ho]
    exact List.forall_mem_nil _
  | some o =>
    obtain ⟨last, hlast, hend⟩ := calm_or_broken hp hm ho
    rw [hlast.journal]
    rcases hend with ⟨-, hcalm⟩ | ⟨-, hbroken⟩ | ⟨-, hbroken⟩
    · exact hcalm.bounded
    · exact hbroken.bounded
    · exact hbroken.bounded

theorem Met.bounded {events : List (Event σ)} (h : engine.Met events s)
    (hevents : ∀ event ∈ events, event.Bounded engine.settings.callDepth) :
    s.Bounded engine.settings.callDepth := by
  cases h with
  | begun h => exact hevents _ h
  | entered h hlimit =>
    rename_i call s
    have hs : s.Bounded engine.settings.callDepth := hevents _ h
    have hdepth : (s.enter call.this call.args
        (engine.program.routine call.routine).localCount).stack.depth = s.stack.depth + 1 := by
      simp only [Machine.enter, Stack.foldl_push, Stack.pushFrame, Stack.depth, List.length_cons]
    have hcalls : (s.enter call.this call.args
        (engine.program.routine call.routine).localCount).calls.size = s.calls.size + 1 := by
      simp [Machine.enter]
    unfold Machine.Bounded at hs ⊢
    omega
  | ended h => exact hevents _ h

theorem MetIn.bounded (hp : engine.program.Sound) (hm : m.AtRest engine.program)
    (h : engine.MetIn visit m s) : s.Bounded engine.settings.callDepth := by
  cases h with
  | noted h => exact h.bounded (bounded_noted hp hm)
  | rested =>
    have hframes : (engine.visitBy engine.level visit m).2.stack.frames = [] :=
      congrArg Shape.frames (atRest_visitBy hp hm visit).stays.shape
    unfold Machine.Bounded Stack.depth
    rw [hframes]
    exact ⟨Nat.zero_le _, Nat.zero_le _⟩

/-- An object whose field makes another object, where one call may be active. -/
def nested : Engine Buffer :=
  ofTokens (scan
    "Class Inner
    Integer v = 1
End Class
Class Outer
    Inner i = New Inner()
End Class
Declare Outer o = New Outer()
Display \"made\"
").1 { callDepth := 1 } (Buffer.host [])

end Engine

end Primer
