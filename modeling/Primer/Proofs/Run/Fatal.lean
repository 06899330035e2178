/-
Which problems can end a run.

A run ends early when the host asks for it and when calls are nested too deep.  The other fatal
problems say that the machine has lost its way: a variable outside of its frame, a field without
an object, a frame that is gone.  The first and the last never come up.  A field without an object
takes a routine written inside a method, which is an error of the program, so in a program without
errors that does not come up either.
-/
import Primer.Proofs.Run.Session

namespace Primer

namespace Engine

/-- **In a program without errors, only the host and the limit on calls can end a run.** -/
theorem fatal_only_by_host_or_limit (source : String)
    (hsource : ∀ d ∈ (Program.ofSource source).2, d.isError = false) (settings : Settings)
    (host : Host σ) (outside : Outside σ) (visits : List (Visit σ)) :
    ∀ o ∈ (session ⟨(Program.ofSource source).1, settings, host⟩ outside visits).1,
      ∀ q ∈ o.problems, q.1.isFatal →
        q.1 = .hostStop ∨ ∃ limit name, q.1 = .callDepth limit name := by
  intro o ho q hq hfatal
  have hp := sound_ofTokens (scan source).1 settings host
  have hallowed := (atRest_session hp outside visits).2 o ho q hq hfatal
  rcases hallowed with hstop | hdepth | ⟨hnested, -⟩
  · exact Or.inl hstop
  · exact Or.inr hdepth
  · exact absurd (Program.unnested_ofSource hsource) hnested

/-- A method that calls itself by name for ever. -/
def towerSource : String :=
  "Class Tower
    Integer floors = 0
    Public Module grow()
        Set floors = floors + 1
        Call grow()
    End Module
End Class
Declare Tower tower = New Tower()
Call tower.grow()
"

theorem fatal_only_by_host_or_limit_tower :
    (∀ d ∈ (Program.ofSource towerSource).2, d.isError = false) ∧
    ∃ o ∈ (session ⟨(Program.ofSource towerSource).1, { callDepth := 2 }, Buffer.host []⟩ ⟨{}, false⟩
        [.program 20]).1,
      ∃ q ∈ o.problems, q.1.isFatal ∧
        (q.1 = .hostStop ∨ ∃ limit name, q.1 = .callDepth limit name) := by
  have hsource : ∀ d ∈ (Program.ofSource towerSource).2, d.isError = false := by decide +kernel
  have hfatal : ∃ o ∈ (session ⟨(Program.ofSource towerSource).1, { callDepth := 2 },
      Buffer.host []⟩ ⟨{}, false⟩ [.program 20]).1, ∃ q ∈ o.problems, q.1.isFatal := by
    decide +kernel
  obtain ⟨o, ho, q, hq, hend⟩ := hfatal
  exact ⟨hsource, o, ho, q, hq, hend,
    fatal_only_by_host_or_limit towerSource hsource _ _ _ _ o ho q hq hend⟩

end Engine

end Primer
