/-
Limits that are not reached make no difference.

A run is limited in two ways: so many calls may be active at a time, and an array may have so many
elements.  A call beyond the limit ends the run with a problem, and an array beyond the limit is left
empty with a problem.  Two runs that differ in these limits go step by step until the one with the
lower limits records such a problem.  So if it never does, the limits could as well have been higher.
-/
import Primer.Proofs.Run.Log

namespace Primer

/-- The problem tells that a limit was reached. -/
def Machine.Problem.tellsLimit : Machine.Problem → Bool
  | .callDepth .. | .oversizedArray .. => true
  | _ => false

/-- The other settings allow as much, and otherwise they are the same. -/
structure Settings.Within (low high : Settings) : Prop where
  autoMain : high.autoMain = low.autoMain
  calls : low.callDepth ≤ high.callDepth
  arrays : low.arrayElements ≤ high.arrayElements

/-- The states are the same until a limit is reached. -/
def Likeness.limited : Likeness σ σ := .linked id Outside.stop_id fun problem => problem.tellsLimit

theorem Settings.Within.alike {low high : Settings} (h : low.Within high) :
    low.Alike (fun problem => problem.tellsLimit) high :=
  ⟨h.autoMain, Or.inr ⟨h.calls, fun _ => rfl⟩, Or.inr ⟨h.arrays, fun _ => rfl⟩⟩

theorem Visit.alike_id (visit : Visit σ) : visit.Alike id visit := by
  cases visit with
  | program fuel => rfl
  | routine fuel name args => exact ⟨rfl, rfl, rfl⟩
  | between change => exact fun _ _ => rfl

namespace Engine

/-- No limit was reached in the runs that came to these outcomes. -/
def WithinLimits (outcomes : List Outcome) : Prop :=
  ∀ o ∈ outcomes, ∀ q ∈ o.problems, q.1.tellsLimit = false

/-- A session that does not reach its limits is the same with higher limits. -/
theorem session_within (engine : Engine σ) {high : Settings} (h : engine.settings.Within high)
    {outside : Outside σ} {visits : List (Visit σ)}
    (hquiet : WithinLimits (engine.session outside visits).1) :
    (⟨engine.program, high, engine.host⟩ : Engine σ).session outside visits =
      engine.session outside visits := by
  have hhost : engine.host.Alike Likeness.limited engine.host :=
    ⟨fun _ => rfl, fun _ _ => rfl, fun _ _ _ _ => rfl⟩
  have hvisits : visits.Forall₂ (Visit.Alike id) visits := by
    rw [List.forall₂_same]
    exact fun visit _ => visit.alike_id
  refine (sessionBy_linked h.alike (level_linked h.alike hhost) hvisits
    (engine.start outside)).resolve_left ?_
  rintro ⟨o, ho, q, hq, htells⟩
  rw [hquiet o ho q hq] at htells
  cases htells

/-- **Limits that are not reached make no difference.**  With higher limits the runs come to the same,
with the same problems, the same machine is left behind, the statics among it, and the same passes
between program and host. -/
theorem limits_are_transparent (tokens : List Token) (low high : Settings) (h : low.Within high)
    (host : Host σ) (outside : Outside σ) (visits : List (Visit σ))
    (hquiet : WithinLimits ((ofTokens tokens low host).session outside visits).1) :
    (ofTokens tokens high host).session outside visits =
        (ofTokens tokens low host).session outside visits ∧
      (ofTokens tokens high host).interactions outside visits =
        (ofTokens tokens low host).interactions outside visits := by
  have hlogged := (ofTokens tokens low host).loggedSession_mirrors outside visits
  refine ⟨session_within (ofTokens tokens low host) h hquiet, ?_⟩
  -- The session with a log does not reach the limits either.
  rw [hlogged] at hquiet
  have hsame := session_within (ofTokens tokens low host).logging h hquiet
  exact congrArg (fun found => found.2.outside.state.log) hsame

/-- A program that has two calls active at a time and an array of four elements. -/
def squares : List Token :=
  (scan
    "Function Integer product(Integer a, Integer b)
    Return a * b
End Function
Function Integer square(Integer n)
    Return product(n, n)
End Function
Declare Integer found[4]
Set found[3] = square(5)
Display found[3]
").1

set_option maxRecDepth 10000 in
theorem limits_are_transparent_squares :
    WithinLimits ((ofTokens squares { callDepth := 2, arrayElements := 4 } (Buffer.host [])).session
      ⟨{}, false⟩ [.program 12]).1 ∧
    (ofTokens squares {} (Buffer.host [])).session ⟨{}, false⟩ [.program 12] =
      (ofTokens squares { callDepth := 2, arrayElements := 4 } (Buffer.host [])).session
        ⟨{}, false⟩ [.program 12] ∧
    (ofTokens squares {} (Buffer.host [])).interactions ⟨{}, false⟩ [.program 12] =
      (ofTokens squares { callDepth := 2, arrayElements := 4 } (Buffer.host [])).interactions
        ⟨{}, false⟩ [.program 12] := by
  have hwithin : ({ callDepth := 2, arrayElements := 4 } : Settings).Within {} :=
    ⟨rfl, by decide, by decide⟩
  have hquiet : WithinLimits ((ofTokens squares { callDepth := 2, arrayElements := 4 }
      (Buffer.host [])).session ⟨{}, false⟩ [.program 12]).1 := by
    rw [WithinLimits, squares, scan, String.toList_ofList]
    decide +kernel
  exact ⟨hquiet, limits_are_transparent squares _ _ hwithin _ _ _ hquiet⟩

end Engine

end Primer
