/-
Calls are isolated from the frames of their callers.

Whatever a routine does and however it ends, its caller finds the stack as high as it was, with
the same base and the same frames, and all cells above the statics as they were, except for those
that the call itself handed over by reference.
-/
import Primer.Proofs.Run.Erasure

namespace Primer

/-- What a call leaves to its caller as it was. -/
structure Call.Isolated (statics : Nat) (call : Call) (before after : Machine σ) : Prop where
  size : after.stack.size = before.stack.size
  base : after.stack.base = before.stack.base
  depth : after.stack.depth = before.stack.depth
  calls : after.calls.size = before.calls.size
  cells : ∀ i, statics ≤ i → i < before.stack.size → .alias (.slot i) ∉ call.args →
    after.stack.cells[i]? = before.stack.cells[i]?

theorem Stage.Keeps.isolated {p : Program} {g : Stage} {call : Call} {before after : Machine σ}
    (ready : g.Ready p) (hbefore : before.At g) (h : (g.during call).Keeps p before after) :
    call.Isolated p.symbols.staticCount before after := by
  have hshape : after.stack.shape = before.stack.shape := h.stays.shape.trans hbefore.shape.symm
  have hcalls : after.calls = before.calls := h.stays.calls.trans hbefore.calls.symm
  have hsize : g.shape.size = before.stack.size := by rw [← hbefore.shape, Stack.size_shape]
  refine ⟨?_, congrArg Shape.base hshape, ?_, congrArg Array.size hcalls, ?_⟩
  · rw [← Stack.size_shape, hshape, Stack.size_shape]
  · exact congrArg List.length (congrArg Shape.frames hshape)
  · intro i hlow hhigh hargs
    refine h.cells i ?_
    rintro (hstatic | habove | hmem)
    · rw [ready.statics] at hstatic
      omega
    · omega
    · exact hargs hmem

namespace Engine

/-- **Every call that is made in a session of any program is isolated.**  The calls are those that
the journal of the session notes, and the journal changes nothing about the session. -/
theorem isolated_calls (tokens : List Token) (settings : Settings) (host : Host σ)
    (outside : Outside σ) (visits : List (Visit σ)) :
    forgetPair ((ofTokens tokens settings host).recordedSession outside visits) =
      (ofTokens tokens settings host).session outside visits ∧
    ∀ call before after,
      .ended (.run call) before after ∈ (ofTokens tokens settings host).journal outside visits →
      call.Isolated (Program.ofTokens tokens).1.symbols.staticCount before after := by
  refine ⟨recordedSession_mirrors _ outside visits, fun call before after hevent => ?_⟩
  obtain ⟨g, ready, -, hbefore, hkeeps⟩ :=
    sound_journal (sound_ofTokens tokens settings host) outside visits _ hevent
  exact hkeeps.isolated ready hbefore

/-- A routine that adds to a variable of its caller. -/
def additionSource : String :=
  "Module add(Integer Ref sum, Integer n)
    Set sum = sum + n
End Module
Module main()
    Declare Integer kept = 5
    Declare Integer total = 1
    Call add(total, kept)
End Module
"

/-- Whether a call that hands the slot over by reference ended on a stack of this size. -/
def handsOver (slot size : Nat) : Event σ → Bool
  | .ended (.run call) before _ =>
    before.stack.size = size && call.args.any fun c => c.alias? = some (.slot slot)
  | _ => false

/-- The second of two locals is handed over by reference, and the first one is not. -/
theorem isolated_calls_addition :
    ∃ call before after,
      .ended (.run call) before after ∈
        (ofTokens (scan additionSource).1 {} (Buffer.host [])).journal ⟨{}, false⟩ [.program 12] ∧
      handsOver 1 2 (.ended (.run call) before after) ∧
      call.Isolated (Program.ofTokens (scan additionSource).1).1.symbols.staticCount
        before after := by
  have hnoted : ∃ event ∈ (ofTokens (scan additionSource).1 {} (Buffer.host [])).journal
      ⟨{}, false⟩ [.program 12], handsOver 1 2 event := by
    decide +kernel
  obtain ⟨event, hevent, hcall⟩ := hnoted
  match event, hcall with
  | .ended (.run call) before after, hcall =>
    exact ⟨call, before, after, hevent, hcall,
      (isolated_calls _ _ _ _ _).2 call before after hevent⟩

end Engine

end Primer
