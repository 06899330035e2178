/-
An interrupted run does nothing more.

When a run is interrupted, the calls that are active are still closed one after another and the
objects that are being made are given up.  Here is a second way to run a program, which closes
nothing: the moment of the interruption is the end.  The two ways go step by step up to that moment.
What a run that was interrupted leaves behind is therefore what there was at that moment, less the
frames of the calls that were active.
-/
import Primer.Proofs.Run.Erasure

namespace Primer

/-! ### Running abruptly -/

namespace Engine

open Run

end Engine

/-! ### What is left -/

/-- The first machine is what remains of the second one when frames are dropped from its stack. -/
structure Machine.Remains (m m' : Machine σ) : Prop where
  cells : ∀ i, i < m.stack.size → m.stack.cells[i]? = m'.stack.cells[i]?
  heap : m.heap = m'.heap
  problems : m.problems = m'.problems
  stopReported : m.stopReported = m'.stopReported
  outside : m.outside = m'.outside

theorem Stack.cells_popFrame_of_lt {s : Stack} {i : Nat} (hi : i < s.popFrame.size) :
    i < s.size ∧ s.popFrame.cells[i]? = s.cells[i]? := by
  unfold popFrame at hi ⊢
  split
  · rename_i hframes
    rw [hframes] at hi
    exact ⟨hi, rfl⟩
  · rename_i saved rest hframes
    rw [hframes] at hi
    simp only [size, Array.shrink_eq_take, Array.take_eq_extract, Array.size_extract] at hi ⊢
    refine ⟨by omega, ?_⟩
    rw [Array.getElem?_extract, if_pos (by omega), Nat.zero_add]

theorem Machine.Remains.leave {m m' : Machine σ} (h : m.Remains m') : m.leave.Remains m' := by
  refine ⟨fun i hi => ?_, h.heap, h.problems, h.stopReported, h.outside⟩
  obtain ⟨hlt, hcell⟩ := Stack.cells_popFrame_of_lt hi
  exact hcell.trans (h.cells i hlt)

theorem Machine.Remains.made {m m' : Machine σ} (h : m.Remains m') : m.made.Remains m' :=
  ⟨h.cells, h.heap, h.problems, h.stopReported, h.outside⟩

/-- The states are the same, up to what is dropped after an interruption. -/
def Likeness.abrupt : Likeness σ σ where
  link := id
  Left := Machine.Remains
  stop := Outside.stop_id
  left := fun _ => ⟨fun _ _ => rfl, rfl, rfl, rfl, rfl⟩
  problems := fun h => h.problems.symm
  handed := fun h => ⟨h.cells, h.heap, rfl, h.stopReported, h.outside⟩

theorem Host.alike_self (host : Host σ) : host.Alike Likeness.abrupt host :=
  ⟨fun _ => rfl, fun _ _ => rfl, fun _ _ _ _ => rfl⟩

namespace Engine

variable {engine : Engine σ} {inner plain : Inner σ} (h : inner.Follows .abrupt plain)

include h

end Engine

namespace Engine

variable {engine : Engine σ}

end Engine

end Primer
