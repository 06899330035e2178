/-
A fatal problem is the end.

When a visit has recorded a fatal problem, or has come to a statement that stops it, it is over:
nothing more is recorded, the host is not asked for anything, and nothing that stays is changed.
The other way round, nothing else stops a visit, except that the host asks for it.
-/
import Primer.Proofs.Run.Abrupt
import Primer.Proofs.Run.Ending

namespace Primer

namespace Engine

variable {engine : Engine σ} {visit : Visit σ} {m : Machine σ} {o : Outcome}
  {last : Machine (Recording σ)}

theorem EndedIn.outside (h : engine.EndedIn visit m o last) :
    (engine.visitBy engine.level visit m).2.outside.stop = last.outside.stop := by
  rw [← recordedVisit_mirrors engine visit m]
  show (engine.recordedVisit visit m).2.outside.stop = _
  rw [h.machine]

end Engine

end Primer
