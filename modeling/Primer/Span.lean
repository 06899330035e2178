/-
Regions of a source text.

A span counts characters from the start of the text; its line is the one the span
starts on, counted from one.
-/
namespace Primer

/-- The characters from `start` up to, not including, `stop`. -/
structure Span where
  start : Nat
  stop : Nat
  line : Nat
  deriving DecidableEq, Repr, Inhabited

namespace Span

/-- The span of no text at all. -/
def nowhere : Span := ⟨0, 0, 0⟩

/-- The one character at `position`. -/
def single (position line : Nat) : Span := ⟨position, position + 1, line⟩

/-- The smallest span that covers both. -/
def cover (a b : Span) : Span :=
  ⟨min a.start b.start, max a.stop b.stop, min a.line b.line⟩

def length (a : Span) : Nat := a.stop - a.start

def isEmpty (a : Span) : Bool := a.length == 0

end Span

end Primer
