import LabelLoop.Text.Basic

/-!
# Spans of literals

A string literal of a source is given by the positions at which it starts and ends.  A scanner
lists the literals of a source from left to right.
-/

namespace LabelLoop.Literal

/-- A **span**: the characters from position `start` up to, but not including, `stop`. -/
structure Span where
  start : Nat
  stop : Nat
  deriving DecidableEq, Repr

/-- A **scanner** finds the literals of a source. -/
abbrev Scanner := Text → List Span

end LabelLoop.Literal
