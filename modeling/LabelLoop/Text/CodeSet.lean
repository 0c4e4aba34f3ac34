import LabelLoop.Text.Basic

/-!
# Sets of code points

A property of characters is kept as the increasing list of the code points at which it changes:
it starts to hold at the first, stops at the second, starts again at the third, and so on.  A
code point has the property when an odd number of the bounds lie at or below it.
-/

namespace LabelLoop.Text

/-- A **set of code points**, given by the code points at which membership changes. -/
structure CodeSet where
  bounds : List Nat

namespace CodeSet

/-- `n` lies in the set that `bounds` describes: the number of bounds up to `n` is odd. -/
def holdsAt : List Nat → Nat → Bool
  | [], _ => false
  | b :: bs, n => if n < b then false else !holdsAt bs n

/-- `c` belongs to the set. -/
def contains (s : CodeSet) (c : Char) : Bool :=
  holdsAt s.bounds c.toNat

end CodeSet

end LabelLoop.Text
