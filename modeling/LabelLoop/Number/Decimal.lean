import LabelLoop.Number.Binary64
import LabelLoop.Text.Basic

/-!
# Binary numbers in decimal digits

The decimal digits of the magnitude of a finite binary number: the fewest that are read as the same
number, or so many digits after the point, or so many significant digits, each time rounded to the
nearest.  Beside them stand the two ways to lay digits out, positional and scientific.
-/

namespace LabelLoop.Binary64

open Text

/-- **Decimal digits** and the place of the point: `point` of the digits stand before it; if that
is negative, so many zeros stand between the point and the first digit. -/
structure Digits where
  digits : Text
  point : Int
  deriving DecidableEq, Repr

/-! ### Choosing digits -/

/-- The power of ten that `num / den`, which is not zero, reaches: it lies between `10 ^ k` and
`10 ^ (k + 1)`. -/
def leading (num den : Nat) : Int :=
  let k : Int := (digitCount num : Int) - digitCount den
  let reached :=
    if 0 ≤ k then den * Nat.pow 10 k.toNat ≤ num else den ≤ num * Nat.pow 10 (-k).toNat
  if reached then k else k - 1

/-- The quotient `num / den` in units of `10 ^ e`, as a quotient of two whole numbers. -/
def inUnits (num den : Nat) (e : Int) : Nat × Nat :=
  if 0 ≤ e then (num, den * Nat.pow 10 e.toNat) else (num * Nat.pow 10 (-e).toNat, den)

/-- The nearer of the two whole numbers around `num / den` that `good` accepts, and the even one if
both are equally near. -/
def nearestGood? (good : Nat → Bool) (num den : Nat) : Option Nat :=
  let low := num / den
  match good low, good (low + 1) with
  | true, true => some (roundDiv num den)
  | true, false => some low
  | false, true => some (low + 1)
  | false, false => none

/-- The digits of a magnitude, `count` of them, that are read as the same magnitude. -/
def shortestOf? (magnitude count : Nat) : Option Digits :=
  let e := leading magnitude unit - count + 1
  let (num, den) := inUnits magnitude unit e
  let good (d : Nat) : Bool := (ofDecimal false d e).magnitude = magnitude
  (nearestGood? good num den).map fun d =>
    let digits := Nat.toDigits 10 d
    ⟨(digits.reverse.dropWhile (· = '0')).reverse, digits.length + e⟩

/-- **The fewest digits** that are read as the same magnitude, and the nearest of those; seventeen
are always enough. -/
def shortest (magnitude : Nat) : Digits :=
  if magnitude = 0 then ⟨['0'], 1⟩
  else ((List.range 17).findSome? fun n => shortestOf? magnitude (n + 1)).getD ⟨['0'], 1⟩

/-- The digits of a magnitude up to `places` digits after the point. -/
def upTo (magnitude places : Nat) : Digits :=
  let digits := Nat.toDigits 10 (roundDiv (magnitude * Nat.pow 10 places) unit)
  let padded := List.replicate (places + 1 - digits.length) '0' ++ digits
  ⟨padded, (padded.length : Int) - places⟩

/-- The first `count + 1` significant digits of a magnitude. -/
def significant (magnitude count : Nat) : Digits :=
  if magnitude = 0 then ⟨List.replicate (count + 1) '0', 1⟩
  else
    let k := leading magnitude unit
    let (num, den) := inUnits magnitude unit (k - count)
    let digits := Nat.toDigits 10 (roundDiv num den)
    ⟨digits.take (count + 1), k + 1 + (digits.length - (count + 1) : Nat)⟩

/-! ### Laying digits out -/

/-- The digits before the point, at least one, and those after it. -/
def Digits.split (d : Digits) : Text × Text :=
  if d.point ≤ 0 then (['0'], List.replicate (-d.point).toNat '0' ++ d.digits)
  else
    let n := d.point.toNat
    (d.digits.take n ++ List.replicate (n - d.digits.length) '0', d.digits.drop n)

/-- An exponent with its sign, in at least two digits. -/
def exponentText (e : Int) : Text :=
  let digits := Text.ofNat e.natAbs
  (if e < 0 then '-' else '+') :: List.replicate (2 - digits.length) '0' ++ digits

/-- A whole part and a fraction with a point between them; without a fraction the point is left out
unless `pointed` asks for it. -/
def joinFraction (pointed : Bool) (whole fraction : Text) : Text :=
  if fraction.isEmpty && !pointed then whole else whole ++ '.' :: fraction

/-- Digits in **positional** notation. -/
def Digits.positional (d : Digits) (pointed : Bool) : Text :=
  joinFraction pointed d.split.1 d.split.2

/-- Digits in **scientific** notation, with the given mark before the exponent. -/
def Digits.scientific (d : Digits) (pointed : Bool) (mark : Char) : Text :=
  joinFraction pointed (d.digits.take 1) (d.digits.drop 1) ++ mark :: exponentText (d.point - 1)

/-- Digits without the zeros at their end, of which the first `kept` digits stay. -/
def Digits.trim (d : Digits) (kept : Nat) : Digits :=
  let rest := ((d.digits.drop kept).reverse.dropWhile (· = '0')).reverse
  { d with digits := d.digits.take kept ++ rest }

/-! ### The written form -/

/-- The sign of a number, where there is one to write. -/
def signText (x : Binary64) : Text :=
  if x.isNegative then ['-'] else []

/-- **The written form** of a number: the fewest digits, with a fraction, and in positional notation
from a ten-thousandth up to, but not including, ten to the sixteenth.  The words are for the numbers
that are not finite. -/
def written (infinity nan : Text) (x : Binary64) : Text :=
  match x with
  | .nan => nan
  | .infinite _ => x.signText ++ infinity
  | .finite .. =>
    let d := shortest x.magnitude
    x.signText ++
      if -4 < d.point && d.point ≤ 16 then
        let (whole, fraction) := d.split
        whole ++ '.' :: (if fraction.isEmpty then ['0'] else fraction)
      else d.scientific false 'e'

end LabelLoop.Binary64
