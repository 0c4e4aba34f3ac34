/-!
# Binary numbers of double precision

A finite number is `m · 2 ^ s` steps, where a step is `2 ^ (-1074)`, the mantissa `m` has at most
53 bits, and the scale `s` is at most 2045.  It is in normal form: a mantissa of fewer than 53 bits
has the scale 0.  Everything is counted in steps, so the arithmetic on magnitudes is exact
arithmetic on natural numbers.

A quotient is read as the nearest number there is, and as the one with an even mantissa if two are
equally near.
-/

namespace LabelLoop

/-- A **binary number** of double precision. -/
inductive Binary64 where
  /-- The number of `mantissa · 2 ^ scale` steps; zero has a sign too. -/
  | finite (negative : Bool) (mantissa scale : Nat)
  | infinite (negative : Bool)
  | nan
  deriving DecidableEq, Repr

/-- The whole number nearest to `a / b`, and the even one of two that are equally near. -/
def roundDiv (a b : Nat) : Nat :=
  let q := a / b
  let r := 2 * (a % b)
  if b < r || (r = b && q % 2 = 1) then q + 1 else q

/-- A rounded quotient is at most half a unit away from the exact one. -/
theorem roundDiv_near (a : Nat) {b : Nat} (hb : 0 < b) :
    2 * a ≤ 2 * (b * roundDiv a b) + b ∧ 2 * (b * roundDiv a b) ≤ 2 * a + b := by
  have h := Nat.div_add_mod a b
  have hr := Nat.mod_lt a hb
  unfold roundDiv
  dsimp only
  split
  · rename_i hc
    have : b ≤ 2 * (a % b) := by
      simp only [Bool.or_eq_true, Bool.and_eq_true, decide_eq_true_eq] at hc
      omega
    rw [Nat.mul_add]
    omega
  · rename_i hc
    have : 2 * (a % b) ≤ b := by
      simp only [Bool.or_eq_true, decide_eq_true_eq] at hc
      omega
    omega

namespace Binary64

/-- How many steps make one. -/
def unit : Nat :=
  Nat.shiftLeft 1 1074

/-- The number of steps of a finite number, without its sign; the other numbers have none. -/
def magnitude : Binary64 → Nat
  | .finite _ m s => m.shiftLeft s
  | _ => 0

/-- The number is finite and below zero, or minus zero. -/
def isNegative : Binary64 → Bool
  | .finite n _ _ => n
  | .infinite n => n
  | .nan => false

/-- The number with a given sign and `m · 2 ^ s` steps, where `m` has at most 53 bits or is the
smallest number with more. -/
def ofSteps (negative : Bool) (m s : Nat) : Binary64 :=
  let (m, s) := if m = Nat.shiftLeft 1 53 then (Nat.shiftLeft 1 52, s + 1) else (m, s)
  if s ≤ 2045 then .finite negative m s else .infinite negative

/-- **The number nearest** to a quotient, with a given sign. -/
def ofQuotient (negative : Bool) (num den : Nat) : Binary64 :=
  let steps := num * unit
  let s := (steps / den).log2 - 52
  ofSteps negative (roundDiv steps (den.shiftLeft s)) s

/-- The number of decimal digits of a natural number. -/
def digitCount (n : Nat) : Nat :=
  (Nat.toDigits 10 n).length

/-- The number nearest to `digits · 10 ^ exponent`, with a given sign.  Numbers that are far beyond
the largest or below the smallest are not worked out. -/
def ofDecimal (negative : Bool) (digits : Nat) (exponent : Int) : Binary64 :=
  let top := digitCount digits + exponent
  if digits = 0 || top < -330 then .finite negative 0 0
  else if 310 < top then .infinite negative
  else if 0 ≤ exponent then ofQuotient negative (digits * Nat.pow 10 exponent.toNat) 1
  else ofQuotient negative digits (Nat.pow 10 (-exponent).toNat)

/-- A finite number without a fraction. -/
def isWhole : Binary64 → Bool
  | x@(.finite ..) => x.magnitude % unit = 0
  | _ => false

/-- The whole part of a finite number: its fraction is cut off. -/
def truncate (x : Binary64) : Int :=
  let n : Int := x.magnitude / unit
  if x.isNegative then -n else n

end Binary64

end LabelLoop
