import LabelLoop.Number.Binary64
import Mathlib.Algebra.Order.Field.Power
import Mathlib.Data.Rat.Cast.Order
import Mathlib.Tactic.FieldSimp
import Mathlib.Tactic.Linarith
import Mathlib.Tactic.Ring

/-!
# Rounding to binary numbers

A number is read as the binary number nearest to it, so a number that is near enough to a binary
number is read as that one.  Near enough is a relative distance of `10 ^ (-16) / 2`
(`ofQuotient_of_near`, `ofDecimal_of_near`): a mantissa below `2 ^ 53` keeps this below half the
distance to the next binary number, and below a quarter of it at a power of two, where the numbers
underneath lie twice as close.

Everything that is read is in normal form (`proper_ofDecimal`), and a binary number in normal form
is given by its magnitude and sign (`Proper.eq_of_magnitude`).
-/

namespace LabelLoop

/-! ### Rounded quotients -/

/-- What is less than half a unit away from the exact quotient is the rounded one. -/
theorem roundDiv_eq_of_near {a b c : Nat} (hlo : 2 * (b * c) < 2 * a + b)
    (hhi : 2 * a < 2 * (b * c) + b) : roundDiv a b = c := by
  have hb : 0 < b := by omega
  obtain ⟨hle, hge⟩ := roundDiv_near a hb
  -- two whole numbers that are both so near lie less than one apart
  have h₁ : b * roundDiv a b < b * (c + 1) := by rw [Nat.mul_add]; omega
  have h₂ : b * c < b * (roundDiv a b + 1) := by rw [Nat.mul_add]; omega
  have := Nat.lt_of_mul_lt_mul_left h₁
  have := Nat.lt_of_mul_lt_mul_left h₂
  omega

/-- A rounded quotient does not change if both numbers grow by the same factor. -/
theorem roundDiv_mul_mul (a b : Nat) {k : Nat} (hk : 0 < k) :
    roundDiv (a * k) (b * k) = roundDiv a b := by
  have hdiv : a * k / (b * k) = a / b := Nat.mul_div_mul_right a b hk
  have hmod : 2 * (a * k % (b * k)) = 2 * (a % b) * k := by
    rw [Nat.mul_mod_mul_right, Nat.mul_assoc]
  have hlt : b * k < 2 * (a % b) * k ↔ b < 2 * (a % b) := Nat.mul_lt_mul_right hk
  have heq : 2 * (a % b) * k = b * k ↔ 2 * (a % b) = b := Nat.mul_left_inj (Nat.ne_of_gt hk)
  unfold roundDiv
  dsimp only
  rw [hdiv, hmod]
  simp only [hlt, heq]

/-- A rounded quotient depends on the quotient only. -/
theorem roundDiv_congr {a b c d : Nat} (hb : 0 < b) (hd : 0 < d) (h : a * d = c * b) :
    roundDiv a b = roundDiv c d :=
  calc roundDiv a b = roundDiv (a * d) (b * d) := (roundDiv_mul_mul a b hd).symm
    _ = roundDiv (c * b) (d * b) := by rw [h, Nat.mul_comm b d]
    _ = roundDiv c d := roundDiv_mul_mul c d hb

namespace Binary64

/-! ### Normal form -/

/-- A mantissa and a scale in **normal form**. -/
structure Normal (m s : Nat) : Prop where
  mantissa_lt : m < 2 ^ 53
  scale_le : s ≤ 2045
  le_mantissa : s ≠ 0 → 2 ^ 52 ≤ m

/-- A finite number is **proper** if it is in normal form; all others are. -/
def Proper : Binary64 → Prop
  | .finite _ m s => Normal m s
  | _ => True

theorem shiftLeft_eq_mul (n k : Nat) : n.shiftLeft k = n * 2 ^ k :=
  Nat.shiftLeft_eq n k

theorem unit_eq : unit = 2 ^ 1074 := by
  unfold unit
  rw [shiftLeft_eq_mul, Nat.one_mul]

theorem magnitude_finite (negative : Bool) (m s : Nat) :
    (finite negative m s).magnitude = m * 2 ^ s :=
  shiftLeft_eq_mul m s

/-- The scale of a normal form is that of its magnitude. -/
theorem Normal.scale_le_of_le {m s m' s' : Nat} (h : Normal m s) (h' : Normal m' s')
    (hle : m' * 2 ^ s' ≤ m * 2 ^ s) : s' ≤ s := by
  by_contra hlt
  -- a larger scale comes with a full mantissa, and so with more than the smaller one can reach
  have hm' := h'.le_mantissa (by omega)
  have hpow : 2 ^ (s + 1) ≤ 2 ^ s' := Nat.pow_le_pow_right (by decide) (by omega)
  have : m * 2 ^ s < m' * 2 ^ s' :=
    calc m * 2 ^ s < 2 ^ 53 * 2 ^ s := (Nat.mul_lt_mul_right (by positivity)).mpr h.mantissa_lt
      _ = 2 ^ 52 * 2 ^ (s + 1) := by ring
      _ ≤ m' * 2 ^ s' := Nat.mul_le_mul hm' hpow
  omega

/-- **A normal form is given by its magnitude.** -/
theorem Normal.eq_of_mul_eq {m s m' s' : Nat} (h : Normal m s) (h' : Normal m' s')
    (heq : m * 2 ^ s = m' * 2 ^ s') : m = m' ∧ s = s' := by
  have hs : s = s' := Nat.le_antisymm (h'.scale_le_of_le h heq.le) (h.scale_le_of_le h' heq.ge)
  rw [hs] at heq
  exact ⟨Nat.eq_of_mul_eq_mul_right (by positivity) heq, hs⟩

/-- A proper number whose magnitude is that of a normal form, and not zero, has that form. -/
theorem Proper.eq_of_magnitude {x : Binary64} (hx : x.Proper) {m s : Nat} (h : Normal m s)
    (hm : m ≠ 0) (heq : x.magnitude = m * 2 ^ s) : x = .finite x.isNegative m s := by
  have hne : m * 2 ^ s ≠ 0 := by positivity
  cases x with
  | finite negative m' s' =>
    rw [magnitude_finite] at heq
    obtain ⟨rfl, rfl⟩ := Normal.eq_of_mul_eq hx h heq
    rfl
  | infinite => exact absurd heq.symm hne
  | nan => exact absurd heq.symm hne

/-! ### Quotients -/

theorem ofSteps_of_normal {m s : Nat} (h : Normal m s) (negative : Bool) :
    ofSteps negative m s = .finite negative m s := by
  have hm : m ≠ Nat.shiftLeft 1 53 := Nat.ne_of_lt h.mantissa_lt
  unfold ofSteps
  rw [if_neg hm]
  exact if_pos h.scale_le

/-- The smallest mantissa that is too large is half as large at the next scale. -/
theorem ofSteps_overflow {s : Nat} (h : s < 2045) (negative : Bool) :
    ofSteps negative (2 ^ 53) s = .finite negative (2 ^ 52) (s + 1) := by
  unfold ofSteps
  rw [if_pos (by rfl)]
  exact if_pos h

/-- What `ofSteps` gives is proper, for mantissas and scales that a quotient leads to. -/
theorem proper_ofSteps {m s : Nat} (hm : m ≤ 2 ^ 53) (hs : s ≠ 0 → 2 ^ 52 ≤ m)
    (negative : Bool) : (ofSteps negative m s).Proper := by
  by_cases hover : m = 2 ^ 53
  · subst hover
    unfold ofSteps
    rw [if_pos (by rfl)]
    dsimp only
    split
    · rename_i hle
      exact ⟨by decide, hle, fun _ => by decide⟩
    · trivial
  · have hne : m ≠ Nat.shiftLeft 1 53 := hover
    unfold ofSteps
    rw [if_neg hne]
    dsimp only
    split
    · rename_i hle
      exact ⟨by omega, hle, hs⟩
    · trivial

/-- The scale that is chosen for a quotient of `steps` by `den`. -/
def scaleOf (steps den : Nat) : Nat :=
  (steps / den).log2 - 52

theorem ofQuotient_eq (negative : Bool) (num den : Nat) :
    ofQuotient negative num den =
      ofSteps negative (roundDiv (num * unit) (den * 2 ^ scaleOf (num * unit) den))
        (scaleOf (num * unit) den) := by
  unfold ofQuotient
  dsimp only
  rw [shiftLeft_eq_mul]
  rfl

/-- A quotient below `2 ^ (53 + s)` has at most the scale `s`. -/
theorem scaleOf_le {steps den s : Nat} (hden : 0 < den) (h : steps < 2 ^ 53 * (den * 2 ^ s)) :
    scaleOf steps den ≤ s := by
  have hlt : steps / den < 2 ^ (53 + s) := by
    rw [Nat.div_lt_iff_lt_mul hden]
    calc steps < 2 ^ 53 * (den * 2 ^ s) := h
      _ = 2 ^ (53 + s) * den := by ring
  unfold scaleOf
  by_cases hzero : steps / den = 0
  · rw [hzero, Nat.log2_zero]
    omega
  · have := (Nat.log2_lt hzero).mpr hlt
    omega

/-- A quotient of at least `2 ^ (52 + s)` has at least the scale `s`. -/
theorem le_scaleOf {steps den s : Nat} (hden : 0 < den) (h : 2 ^ 52 * (den * 2 ^ s) ≤ steps) :
    s ≤ scaleOf steps den := by
  have hle : 2 ^ (52 + s) ≤ steps / den := by
    rw [Nat.le_div_iff_mul_le hden]
    calc 2 ^ (52 + s) * den = 2 ^ 52 * (den * 2 ^ s) := by ring
      _ ≤ steps := h
  have hne : steps / den ≠ 0 := by
    have : 0 < 2 ^ (52 + s) := by positivity
    omega
  have := (Nat.le_log2 hne).mpr hle
  unfold scaleOf
  omega

/-- With the chosen scale the quotient has at most 53 bits. -/
theorem lt_of_scaleOf (steps : Nat) {den : Nat} (hden : 0 < den) :
    steps < 2 ^ 53 * (den * 2 ^ scaleOf steps den) := by
  by_contra h
  have hle : 2 ^ 52 * (den * 2 ^ (scaleOf steps den + 1)) ≤ steps := by
    calc 2 ^ 52 * (den * 2 ^ (scaleOf steps den + 1))
        = 2 ^ 53 * (den * 2 ^ scaleOf steps den) := by ring
      _ ≤ steps := Nat.le_of_not_lt h
  have := le_scaleOf hden hle
  omega

/-- With a chosen scale above zero the quotient has 53 bits. -/
theorem le_of_scaleOf {steps den : Nat} (hden : 0 < den) (h : scaleOf steps den ≠ 0) :
    2 ^ 52 * (den * 2 ^ scaleOf steps den) ≤ steps := by
  by_contra hlt
  have hlt : steps < 2 ^ 53 * (den * 2 ^ (scaleOf steps den - 1)) := by
    have hscale : 2 ^ scaleOf steps den = 2 * 2 ^ (scaleOf steps den - 1) := by
      rw [← Nat.pow_succ', Nat.succ_eq_add_one, Nat.sub_add_cancel (by omega)]
    rw [hscale] at hlt
    calc steps < 2 ^ 52 * (den * (2 * 2 ^ (scaleOf steps den - 1))) := Nat.lt_of_not_le hlt
      _ = 2 ^ 53 * (den * 2 ^ (scaleOf steps den - 1)) := by ring
  have := scaleOf_le hden hlt
  omega

/-- **Every quotient is read as a proper number.** -/
theorem proper_ofQuotient (negative : Bool) (num : Nat) {den : Nat} (hden : 0 < den) :
    (ofQuotient negative num den).Proper := by
  have hpos : 0 < den * 2 ^ scaleOf (num * unit) den := by positivity
  obtain ⟨hle, hge⟩ := roundDiv_near (num * unit) hpos
  have hlt := lt_of_scaleOf (num * unit) hden
  rw [ofQuotient_eq]
  -- the mantissa is the quotient by `b`, rounded
  generalize hb : den * 2 ^ scaleOf (num * unit) den = b at hpos hle hge hlt ⊢
  have hupper : b * roundDiv (num * unit) b < b * (2 ^ 53 + 1) := by
    rw [Nat.mul_add, Nat.mul_comm b (2 ^ 53)]
    omega
  apply proper_ofSteps
  · exact Nat.le_of_lt_succ (Nat.lt_of_mul_lt_mul_left hupper)
  · intro hs
    have hfull := le_of_scaleOf hden hs
    rw [hb] at hfull
    have hlower : b * 2 ^ 52 < b * (roundDiv (num * unit) b + 1) := by
      rw [Nat.mul_add, Nat.mul_comm b (2 ^ 52)]
      omega
    exact Nat.le_of_lt_succ (Nat.lt_of_mul_lt_mul_left hlower)

/-- How a quotient is read depends on the quotient only. -/
theorem ofQuotient_congr (negative : Bool) {a b c d : Nat} (hb : 0 < b) (hd : 0 < d)
    (h : a * d = c * b) : ofQuotient negative a b = ofQuotient negative c d := by
  have hsteps : a * unit * d = c * unit * b := by
    rw [Nat.mul_right_comm, h, Nat.mul_right_comm]
  have hscale : scaleOf (a * unit) b = scaleOf (c * unit) d := by
    unfold scaleOf
    rw [← Nat.mul_div_mul_right _ b hd, hsteps, Nat.mul_comm b d, Nat.mul_div_mul_right _ d hb]
  rw [ofQuotient_eq, ofQuotient_eq, hscale]
  refine congrArg (ofSteps negative · _) (roundDiv_congr (by positivity) (by positivity) ?_)
  rw [← Nat.mul_assoc, hsteps, Nat.mul_assoc]

/-- **A quotient near a normal form is read as that one.**  The distance is at most the magnitude
divided by `2 · 10 ^ 16`; all is multiplied by the denominator. -/
theorem ofQuotient_of_near (negative : Bool) {m s : Nat} (h : Normal m s) (hm : m ≠ 0)
    {num den : Nat} (hden : 0 < den)
    (hlo : 2 * 10 ^ 16 * (m * 2 ^ s * den) ≤ 2 * 10 ^ 16 * (num * unit) + m * 2 ^ s * den)
    (hhi : 2 * 10 ^ 16 * (num * unit) ≤ 2 * 10 ^ 16 * (m * 2 ^ s * den) + m * 2 ^ s * den) :
    ofQuotient negative num den = .finite negative m s := by
  -- `p` is the distance between neighbours, `a` the magnitude, both in units of the quotient
  have hp : 0 < den * 2 ^ s := by positivity
  have ha : m * 2 ^ s * den = m * (den * 2 ^ s) := by ring
  have ha_le : m * (den * 2 ^ s) ≤ (2 ^ 53 - 1) * (den * 2 ^ s) :=
    Nat.mul_le_mul_right _ (Nat.le_sub_one_of_lt h.mantissa_lt)
  have hcomm : den * 2 ^ s * m = m * (den * 2 ^ s) := Nat.mul_comm _ _
  rw [ha] at hlo hhi
  rw [ofQuotient_eq]
  have hscale : scaleOf (num * unit) den ≤ s := scaleOf_le hden (by omega)
  by_cases hfull : s = 0 ∨ 2 ^ 52 * (den * 2 ^ s) ≤ num * unit
  · have heq : scaleOf (num * unit) den = s := by
      rcases hfull with rfl | hfull
      · omega
      · exact Nat.le_antisymm hscale (le_scaleOf hden hfull)
    have hround : roundDiv (num * unit) (den * 2 ^ s) = m :=
      roundDiv_eq_of_near (by omega) (by omega)
    rw [heq, hround]
    exact ofSteps_of_normal h negative
  · -- just below a power of two, where the neighbours lie twice as close
    obtain ⟨hs, hlt⟩ := not_or.mp hfull
    obtain ⟨r, rfl⟩ := Nat.exists_eq_add_one_of_ne_zero hs
    have hm52 : m = 2 ^ 52 := by
      refine Nat.le_antisymm (Nat.le_of_not_lt fun hgt => ?_) (h.le_mantissa hs)
      have : (2 ^ 52 + 1) * (den * 2 ^ (r + 1)) ≤ m * (den * 2 ^ (r + 1)) :=
        Nat.mul_le_mul_right _ hgt
      omega
    subst hm52
    have hdouble : den * 2 ^ (r + 1) = 2 * (den * 2 ^ r) := by ring
    have heq : scaleOf (num * unit) den = r :=
      Nat.le_antisymm (scaleOf_le hden (by omega)) (le_scaleOf hden (by omega))
    have hround : roundDiv (num * unit) (den * 2 ^ r) = 2 ^ 53 :=
      roundDiv_eq_of_near (by omega) (by omega)
    rw [heq, hround]
    exact ofSteps_overflow h.scale_le negative

/-! ### Numbers of digits -/

theorem digitCount_le_iff {n k : Nat} (hk : 0 < k) : digitCount n ≤ k ↔ n < 10 ^ k :=
  Nat.length_toDigits_le_iff (by decide) hk

theorem digitCount_mul_pow {n : Nat} (hn : n ≠ 0) (j : Nat) :
    digitCount (n * 10 ^ j) = digitCount n + j := by
  induction j with
  | zero => rw [Nat.pow_zero, Nat.mul_one, Nat.add_zero]
  | succ j ih =>
    have hpos : 0 < n * 10 ^ j := by positivity
    have happend := Nat.toDigits_append_toDigits (b := 10) (by decide) hpos (d := 0) (by decide)
    have hmul : n * 10 ^ (j + 1) = 10 * (n * 10 ^ j) + 0 := by ring
    rw [digitCount, hmul, ← happend, List.length_append]
    exact congrArg (· + 1) ih

/-- A number lies between the powers of ten that its digits give. -/
theorem digitCount_bounds {n : Nat} (hn : n ≠ 0) :
    (10 : ℚ) ^ ((digitCount n : ℤ) - 1) ≤ n ∧ (n : ℚ) < 10 ^ (digitCount n : ℤ) := by
  have hpos : 0 < digitCount n := Nat.length_toDigits_pos
  obtain ⟨k, hk⟩ : ∃ k, digitCount n = k + 1 := Nat.exists_eq_add_one_of_ne_zero hpos.ne'
  have hlt : n < 10 ^ (k + 1) := (digitCount_le_iff k.succ_pos).mp hk.le
  have hle : 10 ^ k ≤ n := by
    by_contra hn'
    cases k with
    | zero => omega
    | succ k =>
      have := (digitCount_le_iff k.succ_pos).mpr (Nat.lt_of_not_le hn')
      omega
  have hexp : ((k + 1 : ℕ) : ℤ) - 1 = k := by omega
  rw [hk, hexp, zpow_natCast, zpow_natCast]
  exact ⟨by exact_mod_cast hle, by exact_mod_cast hlt⟩

/-! ### Decimal numbers -/

/-- A power of ten as a quotient of two. -/
theorem zpow_mul_pow_toNat (e : ℤ) : (10 : ℚ) ^ e * 10 ^ (-e).toNat = 10 ^ e.toNat := by
  rw [← zpow_natCast, ← zpow_natCast, ← zpow_add₀ (by norm_num)]
  congr 1
  omega

/-- A decimal number that is neither far too large nor far too small is read as a quotient. -/
theorem ofDecimal_eq_ofQuotient (negative : Bool) {d : Nat} {e : ℤ} (hd : d ≠ 0)
    (hlo : -330 ≤ digitCount d + e) (hhi : digitCount d + e ≤ 310) :
    ofDecimal negative d e = ofQuotient negative (d * 10 ^ e.toNat) (10 ^ (-e).toNat) := by
  unfold ofDecimal
  dsimp only
  rw [if_neg (by simp [hd, hlo]), if_neg (by omega)]
  split
  · rename_i he
    rw [show (-e).toNat = 0 by omega]
    rfl
  · rename_i he
    rw [show e.toNat = 0 by omega, Nat.pow_zero, Nat.mul_one]
    rfl

/-- **Every decimal number is read as a proper number.** -/
theorem proper_ofDecimal (negative : Bool) (d : Nat) (e : ℤ) :
    (ofDecimal negative d e).Proper := by
  unfold ofDecimal
  dsimp only
  split
  · exact ⟨by decide, by decide, fun h => absurd rfl h⟩
  · split
    · trivial
    · split
      · exact proper_ofQuotient negative _ (by decide)
      · exact proper_ofQuotient negative _ (Nat.pow_pos (by decide))

/-- Zeros at the end of the digits can be moved into the exponent. -/
theorem ofDecimal_mul_pow (negative : Bool) (d j : Nat) (e : ℤ) :
    ofDecimal negative (d * 10 ^ j) e = ofDecimal negative d (e + j) := by
  by_cases hd : d = 0
  · subst hd
    rw [Nat.zero_mul]
    rfl
  -- what is too large or too small is told by the place of the first digit, which is the same
  have hdj : d * 10 ^ j ≠ 0 := by positivity
  have htop : (digitCount (d * 10 ^ j) : ℤ) + e = digitCount d + (e + j) := by
    rw [digitCount_mul_pow hd]
    omega
  by_cases hlo : digitCount d + (e + j) < -330
  · unfold ofDecimal
    rw [htop]
    simp [hlo]
  by_cases hhi : 310 < digitCount d + (e + j)
  · unfold ofDecimal
    rw [htop]
    simp [hlo, hhi, hd]
  rw [ofDecimal_eq_ofQuotient negative hdj (by omega) (by omega),
    ofDecimal_eq_ofQuotient negative hd (by omega) (by omega)]
  apply ofQuotient_congr negative (by positivity) (by positivity)
  have hexp : j + e.toNat + (-(e + j)).toNat = (e + j).toNat + (-e).toNat := by omega
  calc d * 10 ^ j * 10 ^ e.toNat * 10 ^ (-(e + j)).toNat
      = d * 10 ^ (j + e.toNat + (-(e + j)).toNat) := by ring
    _ = d * 10 ^ (e + j).toNat * 10 ^ (-e).toNat := by rw [hexp]; ring

/-- How far the digits of a number reach, if the number lies between two powers of ten. -/
theorem digitCount_add_bounds {d : Nat} {e : ℤ} (hd : d ≠ 0) {lo hi : ℤ}
    (hlo : (10 : ℚ) ^ lo ≤ d * 10 ^ e) (hhi : (d : ℚ) * 10 ^ e < 10 ^ hi) :
    lo < digitCount d + e ∧ digitCount d + e ≤ hi := by
  obtain ⟨hle, hlt⟩ := digitCount_bounds hd
  have hpow : (0 : ℚ) < 10 ^ e := by positivity
  have h₁ : (10 : ℚ) ^ lo < 10 ^ (digitCount d + e) :=
    calc (10 : ℚ) ^ lo ≤ d * 10 ^ e := hlo
      _ < 10 ^ (digitCount d : ℤ) * 10 ^ e := mul_lt_mul_of_pos_right hlt hpow
      _ = 10 ^ (digitCount d + e) := (zpow_add₀ (by norm_num) _ _).symm
  have h₂ : (10 : ℚ) ^ ((digitCount d : ℤ) - 1 + e) < 10 ^ hi :=
    calc (10 : ℚ) ^ ((digitCount d : ℤ) - 1 + e)
        = 10 ^ ((digitCount d : ℤ) - 1) * 10 ^ e := zpow_add₀ (by norm_num) _ _
      _ ≤ d * 10 ^ e := mul_le_mul_of_nonneg_right hle hpow.le
      _ < 10 ^ hi := hhi
  have h₁ := (zpow_lt_zpow_iff_right₀ (by norm_num)).mp h₁
  have h₂ := (zpow_lt_zpow_iff_right₀ (by norm_num)).mp h₂
  omega

/-- Half a step is more than `10 ^ (-324)`. -/
theorem unit_le : (unit : ℚ) * 2 ≤ 10 ^ (324 : ℤ) := by
  have hnat : unit * 2 ≤ 10 ^ 324 := by
    rw [unit_eq]
    decide +kernel
  exact_mod_cast hnat

/-- Twice the largest number is less than `10 ^ 309`. -/
theorem Normal.two_mul_lt {m s : Nat} (h : Normal m s) :
    (m : ℚ) * 2 ^ s * 2 < 10 ^ (309 : ℤ) * unit := by
  have hnat : m * 2 ^ s * 2 < 10 ^ 309 * unit := by
    have hconst : 2 ^ 53 * 2 ^ 2045 * 2 ≤ 10 ^ 309 * unit := by
      rw [unit_eq]
      decide +kernel
    have hpow : 2 ^ s ≤ 2 ^ 2045 := pow_le_pow_right₀ (by norm_num) h.scale_le
    have hmul : m * 2 ^ s < 2 ^ 53 * 2 ^ 2045 :=
      Nat.mul_lt_mul_of_lt_of_le h.mantissa_lt hpow (by positivity)
    exact lt_of_lt_of_le (Nat.mul_lt_mul_of_pos_right hmul (by norm_num)) hconst
  exact_mod_cast hnat

/-- The two sides of a relative distance of `10 ^ (-16) / 2`. -/
theorem bounds_of_near {x y : ℚ} (h : |y - x| * (2 * 10 ^ 16) ≤ x) :
    x * (2 * 10 ^ 16) ≤ y * (2 * 10 ^ 16) + x ∧ y * (2 * 10 ^ 16) ≤ x * (2 * 10 ^ 16) + x := by
  have h₁ := neg_abs_le (y - x)
  have h₂ := le_abs_self (y - x)
  constructor <;> linarith

/-- **A decimal number near a normal form is read as that one.** -/
theorem ofDecimal_of_near (negative : Bool) {m s : Nat} (h : Normal m s) (hm : m ≠ 0) {d : Nat}
    {e : ℤ} (hnear : |(d : ℚ) * 10 ^ e * unit - m * 2 ^ s| * (2 * 10 ^ 16) ≤ m * 2 ^ s) :
    ofDecimal negative d e = .finite negative m s := by
  have hunit : (0 : ℚ) < unit := by
    rw [unit_eq]
    positivity
  have hx : (1 : ℚ) ≤ m * 2 ^ s := by
    have : 1 ≤ m * 2 ^ s := Nat.mul_pos (Nat.pos_of_ne_zero hm) (by positivity)
    exact_mod_cast this
  obtain ⟨hlo, hhi⟩ := bounds_of_near hnear
  have hd : d ≠ 0 := by
    rintro rfl
    rw [Nat.cast_zero, zero_mul, zero_mul] at hlo
    linarith
  -- the number is not so far off that it is not worked out
  have hsmall : (10 : ℚ) ^ (-324 : ℤ) ≤ d * 10 ^ e := by
    rw [zpow_neg, inv_le_iff_one_le_mul₀ (by positivity)]
    calc (1 : ℚ) ≤ (d : ℚ) * 10 ^ e * (unit * 2) := by linarith
      _ ≤ d * 10 ^ e * 10 ^ (324 : ℤ) := mul_le_mul_of_nonneg_left unit_le (by positivity)
  have hlarge : (d : ℚ) * 10 ^ e < 10 ^ (309 : ℤ) := by
    refine lt_of_mul_lt_mul_right ?_ hunit.le
    calc (d : ℚ) * 10 ^ e * unit ≤ m * 2 ^ s * 2 := by linarith
      _ < 10 ^ (309 : ℤ) * unit := h.two_mul_lt
  obtain ⟨htop, htop'⟩ := digitCount_add_bounds hd hsmall hlarge
  rw [ofDecimal_eq_ofQuotient negative hd (by omega) (by omega)]
  have hden : (0 : ℚ) < 10 ^ (-e).toNat := by positivity
  -- in whole numbers everything is multiplied by the denominator
  have hnum : (d : ℚ) * 10 ^ e.toNat * unit = d * 10 ^ e * unit * 10 ^ (-e).toNat := by
    rw [← zpow_mul_pow_toNat]
    ring
  apply ofQuotient_of_near negative h hm (by positivity)
  · have hcast : (2 * 10 ^ 16 * (m * 2 ^ s * 10 ^ (-e).toNat) : ℚ) ≤
        2 * 10 ^ 16 * (d * 10 ^ e.toNat * unit) + m * 2 ^ s * 10 ^ (-e).toNat := by
      have := mul_le_mul_of_nonneg_right hlo hden.le
      rw [hnum]
      linarith
    exact_mod_cast hcast
  · have hcast : (2 * 10 ^ 16 * (d * 10 ^ e.toNat * unit) : ℚ) ≤
        2 * 10 ^ 16 * (m * 2 ^ s * 10 ^ (-e).toNat) + m * 2 ^ s * 10 ^ (-e).toNat := by
      have := mul_le_mul_of_nonneg_right hhi hden.le
      rw [hnum]
      linarith
    exact_mod_cast hcast

/-! ### Signs -/

theorem isNegative_ofSteps (negative : Bool) (m s : Nat) :
    (ofSteps negative m s).isNegative = negative := by
  unfold ofSteps
  dsimp only
  split_ifs <;> rfl

theorem magnitude_ofSteps (negative : Bool) (m s : Nat) :
    (ofSteps negative m s).magnitude = (ofSteps false m s).magnitude := by
  unfold ofSteps
  dsimp only
  split_ifs <;> rfl

theorem isNegative_ofDecimal (negative : Bool) (d : Nat) (e : ℤ) :
    (ofDecimal negative d e).isNegative = negative := by
  unfold ofDecimal ofQuotient
  dsimp only
  split_ifs
  · rfl
  · rfl
  · exact isNegative_ofSteps negative _ _
  · exact isNegative_ofSteps negative _ _

/-- A sign does not change the magnitude that is read. -/
theorem magnitude_ofDecimal (negative : Bool) (d : Nat) (e : ℤ) :
    (ofDecimal negative d e).magnitude = (ofDecimal false d e).magnitude := by
  unfold ofDecimal ofQuotient
  dsimp only
  split_ifs
  · rfl
  · rfl
  · exact magnitude_ofSteps negative _ _
  · exact magnitude_ofSteps negative _ _

/-- Digits that are read as the magnitude of a normal form, which is not zero, are read as that
form, with any sign. -/
theorem ofDecimal_of_magnitude (negative : Bool) {m s : Nat} (h : Normal m s) (hm : m ≠ 0)
    {d : Nat} {e : ℤ} (heq : (ofDecimal false d e).magnitude = m * 2 ^ s) :
    ofDecimal negative d e = .finite negative m s := by
  have hproper := proper_ofDecimal negative d e
  have hform := hproper.eq_of_magnitude h hm ((magnitude_ofDecimal negative d e).trans heq)
  rw [isNegative_ofDecimal] at hform
  exact hform

end Binary64

end LabelLoop
