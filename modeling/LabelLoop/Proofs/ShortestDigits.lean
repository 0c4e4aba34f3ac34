import LabelLoop.Number.Decimal
import LabelLoop.Proofs.Rounding
import Mathlib.Tactic.IntervalCases

/-!
# The fewest digits

The fewest digits of a binary number are looked for among one to seventeen of them, and those that
are chosen have been tried: they are read as the same magnitude.  What is left to show is that the
search finds any.  With seventeen digits the nearest decimal number is at most half a unit of the
last digit away, which is at most `10 ^ (-16) / 2` of the number itself, so it is near enough
(`good_of_seventeen`).

So the digits that are written are read as the same number, with its sign (`value_shortest`).
-/

namespace LabelLoop.Binary64

open Text

/-! ### Powers of ten -/

/-- **The leading power of ten** does not exceed the quotient. -/
theorem leading_le {num den : Nat} (hnum : num ≠ 0) (hden : den ≠ 0) :
    (10 : ℚ) ^ leading num den * den ≤ num := by
  have hreached : ∀ k : ℤ,
      (if 0 ≤ k then den * Nat.pow 10 k.toNat ≤ num else den ≤ num * Nat.pow 10 (-k).toNat) →
        (10 : ℚ) ^ k * den ≤ num := by
    intro k hk
    have hnat : den * 10 ^ k.toNat ≤ num * 10 ^ (-k).toNat := by
      split at hk
      · rw [show (-k).toNat = 0 by omega, Nat.pow_zero, Nat.mul_one]
        exact hk
      · rw [show k.toNat = 0 by omega, Nat.pow_zero, Nat.mul_one]
        exact hk
    have hcast : (den : ℚ) * 10 ^ k.toNat ≤ num * 10 ^ (-k).toNat := by exact_mod_cast hnat
    rw [← zpow_mul_pow_toNat, ← mul_assoc, mul_comm (den : ℚ)] at hcast
    exact le_of_mul_le_mul_right hcast (by positivity)
  unfold leading
  extract_lets k reached
  by_cases h : reached
  · rw [if_pos h]
    exact hreached k h
  · -- the numbers of digits alone are enough for the next smaller power
    rw [if_neg h]
    obtain ⟨hle, -⟩ := digitCount_bounds hnum
    obtain ⟨-, hlt⟩ := digitCount_bounds hden
    calc (10 : ℚ) ^ ((digitCount num : ℤ) - digitCount den - 1) * den
        ≤ 10 ^ ((digitCount num : ℤ) - digitCount den - 1) * 10 ^ (digitCount den : ℤ) :=
          mul_le_mul_of_nonneg_left hlt.le (by positivity)
      _ = 10 ^ ((digitCount num : ℤ) - 1) := by
          rw [← zpow_add₀ (by norm_num)]
          congr 1
          omega
      _ ≤ num := hle

theorem inUnits_eq (num den : Nat) (e : ℤ) :
    inUnits num den e = (num * 10 ^ (-e).toNat, den * 10 ^ e.toNat) := by
  unfold inUnits
  split
  · rw [show (-e).toNat = 0 by omega, Nat.pow_zero, Nat.mul_one]
    rfl
  · rw [show e.toNat = 0 by omega, Nat.pow_zero, Nat.mul_one]
    rfl

/-- The rounded number of units of `10 ^ e` is at most half such a unit off. -/
theorem abs_roundDiv_inUnits_le (num : Nat) {den : Nat} (hden : 0 < den) (e : ℤ) :
    |(roundDiv (inUnits num den e).1 (inUnits num den e).2 : ℚ) * 10 ^ e * den - num| * 2 ≤
      10 ^ e * den := by
  rw [inUnits_eq]
  dsimp only
  obtain ⟨hle, hge⟩ := roundDiv_near (num * 10 ^ (-e).toNat)
    (show 0 < den * 10 ^ e.toNat by positivity)
  generalize roundDiv (num * 10 ^ (-e).toNat) (den * 10 ^ e.toNat) = r at hle hge ⊢
  have hpow : (0 : ℚ) < 10 ^ (-e).toNat := by positivity
  have hle' : (2 * (num * 10 ^ (-e).toNat) : ℚ) ≤
      2 * (den * 10 ^ e.toNat * r) + den * 10 ^ e.toNat := by exact_mod_cast hle
  have hge' : (2 * (den * 10 ^ e.toNat * r) : ℚ) ≤
      2 * (num * 10 ^ (-e).toNat) + den * 10 ^ e.toNat := by exact_mod_cast hge
  rw [← zpow_mul_pow_toNat e] at hle' hge'
  have hle'' : (num : ℚ) * 2 ≤ r * 10 ^ e * den * 2 + 10 ^ e * den := by
    refine le_of_mul_le_mul_right ?_ hpow
    linarith
  have hge'' : (r : ℚ) * 10 ^ e * den * 2 ≤ num * 2 + 10 ^ e * den := by
    refine le_of_mul_le_mul_right ?_ hpow
    linarith
  have habs : |(r : ℚ) * 10 ^ e * den - num| ≤ 10 ^ e * den / 2 :=
    abs_le.mpr ⟨by linarith, by linarith⟩
  linarith

/-! ### Seventeen digits -/

theorem roundDiv_eq_or (a b : Nat) : roundDiv a b = a / b ∨ roundDiv a b = a / b + 1 := by
  unfold roundDiv
  dsimp only
  split
  · exact Or.inr rfl
  · exact Or.inl rfl

/-- What is chosen has been tried. -/
theorem good_of_nearestGood? {good : Nat → Bool} {num den d : Nat}
    (h : nearestGood? good num den = some d) : good d = true := by
  unfold nearestGood? at h
  dsimp only at h
  split at h
  · rename_i hlow hhigh
    obtain rfl := Option.some.inj h
    rcases roundDiv_eq_or num den with heq | heq <;> rwa [heq]
  · rename_i hlow _
    obtain rfl := Option.some.inj h
    exact hlow
  · rename_i _ hhigh
    obtain rfl := Option.some.inj h
    exact hhigh
  · simp at h

/-- Something is chosen if the rounded quotient is good. -/
theorem nearestGood?_ne_none {good : Nat → Bool} {num den : Nat}
    (h : good (roundDiv num den) = true) : nearestGood? good num den ≠ none := by
  unfold nearestGood?
  dsimp only
  rcases roundDiv_eq_or num den with heq | heq <;> rw [heq] at h <;> rw [h] <;>
    split <;> simp_all

/-- **Seventeen digits are enough.** -/
theorem good_of_seventeen {m s : Nat} (h : Normal m s) (hm : m ≠ 0) :
    shortestOf? (m * 2 ^ s) 17 ≠ none := by
  have hunit : 0 < unit := by
    rw [unit_eq]
    positivity
  have hmag : m * 2 ^ s ≠ 0 := by positivity
  have hleading := leading_le hmag hunit.ne'
  unfold shortestOf?
  dsimp only
  generalize leading (m * 2 ^ s) unit = k at hleading
  rw [Ne, Option.map_eq_none_iff]
  apply nearestGood?_ne_none
  rw [decide_eq_true_eq]
  have hnear := abs_roundDiv_inUnits_le (m * 2 ^ s) hunit (k - (17 : Nat) + 1)
  generalize roundDiv _ _ = d at hnear ⊢
  -- the unit of the seventeenth digit is `10 ^ (-16)` of the leading power of ten
  have hpow : (10 : ℚ) ^ (k - (17 : Nat) + 1) * 10 ^ 16 = 10 ^ k := by
    rw [← zpow_natCast, ← zpow_add₀ (by norm_num)]
    congr 1
    omega
  generalize k - (17 : Nat) + 1 = e at hnear hpow ⊢
  push_cast at hnear hleading
  have hnear : |(d : ℚ) * 10 ^ e * unit - m * 2 ^ s| * (2 * 10 ^ 16) ≤ m * 2 ^ s :=
    calc |(d : ℚ) * 10 ^ e * unit - m * 2 ^ s| * (2 * 10 ^ 16)
        = |(d : ℚ) * 10 ^ e * unit - m * 2 ^ s| * 2 * 10 ^ 16 := by ring
      _ ≤ (10 : ℚ) ^ e * unit * 10 ^ 16 := mul_le_mul_of_nonneg_right hnear (by positivity)
      _ = (10 : ℚ) ^ k * unit := by rw [← hpow]; ring
      _ ≤ m * 2 ^ s := hleading
  rw [ofDecimal_of_near false h hm hnear, magnitude_finite]

/-! ### Runs of digits -/

/-- The value of a run of digits with zeros behind it. -/
theorem natOfDigits_append_zeros (t : Text) (n : Nat) :
    natOfDigits (t ++ List.replicate n '0') = natOfDigits t * 10 ^ n := by
  show Nat.ofDigitChars 10 _ 0 = Nat.ofDigitChars 10 _ 0 * _
  rw [Nat.ofDigitChars_append, Nat.ofDigitChars_replicate_zero, Nat.mul_comm]

/-- Zeros in front of a run of digits do not change its value. -/
theorem natOfDigits_zeros_append (n : Nat) (t : Text) :
    natOfDigits (List.replicate n '0' ++ t) = natOfDigits t := by
  show Nat.ofDigitChars 10 _ 0 = Nat.ofDigitChars 10 _ 0
  rw [Nat.ofDigitChars_append, Nat.ofDigitChars_replicate_zero, Nat.mul_zero]

/-- The digits of a number have its value. -/
theorem natOfDigits_ofNat (n : Nat) : natOfDigits (ofNat n) = n :=
  Nat.ofDigitChars_ten_toDigits

theorem isDigit_of_mem_ofNat {n : Nat} {c : Char} (h : c ∈ ofNat n) : c.isDigit = true :=
  Nat.isDigit_of_mem_toDigits (by decide) (by decide) h

theorem ofNat_ne_nil (n : Nat) : ofNat n ≠ [] :=
  Nat.toDigits_ne_nil

/-- The digits of a number other than zero do not begin with a zero. -/
theorem head?_ofNat_ne {n : Nat} (hn : n ≠ 0) : (ofNat n).head? ≠ some '0' := by
  induction n using Nat.strong_induction_on with
  | _ n ih =>
    unfold ofNat at ih ⊢
    by_cases hlt : n < 10
    · rw [Nat.toDigits_of_lt_base hlt]
      interval_cases n <;> simp_all
    · rw [Nat.toDigits_of_base_le (by decide) (Nat.le_of_not_lt hlt),
        List.head?_append_of_ne_nil _ Nat.toDigits_ne_nil]
      exact ih (n / 10) (by omega) (by omega)

/-- A text is what is left of it without the zeros at its end, and these zeros. -/
theorem exists_zeros (t : Text) :
    ∃ z, t = (t.reverse.dropWhile (· = '0')).reverse ++ List.replicate z '0' := by
  refine ⟨(t.reverse.takeWhile (· = '0')).length, ?_⟩
  have hzeros : t.reverse.takeWhile (· = '0') =
      List.replicate (t.reverse.takeWhile (· = '0')).length '0' := by
    refine List.eq_replicate_of_mem fun c hc => ?_
    exact of_decide_eq_true (List.all_eq_true.mp List.all_takeWhile c hc)
  apply List.reverse_injective
  rw [List.reverse_append, List.reverse_replicate, List.reverse_reverse, ← hzeros,
    List.takeWhile_append_dropWhile]

/-! ### The digits that are written -/

/-- The number that digits are read as, with a given sign. -/
def Digits.value (negative : Bool) (d : Digits) : Binary64 :=
  ofDecimal negative (natOfDigits d.digits) (d.point - d.digits.length)

/-- Digits as they are written: the first of them is zero for the number zero only. -/
structure Digits.Tidy (d : Digits) : Prop where
  ne_nil : d.digits ≠ []
  isDigit : ∀ c ∈ d.digits, c.isDigit = true
  zero : d.digits.head? = some '0' → d = ⟨['0'], 1⟩

/-- The digits of a number of units of `10 ^ e`, without the zeros at their end. -/
def trimmed (n : Nat) (e : ℤ) : Digits :=
  ⟨((ofNat n).reverse.dropWhile (· = '0')).reverse, (ofNat n).length + e⟩

theorem exists_trimmed_append (n : Nat) (e : ℤ) :
    ∃ z, ofNat n = (trimmed n e).digits ++ List.replicate z '0' ∧
      (trimmed n e).point = (trimmed n e).digits.length + (e + z) := by
  obtain ⟨z, hz⟩ := exists_zeros (ofNat n)
  have hlength := congrArg List.length hz
  rw [List.length_append, List.length_replicate] at hlength
  refine ⟨z, hz, ?_⟩
  show ((ofNat n).length : ℤ) + e = (((ofNat n).reverse.dropWhile (· = '0')).reverse.length : ℤ) + _
  omega

/-- The zeros that are left out do not count. -/
theorem value_trimmed (negative : Bool) (n : Nat) (e : ℤ) :
    (trimmed n e).value negative = ofDecimal negative n e := by
  obtain ⟨z, hz, hpoint⟩ := exists_trimmed_append n e
  have hvalue : natOfDigits (trimmed n e).digits * 10 ^ z = n := by
    rw [← natOfDigits_append_zeros, ← hz, natOfDigits_ofNat]
  unfold Digits.value
  rw [hpoint, add_sub_cancel_left, ← ofDecimal_mul_pow, hvalue]

theorem tidy_trimmed {n : Nat} (hn : n ≠ 0) (e : ℤ) : (trimmed n e).Tidy := by
  obtain ⟨z, hz, -⟩ := exists_trimmed_append n e
  have hne : (trimmed n e).digits ≠ [] := by
    intro hnil
    have hvalue := natOfDigits_append_zeros (trimmed n e).digits z
    rw [← hz, natOfDigits_ofNat, hnil] at hvalue
    exact hn (hvalue.trans (Nat.zero_mul _))
  refine ⟨hne, fun c hc => ?_, fun h => ?_⟩
  · exact isDigit_of_mem_ofNat (n := n) (hz ▸ List.mem_append_left _ hc)
  · refine absurd ?_ (head?_ofNat_ne hn)
    rw [hz, List.head?_append_of_ne_nil _ hne]
    exact h

/-- The digits that are chosen for a magnitude have been read as it. -/
theorem exists_of_shortestOf? {magnitude count : Nat} {d : Digits} (hmag : magnitude ≠ 0)
    (h : shortestOf? magnitude count = some d) :
    ∃ n e, n ≠ 0 ∧ d = trimmed n e ∧ (ofDecimal false n e).magnitude = magnitude := by
  unfold shortestOf? at h
  dsimp only at h
  obtain ⟨n, hn, rfl⟩ := Option.map_eq_some_iff.mp h
  have hgood := of_decide_eq_true (good_of_nearestGood? hn)
  refine ⟨n, _, ?_, rfl, hgood⟩
  rintro rfl
  exact hmag hgood.symm

/-- **The fewest digits** of a normal form are read as that form, with any sign. -/
theorem value_shortest {m s : Nat} (h : Normal m s) :
    (shortest (m * 2 ^ s)).Tidy ∧
      ∀ negative, (shortest (m * 2 ^ s)).value negative = .finite negative m s := by
  unfold shortest
  by_cases hm : m = 0
  · have hs : s = 0 := by
      by_contra hs
      have := h.le_mantissa hs
      omega
    subst hm hs
    exact ⟨⟨by decide, List.forall_mem_singleton.mpr (by decide), fun _ => rfl⟩, fun _ => rfl⟩
  have hmag : m * 2 ^ s ≠ 0 := by positivity
  rw [if_neg hmag]
  -- the search cannot end without digits, as it comes to seventeen of them
  cases hfound : (List.range 17).findSome? fun n => shortestOf? (m * 2 ^ s) (n + 1) with
  | none =>
    have hnone := List.findSome?_eq_none_iff.mp hfound 16 (by decide)
    exact absurd hnone (good_of_seventeen h hm)
  | some d =>
    obtain ⟨count, -, hd⟩ := List.exists_of_findSome?_eq_some hfound
    obtain ⟨n, e, hn, rfl, heq⟩ := exists_of_shortestOf? hmag hd
    refine ⟨tidy_trimmed hn e, fun negative => ?_⟩
    rw [Option.getD_some, value_trimmed]
    exact ofDecimal_of_magnitude negative h hm heq

end LabelLoop.Binary64
