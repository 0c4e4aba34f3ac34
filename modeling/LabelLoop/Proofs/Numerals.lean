import LabelLoop.Datum.Json
import LabelLoop.Datum.Reader
import LabelLoop.Proofs.Characters
import LabelLoop.Proofs.ShortestDigits

/-!
# Numbers in JSON text

A whole number is written in its digits, a binary number in the fewest digits that are read as it,
in one of two layouts: with the point among the digits, with zeros in front of them or behind them
where the point lies outside, or with a point after the first digit and an exponent.  Reading puts
the digits together again and moves the point back, so that the zeros do not count
(`numberOf?_laidOut`), and every number is read as itself (`spells_ofInt`, `spells_written`).
-/

namespace LabelLoop.Datum

open Text Binary64

/-! ### Runs of digits -/

/-- A **run** of digits, which is not empty. -/
structure Run (t : Text) : Prop where
  ne_nil : t ≠ []
  isDigit : ∀ c ∈ t, c.isDigit = true

theorem isDigit_of_mem_replicate {n : Nat} {c : Char} (h : c ∈ List.replicate n '0') :
    c.isDigit = true := by
  rw [List.eq_of_mem_replicate h]
  decide

theorem Run.append_zeros {t : Text} (ht : Run t) (n : Nat) : Run (t ++ List.replicate n '0') where
  ne_nil := List.append_ne_nil_of_left_ne_nil ht.ne_nil _
  isDigit c hc := (List.mem_append.mp hc).elim (ht.isDigit c) isDigit_of_mem_replicate

theorem run_ofNat (n : Nat) : Run (ofNat n) :=
  ⟨ofNat_ne_nil n, fun _ => isDigit_of_mem_ofNat⟩

theorem run_zero : Run ['0'] :=
  ⟨by decide, List.forall_mem_singleton.mpr (by decide)⟩

theorem run_digits {d : Digits} (h : d.Tidy) : Run d.digits :=
  ⟨h.ne_nil, h.isDigit⟩

theorem Run.zeros_append {t : Text} (ht : Run t) (n : Nat) : Run (List.replicate n '0' ++ t) where
  ne_nil := List.append_ne_nil_of_right_ne_nil _ ht.ne_nil
  isDigit c hc := (List.mem_append.mp hc).elim isDigit_of_mem_replicate (ht.isDigit c)

/-- A run is read up to the first character that is no digit. -/
theorem digitRun?_append {t rest : Text} (h : Run t)
    (hrest : ∀ c, rest.head? = some c → c.isDigit = false) :
    digitRun? (t ++ rest) = some (t, rest) := by
  have hnone : rest.takeWhile Char.isDigit = [] := by
    cases rest with
    | nil => rfl
    | cons c cs => rw [List.takeWhile_cons_of_neg (by rw [hrest c rfl]; decide)]
  have htake : (t ++ rest).takeWhile Char.isDigit = t := by
    rw [List.takeWhile_append_of_pos h.isDigit, hnone, List.append_nil]
  have hempty : t.isEmpty = false := List.isEmpty_eq_false_iff.mpr h.ne_nil
  unfold digitRun?
  dsimp only
  rw [htake, hempty, List.drop_left]
  rfl

theorem digitRun?_self {t : Text} (h : Run t) : digitRun? t = some (t, []) := by
  have hall := @digitRun?_append t [] h (by simp)
  rw [List.append_nil] at hall
  exact hall

/-! ### Numbers without a sign -/

/-- The digits before a point: a zero among them comes first only if it is alone. -/
structure Whole (t : Text) : Prop extends Run t where
  zero : t.head? = some '0' → t.length ≤ 1

/-- **A number is read by its parts.** -/
theorem numberOf?_append (negative : Bool) {whole rest fraction last : Text}
    {exponent : Option Int} (hwhole : Whole whole)
    (hrest : ∀ c, rest.head? = some c → c.isDigit = false)
    (hfraction : fractionOf? rest = some (fraction, last))
    (hexponent : exponentOf? last = some exponent) :
    numberOf? negative (whole ++ rest) = some
      (if fraction.isEmpty && exponent.isNone then
        .int (if negative then -(natOfDigits whole : Int) else natOfDigits whole)
      else .real (.ofDecimal negative (natOfDigits (whole ++ fraction))
        (exponent.getD 0 - fraction.length))) := by
  have hzero : (decide (whole.head? = some '0') && decide (1 < whole.length)) = false := by
    rw [Bool.and_eq_false_imp]
    intro h
    have := hwhole.zero (of_decide_eq_true h)
    exact decide_eq_false (Nat.not_lt_of_le this)
  unfold numberOf?
  rw [digitRun?_append hwhole.toRun hrest]
  simp only [Option.bind_eq_bind, Option.bind_some, hzero, Bool.false_eq_true, if_false,
    hfraction, hexponent]
  exact (apply_ite some _ _ _).symm

theorem whole_ofNat (n : Nat) : Whole (ofNat n) where
  toRun := run_ofNat n
  zero h := by
    by_cases hn : n = 0
    · subst hn
      decide
    · exact absurd h (head?_ofNat_ne hn)

theorem numberOf?_ofNat (negative : Bool) (n : Nat) :
    numberOf? negative (ofNat n) = some (.int (if negative then -(n : Int) else n)) := by
  have h := numberOf?_append negative (whole_ofNat n) (by simp)
    (show fractionOf? [] = some ([], []) from rfl) rfl
  rw [List.append_nil, natOfDigits_ofNat] at h
  exact h

/-- A whole part and a fraction with a point between them. -/
theorem numberOf?_point (negative : Bool) {whole fraction : Text} (hwhole : Whole whole)
    (hfraction : Run fraction) :
    numberOf? negative (whole ++ '.' :: fraction) =
      some (.real (.ofDecimal negative (natOfDigits (whole ++ fraction)) (-fraction.length))) := by
  have hrun : fractionOf? ('.' :: fraction) = some (fraction, []) := digitRun?_self hfraction
  have hempty : fraction.isEmpty = false := List.isEmpty_eq_false_iff.mpr hfraction.ne_nil
  rw [numberOf?_append negative hwhole (by simp) hrun rfl, hempty]
  simp

/-! ### Exponents -/

/-- An exponent is read as itself. -/
theorem exponentOf?_exponentText (e : Int) :
    exponentOf? ('e' :: exponentText e) = some (some e) := by
  have hrun := digitRun?_self ((run_ofNat e.natAbs).zeros_append (2 - (ofNat e.natAbs).length))
  have hvalue := natOfDigits_zeros_append (2 - (ofNat e.natAbs).length) (ofNat e.natAbs)
  rw [natOfDigits_ofNat] at hvalue
  unfold exponentText
  dsimp only
  rw [List.cons_append]
  generalize List.replicate (2 - (ofNat e.natAbs).length) '0' ++ ofNat e.natAbs = digits
    at hrun hvalue ⊢
  by_cases he : e < 0
  · have hminus : exponentOf? ('e' :: '-' :: digits) =
        some (some (-(natOfDigits digits : Int))) := by
      simp [exponentOf?, hrun]
    rw [if_pos he, hminus, hvalue, Int.ofNat_natAbs_of_nonpos he.le, Int.neg_neg]
  · have hplus : exponentOf? ('e' :: '+' :: digits) = some (some (natOfDigits digits : Int)) := by
      simp [exponentOf?, hrun]
    rw [if_neg he, hplus, hvalue, Int.natAbs_of_nonneg (Int.not_lt.mp he)]

/-- A digit, a fraction and an exponent; without a fraction there is no point. -/
theorem numberOf?_scientific (negative : Bool) {c : Char} (hc : c.isDigit = true) {fraction : Text}
    (hfraction : ∀ c ∈ fraction, c.isDigit = true) (e : Int) :
    numberOf? negative (joinFraction false [c] fraction ++ 'e' :: exponentText e) =
      some (.real (.ofDecimal negative (natOfDigits (c :: fraction)) (e - fraction.length))) := by
  have hwhole : Whole [c] := ⟨⟨by simp, by simp [hc]⟩, fun _ => Nat.le_refl 1⟩
  have hexponent := exponentOf?_exponentText e
  unfold joinFraction
  by_cases hnil : fraction = []
  · subst hnil
    have hrest : fractionOf? ('e' :: exponentText e) = some ([], 'e' :: exponentText e) := rfl
    have h := numberOf?_append negative hwhole (by simp) hrest hexponent
    simpa using h
  · have hrest : fractionOf? ('.' :: fraction ++ 'e' :: exponentText e) =
        some (fraction, 'e' :: exponentText e) :=
      digitRun?_append ⟨hnil, hfraction⟩ (by simp)
    have h := numberOf?_append negative hwhole (by simp) hrest hexponent
    simpa [hnil] using h

/-! ### Layouts -/

/-- The digits of a whole part, a point and a fraction as they are laid out; there is always some
digit behind the point. -/
def pointed (parts : Text × Text) : Text :=
  parts.1 ++ '.' :: (if parts.2.isEmpty then ['0'] else parts.2)

/-- Digits as they are laid out in the written form of a number. -/
def laidOut (d : Digits) : Text :=
  if -4 < d.point && d.point ≤ 16 then pointed d.split else d.scientific false 'e'

theorem numberOf?_pointed (negative : Bool) {whole fraction : Text} (hwhole : Whole whole)
    (hfraction : Run fraction) :
    numberOf? negative (pointed (whole, fraction)) =
      some (.real (.ofDecimal negative (natOfDigits (whole ++ fraction)) (-fraction.length))) := by
  have hempty : fraction.isEmpty = false := List.isEmpty_eq_false_iff.mpr hfraction.ne_nil
  unfold pointed
  dsimp only
  rw [hempty, if_neg Bool.false_ne_true]
  exact numberOf?_point negative hwhole hfraction

/-- The point stands before all digits. -/
theorem numberOf?_split_of_nonpos (negative : Bool) {d : Digits} (h : d.Tidy)
    (hpoint : d.point ≤ 0) :
    numberOf? negative (pointed d.split) = some (.real (d.value negative)) := by
  have hsplit : d.split = (['0'], List.replicate (-d.point).toNat '0' ++ d.digits) := if_pos hpoint
  have hrun := (run_digits h).zeros_append (-d.point).toNat
  have hwhole : Whole ['0'] := ⟨run_zero, fun _ => by decide⟩
  have hvalue : natOfDigits (['0'] ++ (List.replicate (-d.point).toNat '0' ++ d.digits)) =
      natOfDigits d.digits := natOfDigits_zeros_append ((-d.point).toNat + 1) d.digits
  have hexp : -((List.replicate (-d.point).toNat '0' ++ d.digits).length : Int) =
      d.point - d.digits.length := by
    rw [List.length_append, List.length_replicate]
    omega
  rw [hsplit, numberOf?_pointed negative hwhole hrun, hvalue, hexp]
  rfl

/-- The point stands behind all digits. -/
theorem numberOf?_split_of_length_le (negative : Bool) {d : Digits} (h : d.Tidy)
    (hpoint : 0 < d.point) (hle : d.digits.length ≤ d.point.toNat) :
    numberOf? negative (pointed d.split) = some (.real (d.value negative)) := by
  have hsplit : d.split =
      (d.digits ++ List.replicate (d.point.toNat - d.digits.length) '0', []) := by
    unfold Digits.split
    rw [if_neg (Int.not_le.mpr hpoint)]
    dsimp only
    rw [List.take_of_length_le hle, List.drop_eq_nil_of_le hle]
  have hwhole : Whole (d.digits ++ List.replicate (d.point.toNat - d.digits.length) '0') := by
    refine ⟨(run_digits h).append_zeros _, fun hzero => ?_⟩
    rw [List.head?_append_of_ne_nil _ h.ne_nil] at hzero
    rw [h.zero hzero]
    decide
  -- the zero behind the point is one more that does not count
  have hvalue := natOfDigits_append_zeros d.digits (d.point.toNat - d.digits.length + 1)
  rw [List.replicate_succ', ← List.append_assoc] at hvalue
  have hexp : -1 + ((d.point.toNat - d.digits.length + 1 : Nat) : Int) =
      d.point - d.digits.length := by omega
  rw [hsplit]
  show numberOf? negative (d.digits ++ _ ++ '.' :: ['0']) = _
  rw [numberOf?_point negative hwhole run_zero, hvalue, ofDecimal_mul_pow]
  exact congrArg (fun e => some (real (ofDecimal negative (natOfDigits d.digits) e))) hexp

/-- The point stands between two digits. -/
theorem numberOf?_split_of_lt_length (negative : Bool) {d : Digits} (h : d.Tidy)
    (hpoint : 0 < d.point) (hlt : d.point.toNat < d.digits.length) :
    numberOf? negative (pointed d.split) = some (.real (d.value negative)) := by
  have hsplit : d.split = (d.digits.take d.point.toNat, d.digits.drop d.point.toNat) := by
    unfold Digits.split
    rw [if_neg (Int.not_le.mpr hpoint)]
    dsimp only
    rw [Nat.sub_eq_zero_of_le hlt.le, List.replicate_zero, List.append_nil]
  have hwhole : Whole (d.digits.take d.point.toNat) := by
    refine ⟨⟨?_, fun c hc => h.isDigit c (List.mem_of_mem_take hc)⟩, fun hzero => ?_⟩
    · rw [ne_eq, List.take_eq_nil_iff, not_or]
      exact ⟨by omega, h.ne_nil⟩
    · rw [List.head?_take, if_neg (by omega)] at hzero
      rw [h.zero hzero]
      decide
  have hfraction : Run (d.digits.drop d.point.toNat) := by
    refine ⟨?_, fun c hc => h.isDigit c (List.mem_of_mem_drop hc)⟩
    rw [ne_eq, List.drop_eq_nil_iff]
    omega
  have hexp : -((d.digits.drop d.point.toNat).length : Int) = d.point - d.digits.length := by
    rw [List.length_drop]
    omega
  rw [hsplit, numberOf?_pointed negative hwhole hfraction, List.take_append_drop, hexp]
  rfl

/-- The point stands behind the first digit, and an exponent moves it. -/
theorem numberOf?_exponent (negative : Bool) {d : Digits} (h : d.Tidy) :
    numberOf? negative (d.scientific false 'e') = some (.real (d.value negative)) := by
  -- the fraction is all but the first digit, so the point moves by one place less than the exponent
  obtain ⟨c, rest, hdigits⟩ := List.exists_cons_of_ne_nil h.ne_nil
  have hmem := h.isDigit
  unfold Digits.scientific Digits.value
  rw [hdigits] at hmem ⊢
  have hread := numberOf?_scientific negative (hmem c List.mem_cons_self)
    (fun c hc => hmem c (List.mem_cons_of_mem _ hc)) (d.point - 1)
  have hexp : d.point - ((rest.length + 1 : Nat) : Int) = d.point - 1 - rest.length := by omega
  rw [List.length_cons, hexp]
  exact hread

/-- **Digits are read as their value** from either layout. -/
theorem numberOf?_laidOut (negative : Bool) {d : Digits} (h : d.Tidy) :
    numberOf? negative (laidOut d) = some (.real (d.value negative)) := by
  unfold laidOut
  split
  · by_cases hpoint : d.point ≤ 0
    · exact numberOf?_split_of_nonpos negative h hpoint
    · have hpoint : 0 < d.point := Int.not_le.mp hpoint
      by_cases hle : d.digits.length ≤ d.point.toNat
      · exact numberOf?_split_of_length_le negative h hpoint hle
      · exact numberOf?_split_of_lt_length negative h hpoint (Nat.lt_of_not_le hle)
  · exact numberOf?_exponent negative h

/-! ### Words -/

/-- A text of word characters that is read as the datum `d`. -/
structure Spells (t : Text) (d : Datum) : Prop where
  isWordChar : ∀ c ∈ t, isWordChar c = true
  wordOf? : wordOf? t = some d

theorem isWordChar_of_isDigit {c : Char} (h : c.isDigit = true) : isWordChar c = true := by
  unfold isWordChar Char.isAlphanum
  rw [h]
  simp

/-- A run that is read is what the text begins with. -/
theorem digitRun?_eq_some {t digits rest : Text} (h : digitRun? t = some (digits, rest)) :
    t = digits ++ rest ∧ Run digits := by
  unfold digitRun? at h
  dsimp only at h
  split at h
  · simp at h
  · rename_i hempty
    obtain ⟨rfl, rfl⟩ := Prod.mk.inj (Option.some.inj h)
    refine ⟨?_, by simpa using hempty, fun c => List.all_eq_true.mp List.all_takeWhile c⟩
    exact (List.prefix_iff_eq_append.mp (List.takeWhile_prefix _)).symm

/-- What is read as an exponent consists of word characters. -/
theorem isWordChar_of_exponentOf? {t : Text} {e : Option Int} (h : exponentOf? t = some e) :
    ∀ c ∈ t, isWordChar c = true := by
  unfold exponentOf? at h
  split at h
  · simp
  · rename_i c cs
    split at h
    · rename_i hmark
      have hc : isWordChar c = true := by
        rcases (by simpa using hmark : c = 'e' ∨ c = 'E') with rfl | rfl <;> decide
      dsimp only at h
      split at h
      · rename_i digits hrun
        obtain ⟨hcs, hdigits⟩ := digitRun?_eq_some hrun
        rw [List.append_nil] at hcs
        rw [List.forall_mem_cons]
        refine ⟨hc, fun x hx => ?_⟩
        -- a character of the exponent is a sign or a digit
        split at hcs
        · rename_i hsign
          cases cs with
          | nil => simp at hx
          | cons sign cs =>
            have hsign : sign = '-' ∨ sign = '+' := by simpa using hsign
            rcases List.mem_cons.mp hx with rfl | hx
            · rcases hsign with rfl | rfl <;> decide
            · exact isWordChar_of_isDigit (hdigits.isDigit x (hcs ▸ hx))
        · exact isWordChar_of_isDigit (hdigits.isDigit x (hcs ▸ hx))
      · simp at h
    · simp at h

/-- What is read as a fraction consists of word characters. -/
theorem isWordChar_of_fractionOf? {t fraction last : Text}
    (h : fractionOf? t = some (fraction, last)) (hlast : ∀ c ∈ last, isWordChar c = true) :
    ∀ c ∈ t, isWordChar c = true := by
  unfold fractionOf? at h
  split at h
  · obtain ⟨rfl, hrun⟩ := digitRun?_eq_some h
    rw [List.forall_mem_cons]
    refine ⟨by decide, fun c hc => ?_⟩
    exact (List.mem_append.mp hc).elim
      (fun hc => isWordChar_of_isDigit (hrun.isDigit c hc)) (hlast c)
  · obtain ⟨rfl, rfl⟩ := Prod.mk.inj (Option.some.inj h)
    exact hlast

/-- What is read as a number begins with a digit and consists of word characters. -/
theorem exists_cons_of_numberOf? {negative : Bool} {t : Text} {d : Datum}
    (h : numberOf? negative t = some d) :
    (∃ c cs, t = c :: cs ∧ c.isDigit = true) ∧ ∀ c ∈ t, isWordChar c = true := by
  unfold numberOf? at h
  simp only [Option.bind_eq_bind, Option.bind_eq_some_iff] at h
  obtain ⟨⟨whole, rest⟩, hwhole, h⟩ := h
  obtain ⟨rfl, hrun⟩ := digitRun?_eq_some hwhole
  split at h
  · simp at h
  · -- a fraction and an exponent follow the digits, each of them perhaps empty
    simp only [Option.bind_eq_some_iff] at h
    obtain ⟨⟨fraction, last⟩, hfraction, e, hexponent, -⟩ := h
    have hrest := isWordChar_of_fractionOf? hfraction (isWordChar_of_exponentOf? hexponent)
    refine ⟨?_, fun c hc => (List.mem_append.mp hc).elim
      (fun hc => isWordChar_of_isDigit (hrun.isDigit c hc)) (hrest c)⟩
    obtain ⟨c, cs, rfl⟩ := List.exists_cons_of_ne_nil hrun.ne_nil
    exact ⟨c, cs ++ rest, rfl, hrun.isDigit c List.mem_cons_self⟩

/-- No word has a digit in it. -/
theorem lookup_words_eq_none {t : Text} {c : Char} (hc : c ∈ t) (hdigit : c.isDigit = true) :
    words.lookup t = none := by
  have hwords : words.all (fun p => p.1.all fun c => !c.isDigit) = true := rfl
  rw [List.lookup_eq_none_iff]
  intro p hp
  rw [bne_iff_ne]
  rintro rfl
  have hnot := List.all_eq_true.mp (List.all_eq_true.mp hwords p hp) c hc
  rw [hdigit] at hnot
  exact absurd hnot (by decide)

theorem spells_of_numberOf? {t : Text} {d : Datum} (h : numberOf? false t = some d) :
    Spells t d := by
  obtain ⟨⟨c, cs, rfl, hc⟩, hword⟩ := exists_cons_of_numberOf? h
  have hne : c ≠ '-' := by
    rintro rfl
    exact absurd hc (by decide)
  refine ⟨hword, ?_⟩
  unfold wordOf?
  rw [lookup_words_eq_none List.mem_cons_self hc]
  split <;> simp_all

theorem spells_minus_of_numberOf? {t : Text} {d : Datum} (h : numberOf? true t = some d) :
    Spells ('-' :: t) d := by
  obtain ⟨⟨c, cs, rfl, hc⟩, hword⟩ := exists_cons_of_numberOf? h
  refine ⟨List.forall_mem_cons.mpr ⟨by decide, hword⟩, ?_⟩
  unfold wordOf?
  rw [lookup_words_eq_none (List.mem_cons_of_mem _ List.mem_cons_self) hc]
  exact h

/-- **Whole numbers** are read as themselves. -/
theorem spells_ofInt (n : Int) : Spells (ofInt n) (.int n) := by
  cases n with
  | ofNat n => exact spells_of_numberOf? (numberOf?_ofNat false n)
  | negSucc n => exact spells_minus_of_numberOf? (numberOf?_ofNat true (n + 1))

/-- **Proper binary numbers** are read as themselves. -/
theorem spells_written {x : Binary64} (hx : x.Proper) :
    Spells (x.written "Infinity".toList "NaN".toList) (.real x) := by
  cases x with
  | nan => exact ⟨forall_mem_of_all (by decide), rfl⟩
  | infinite negative => cases negative <;> exact ⟨forall_mem_of_all (by decide), rfl⟩
  | finite negative m s =>
    obtain ⟨htidy, hvalue⟩ := value_shortest hx
    have hread := numberOf?_laidOut negative htidy
    have hwritten : (finite negative m s).written "Infinity".toList "NaN".toList =
        (if negative then ['-'] else []) ++ laidOut (shortest (m * 2 ^ s)) := by
      rw [← magnitude_finite negative]
      rfl
    rw [hvalue] at hread
    rw [hwritten]
    cases negative with
    | false => exact spells_of_numberOf? hread
    | true => exact spells_minus_of_numberOf? hread

end LabelLoop.Datum
