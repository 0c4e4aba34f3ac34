import LabelLoop.Text.Blank
import LabelLoop.Text.Casing
import LabelLoop.Text.Word
import Mathlib.Data.List.Forall2

/-!
# Classes of characters

No character is both blank and a word character (`isWord_eq_false_of_isBlank`).  This is a fact
about the tables: the ranges of one are compared with the bounds of the other
(`CodeSet.holdsAt_eq_of_uniform`), so that only the first code point of each range is looked up.

The last section says what a keyword in any case looks like (`afterIgnoringCase?_eq_some_iff`,
`forall₂_agrees_iff`).
-/

namespace LabelLoop.Text

/-! ### Ranges of a set of code points -/

namespace CodeSet

/-- The **ranges** of a list of bounds: from one bound up to, but not including, the next. -/
def ranges : List Nat → List (Nat × Nat)
  | a :: b :: bounds => (a, b) :: ranges bounds
  | _ => []

/-- A member of a set whose bounds come in pairs lies in one of the ranges. -/
theorem exists_range_of_holdsAt {bounds : List Nat} {n : Nat} (heven : bounds.length % 2 = 0)
    (h : holdsAt bounds n = true) : ∃ r ∈ ranges bounds, r.1 ≤ n ∧ n < r.2 := by
  fun_induction ranges bounds with
  | case1 a b bounds ih =>
    rw [holdsAt] at h
    split at h
    · exact absurd h Bool.false_ne_true
    · rename_i ha
      rw [holdsAt] at h
      by_cases hb : n < b
      · exact ⟨(a, b), List.mem_cons_self, Nat.not_lt.mp ha, hb⟩
      · -- both bounds are passed, so the rest of the table decides
        simp only [hb, if_false, Bool.not_not] at h
        rw [List.length_cons, List.length_cons] at heven
        obtain ⟨r, hr, hrange⟩ := ih (by omega) h
        exact ⟨r, List.mem_cons_of_mem _ hr, hrange⟩
  | case2 bounds hshort =>
    match bounds, hshort with
    | [], _ => exact absurd h Bool.false_ne_true
    | [_], _ => simp at heven
    | a :: b :: rest, hshort => exact absurd rfl (hshort a b rest)

/-- No bound lies inside the range: membership does not change there. -/
def uniformOn (bounds : List Nat) (r : Nat × Nat) : Bool :=
  bounds.all fun b => b.ble r.1 || r.2.ble b

/-- Membership is the same all over a range in which no bound lies. -/
theorem holdsAt_eq_of_uniform {bounds : List Nat} {r : Nat × Nat} {n : Nat}
    (hu : uniformOn bounds r = true) (hlo : r.1 ≤ n) (hhi : n < r.2) :
    holdsAt bounds n = holdsAt bounds r.1 := by
  induction bounds with
  | nil => rfl
  | cons b bounds ih =>
    rw [uniformOn, List.all_cons, Bool.and_eq_true] at hu
    have hb : b ≤ r.1 ∨ r.2 ≤ b := by simpa using hu.1
    have hsame : n < b ↔ r.1 < b := by omega
    rw [holdsAt, holdsAt, ih hu.2]
    simp only [hsame]

end CodeSet

/-! ### Blanks and word characters -/

/-- The word table is constant, and `false`, on every range of the blank table. -/
theorem wordSet_uniformOn_blank_ranges (r : Nat × Nat) (hr : r ∈ CodeSet.ranges blankSet.bounds) :
    CodeSet.uniformOn wordSet.bounds r = true ∧ CodeSet.holdsAt wordSet.bounds r.1 = false := by
  revert r
  decide +kernel

/-- A blank is no word character. -/
theorem isWord_eq_false_of_isBlank {c : Char} (h : isBlank c = true) : isWord c = false := by
  obtain ⟨r, hr, hlo, hhi⟩ := CodeSet.exists_range_of_holdsAt (by decide) h
  obtain ⟨huniform, hfalse⟩ := wordSet_uniformOn_blank_ranges r hr
  rw [isWord, CodeSet.contains, CodeSet.holdsAt_eq_of_uniform huniform hlo hhi, hfalse]

/-- A word character is no blank. -/
theorem isBlank_eq_false_of_isWord {c : Char} (h : isWord c = true) : isBlank c = false := by
  by_contra hb
  rw [Bool.not_eq_false] at hb
  rw [isWord_eq_false_of_isBlank hb] at h
  exact Bool.false_ne_true h

/-- A range of the word table: all its characters are word characters. -/
theorem isWord_of_range {c : Char} (r : Nat × Nat) (hlo : r.1 ≤ c.toNat) (hhi : c.toNat < r.2)
    (huniform : CodeSet.uniformOn wordSet.bounds r = true)
    (hfirst : CodeSet.holdsAt wordSet.bounds r.1 = true) : isWord c = true := by
  rw [isWord, CodeSet.contains, CodeSet.holdsAt_eq_of_uniform huniform hlo hhi, hfirst]

theorem isUpper_iff {c : Char} : c.isUpper = true ↔ 65 ≤ c.toNat ∧ c.toNat ≤ 90 :=
  decide_eq_true_iff

theorem isLower_iff {c : Char} : c.isLower = true ↔ 97 ≤ c.toNat ∧ c.toNat ≤ 122 := by
  show (decide (c.val ≥ 'a'.val) && decide (c.val ≤ 'z'.val)) = true ↔ _
  rw [Bool.and_eq_true, decide_eq_true_eq, decide_eq_true_eq]
  exact Iff.rfl

theorem isAlpha_iff {c : Char} : c.isAlpha = true ↔ c.isUpper = true ∨ c.isLower = true :=
  Bool.or_eq_true_iff

/-- The letters `A` to `Z` and `a` to `z` are word characters. -/
theorem isWord_of_isAlpha {c : Char} (h : c.isAlpha = true) : isWord c = true := by
  rcases isAlpha_iff.mp h with h | h
  · obtain ⟨hlo, hhi⟩ := isUpper_iff.mp h
    exact isWord_of_range (0x41, 0x5B) hlo (Nat.lt_succ_of_le hhi) (by decide +kernel) (by decide)
  · obtain ⟨hlo, hhi⟩ := isLower_iff.mp h
    exact isWord_of_range (0x61, 0x7B) hlo (Nat.lt_succ_of_le hhi) (by decide +kernel) (by decide)

/-- The decimal digits are ten characters. -/
theorem mem_of_isDigit {c : Char} (h : c.isDigit = true) : c ∈ "0123456789".toList := by
  have hall : ∀ n < 58, 48 ≤ n → Char.ofNat n ∈ "0123456789".toList := by decide
  simp only [Char.isDigit, Bool.and_eq_true, decide_eq_true_eq, UInt32.le_iff_toNat_le,
    ge_iff_le] at h
  rw [← Char.ofNat_toNat c]
  exact hall c.toNat (Nat.lt_succ_of_le h.2) h.1

/-- What holds of the characters of a text is checked one by one. -/
theorem forall_mem_of_all {p : Char → Prop} [DecidablePred p] {t : Text}
    (h : t.all (fun c => decide (p c)) = true) : ∀ c ∈ t, p c :=
  fun c hc => of_decide_eq_true (List.all_eq_true.mp h c hc)

/-! ### Keywords in any case -/

/-- Lower-casing leaves a character as it is, or takes a capital letter to a small one. -/
theorem toLower_eq_or (c : Char) :
    c.toLower = c ∨ c.isUpper = true ∧ c.toLower.isLower = true := by
  by_cases h : c.val ≥ 'A'.val ∧ c.val ≤ 'Z'.val
  · have hupper : 65 ≤ c.toNat ∧ c.toNat ≤ 90 := h
    have hlower : c.toLower = ⟨c.val + ('a'.val - 'A'.val), _⟩ := dif_pos h
    have hval : c.toLower.toNat = (c.toNat + 32) % 2 ^ 32 :=
      (congrArg Char.toNat hlower).trans (UInt32.toNat_add _ _)
    refine Or.inr ⟨isUpper_iff.mpr hupper, isLower_iff.mpr ?_⟩
    omega
  · exact Or.inl (dif_neg h)

/-- Only the character itself agrees with one that is no letter. -/
theorem eq_of_agrees {p c : Char} (hp : p.isAlpha = false) (h : agrees p c = true) : c = p := by
  simp only [agrees, Bool.or_eq_true, Bool.and_eq_true, beq_iff_eq] at h
  rcases h with (((rfl | h) | ⟨rfl, -⟩) | ⟨rfl, -⟩) | ⟨rfl, -⟩
  · rfl
  · rcases toLower_eq_or c with hsame | ⟨-, hlower⟩
    · exact hsame.symm.trans h
    · rw [h] at hlower
      rw [isAlpha_iff.mpr (Or.inr hlower)] at hp
      exact absurd hp.symm Bool.false_ne_true
  · exact absurd hp (by decide)
  · exact absurd hp (by decide)
  · exact absurd hp (by decide)

/-- What agrees with a letter is a word character. -/
theorem isWord_of_agrees {p c : Char} (hp : p.isAlpha = true) (h : agrees p c = true) :
    isWord c = true := by
  simp only [agrees, Bool.or_eq_true, Bool.and_eq_true, beq_iff_eq] at h
  rcases h with (((rfl | h) | ⟨-, rfl⟩) | ⟨-, rfl⟩) | ⟨-, rfl | rfl⟩
  · exact isWord_of_isAlpha hp
  · rcases toLower_eq_or c with hsame | ⟨hupper, -⟩
    · rw [← hsame, h]
      exact isWord_of_isAlpha hp
    · exact isWord_of_isAlpha (isAlpha_iff.mpr (Or.inl hupper))
  · decide +kernel
  · decide +kernel
  · decide +kernel
  · decide +kernel

/-- A small letter or another sign **without odd forms**: it agrees with itself and its capital
letter only. -/
def PlainCase (p : Char) : Prop :=
  p.toLower = p ∧ p ≠ 's' ∧ p ≠ 'k' ∧ p ≠ 'i'

instance : DecidablePred PlainCase := fun p =>
  inferInstanceAs (Decidable (p.toLower = p ∧ p ≠ 's' ∧ p ≠ 'k' ∧ p ≠ 'i'))

theorem agrees_iff_toLower_eq {p c : Char} (hp : PlainCase p) :
    agrees p c = true ↔ c.toLower = p := by
  obtain ⟨hlower, hs, hk, hi⟩ := hp
  simp only [agrees, Bool.or_eq_true, Bool.and_eq_true, beq_iff_eq, hs, hk, hi, false_and, or_false]
  constructor
  · rintro (rfl | h)
    · exact hlower
    · exact h
  · exact Or.inr

/-- A text agrees with such a word exactly if it is the word when all its letters are small. -/
theorem forall₂_agrees_iff {word : Text} (hword : ∀ p ∈ word, PlainCase p) (t : Text) :
    List.Forall₂ (fun p c => agrees p c = true) word t ↔ t.map Char.toLower = word := by
  induction word generalizing t with
  | nil => rw [List.forall₂_nil_left_iff, List.map_eq_nil_iff]
  | cons p word ih =>
    rw [List.forall_mem_cons] at hword
    cases t with
    | nil => simp
    | cons c t =>
      rw [List.forall₂_cons, List.map_cons, List.cons.injEq, agrees_iff_toLower_eq hword.1,
        ih hword.2]

/-- What follows a keyword: the text begins with characters that agree with the keyword one by
one. -/
theorem afterIgnoringCase?_eq_some_iff {word t rest : Text} :
    afterIgnoringCase? word t = some rest ↔
      ∃ key, t = key ++ rest ∧ List.Forall₂ (fun p c => agrees p c = true) word key := by
  induction word generalizing t with
  | nil =>
    rw [afterIgnoringCase?, Option.some.injEq]
    constructor
    · rintro rfl
      exact ⟨[], rfl, .nil⟩
    · rintro ⟨key, rfl, hkey⟩
      cases hkey
      rfl
  | cons p ps ih =>
    cases t with
    | nil => simp [afterIgnoringCase?]
    | cons c cs =>
      rw [afterIgnoringCase?]
      constructor
      · intro h
        split at h
        · rename_i hc
          obtain ⟨key, rfl, hkey⟩ := ih.mp h
          exact ⟨c :: key, rfl, .cons hc hkey⟩
        · exact absurd h (by simp)
      · rintro ⟨key, heq, hkey⟩
        cases hkey with
        | cons hc hkey =>
          injection heq with h1 h2
          subst h1
          simp only [hc, if_true]
          exact ih.mpr ⟨_, h2, hkey⟩

/-- Every character of a written keyword agrees with one of the keyword. -/
theorem exists_agrees_of_mem {word key : Text}
    (h : List.Forall₂ (fun p c => agrees p c = true) word key) {c : Char} (hc : c ∈ key) :
    ∃ p ∈ word, agrees p c = true := by
  induction h with
  | nil => exact absurd hc List.not_mem_nil
  | @cons p x word key hx _ ih =>
    rcases List.mem_cons.mp hc with rfl | hc
    · exact ⟨p, List.mem_cons_self, hx⟩
    · obtain ⟨p', hp', hagrees⟩ := ih hc
      exact ⟨p', List.mem_cons_of_mem p hp', hagrees⟩

end LabelLoop.Text
