/-!
# Texts

A text is the list of its characters, and positions and lengths count characters.  This module
holds the operations that every other part is written with and that lists do not have: slices, and
the search for the first occurrence of a text in another.
-/

namespace LabelLoop

/-- A **text**: the list of its characters. -/
abbrev Text := List Char

namespace Text

/-! ### Parts of a text -/

/-- The characters of `t` from position `start` up to, but not including, position `stop`. -/
def slice (t : Text) (start stop : Nat) : Text :=
  (t.take stop).drop start

theorem slice_append_drop {t : Text} {start stop : Nat} (h : start ≤ stop) :
    slice t start stop ++ t.drop stop = t.drop start := by
  by_cases hle : stop ≤ t.length
  · rw [slice, ← List.drop_append_of_le_length (by rw [List.length_take]; omega),
      List.take_append_drop]
  · rw [slice, List.take_of_length_le (by omega), List.drop_eq_nil_of_le (Nat.le_of_not_le hle),
      List.append_nil]

theorem slice_append_slice {t : Text} {a b c : Nat} (hab : a ≤ b) (hbc : b ≤ c) :
    slice t a b ++ slice t b c = slice t a c := by
  have hslice : slice (t.take c) a b = slice t a b := by
    rw [slice, slice, List.take_take, Nat.min_eq_left hbc]
  rw [← hslice]
  exact slice_append_drop hab

/-- `t` begins with `beginning`. -/
def beginsWith (t beginning : Text) : Bool :=
  beginning.isPrefixOf t

@[simp]
theorem beginsWith_nil (t : Text) : beginsWith t [] = true := by
  cases t <;> rfl

@[simp]
theorem beginsWith_cons_cons (c b : Char) (t beginning : Text) :
    beginsWith (c :: t) (b :: beginning) = (b == c && beginsWith t beginning) := rfl

/-- A text begins with `beginning` exactly if something follows it there. -/
theorem beginsWith_iff {t beginning : Text} :
    beginsWith t beginning = true ↔ ∃ rest, t = beginning ++ rest := by
  rw [beginsWith, List.isPrefixOf_iff_prefix]
  exact exists_congr fun rest => eq_comm

/-- The position at which `needle` occurs first. -/
def position? (needle : Text) : Text → Option Nat
  | [] => if needle = [] then some 0 else none
  | c :: cs =>
    if beginsWith (c :: cs) needle then some 0
    else (position? needle cs).map (· + 1)

/-- `needle` occurs somewhere in `t`. -/
def holds (t needle : Text) : Bool :=
  (position? needle t).isSome

/-! ### Numbers as text -/

/-- A whole number in decimal digits. -/
def ofNat (n : Nat) : Text :=
  Nat.toDigits 10 n

/-- The value of a run of decimal digits. -/
def natOfDigits (digits : Text) : Nat :=
  digits.foldl (fun n c => 10 * n + (c.toNat - '0'.toNat)) 0

/-- A whole number in decimal digits, with a minus sign in front of a negative one. -/
def ofInt : Int → Text
  | .ofNat n => ofNat n
  | .negSucc n => '-' :: ofNat (n + 1)

/-- A number in lower-case hexadecimal digits, at least `width` of them. -/
def hex (width n : Nat) : Text :=
  let digits := Nat.toDigits 16 n
  List.replicate (width - digits.length) '0' ++ digits

end Text

end LabelLoop
