import LabelLoop.Block.Basic
import Mathlib.Tactic.Common

/-!
# Braces by nesting

`closeAt depth t` is the place at which the forward scan over `t` stops when `depth` opening braces
wait for an answer: the brace that answers none of them, or the end of the text.  The block around a
place stops there (`around_stop`), and `closeIn` writes a closing brace there.

`height depth t` is the number of braces that are open after `t`, and `BracesBalanced` and `Matched`
say what it is for braces to answer one another by nesting alone.
-/

namespace LabelLoop.Block

open Text

/-- A text **without braces**. -/
def Plain (t : Text) : Prop :=
  ∀ c ∈ t, c ≠ '\x7b' ∧ c ≠ '\x7d'

/-! ### Where the forward scan stops -/

/-- Where the scan over `t` stops: at the first closing brace that answers none of `depth` braces
open before, and none opened on the way, or at the end. -/
def closeAt (depth : Nat) (t : Text) : Nat :=
  ((unanswered? '\x7b' '\x7d' depth t).map fun rest => t.length - rest - 1).getD t.length

@[simp] theorem closeAt_nil (depth : Nat) : closeAt depth [] = 0 := rfl

/-- A scan that goes on after the first character stops one place later in the whole text. -/
theorem closeAt_cons_of_eq {depth depth' : Nat} {c : Char} {t : Text}
    (h : unanswered? '\x7b' '\x7d' depth (c :: t) = unanswered? '\x7b' '\x7d' depth' t) :
    closeAt depth (c :: t) = closeAt depth' t + 1 := by
  rw [closeAt, closeAt, h, List.length_cons]
  cases hrest : unanswered? '\x7b' '\x7d' depth' t with
  | none => rfl
  | some rest =>
    have hlt := unanswered?_lt hrest
    simp only [Option.map_some, Option.getD_some]
    omega

theorem closeAt_open (depth : Nat) (t : Text) :
    closeAt depth ('\x7b' :: t) = closeAt (depth + 1) t + 1 :=
  closeAt_cons_of_eq (by rw [unanswered?.eq_def]; simp only [if_true])

theorem closeAt_close_zero (t : Text) : closeAt 0 ('\x7d' :: t) = 0 := by
  rw [closeAt, unanswered?, if_neg (by decide), if_pos rfl]
  simp

theorem closeAt_close_succ (depth : Nat) (t : Text) :
    closeAt (depth + 1) ('\x7d' :: t) = closeAt depth t + 1 :=
  closeAt_cons_of_eq (by rw [unanswered?, if_neg (by decide), if_pos rfl])

theorem closeAt_other {c : Char} (h : c ≠ '\x7b' ∧ c ≠ '\x7d') (depth : Nat) (t : Text) :
    closeAt depth (c :: t) = closeAt depth t + 1 :=
  closeAt_cons_of_eq (by rw [unanswered?.eq_def]; simp only [if_neg h.1, if_neg h.2])

/-- The scan passes over a text without braces. -/
theorem closeAt_append_of_plain {a : Text} (h : Plain a) (depth : Nat) (t : Text) :
    closeAt depth (a ++ t) = a.length + closeAt depth t := by
  induction a with
  | nil => simp
  | cons c a ih =>
    rw [List.cons_append, closeAt_other (h c List.mem_cons_self),
      ih fun x hx => h x (List.mem_cons_of_mem _ hx), List.length_cons]
    omega

/-- The scan stops at a closing brace, or at the end of the text. -/
theorem closeAt_spec (depth : Nat) (t : Text) :
    closeAt depth t ≤ t.length ∧
      (t[closeAt depth t]? = some '\x7d' ∨ closeAt depth t = t.length) := by
  induction t generalizing depth with
  | nil => exact ⟨Nat.le_refl _, Or.inr rfl⟩
  | cons c t ih =>
    -- the scan stops at once, or the rest of the text decides
    have hnext : ∀ depth', closeAt depth (c :: t) = closeAt depth' t + 1 →
        closeAt depth (c :: t) ≤ (c :: t).length ∧
          ((c :: t)[closeAt depth (c :: t)]? = some '\x7d' ∨
            closeAt depth (c :: t) = (c :: t).length) := by
      intro depth' heq
      obtain ⟨hle, hstop⟩ := ih depth'
      rw [heq, List.length_cons, List.getElem?_cons_succ]
      refine ⟨by omega, hstop.imp_right fun h => by omega⟩
    by_cases hopen : c = '\x7b'
    · subst hopen
      exact hnext _ (closeAt_open depth t)
    · by_cases hclose : c = '\x7d'
      · subst hclose
        cases depth with
        | zero =>
          rw [closeAt_close_zero]
          exact ⟨Nat.zero_le _, Or.inl rfl⟩
        | succ depth => exact hnext _ (closeAt_close_succ depth t)
      · exact hnext _ (closeAt_other ⟨hopen, hclose⟩ depth t)

/-- The block around a place stops where the scan over the text after it does. -/
theorem around_stop {t : Text} {place : Nat} (h : place < t.length) :
    (around t place).stop = place + 1 + closeAt 0 (t.drop (place + 1)) := by
  rw [around, closing?, closeAt, List.length_drop]
  cases hrest : unanswered? '\x7b' '\x7d' 0 (t.drop (place + 1)) with
  | none =>
    simp only [Option.map_none, Option.getD_none]
    omega
  | some rest =>
    have hlt := unanswered?_lt hrest
    rw [List.length_drop] at hlt
    simp only [Option.map_some, Option.getD_some]
    omega

/-- The block around the start of a text without braces stops where the scan over what follows the
text does. -/
theorem around_stop_of_plain {a b : Text} (ha : a ≠ []) (hplain : Plain a) (pre : Text) :
    (around (pre ++ (a ++ b)) pre.length).stop = pre.length + a.length + closeAt 0 b := by
  obtain ⟨c, a, rfl⟩ := List.exists_cons_of_ne_nil ha
  have hdrop : (pre ++ (c :: a ++ b)).drop (pre.length + 1) = a ++ b := by
    rw [List.drop_append, Nat.add_sub_cancel_left, List.drop_eq_nil_of_le (by omega)]
    rfl
  rw [around_stop (by simp), hdrop,
    closeAt_append_of_plain fun x hx => hplain x (List.mem_cons_of_mem _ hx), List.length_cons]
  omega

/-! ### Writing a closing brace there -/

/-- Writes a closing brace where the scan over `t` stops. -/
def closeIn (depth : Nat) (t : Text) : Text :=
  t.take (closeAt depth t) ++ '\x7d' :: t.drop (closeAt depth t)

theorem closeIn_cons_of_eq {depth depth' : Nat} {c : Char} {t : Text}
    (h : closeAt depth (c :: t) = closeAt depth' t + 1) :
    closeIn depth (c :: t) = c :: closeIn depth' t := by
  rw [closeIn, closeIn, h, List.take_succ_cons, List.drop_succ_cons, List.cons_append]

theorem closeIn_close_zero (t : Text) : closeIn 0 ('\x7d' :: t) = '\x7d' :: '\x7d' :: t := by
  rw [closeIn, closeAt_close_zero]
  rfl

theorem closeIn_append_of_plain {a : Text} (h : Plain a) (depth : Nat) (t : Text) :
    closeIn depth (a ++ t) = a ++ closeIn depth t := by
  rw [closeIn, closeIn, closeAt_append_of_plain h, List.take_length_add_append,
    List.drop_length_add_append, List.append_assoc]

/-- Among closing braces it does not matter where one more is written. -/
theorem closeIn_replicate (depth n : Nat) :
    closeIn depth (List.replicate n '\x7d') = List.replicate (n + 1) '\x7d' := by
  induction n generalizing depth with
  | zero => rfl
  | succ n ih =>
    rw [List.replicate_succ]
    cases depth with
    | zero => rw [closeIn_close_zero]; rfl
    | succ depth => rw [closeIn_cons_of_eq (closeAt_close_succ _ _), ih]; rfl

/-! ### Balance -/

/-- The number of braces open after `t`, if `depth` are open before it; none if a closing brace
finds none open. -/
def height (depth : Nat) : Text → Option Nat
  | [] => some depth
  | c :: cs =>
    if c = '\x7b' then height (depth + 1) cs
    else if c = '\x7d' then
      match depth with
      | 0 => none
      | d + 1 => height d cs
    else height depth cs

/-- **BracesBalanced**: every brace is answered within the text. -/
def BracesBalanced (t : Text) : Prop :=
  height 0 t = some 0

instance (t : Text) : Decidable (BracesBalanced t) :=
  inferInstanceAs (Decidable (height 0 t = some 0))

/-- The braces at positions `i` and `j` are **matched by nesting**. -/
def Matched (t : Text) (i j : Nat) : Prop :=
  t[i]? = some '\x7b' ∧ t[j]? = some '\x7d' ∧ i < j ∧ BracesBalanced (slice t (i + 1) j)

instance (t : Text) (i j : Nat) : Decidable (Matched t i j) :=
  inferInstanceAs (Decidable (_ ∧ _ ∧ _ ∧ _))

/-- Matched braces, with the text that they stand in. -/
theorem matched_iff {t : Text} {i j : Nat} :
    Matched t i j ↔ ∃ a b c, t = a ++ '\x7b' :: (b ++ '\x7d' :: c) ∧ BracesBalanced b ∧
      i = a.length ∧ j = a.length + 1 + b.length := by
  constructor
  · rintro ⟨hopen, hclose, hlt, hbalanced⟩
    obtain ⟨hi, hopen⟩ := List.getElem?_eq_some_iff.mp hopen
    obtain ⟨hj, hclose⟩ := List.getElem?_eq_some_iff.mp hclose
    refine ⟨t.take i, slice t (i + 1) j, t.drop (j + 1), ?_, hbalanced, ?_, ?_⟩
    · rw [← hclose, List.getElem_cons_drop, slice_append_drop hlt, ← hopen, List.getElem_cons_drop,
        List.take_append_drop]
    · rw [List.length_take]
      omega
    · rw [slice, List.length_drop, List.length_take, List.length_take]
      omega
  · rintro ⟨a, b, c, rfl, hbalanced, rfl, rfl⟩
    have hsplit : a ++ '\x7b' :: (b ++ '\x7d' :: c) = (a ++ '\x7b' :: b) ++ '\x7d' :: c := by simp
    have hlength : a.length + 1 + b.length = (a ++ '\x7b' :: b).length := by
      rw [List.length_append, List.length_cons]
      omega
    refine ⟨by simp, ?_, by omega, ?_⟩
    · rw [hsplit, hlength, List.getElem?_append_right (Nat.le_refl _), Nat.sub_self]
      rfl
    · have hslice : slice (a ++ '\x7b' :: (b ++ '\x7d' :: c)) (a.length + 1)
          (a.length + 1 + b.length) = b := by
        rw [slice, hlength, hsplit, List.take_left, List.drop_append, Nat.add_sub_cancel_left,
          List.drop_eq_nil_of_le (by omega)]
        rfl
      rwa [hslice]

theorem height_open (depth : Nat) (t : Text) :
    height depth ('\x7b' :: t) = height (depth + 1) t := by
  rw [height.eq_def]
  simp only [if_true]

theorem height_close_zero (t : Text) : height 0 ('\x7d' :: t) = none := rfl

theorem height_close_succ (depth : Nat) (t : Text) :
    height (depth + 1) ('\x7d' :: t) = height depth t := rfl

theorem height_other {c : Char} (h : c ≠ '\x7b' ∧ c ≠ '\x7d') (depth : Nat) (t : Text) :
    height depth (c :: t) = height depth t := by
  rw [height.eq_def]
  simp only [if_neg h.1, if_neg h.2]

theorem height_append (depth : Nat) (a b : Text) :
    height depth (a ++ b) = (height depth a).bind fun d => height d b := by
  induction a generalizing depth with
  | nil => rfl
  | cons c a ih =>
    rw [List.cons_append]
    by_cases hopen : c = '\x7b'
    · rw [hopen, height_open, height_open, ih]
    · by_cases hclose : c = '\x7d'
      · subst hclose
        cases depth with
        | zero => rfl
        | succ d => rw [height_close_succ, height_close_succ, ih]
      · rw [height_other ⟨hopen, hclose⟩, height_other ⟨hopen, hclose⟩, ih]

theorem height_of_plain {t : Text} (h : Plain t) (depth : Nat) : height depth t = some depth := by
  induction t with
  | nil => rfl
  | cons c t ih =>
    rw [height_other (h c List.mem_cons_self), ih fun x hx => h x (List.mem_cons_of_mem _ hx)]

theorem height_append_of_plain {a : Text} (h : Plain a) (depth : Nat) (b : Text) :
    height depth (a ++ b) = height depth b := by
  rw [height_append, height_of_plain h]
  rfl

/-- Closing braces answer as many open ones. -/
theorem height_replicate (depth n : Nat) :
    height (depth + n) (List.replicate n '\x7d') = some depth := by
  induction n with
  | zero => rfl
  | succ n ih =>
    rw [List.replicate_succ, ← Nat.add_assoc, height_close_succ, ih]

end LabelLoop.Block
