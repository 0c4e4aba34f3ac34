import LabelLoop.Literal.Shield
import LabelLoop.Text.Search
import Mathlib.Tactic.Common

/-!
# Counting placeholders

`occurrences needle t` is the number of places at which `needle` begins in `t`.  Texts put one after
another have at least the occurrences of both (`occurrences_append_le`), and no more if a character
stands between them that is not part of the needle (`occurrences_append_of_head`).

Restoring meets the placeholders that are found one after another and without overlap, `tokens` in
number.  They part the text (`Parted`), and restoring weaves the literals into the parts and counts
what it has no literal or no placeholder for (`Parted.restore_eq`).  A placeholder made of a low
line and digits does not overlap with itself, so that all its occurrences are met
(`Parted.occurrences_eq`).
-/

namespace LabelLoop.Literal

open Text

/-! ### Occurrences -/

/-- **How often** `needle` occurs in a text. -/
def occurrences (needle : Text) : Text → Nat
  | [] => 0
  | c :: cs => (if beginsWith (c :: cs) needle then 1 else 0) + occurrences needle cs

/-- What a text begins with, it begins with also if more follows. -/
theorem beginsWith_append {needle t : Text} (h : beginsWith t needle = true) (u : Text) :
    beginsWith (t ++ u) needle = true := by
  obtain ⟨rest, rfl⟩ := beginsWith_iff.mp h
  exact beginsWith_iff.mpr ⟨rest ++ u, by rw [List.append_assoc]⟩

/-- **Nothing is lost** when texts are put one after another. -/
theorem occurrences_append_le (needle a b : Text) :
    occurrences needle a + occurrences needle b ≤ occurrences needle (a ++ b) := by
  induction a with
  | nil => exact Nat.le_of_eq (Nat.zero_add _)
  | cons c a ih =>
    rw [List.cons_append, occurrences, occurrences]
    have hhead : (if beginsWith (c :: a) needle then 1 else 0) ≤
        if beginsWith (c :: (a ++ b)) needle then 1 else 0 := by
      split
      · rename_i h
        have hlonger : beginsWith (c :: (a ++ b)) needle = true := beginsWith_append h b
        exact Nat.le_of_eq (if_pos hlonger).symm
      · exact Nat.zero_le _
    omega

theorem occurrences_le_append_left (needle a b : Text) :
    occurrences needle a ≤ occurrences needle (a ++ b) := by
  have := occurrences_append_le needle a b
  omega

theorem occurrences_le_append_right (needle a b : Text) :
    occurrences needle b ≤ occurrences needle (a ++ b) := by
  have := occurrences_append_le needle a b
  omega

/-- A needle does not reach into a text whose first character is none of its own. -/
theorem beginsWith_append_of_head {needle b : Text} (hb : ∀ c ∈ b.head?, c ∉ needle) (a : Text) :
    beginsWith (a ++ b) needle = beginsWith a needle := by
  induction needle generalizing a with
  | nil => rfl
  | cons n needle ih =>
    have hb' : ∀ c ∈ b.head?, c ∉ needle := fun c hc hmem => hb c hc (List.mem_cons_of_mem _ hmem)
    cases a with
    | cons c a =>
      rw [List.cons_append, beginsWith_cons_cons, beginsWith_cons_cons, ih hb' a]
    | nil =>
      cases b with
      | nil => rfl
      | cons c b =>
        have hne : n ≠ c := by
          rintro rfl
          exact hb n rfl List.mem_cons_self
        rw [List.nil_append, beginsWith_cons_cons, beq_false_of_ne hne]
        rfl

/-- **Nothing is won** where a character that is not part of the needle stands in between. -/
theorem occurrences_append_of_head {needle b : Text} (hb : ∀ c ∈ b.head?, c ∉ needle) (a : Text) :
    occurrences needle (a ++ b) = occurrences needle a + occurrences needle b := by
  induction a with
  | nil => exact (Nat.zero_add _).symm
  | cons c a ih =>
    have hbegin : beginsWith (c :: (a ++ b)) needle = beginsWith (c :: a) needle :=
      beginsWith_append_of_head hb (c :: a)
    rw [List.cons_append, occurrences, occurrences, ih, hbegin, Nat.add_assoc]

/-- The search for the first occurrence fails exactly if there is none. -/
theorem position?_eq_none_iff {needle : Text} (h : needle ≠ []) {t : Text} :
    position? needle t = none ↔ occurrences needle t = 0 := by
  induction t with
  | nil => simp [position?, occurrences, h]
  | cons c t ih =>
    rw [position?, occurrences]
    split
    · simp
    · simp [ih]

theorem beginsWith_iff_prefix {t needle : Text} :
    beginsWith t needle = true ↔ needle <+: t := by
  rw [beginsWith_iff]
  exact exists_congr fun _ => eq_comm

/-- The same, said of the needle as a part of the text. -/
theorem position?_eq_none_iff_absent {needle t : Text} :
    position? needle t = none ↔ ¬needle <:+: t := by
  induction t with
  | nil =>
    rw [position?, List.infix_nil]
    split <;> simp [*]
  | cons c t ih =>
    rw [position?, List.infix_cons_iff, not_or, ← beginsWith_iff_prefix, ← ih]
    split <;> simp [*]

/-! ### Placeholders one after another -/

/-- The placeholder at the front of a text. -/
def token? (placeholder : Text) : Recogniser Unit := fun t =>
  if beginsWith t placeholder then some ((), placeholder.length) else none

/-- **How many placeholders** a text holds, from left to right and without overlap. -/
def tokens (placeholder t : Text) : Nat :=
  (search (token? placeholder) t).length

/-- One step of restoring: a placeholder takes the next literal. -/
theorem restoreFrom_placeholder_append (p : Char) (ps : Text) (literals : List Text) (t : Text) :
    restoreFrom (p :: ps) literals 0 (p :: ps ++ t) =
      fill (p :: ps) literals fun ls => restoreFrom (p :: ps) ls 0 t := by
  have hbegin : beginsWith (p :: (ps ++ t)) (p :: ps) = true :=
    beginsWith_iff.mpr ⟨t, rfl⟩
  rw [List.cons_append, restoreFrom, if_pos hbegin]
  congr 1
  funext ls
  rw [restoreFrom_skip, List.length_cons, Nat.add_sub_cancel, List.drop_left]

/-! ### Texts parted at their placeholders -/

/-- The text is **parted** at its placeholders, from left to right and without overlap, into the
text before the first of them and the texts after each of them. -/
inductive Parted (placeholder : Text) : Text → Text → List Text → Prop where
  | nil : Parted placeholder [] [] []
  | char {c : Char} {t first : Text} {gaps : List Text}
      (h : ¬beginsWith (c :: t) placeholder = true) (hparted : Parted placeholder t first gaps) :
      Parted placeholder (c :: t) (c :: first) gaps
  | token {t first : Text} {gaps : List Text} (hparted : Parted placeholder t first gaps) :
      Parted placeholder (placeholder ++ t) [] (first :: gaps)

/-- A text, and then each of the fillers with the text that follows it. -/
def woven (first : Text) (fillers gaps : List Text) : Text :=
  first ++ (List.zipWith (· ++ ·) fillers gaps).flatten

theorem woven_nil_cons (filler next : Text) (fillers gaps : List Text) :
    woven [] (filler :: fillers) (next :: gaps) = filler ++ woven next fillers gaps := by
  simp [woven]

/-- **Every text can be parted.** -/
theorem exists_parted {placeholder : Text} (hne : placeholder ≠ []) (t : Text) :
    ∃ first gaps, Parted placeholder t first gaps := by
  -- the rest after a placeholder is no tail of the text, so the induction is on the length
  induction hlen : t.length using Nat.strongRecOn generalizing t with
  | _ n ih =>
    cases t with
    | nil => exact ⟨[], [], .nil⟩
    | cons c t =>
      by_cases hbegin : beginsWith (c :: t) placeholder = true
      · obtain ⟨rest, heq⟩ := beginsWith_iff.mp hbegin
        have hlt : rest.length < n := by
          have := List.length_pos_iff.mpr hne
          rw [← hlen, heq, List.length_append]
          omega
        obtain ⟨first, gaps, hparted⟩ := ih _ hlt rest rfl
        rw [heq]
        exact ⟨[], first :: gaps, .token hparted⟩
      · obtain ⟨first, gaps, hparted⟩ := ih t.length (by rw [← hlen]; simp) t rfl
        exact ⟨c :: first, gaps, .char hbegin hparted⟩

namespace Parted

variable {placeholder t first : Text} {gaps : List Text}

/-- With its placeholders in between, the parts are the text again. -/
theorem eq_woven (h : Parted placeholder t first gaps) :
    t = woven first (List.replicate gaps.length placeholder) gaps := by
  induction h with
  | nil => rfl
  | char _ _ ih => exact congrArg (_ :: ·) ih
  | token _ ih =>
    rw [List.length_cons, List.replicate_succ, woven_nil_cons]
    exact congrArg (placeholder ++ ·) ih

/-- No placeholder is left in the parts. -/
theorem absent (hne : placeholder ≠ []) (h : Parted placeholder t first gaps) :
    ∀ g ∈ first :: gaps, ¬placeholder <:+: g := by
  induction h with
  | nil => simpa using hne
  | @char c t first gaps hbegin hparted ih =>
    rw [List.forall_mem_cons] at ih ⊢
    refine ⟨fun hin => ?_, ih.2⟩
    rcases List.infix_cons_iff.mp hin with hbegin' | hin
    · -- what begins the first part begins the text
      have hfirst : c :: first <+: c :: t :=
        List.cons_prefix_cons.mpr ⟨rfl, _, hparted.eq_woven.symm⟩
      obtain ⟨rest, hrest⟩ := hbegin'.trans hfirst
      exact hbegin (beginsWith_iff.mpr ⟨rest, hrest.symm⟩)
    · exact ih.1 hin
  | token _ ih =>
    rw [List.forall_mem_cons]
    exact ⟨by simpa using hne, ih⟩

/-- **What restoring does**: the literals are written one after another for the placeholders, and
when they are used up, the placeholders stay. -/
theorem restore_eq (hne : placeholder ≠ []) (h : Parted placeholder t first gaps)
    (literals : List Text) :
    restore placeholder literals t =
      ⟨woven first
          (literals ++ List.replicate (gaps.length - literals.length) placeholder) gaps,
        gaps.length - literals.length, literals.length - gaps.length⟩ := by
  rw [restore, if_neg hne]
  obtain ⟨p, ps, rfl⟩ := List.exists_cons_of_ne_nil hne
  induction h generalizing literals with
  | nil => simp [restoreFrom, woven]
  | char hbegin _ ih =>
    rw [restoreFrom, if_neg hbegin, ih]
    rfl
  | @token t first gaps _ ih =>
    rw [restoreFrom_placeholder_append]
    cases literals with
    | nil =>
      rw [fill, ih]
      simp only [List.length_cons, List.length_nil, List.nil_append, Nat.sub_zero, Nat.zero_sub,
        List.replicate_succ, woven_nil_cons]
    | cons l literals =>
      rw [fill, ih]
      simp only [Restored.prepend, List.length_cons, List.cons_append, Nat.add_sub_add_right,
        woven_nil_cons]

theorem length_searchFrom (hne : placeholder ≠ []) (h : Parted placeholder t first gaps)
    (offset : Nat) : (searchFrom (token? placeholder) offset 0 t).length = gaps.length := by
  induction h generalizing offset with
  | nil => rfl
  | char hbegin _ ih =>
    rw [searchFrom, token?, if_neg hbegin]
    exact ih (offset + 1)
  | @token t first gaps _ ih =>
    obtain ⟨p, ps, rfl⟩ := List.exists_cons_of_ne_nil hne
    have hbegin : beginsWith (p :: (ps ++ t)) (p :: ps) = true := beginsWith_iff.mpr ⟨t, rfl⟩
    rw [List.cons_append, searchFrom, token?, if_pos hbegin]
    simp only [List.length_cons, Nat.add_sub_cancel]
    rw [searchFrom_skip, List.drop_left, ih]

/-- There is a part after every placeholder. -/
theorem tokens_eq (hne : placeholder ≠ []) (h : Parted placeholder t first gaps) :
    tokens placeholder t = gaps.length :=
  h.length_searchFrom hne 0

end Parted

/-- **What restoring counts**: the placeholders that there are too many, or the literals. -/
theorem restore_counts {placeholder : Text} (h : placeholder ≠ []) (literals : List Text)
    (t : Text) :
    (restore placeholder literals t).unresolved = tokens placeholder t - literals.length ∧
      (restore placeholder literals t).unused = literals.length - tokens placeholder t := by
  obtain ⟨first, gaps, hparted⟩ := exists_parted h t
  rw [hparted.restore_eq h, hparted.tokens_eq h]
  exact ⟨rfl, rfl⟩

/-! ### Placeholders with a low line -/

section Placeholder

variable {digits : Text} (hdigits : '_' ∉ digits)

/-- A placeholder begins nowhere but at a low line. -/
theorem occurrences_append_of_not_mem {a : Text} (ha : '_' ∉ a) (b : Text) :
    occurrences ('_' :: digits) (a ++ b) = occurrences ('_' :: digits) b := by
  induction a with
  | nil => rfl
  | cons c a ih =>
    rw [List.mem_cons, not_or] at ha
    rw [List.cons_append, occurrences, ih ha.2]
    simp [ha.1]

theorem occurrences_eq_zero_of_not_mem {a : Text} (ha : '_' ∉ a) :
    occurrences ('_' :: digits) a = 0 := by
  rw [← List.append_nil a, occurrences_append_of_not_mem ha]
  rfl

/-- Around a text that has no character of the placeholder, nothing is lost or won. -/
theorem occurrences_append_append {between : Text} (hne : between ≠ [])
    (h : ∀ c ∈ between, c ∉ '_' :: digits) (a b : Text) :
    occurrences ('_' :: digits) (a ++ (between ++ b)) =
      occurrences ('_' :: digits) a + occurrences ('_' :: digits) b := by
  have hhead : ∀ c ∈ (between ++ b).head?, c ∉ '_' :: digits := by
    obtain ⟨x, between, rfl⟩ := List.exists_cons_of_ne_nil hne
    intro c hc
    rw [← Option.some.inj hc]
    exact h x List.mem_cons_self
  have hlow : '_' ∉ between := fun hmem => h _ hmem List.mem_cons_self
  rw [occurrences_append_of_head hhead, occurrences_append_of_not_mem hlow]

include hdigits

/-- A placeholder in front of a text is one occurrence more. -/
theorem occurrences_placeholder_append (t : Text) :
    occurrences ('_' :: digits) ('_' :: digits ++ t) = 1 + occurrences ('_' :: digits) t := by
  have hbegin : beginsWith ('_' :: (digits ++ t)) ('_' :: digits) = true :=
    beginsWith_iff.mpr ⟨t, rfl⟩
  rw [List.cons_append, occurrences, if_pos hbegin, occurrences_append_of_not_mem hdigits]

/-- Placeholders with a low line do not overlap, and so all of them are found. -/
theorem Parted.occurrences_eq {t first : Text} {gaps : List Text}
    (h : Parted ('_' :: digits) t first gaps) : occurrences ('_' :: digits) t = gaps.length := by
  induction h with
  | nil => rfl
  | char hbegin _ ih => rw [occurrences, if_neg hbegin, Nat.zero_add, ih]
  | token _ ih => rw [occurrences_placeholder_append hdigits, ih, List.length_cons, Nat.add_comm]

/-- **Every placeholder gets a literal or is counted.** -/
theorem occurrences_le (literals : List Text) (t : Text) :
    occurrences ('_' :: digits) t ≤
      literals.length + (restoreFrom ('_' :: digits) literals 0 t).unresolved := by
  have hne : '_' :: digits ≠ [] := List.cons_ne_nil _ _
  obtain ⟨first, gaps, hparted⟩ := exists_parted hne t
  have hrestore := hparted.restore_eq hne literals
  rw [restore, if_neg hne] at hrestore
  rw [hparted.occurrences_eq hdigits, hrestore]
  dsimp only
  omega

end Placeholder

end LabelLoop.Literal
