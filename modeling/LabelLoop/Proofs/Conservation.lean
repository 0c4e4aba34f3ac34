import LabelLoop.Proofs.Occurrences

/-!
# What restoring keeps

`SplitInto placeholder t pieces` splits a text at its placeholders, said by first occurrences: a
piece ends where the placeholder occurs first in what is left, the next one begins right behind that
placeholder, and the last one holds none.  So placeholders that overlap an earlier one do not count.
Every text is split in one way only (`SplitInto.unique`), and reading the text from left to right
finds that way (`Parted.splitInto`).

The pieces depend on the text alone.  Restoring joins them by the literals, as far as these go, and
then by the placeholder itself, and counts what is left over on either side
(`restore_conserves_tokens`).  A literal is written as it is, and restoring goes on behind the
placeholder that it replaces, so placeholders inside literals are never looked at.
-/

namespace LabelLoop.Literal

open Text

/-! ### Splitting at first occurrences -/

/-- The placeholder between `a` and `b` is **the first one**: it occurs at no place before. -/
def FirstBetween (placeholder a b : Text) : Prop :=
  ∀ i < a.length, ¬placeholder <+: (a ++ (placeholder ++ b)).drop i

instance (placeholder a b : Text) : Decidable (FirstBetween placeholder a b) :=
  inferInstanceAs (Decidable (∀ i < a.length, ¬placeholder <+: (a ++ (placeholder ++ b)).drop i))

/-- The text is **split** at its placeholders, from left to right and without overlap. -/
inductive SplitInto (placeholder : Text) : Text → List Text → Prop where
  | last {t : Text} (h : ¬placeholder <:+: t) : SplitInto placeholder t [t]
  | piece {a b : Text} {pieces : List Text} (hfirst : FirstBetween placeholder a b)
      (hsplit : SplitInto placeholder b pieces) :
      SplitInto placeholder (a ++ (placeholder ++ b)) (a :: pieces)

section Split

variable {placeholder : Text}

theorem firstBetween_nil (b : Text) : FirstBetween placeholder [] b :=
  fun i hi => absurd hi (Nat.not_lt_zero i)

/-- A character at which no placeholder begins may be added in front. -/
theorem FirstBetween.cons {a b : Text} {c : Char} (h : FirstBetween placeholder a b)
    (hc : ¬placeholder <+: c :: (a ++ (placeholder ++ b))) :
    FirstBetween placeholder (c :: a) b := by
  intro i hi
  cases i with
  | zero => exact hc
  | succ i => exact h i (Nat.lt_of_succ_lt_succ hi)

/-- The first placeholder does not come later than any other. -/
theorem FirstBetween.length_le {a b a' b' : Text} (h : FirstBetween placeholder a b)
    (heq : a ++ (placeholder ++ b) = a' ++ (placeholder ++ b')) : a.length ≤ a'.length := by
  by_contra hlt
  refine h a'.length (Nat.lt_of_not_le hlt) ?_
  rw [heq, List.drop_left]
  exact List.prefix_append placeholder b'

/-- A text has **one first placeholder**. -/
theorem FirstBetween.unique {a b a' b' : Text} (h : FirstBetween placeholder a b)
    (h' : FirstBetween placeholder a' b')
    (heq : a ++ (placeholder ++ b) = a' ++ (placeholder ++ b')) : a = a' ∧ b = b' := by
  have hlength : a.length = a'.length := Nat.le_antisymm (h.length_le heq) (h'.length_le heq.symm)
  obtain ⟨ha, hb⟩ := List.append_inj heq hlength
  exact ⟨ha, List.append_cancel_left hb⟩

/-- **There is one way to split a text.** -/
theorem SplitInto.unique {t : Text} {pieces pieces' : List Text}
    (h : SplitInto placeholder t pieces) (h' : SplitInto placeholder t pieces') :
    pieces = pieces' := by
  induction h generalizing pieces' with
  | last habsent =>
    cases h' with
    | last _ => rfl
    | @piece a b _ _ _ =>
      exact absurd (List.infix_append a placeholder b) (List.append_assoc a _ b ▸ habsent)
  | @piece a b pieces hfirst _ ih =>
    generalize ht : a ++ (placeholder ++ b) = t at h'
    cases h' with
    | last habsent =>
      rw [← ht, ← List.append_assoc] at habsent
      exact absurd (List.infix_append a placeholder b) habsent
    | piece hfirst' hsplit' =>
      obtain ⟨rfl, rfl⟩ := hfirst.unique hfirst' ht
      rw [ih hsplit']

/-- **Reading from left to right splits the text.** -/
theorem Parted.splitInto {t first : Text} {gaps : List Text} (hne : placeholder ≠ [])
    (h : Parted placeholder t first gaps) : SplitInto placeholder t (first :: gaps) := by
  induction h with
  | nil => exact .last fun hin => hne (List.infix_nil.mp hin)
  | @char c t first gaps hbegin _ ih =>
    have hnot : ¬placeholder <+: c :: t := mt beginsWith_iff_prefix.mpr hbegin
    -- the character belongs to the piece that follows it
    cases ih with
    | last habsent =>
      refine .last fun hin => ?_
      rcases List.infix_cons_iff.mp hin with hin | hin
      · exact hnot hin
      · exact habsent hin
    | piece hfirst hsplit => exact .piece (hfirst.cons hnot) hsplit
  | token _ ih => exact .piece (firstBetween_nil _) ih

/-- A text that is split has been read from left to right. -/
theorem SplitInto.parted {t first : Text} {gaps : List Text} (hne : placeholder ≠ [])
    (h : SplitInto placeholder t (first :: gaps)) : Parted placeholder t first gaps := by
  obtain ⟨first', gaps', hparted⟩ := exists_parted hne t
  obtain ⟨rfl, rfl⟩ := List.cons.inj (h.unique (hparted.splitInto hne))
  exact hparted

end Split

/-! ### Joining the pieces -/

/-- Fillers for which there is no place are not written. -/
theorem woven_take (first : Text) (fillers gaps : List Text) :
    woven first (fillers.take gaps.length) gaps = woven first fillers gaps := by
  have hzip : (List.zipWith (· ++ ·) fillers gaps).length ≤ gaps.length := by
    rw [List.length_zipWith]
    exact Nat.min_le_right _ _
  rw [woven, woven, ← List.take_of_length_le hzip, List.take_zipWith, List.take_length]

/-- **What restoring does to a split text**, with no literal too many. -/
theorem SplitInto.restore_eq {placeholder t first : Text} {gaps : List Text}
    (hne : placeholder ≠ []) (h : SplitInto placeholder t (first :: gaps)) (literals : List Text) :
    restore placeholder literals t =
      ⟨woven first (literals.take (min gaps.length literals.length) ++
          List.replicate (gaps.length - literals.length) placeholder) gaps,
        gaps.length - literals.length, literals.length - gaps.length⟩ := by
  rw [(h.parted hne).restore_eq hne, ← woven_take, List.take_append, List.take_replicate,
    Nat.min_self, ← List.take_eq_take_min]

/-- **One step of restoring**: the next literal is written for the first placeholder, and restoring
goes on behind that. -/
theorem FirstBetween.restore_eq {placeholder a b : Text} (hne : placeholder ≠ [])
    (h : FirstBetween placeholder a b) (l : Text) (literals : List Text) :
    restore placeholder (l :: literals) (a ++ (placeholder ++ b)) =
      (restore placeholder literals b).prepend (a ++ l) := by
  obtain ⟨first, gaps, hparted⟩ := exists_parted hne b
  have hsplit := SplitInto.piece h (hparted.splitInto hne)
  rw [(hsplit.parted hne).restore_eq hne, hparted.restore_eq hne]
  simp [Restored.prepend, woven]

/-- **Restoring conserves placeholders and literals.**  Every text is split in one way at the
placeholders found from left to right, and there are as many of them as pieces after the first.  The
restored text is the pieces, joined in order by the literals that there are placeholders for, and
then by the placeholder itself.  What is left over is the placeholders that there are too many, or
the literals that there are too many, and never both.  The first placeholder is replaced by the
first literal as it is, and restoring goes on with the text behind that placeholder alone. -/
theorem restore_conserves_tokens {placeholder : Text} (hne : placeholder ≠ []) (t : Text) :
    ∃ first gaps, SplitInto placeholder t (first :: gaps) ∧
      (∀ pieces, SplitInto placeholder t pieces → pieces = first :: gaps) ∧
      tokens placeholder t = gaps.length ∧
      (∀ literals r, restore placeholder literals t = r →
        r.text = woven first (literals.take (min gaps.length literals.length) ++
          List.replicate (gaps.length - literals.length) placeholder) gaps ∧
        r.unresolved = gaps.length - literals.length ∧
        r.unused = literals.length - gaps.length ∧
        (r.unresolved = 0 ∨ r.unused = 0)) ∧
      ∀ a b, t = a ++ (placeholder ++ b) → FirstBetween placeholder a b → ∀ l literals,
        restore placeholder (l :: literals) t =
          (restore placeholder literals b).prepend (a ++ l) := by
  obtain ⟨first, gaps, hparted⟩ := exists_parted hne t
  have hsplit := hparted.splitInto hne
  refine ⟨first, gaps, hsplit, fun pieces h => h.unique hsplit, hparted.tokens_eq hne, ?_, ?_⟩
  · rintro literals r rfl
    rw [hsplit.restore_eq hne]
    exact ⟨rfl, rfl, rfl, by dsimp only; omega⟩
  · rintro a b rfl hfirst l literals
    exact hfirst.restore_eq hne l literals

/-- Placeholders that overlap: of the two that begin in the first three characters one counts.  The
literal holds the placeholder, which is not filled, and the placeholder behind it gets none. -/
theorem restore_conserves_overlapping_tokens :
    SplitInto "aa".toList "aaabaa".toList [[], "ab".toList, []] ∧
      (restore "aa".toList ["<aaaa>".toList] "aaabaa".toList).text = "<aaaa>abaa".toList ∧
      (restore "aa".toList ["<aaaa>".toList] "aaabaa".toList).unresolved = 1 ∧
      (restore "aa".toList ["<aaaa>".toList] "aaabaa".toList).unused = 0 := by
  have hpieces : SplitInto "aa".toList "aaabaa".toList [[], "ab".toList, []] :=
    @SplitInto.piece _ [] "abaa".toList _ (firstBetween_nil _)
      (@SplitInto.piece _ "ab".toList [] _ (by decide)
        (.last (position?_eq_none_iff_absent.mp rfl)))
  obtain ⟨first, gaps, -, hunique, -, hrestore, -⟩ :=
    restore_conserves_tokens (show "aa".toList ≠ [] by decide) "aaabaa".toList
  obtain ⟨rfl, rfl⟩ := List.cons.inj (hunique _ hpieces)
  obtain ⟨htext, hunresolved, hunused, -⟩ := hrestore ["<aaaa>".toList] _ rfl
  exact ⟨hpieces, htext, hunresolved, hunused⟩

end LabelLoop.Literal
