import LabelLoop.Conversion.Basic
import LabelLoop.Literal.Scanner
import LabelLoop.Proofs.Passes

/-!
# Permissive conversion never fails

A conversion can stop early in two ways only: a pass leaves another number of markers than one less,
or the source has fewer markers than there are passes.  With the headers of `Loop` neither happens,
for any text (`lower_written`), so a conversion that is not strict always has a result, whatever the
source, the scanner and the placeholder are.
-/

namespace LabelLoop.Conversion

open Text Marker Lowering

/-! ### The blocks of a run -/

theorem wholeFrom_int {bound n : Int} (h : bound ≤ n) : Field.wholeFrom bound (.int n) = .ok n :=
  if_pos h

theorem neg_one_le_start (b : Block) : -1 ≤ b.start := by
  unfold Block.start
  split <;> omega

/-- The bounds of a block pass the checks of its fields. -/
theorem ofEntries_bounds (b : Block) :
    Block.ofEntries [("start".toList, .int b.start), ("end".toList, .int b.stop)] = .ok b := by
  show Block.ofBounds ((Field.wholeFrom (-1) (.int b.start)).mapError (⟨"start".toList, ·⟩))
    ((Field.wholeFrom 0 (.int b.stop)).mapError (⟨"end".toList, ·⟩)) = .ok b
  rw [wholeFrom_int (neg_one_le_start b), wholeFrom_int (Int.natCast_nonneg b.stop)]
  obtain ⟨opening, stop⟩ := b
  cases opening <;> rfl

/-- Every pass of a run works on the first label marker of some text. -/
theorem exists_of_mem_passes {header : Header} {remaining : Nat} {offsets : List Nat} {t : Text}
    {p : Pass} (h : p ∈ (passes header remaining offsets t).passes) :
    ∃ u m, firstLabel? u = some m ∧ p = pass header u m := by
  induction remaining generalizing offsets t with
  | zero => exact absurd h (List.not_mem_nil)
  | succ expected ih =>
    unfold passes at h
    split at h
    · exact absurd h (List.not_mem_nil)
    · rename_i m hfirst
      split at h
      · exact ⟨t, m, hfirst, List.mem_singleton.mp h⟩
      · dsimp only at h
        split at h
        · rcases List.mem_cons.mp h with h | h
          · exact ⟨t, m, hfirst, h⟩
          · exact ih h
        · exact ⟨t, m, hfirst, List.mem_singleton.mp h⟩

/-- **The block of a pass lies around its marker.** -/
theorem block_around_marker (header : Header) {u : Text} {m : Found Text}
    (h : firstLabel? u = some m) :
    (pass header u m).block.start < (pass header u m).offset ∧
      (pass header u m).offset < (pass header u m).block.stop := by
  have hlt : m.start < u.length := start_lt_of_mem_labels (mem_labels_of_firstLabel? h)
  constructor
  · show (Block.around u m.start).start < m.start
    rw [Block.start, Block.around]
    cases hopen : Block.opening? u m.start with
    | none =>
      dsimp only
      omega
    | some position =>
      dsimp only
      exact_mod_cast Block.opening?_lt hopen
  · show m.start < (Block.around u m.start).stop
    rw [Block.around_stop hlt]
    omega

/-! ### Conversions -/

/-- The jump pass keeps the names of all label markers. -/
theorem map_item_labels_jumps (t : Text) :
    (Marker.labels (jumps t)).map Found.item = (Marker.labels t).map Found.item := by
  obtain ⟨ps, hcut, rfl⟩ := exists_cut t
  rw [jumps_written hcut, labels_written ((edit_lowerJumps ps).cut hcut), labels_written hcut,
    map_item_foundFrom, map_item_foundFrom, names_lowerJumps]

/-- Lowering with the headers of `Loop` succeeds. -/
theorem exists_lower (t : Text) : ∃ lowered, lower Loop.header t = .ok lowered := by
  obtain ⟨ps, hcut, rfl⟩ := exists_cut t
  exact ⟨_, lower_written hcut⟩

/-- **Permissive conversion never fails**: it has a result for every source, scanner and
placeholder.  For every text, all label markers are lowered, the jump pass neither makes nor breaks
a label marker, and the bounds of every block lie around its marker and pass their checks. -/
theorem permissive_conversion_total (kind : Literal.ScannerKind) (placeholder source t : Text) :
    (∃ c, convert { placeholder := placeholder, scan := kind.scanner } false source = .ok c) ∧
    (∃ lowered, lower Loop.header t = .ok lowered) ∧
    (Marker.labels (jumps t)).map Found.item = (Marker.labels t).map Found.item ∧
    ∀ p ∈ (run Loop.header t).passes,
      -1 ≤ p.block.start ∧ p.block.start < p.offset ∧ p.offset < p.block.stop ∧
      Block.ofEntries [("start".toList, .int p.block.start), ("end".toList, .int p.block.stop)] =
        .ok p.block := by
  refine ⟨?_, exists_lower t, map_item_labels_jumps t, fun p hp => ?_⟩
  · obtain ⟨lowered, hlower⟩ :=
      exists_lower (Literal.shield kind.scanner placeholder source).text
    unfold convert permissive
    simp only [hlower, Except.map, Bool.false_and, Bool.false_eq_true, if_false]
    exact ⟨_, rfl⟩
  · obtain ⟨u, m, hfirst, rfl⟩ := exists_of_mem_passes hp
    obtain ⟨hbefore, hafter⟩ := block_around_marker Loop.header hfirst
    exact ⟨neg_one_le_start _, hbefore, hafter, ofEntries_bounds _⟩

end LabelLoop.Conversion
