import LabelLoop.Proofs.Enclosure

/-!
# What the records of labels point at

Lowering keeps a record of every label.  The place in the source is looked up by the number of the
pass in a list that was made from another text than the one that is changed, and the place of the
loop is noted while later passes are still to change the text.  Both are right
(`label_records_point_at_loops`): the passes take the label markers in order, and never touch what
stands at or before an earlier loop header.

Lowered alone, the labels of a text may be counted in any other text.  Every pass leaves exactly one
marker less (`countLabels_pass`), so that a run comes to its end exactly if the other text has
enough of them, and otherwise stops where its markers are used up (`outcome_passes`).
-/

namespace LabelLoop.Lowering

open Text Marker Block

/-! ### Where the loops stand -/

/-- The record `l` **points at** the label marker `m` and, in the code, at the header of its
loop. -/
structure PointsAt (code : Text) (l : Label) (m : Found Text) : Prop where
  name_eq : l.pass.name = m.item
  sourceOffset_eq : l.sourceOffset = m.start
  header_prefix : Loop.header l.pass.name <+: code.drop l.pass.offset

/-- What the sweep has written up to a label stays as it is, and the header comes next. -/
theorem pointsAt_of_recorded {ps : List Piece} {l : Label} {m : Found Text} (h : Recorded ps l m) :
    PointsAt (sweep [] ps) l m := by
  obtain ⟨before, name, raw, after, rfl, rfl, rfl⟩ := h
  refine ⟨rfl, rfl, ?_⟩
  show Loop.header name <+: (sweep [] _).drop (swept [] before).length
  rw [sweep_append, List.drop_left]
  exact List.prefix_append _ _

/-- Nothing is recorded about what is settled already. -/
theorem length_le_offset {pre : Text} {pending offsets : List Nat} {ps : List Piece} {l : Label}
    (h : l ∈ records pre pending ps offsets) : pre.length ≤ l.pass.offset := by
  induction ps generalizing pre pending offsets with
  | nil => exact absurd h List.not_mem_nil
  | cons p ps ih =>
    -- a record made later lies behind all that was settled by then
    have hlater : ∀ {written : Text} {pending' offsets' : List Nat},
        l ∈ records (pre ++ written) pending' ps offsets' → pre.length ≤ l.pass.offset := by
      intro written pending' offsets' hl
      have hle := ih hl
      rw [List.length_append] at hle
      omega
    cases p with
    | char c => exact hlater h
    | marker k name raw =>
      cases k with
      | jump => exact hlater h
      | label =>
        rcases List.mem_cons.mp h with rfl | h
        · exact Nat.le_refl _
        · exact hlater h

/-- **The loops stand in the order of their records.** -/
theorem pairwise_records (pre : Text) (pending : List Nat) (ps : List Piece) (offsets : List Nat) :
    (records pre pending ps offsets).Pairwise fun l l' => l.pass.offset < l'.pass.offset := by
  induction ps generalizing pre pending offsets with
  | nil => exact .nil
  | cons p ps ih =>
    cases p with
    | char c => exact ih _ _ _
    | marker k name raw =>
      cases k with
      | jump => exact ih _ _ _
      | label =>
        refine .cons (fun l hl => ?_) (ih _ _ _)
        have hle := length_le_offset hl
        have hpos : 0 < (Loop.header name).length := Nat.succ_pos _
        rw [List.length_append] at hle
        show pre.length < l.pass.offset
        omega

/-! ### Labels lowered alone -/

/-- Nothing at all is an edit. -/
theorem edit_refl (ps : List Piece) : Edit ps ps := by
  induction ps with
  | nil => exact .nil
  | cons p ps ih => exact .keep p ih

/-- Closing braces of pending loops are an edit. -/
theorem edit_closed_self (pending : List Nat) (ps : List Piece) : Edit ps (closed pending ps) := by
  induction ps generalizing pending with
  | nil =>
    have hcloses := Edit.closes .nil pending.sum
    rwa [List.append_nil] at hcloses
  | cons p ps ih =>
    cases p with
    | char c => exact (Edit.keep _ (ih _)).closes _
    | marker k name raw => exact .keep _ (ih _)

/-- **One pass leaves one label marker less**, whatever other markers there are. -/
theorem countLabels_pass {t : Text} {m : Found Text} (h : m ∈ Marker.labels t) :
    countLabels (pass Loop.header t m).code + 1 = countLabels t := by
  obtain ⟨ps, hcut, rfl⟩ := exists_cut t
  rw [labels_written hcut] at h
  obtain ⟨before, name, raw, after, rfl, rfl⟩ := exists_of_mem_foundFrom h
  have hspells := hcut.spells
  have hafter : Cut after := hcut.of_append_cons
  have hopen : closed [] after = after := closed_replicate_zero 0 after
  -- the pass is an edit of the pieces
  have hcode : (pass Loop.header (written (before ++ .marker .label name raw :: after))
      ⟨0 + (written before).length, raw.length, name⟩).code =
        written (before ++ (chars (Loop.header name) ++ closed (addLoop []) after)) := by
    have hclose := closeIn_closed hafter []
    rw [hopen] at hclose
    rw [Nat.zero_add, written_append, written_marker,
      pass_code Loop.header hspells.ne_nil (plain_of_spells hspells), hclose, written_append,
      written_append, written_chars]
  have hedit : Edit (before ++ .marker .label name raw :: after)
      (before ++ (chars (Loop.header name) ++ closed (addLoop []) after)) :=
    (edit_refl before).append (.lower .label name raw (edit_closed_self _ after))
  rw [hcode, countLabels_written (hedit.cut hcut), countLabels_written hcut, names_append,
    names_chars, names_closed, names_append, List.length_append, List.length_append]
  rfl

/-- **How a run ends.**  It has a result if there is a place in the source for every marker, and
stops otherwise.  The induction is on the number of markers left. -/
theorem outcome_passes {n : Nat} {t : Text} (hcount : countLabels t = n) (offsets : List Nat) :
    n ≤ offsets.length ∧ (∃ r, (passes Loop.header n offsets t).outcome = .ok r) ∨
      offsets.length < n ∧
        (passes Loop.header n offsets t).outcome = .error .sourceExhausted := by
  induction n generalizing t offsets with
  | zero => exact Or.inl ⟨Nat.zero_le _, (t, []), rfl⟩
  | succ n ih =>
    obtain ⟨m, ms, hlabels⟩ := List.exists_cons_of_length_pos
      (show 0 < (Marker.labels t).length by rw [← countLabels, hcount]; exact Nat.succ_pos n)
    have hfirst : firstLabel? t = some m := by rw [firstLabel?_eq_head?, hlabels]; rfl
    have hnext : countLabels (pass Loop.header t m).code = n := by
      have hpass := countLabels_pass (mem_labels_of_firstLabel? hfirst)
      omega
    cases offsets with
    | nil =>
      refine Or.inr ⟨Nat.succ_pos n, ?_⟩
      rw [passes]
      simp only [hfirst]
    | cons offset offsets =>
      rw [passes_succ hfirst hnext, Run.after]
      rcases ih hnext offsets with ⟨hle, r, hr⟩ | ⟨hlt, hr⟩
      · rw [hr]
        exact Or.inl ⟨Nat.succ_le_succ hle, _, rfl⟩
      · rw [hr]
        exact Or.inr ⟨Nat.succ_lt_succ hlt, rfl⟩

/-- **When labels can be lowered alone**: if the other text has enough of them. -/
theorem outcome_labels_iff (t source : Text) :
    ((∃ r, (labels Loop.header t source).outcome = .ok r) ↔
        countLabels t ≤ countLabels source) ∧
      ((labels Loop.header t source).outcome = .error .sourceExhausted ↔
        countLabels source < countLabels t) := by
  have hlength : (labelOffsets source).length = countLabels source := List.length_map _
  have hends := outcome_passes (t := t) rfl (labelOffsets source)
  rw [hlength] at hends
  rw [labels]
  rcases hends with ⟨hle, r, hr⟩ | ⟨hlt, hr⟩
  · rw [hr]
    exact ⟨iff_of_true ⟨r, rfl⟩ hle, iff_of_false (by simp) (Nat.not_lt_of_le hle)⟩
  · rw [hr]
    exact ⟨iff_of_false (by simp) (Nat.not_le_of_lt hlt), iff_of_true rfl hlt⟩

/-- **The records of labels point at the right places.**  Lowering a text makes one record for every
label marker of it, in order, with the name and the place of the marker in that very text, and with
the place at which the header of the loop stands in the result; these places increase.  The labels
of a text can be lowered alone and counted in another text exactly if that one has at least as many
of them; if not, the run stops because they are used up. -/
theorem label_records_point_at_loops (t : Text) :
    (∃ lowered, lower Loop.header t = .ok lowered ∧
      List.Forall₂ (PointsAt lowered.code) lowered.labels (Marker.labels t) ∧
      lowered.labels.Pairwise fun l l' => l.pass.offset < l'.pass.offset) ∧
    ∀ source,
      ((∃ r, (labels Loop.header t source).outcome = .ok r) ↔
        countLabels t ≤ countLabels source) ∧
      ((labels Loop.header t source).outcome = .error .sourceExhausted ↔
        countLabels source < countLabels t) := by
  refine ⟨?_, outcome_labels_iff t⟩
  obtain ⟨ps, hcut, rfl⟩ := exists_cut t
  exact ⟨_, lower_written hcut, (forall₂_recorded hcut).imp fun _ _ => pointsAt_of_recorded,
    pairwise_records [] [] ps _⟩

end LabelLoop.Lowering
