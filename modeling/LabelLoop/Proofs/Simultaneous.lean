import LabelLoop.Proofs.Passes

/-!
# All passes as one edit

The passes look for the end of every block in a text that earlier passes have changed.  Here it is
shown that they could as well look in the text as it was (`lower_eq_edited`): every marker is
replaced by its header, and before every place as many closing braces are written as there are label
markers whose blocks end there.  Nothing else is changed.

`chunk` says, place by place, what one such edit writes.  The sweep writes the same, piece by piece
(`flatMap_chunk`): a closing brace that is due at a place belongs to a loop that was pending when
the sweep came by, or to a label still ahead (`dueFrom`).
-/

namespace LabelLoop.Lowering

open Text Marker Block
open Division (patched edit insertedFrom Outside)

/-! ### The edit -/

/-- Where the block around a marker of `t` ends. -/
def blockEnd (t : Text) (m : Found Text) : Nat :=
  (around t m.start).stop

/-- How many label markers of `t` have a block that ends at `place`. -/
def closers (t : Text) (place : Nat) : Nat :=
  ((Marker.labels t).map (blockEnd t)).count place

/-- A marker with what is written in its place instead of its name. -/
def patch (render : Text → Text) (m : Found Text) : Found Text :=
  ⟨m.start, m.length, render m.item⟩

/-- What is written for a place: the closing braces of the blocks that end there come first. -/
def chunk (patches : List (Found Text)) (t : Text) (place : Nat) : Text :=
  List.replicate (closers t place) '\x7d' ++ patched patches t place

/-- **The text with all patches made at once**, and with a closing brace at the end of the block
around every label marker.  The last place is the end of the text. -/
def edited (patches : List (Found Text)) (t : Text) : Text :=
  (List.range (t.length + 1)).flatMap (chunk patches t)

/-! ### Parts of the sweep -/

/-- What the sweep writes for the pieces, without what is left pending after them. -/
def swept (pending : List Nat) : List Piece → Text
  | [] => []
  | .char c :: ps =>
    List.replicate (dueBefore pending c) '\x7d' ++ c :: swept (pendingAfter pending c) ps
  | .marker k name _ :: ps => k.lowered name ++ swept (pendingPast k pending) ps

/-- What is pending after the pieces. -/
def pendingThrough (pending : List Nat) : List Piece → List Nat
  | [] => pending
  | .char c :: ps => pendingThrough (pendingAfter pending c) ps
  | .marker k _ _ :: ps => pendingThrough (pendingPast k pending) ps

theorem pendingThrough_append (pending : List Nat) (as bs : List Piece) :
    pendingThrough pending (as ++ bs) = pendingThrough (pendingThrough pending as) bs := by
  induction as generalizing pending with
  | nil => rfl
  | cons p as ih => cases p <;> exact ih _

/-- The sweep goes on after any pieces with what is pending then. -/
theorem sweep_append (pending : List Nat) (as bs : List Piece) :
    sweep pending (as ++ bs) = swept pending as ++ sweep (pendingThrough pending as) bs := by
  induction as generalizing pending with
  | nil => rfl
  | cons p as ih =>
    cases p with
    | char c =>
      rw [List.cons_append, sweep, swept, pendingThrough, ih, List.append_assoc, List.cons_append]
    | marker k name raw =>
      rw [List.cons_append, sweep, swept, pendingThrough, ih, List.append_assoc]

theorem swept_append (pending : List Nat) (as bs : List Piece) :
    swept pending (as ++ bs) = swept pending as ++ swept (pendingThrough pending as) bs := by
  induction as generalizing pending with
  | nil => rfl
  | cons p as ih =>
    cases p with
    | char c =>
      rw [List.cons_append, swept, swept, pendingThrough, ih, List.append_assoc, List.cons_append]
    | marker k name raw =>
      rw [List.cons_append, swept, swept, pendingThrough, ih, List.append_assoc]

/-! ### Closing braces that are due at a place -/

/-- How many loops of `pending` are closed at `place` in `t`; the first of them wait at a brace that
`depth` others inside it are open before. -/
def dueAt (t : Text) (place depth : Nat) : List Nat → Nat
  | [] => 0
  | n :: pending => (if closeAt depth t = place then n else 0) + dueAt t place (depth + 1) pending

/-- What is due depends only on which scans stop at the place. -/
theorem dueAt_congr {t t' : Text} {place place' depth depth' : Nat}
    (h : ∀ d, closeAt (depth + d) t = place ↔ closeAt (depth' + d) t' = place')
    (pending : List Nat) : dueAt t place depth pending = dueAt t' place' depth' pending := by
  induction pending generalizing depth depth' with
  | nil => rfl
  | cons n pending ih =>
    have hnext : ∀ d, closeAt (depth + 1 + d) t = place ↔ closeAt (depth' + 1 + d) t' = place' := by
      intro d
      rw [Nat.add_assoc, Nat.add_assoc, h]
    have hhead : closeAt depth t = place ↔ closeAt depth' t' = place' := h 0
    rw [dueAt, dueAt, ih hnext]
    simp only [hhead]

theorem dueAt_eq_zero {t : Text} {place depth : Nat} (h : ∀ d, closeAt (depth + d) t ≠ place)
    (pending : List Nat) : dueAt t place depth pending = 0 := by
  induction pending generalizing depth with
  | nil => rfl
  | cons n pending ih =>
    have hnext : ∀ d, closeAt (depth + 1 + d) t ≠ place := by
      intro d
      rw [Nat.add_assoc]
      exact h _
    have hhead : closeAt depth t ≠ place := h 0
    rw [dueAt, if_neg hhead, ih hnext]

theorem dueAt_nil (depth : Nat) (pending : List Nat) : dueAt [] 0 depth pending = pending.sum := by
  induction pending generalizing depth with
  | nil => rfl
  | cons n pending ih => rw [dueAt, if_pos (closeAt_nil depth), ih, List.sum_cons]

theorem dueAt_addLoop (t : Text) (place : Nat) (pending : List Nat) :
    dueAt t place 0 (addLoop pending) =
      dueAt t place 0 pending + if closeAt 0 t = place then 1 else 0 := by
  cases pending with
  | nil => simp only [addLoop, dueAt, Nat.zero_add, Nat.add_zero]
  | cons n pending =>
    simp only [addLoop, dueAt]
    split <;> omega

/-- At a character, the braces are due that the sweep writes there. -/
theorem dueAt_cons_zero (c : Char) (t : Text) (pending : List Nat) :
    dueAt (c :: t) 0 0 pending = dueBefore pending c := by
  by_cases hclose : c = '\x7d'
  · subst hclose
    cases pending with
    | nil => rfl
    | cons n pending =>
      have hrest : dueAt ('\x7d' :: t) 0 1 pending = 0 := by
        refine dueAt_eq_zero (fun d => ?_) pending
        rw [Nat.add_comm, closeAt_close_succ]
        exact Nat.succ_ne_zero _
      rw [dueAt, if_pos (closeAt_close_zero t), hrest]
      rfl
  · rw [dueBefore_of_ne hclose]
    refine dueAt_eq_zero (fun d => ?_) pending
    by_cases hopen : c = '\x7b'
    · rw [hopen, closeAt_open]
      exact Nat.succ_ne_zero _
    · rw [closeAt_other ⟨hopen, hclose⟩]
      exact Nat.succ_ne_zero _

/-- After a character, the braces are due that the sweep still has pending. -/
theorem dueAt_cons_succ (c : Char) (t : Text) (place : Nat) (pending : List Nat) :
    dueAt (c :: t) (place + 1) 0 pending = dueAt t place 0 (pendingAfter pending c) := by
  by_cases hopen : c = '\x7b'
  · subst hopen
    show _ = (if closeAt 0 t = place then 0 else 0) + dueAt t place 1 pending
    rw [ite_self, Nat.zero_add]
    refine dueAt_congr (fun d => ?_) pending
    rw [closeAt_open, Nat.add_right_cancel_iff, Nat.add_right_comm, Nat.add_comm 1]
  · by_cases hclose : c = '\x7d'
    · subst hclose
      show _ = dueAt t place 0 pending.tail
      cases pending with
      | nil => rfl
      | cons n pending =>
        rw [dueAt, if_neg (by rw [closeAt_close_zero]; omega), Nat.zero_add]
        refine dueAt_congr (fun d => ?_) pending
        rw [Nat.zero_add, Nat.zero_add, Nat.add_comm, closeAt_close_succ, Nat.add_right_cancel_iff]
    · rw [pendingAfter_of_plain ⟨hopen, hclose⟩]
      refine dueAt_congr (fun d => ?_) pending
      rw [closeAt_other ⟨hopen, hclose⟩, Nat.add_right_cancel_iff]

/-- Nothing is due inside a text without braces. -/
theorem dueAt_append_of_lt {a : Text} (h : Plain a) (t : Text) {place : Nat}
    (hlt : place < a.length) (pending : List Nat) : dueAt (a ++ t) place 0 pending = 0 := by
  refine dueAt_eq_zero (fun d => ?_) pending
  rw [closeAt_append_of_plain h]
  omega

theorem dueAt_append_add {a : Text} (h : Plain a) (t : Text) (place : Nat) (pending : List Nat) :
    dueAt (a ++ t) (a.length + place) 0 pending = dueAt t place 0 pending := by
  refine dueAt_congr (fun d => ?_) pending
  rw [closeAt_append_of_plain h, Nat.add_left_cancel_iff]

/-! ### The ends of blocks, read off the pieces -/

/-- The ends of the blocks around the label markers among pieces of which the first stands at
`offset`. -/
def ends (offset : Nat) : List Piece → List Nat
  | [] => []
  | .char _ :: ps => ends (offset + 1) ps
  | .marker .label _ raw :: ps =>
    (offset + raw.length + closeAt 0 (written ps)) :: ends (offset + raw.length) ps
  | .marker .jump _ raw :: ps => ends (offset + raw.length) ps

theorem map_blockEnd_foundFrom {ps : List Piece} (h : Cut ps) (pre : Text) :
    (foundFrom .label pre.length ps).map (blockEnd (pre ++ written ps)) = ends pre.length ps := by
  induction h using Cut.induct generalizing pre with
  | nil => rfl
  | @char c ps _ _ ih =>
    have := ih (pre ++ [c])
    rw [List.append_assoc, List.length_append] at this
    exact this
  | @marker k name raw ps hspells _ ih =>
    have hrest := ih (pre ++ raw)
    rw [List.append_assoc, List.length_append] at hrest
    cases k with
    | jump => exact hrest
    | label =>
      show blockEnd (pre ++ (raw ++ written ps)) ⟨pre.length, raw.length, name⟩ :: List.map _ _ = _
      rw [ends, ← hrest]
      congr 1
      exact around_stop_of_plain hspells.ne_nil (plain_of_spells hspells) pre

theorem map_blockEnd_labels {ps : List Piece} (h : Cut ps) :
    (Marker.labels (written ps)).map (blockEnd (written ps)) = ends 0 ps := by
  rw [labels_written h]
  exact map_blockEnd_foundFrom h []

/-- A block ends after its marker. -/
theorem le_of_mem_ends {offset e : Nat} {ps : List Piece} (h : e ∈ ends offset ps) :
    offset ≤ e := by
  induction ps generalizing offset with
  | nil => exact absurd h List.not_mem_nil
  | cons p ps ih =>
    cases p with
    | char c => exact Nat.le_of_succ_le (ih h)
    | marker k name raw =>
      cases k with
      | jump => exact Nat.le_trans (Nat.le_add_right _ _) (ih h)
      | label =>
        rcases List.mem_cons.mp h with h | h
        · omega
        · exact Nat.le_trans (Nat.le_add_right _ _) (ih h)

theorem count_ends_of_lt {offset place : Nat} (ps : List Piece) (h : place < offset) :
    (ends offset ps).count place = 0 := by
  refine List.count_eq_zero.mpr fun hmem => ?_
  have := le_of_mem_ends hmem
  omega

/-! ### The patches, read off the pieces -/

/-- What is written for a piece instead, if it is a marker. -/
def lowered? : Piece → Option Text
  | .char _ => none
  | .marker k name _ => some (k.lowered name)

/-- The patches of all markers among pieces of which the first stands at `offset`. -/
def patchesFrom (offset : Nat) (ps : List Piece) : List (Found Text) :=
  (foundFrom .label offset ps).map (patch Loop.header) ++
    (foundFrom .jump offset ps).map (patch Loop.jump)

theorem mem_patchesFrom_iff {offset : Nat} {ps : List Piece} {m : Found Text} :
    m ∈ patchesFrom offset ps ↔ m ∈ Division.foundFrom Piece.text lowered? offset ps := by
  rw [patchesFrom, List.mem_append, List.mem_map, List.mem_map]
  constructor
  · rintro (⟨m', hm', rfl⟩ | ⟨m', hm', rfl⟩)
    all_goals
      obtain ⟨before, name, raw, after, rfl, rfl⟩ := exists_of_mem_foundFrom hm'
      exact Division.mem_foundFrom_iff.mpr ⟨before, _, after, _, rfl, rfl, rfl⟩
  · intro h
    obtain ⟨before, p, after, new, rfl, hnew, rfl⟩ := Division.mem_foundFrom_iff.mp h
    cases p with
    | char c => exact absurd hnew (by simp [lowered?])
    | marker k name raw =>
      obtain rfl := Option.some.inj hnew
      have hfound : ⟨offset + (written before).length, raw.length, name⟩ ∈
          foundFrom k offset (before ++ .marker k name raw :: after) :=
        Division.mem_foundFrom_iff.mpr ⟨before, _, after, name, rfl,
          name?_eq_some_iff.mpr ⟨raw, rfl⟩, rfl⟩
      cases k with
      | label => exact Or.inl ⟨_, hfound, rfl⟩
      | jump => exact Or.inr ⟨_, hfound, rfl⟩

theorem patched_patchesFrom (offset : Nat) (ps : List Piece) (t : Text) (place : Nat) :
    patched (patchesFrom offset ps) t place =
      patched (Division.foundFrom Piece.text lowered? offset ps) t place :=
  Division.patched_congr (fun _ => mem_patchesFrom_iff) (Division.apart_foundFrom offset ps) t place

/-! ### The sweep, place by place -/

/-- How many closing braces are due at a place, seen from the pieces that begin at `offset`: those
of loops pending and those of labels among the pieces. -/
def dueFrom (offset : Nat) (pending : List Nat) (ps : List Piece) (place : Nat) : Nat :=
  dueAt (written ps) (place - offset) 0 pending + (ends offset ps).count place

theorem dueFrom_char (offset : Nat) (pending : List Nat) (c : Char) (ps : List Piece) :
    dueFrom offset pending (.char c :: ps) offset = dueBefore pending c := by
  have hends : (ends offset (.char c :: ps)).count offset = 0 :=
    count_ends_of_lt ps (Nat.lt_succ_self offset)
  rw [dueFrom, hends, Nat.sub_self, written_char, dueAt_cons_zero, Nat.add_zero]

theorem dueFrom_nil (offset : Nat) (pending : List Nat) :
    dueFrom offset pending [] offset = pending.sum := by
  rw [dueFrom, Nat.sub_self, written_nil, dueAt_nil]
  rfl

theorem dueFrom_after_char {offset place : Nat} (h : offset < place) (pending : List Nat)
    (c : Char) (ps : List Piece) :
    dueFrom offset pending (.char c :: ps) place =
      dueFrom (offset + 1) (pendingAfter pending c) ps place := by
  have hplace : place - offset = place - (offset + 1) + 1 := by omega
  rw [dueFrom, dueFrom, hplace, written_char, dueAt_cons_succ]
  rfl

theorem dueFrom_marker {k : Kind} {offset place : Nat} {name raw : Text} (hplain : Plain raw)
    (hle : offset ≤ place) (hlt : place < offset + raw.length) (pending : List Nat)
    (ps : List Piece) : dueFrom offset pending (.marker k name raw :: ps) place = 0 := by
  have hends : (ends offset (.marker k name raw :: ps)).count place = 0 := by
    cases k with
    | jump => exact count_ends_of_lt ps hlt
    | label =>
      rw [ends, List.count_cons_of_ne (by omega)]
      exact count_ends_of_lt ps hlt
  rw [dueFrom, hends, written_marker, dueAt_append_of_lt hplain _ (by omega)]

theorem dueFrom_after_marker {k : Kind} {offset place : Nat} {name raw : Text}
    (hplain : Plain raw) (hle : offset + raw.length ≤ place) (pending : List Nat)
    (ps : List Piece) :
    dueFrom offset pending (.marker k name raw :: ps) place =
      dueFrom (offset + raw.length) (pendingPast k pending) ps place := by
  have hplace : place - offset = raw.length + (place - (offset + raw.length)) := by omega
  rw [dueFrom, dueFrom, written_marker, hplace, dueAt_append_add hplain]
  cases k with
  | jump => rfl
  | label =>
    -- the end of the block is that of one loop more
    rw [pendingPast, dueAt_addLoop, ends, List.count_cons]
    have hend : offset + raw.length + closeAt 0 (written ps) = place ↔
        closeAt 0 (written ps) = place - (offset + raw.length) := by omega
    simp only [beq_iff_eq, hend]
    omega

/-- After any pieces, what is pending then decides what is due. -/
theorem dueFrom_append {as bs : List Piece} (hcut : Cut (as ++ bs)) {offset place : Nat}
    (hle : offset + (written as).length ≤ place) (pending : List Nat) :
    dueFrom offset pending (as ++ bs) place =
      dueFrom (offset + (written as).length) (pendingThrough pending as) bs place := by
  induction as generalizing offset pending with
  | nil => rfl
  | cons p as ih =>
    rw [List.cons_append] at hcut ⊢
    cases p with
    | char c =>
      obtain ⟨-, hrest⟩ := cut_char_iff.mp hcut
      have hlength : offset + (written (.char c :: as)).length =
          offset + 1 + (written as).length := by
        rw [written_char, List.length_cons]
        omega
      rw [hlength] at hle ⊢
      rw [dueFrom_after_char (by omega)]
      exact ih hrest hle _
    | marker k name raw =>
      obtain ⟨hspells, hrest⟩ := cut_marker_iff.mp hcut
      have hlength : offset + (written (.marker k name raw :: as)).length =
          offset + raw.length + (written as).length := by
        rw [written_marker, List.length_append]
        omega
      rw [hlength] at hle ⊢
      rw [dueFrom_after_marker (plain_of_spells hspells) (by omega)]
      exact ih hrest hle (pendingPast k pending)

/-- **The closing braces due at a place**, seen from some pieces before it. -/
theorem closers_written {as bs : List Piece} (h : Cut (as ++ bs)) {place : Nat}
    (hle : (written as).length ≤ place) :
    closers (written (as ++ bs)) place =
      dueFrom (written as).length (pendingThrough [] as) bs place := by
  have hplace : 0 + (written as).length ≤ place := by rwa [Nat.zero_add]
  have hdue := dueFrom_append h hplace []
  rw [Nat.zero_add, dueFrom, dueAt, Nat.zero_add] at hdue
  rw [closers, map_blockEnd_labels h, hdue]

/-- **The sweep puts closing braces in before the pieces**, never inside a marker. -/
theorem insertedFrom_closers {as bs cs : List Piece} (h : Cut (as ++ (bs ++ cs)))
    {before : Nat → Text}
    (hbefore : ∀ place, before place =
      List.replicate (closers (written (as ++ (bs ++ cs))) place) '\x7d') :
    Outside Piece.text before (written as).length bs ∧
      insertedFrom Piece.text lowered? before (written as).length bs =
        swept (pendingThrough [] as) bs := by
  induction bs generalizing as with
  | nil => exact ⟨trivial, rfl⟩
  | cons p bs ih =>
    have hassoc : as ++ (p :: bs ++ cs) = (as ++ [p]) ++ (bs ++ cs) := by simp
    have hlength : (written (as ++ [p])).length = (written as).length + p.text.length := by
      rw [written_append, List.length_append]
      exact congrArg (_ + List.length ·) (List.append_nil _)
    -- the rest is swept with what is pending behind the first piece
    obtain ⟨houtside, hinserted⟩ := ih (hassoc ▸ h) (hassoc ▸ hbefore)
    rw [hlength] at houtside hinserted
    rw [pendingThrough_append] at hinserted
    have hdue : ∀ place, (written as).length ≤ place → before place = List.replicate
        (dueFrom (written as).length (pendingThrough [] as) (p :: (bs ++ cs)) place) '\x7d' := by
      intro place hle
      rw [hbefore, closers_written h hle, List.cons_append]
    cases p with
    | char c =>
      refine ⟨⟨fun place hlt hle => ?_, houtside⟩, ?_⟩
      · exact absurd hle (Nat.not_lt.mpr hlt)
      · rw [insertedFrom, hinserted, hdue _ (Nat.le_refl _), dueFrom_char, swept, List.append_assoc]
        rfl
    | marker k name raw =>
      -- no block ends in a marker, since there is no brace in it
      have hplain := plain_of_spells (cut_marker_iff.mp h.of_append).1
      have hnone : ∀ place, (written as).length ≤ place →
          place < (written as).length + raw.length → before place = [] := by
        intro place hle hlt
        rw [hdue place hle, dueFrom_marker hplain hle hlt]
        rfl
      have hpos := List.length_pos_of_ne_nil (cut_marker_iff.mp h.of_append).1.ne_nil
      refine ⟨⟨fun place hlt hle => hnone place (Nat.le_of_lt hlt) hle, houtside⟩, ?_⟩
      rw [insertedFrom, hinserted, hnone _ (Nat.le_refl _) (by omega), swept]
      rfl

/-- **The sweep writes the chunks of its places**, one after another. -/
theorem flatMap_chunk {as bs cs : List Piece} (h : Cut (as ++ (bs ++ cs))) :
    (List.range' (written as).length (written bs).length).flatMap
        (chunk (patchesFrom 0 (as ++ (bs ++ cs))) (written (as ++ (bs ++ cs)))) =
      swept (pendingThrough [] as) bs := by
  obtain ⟨houtside, hinserted⟩ := insertedFrom_closers h fun _ => rfl
  have hne : ∀ p ∈ bs, p.text ≠ [] := fun p hp => h.text_ne_nil p (by simp [hp])
  rw [← hinserted]
  refine (List.flatMap_congr fun place _ => ?_).trans (Division.flatMap_edit as hne houtside cs)
  rw [chunk, patched_patchesFrom]
  rfl

/-- **The sweep over a cut is one edit of its text.** -/
theorem edited_written {ps : List Piece} (h : Cut ps) :
    edited (patchesFrom 0 ps) (written ps) = sweep [] ps := by
  have hcut : Cut (ps ++ []) := by rwa [List.append_nil]
  have hrun := @flatMap_chunk [] ps [] hcut
  -- the loops that are still pending are closed at the end of the text
  have hend : chunk (patchesFrom 0 ps) (written ps) (written ps).length =
      List.replicate (pendingThrough [] ps).sum '\x7d' := by
    have hclosers := closers_written hcut (Nat.le_refl (written ps).length)
    rw [List.append_nil, dueFrom_nil] at hclosers
    rw [chunk, hclosers, patched_patchesFrom]
    exact (congrArg (_ ++ ·) (Division.patched_end ps)).trans (List.append_nil _)
  have hsweep := sweep_append [] ps []
  rw [List.append_nil] at hsweep
  rw [List.nil_append, List.append_nil] at hrun
  rw [edited, List.range_succ, List.range_eq_range', List.flatMap_append, List.flatMap_singleton,
    hend, hsweep]
  exact congrArg (· ++ _) hrun

/-! ### Jumps first -/

/-- Jumps may be lowered before the sweep or in it. -/
theorem sweep_lowerJumps {ps : List Piece} (h : Cut ps) (pending : List Nat) :
    sweep pending (lowerJumps ps) = sweep pending ps := by
  induction h using Cut.induct generalizing pending with
  | nil => rfl
  | @char c ps _ _ ih =>
    show _ ++ c :: sweep _ (lowerJumps ps) = _ ++ c :: sweep _ ps
    rw [ih]
  | @marker k name raw ps hspells _ ih =>
    cases k with
    | label =>
      show _ ++ sweep _ (lowerJumps ps) = _ ++ sweep _ ps
      rw [ih]
    | jump =>
      show sweep pending (chars (Loop.jump name) ++ lowerJumps ps) = _
      rw [sweep_chars (plain_jump hspells.isWord_name), ih]
      rfl

theorem foundFrom_jump_lowerJumps (offset : Nat) (ps : List Piece) :
    foundFrom .jump offset (lowerJumps ps) = [] := by
  induction ps generalizing offset with
  | nil => rfl
  | cons p ps ih =>
    cases p with
    | char c => exact ih _
    | marker k name raw =>
      cases k with
      | label => exact ih _
      | jump => exact (foundFrom_chars _ _ _ _).trans (ih _)

/-- A block ends at a closing brace, or at the end of the text. -/
theorem getElem?_blockEnd {t : Text} {m : Found Text} (h : m ∈ Marker.labels t) :
    t[blockEnd t m]? = some '\x7d' ∨ blockEnd t m = t.length := by
  have hlt := start_lt_of_mem_labels h
  have hstop := around_stop hlt
  have hspec := (closeAt_spec 0 (t.drop (m.start + 1))).2
  rw [List.getElem?_drop, List.length_drop] at hspec
  rw [blockEnd, hstop]
  exact hspec.imp_right fun h => by omega

/-- **All passes together are one edit** of the text whose jumps have been lowered: every label
marker becomes its header, and as many closing braces are written before a place as there are label
markers whose blocks, found in that very text, end there. -/
theorem lower_eq_edited (t : Text) :
    ∃ lowered, lower Loop.header t = .ok lowered ∧
      lowered.code = edited ((Marker.labels (jumps t)).map (patch Loop.header)) (jumps t) ∧
      ∀ m ∈ Marker.labels (jumps t), (jumps t)[blockEnd (jumps t) m]? = some '\x7d' ∨
        blockEnd (jumps t) m = (jumps t).length := by
  obtain ⟨ps, hcut, rfl⟩ := exists_cut t
  refine ⟨_, lower_written hcut, ?_, fun m hm => getElem?_blockEnd hm⟩
  have hjumps : Cut (lowerJumps ps) := (edit_lowerJumps ps).cut hcut
  have hpatches : (Marker.labels (written (lowerJumps ps))).map (patch Loop.header) =
      patchesFrom 0 (lowerJumps ps) := by
    rw [patchesFrom, foundFrom_jump_lowerJumps, labels_written hjumps]
    exact (List.append_nil _).symm
  show sweep [] ps = _
  rw [jumps_written hcut, hpatches, edited_written hjumps, sweep_lowerJumps hcut]

end LabelLoop.Lowering
