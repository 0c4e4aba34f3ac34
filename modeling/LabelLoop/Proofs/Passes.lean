import LabelLoop.Lowering.Basic
import LabelLoop.Proofs.Nesting
import LabelLoop.Proofs.Seams
import Mathlib.Algebra.GroupWithZero.Nat

/-!
# The passes in one sweep

Each pass over a text finds the first label marker, and looks for the end of the block around it in
a text that earlier passes have changed.  All passes together do what one sweep over the pieces does
(`passes_written`): `sweep` goes from left to right and keeps, for every brace that is open, the
number of loops that are to be closed where it is.  The list of these numbers, innermost first, is
called `pending`; it has no entry for braces outside of which no loop waits.

The text between two passes is `closed pending ps`: the pieces `ps` still to come, with the closing
braces of all earlier loops already written.  The next pass takes the first label marker among them
and writes one more closing brace, and this is the same as one more loop that is pending
(`closeIn_closed`).
-/

namespace LabelLoop.Lowering

open Text Marker Block

/-! ### Loops that wait for their closing brace -/

/-- One more loop waits at the innermost open brace. -/
def addLoop : List Nat → List Nat
  | [] => [1]
  | n :: pending => (n + 1) :: pending

/-- How many loops are closed right before the character `c`. -/
def dueBefore (pending : List Nat) (c : Char) : Nat :=
  if c = '\x7d' then pending.headD 0 else 0

/-- What is pending after the character `c`. -/
def pendingAfter (pending : List Nat) (c : Char) : List Nat :=
  if c = '\x7b' then 0 :: pending else if c = '\x7d' then pending.tail else pending

/-- What is pending after a marker. -/
def pendingPast (k : Kind) (pending : List Nat) : List Nat :=
  match k with
  | .label => addLoop pending
  | .jump => pending

theorem sum_addLoop (pending : List Nat) : (addLoop pending).sum = pending.sum + 1 := by
  cases pending with
  | nil => rfl
  | cons n pending => simp only [addLoop, List.sum_cons]; omega

theorem headD_addLoop (pending : List Nat) :
    (addLoop pending).headD 0 = pending.headD 0 + 1 := by
  cases pending <;> rfl

theorem tail_addLoop (pending : List Nat) : (addLoop pending).tail = pending.tail := by
  cases pending <;> rfl

theorem dueBefore_of_ne {c : Char} (h : c ≠ '\x7d') (pending : List Nat) :
    dueBefore pending c = 0 :=
  if_neg h

theorem pendingAfter_of_plain {c : Char} (h : c ≠ '\x7b' ∧ c ≠ '\x7d') (pending : List Nat) :
    pendingAfter pending c = pending := by
  rw [pendingAfter, if_neg h.1, if_neg h.2]

/-! ### The sweep -/

/-- **Lowers pieces in one sweep**, from left to right. -/
def sweep (pending : List Nat) : List Piece → Text
  | [] => List.replicate pending.sum '\x7d'
  | .char c :: ps =>
    List.replicate (dueBefore pending c) '\x7d' ++ c :: sweep (pendingAfter pending c) ps
  | .marker k name _ :: ps => k.lowered name ++ sweep (pendingPast k pending) ps

/-- The pieces with the closing braces of pending loops, and with their own markers left as they
are. -/
def closed (pending : List Nat) : List Piece → List Piece
  | [] => chars (List.replicate pending.sum '\x7d')
  | .char c :: ps =>
    chars (List.replicate (dueBefore pending c) '\x7d') ++
      .char c :: closed (pendingAfter pending c) ps
  | .marker k name raw :: ps => .marker k name raw :: closed pending ps

/-- The pieces after all jumps have been lowered. -/
def lowerJumps (ps : List Piece) : List Piece :=
  rendered .jump Loop.jump ps

theorem jumps_written {ps : List Piece} (h : Cut ps) :
    jumps (written ps) = written (lowerJumps ps) :=
  replace_written h .jump Loop.jump

/-- Lowering jumps is an edit. -/
theorem edit_lowerJumps (ps : List Piece) : Edit ps (lowerJumps ps) := by
  induction ps with
  | nil => exact .nil
  | cons p ps ih =>
    cases p with
    | char c => exact .keep _ ih
    | marker k name raw =>
      cases k with
      | label => exact .keep _ ih
      | jump => exact .lower .jump name raw ih

/-- Neither marker holds a brace. -/
theorem plain_of_spells {k : Kind} {name raw : Text} (h : k.form.Spells name raw) : Plain raw := by
  intro c hc
  have hadm := h.admits_or_eq hc
  constructor
  · rintro rfl
    revert hadm
    cases k <;> decide
  · rintro rfl
    revert hadm
    cases k <;> decide

/-- Neither does a name. -/
theorem plain_of_isWord {name : Text} (h : ∀ c ∈ name, isWord c = true) : Plain name :=
  fun c hc => ⟨ne_of_isWord (h c hc) (by decide), ne_of_isWord (h c hc) (by decide)⟩

theorem plain_append {a b : Text} (ha : Plain a) (hb : Plain b) : Plain (a ++ b) := by
  intro c hc
  rcases List.mem_append.mp hc with hc | hc
  · exact ha c hc
  · exact hb c hc

/-- Neither does a lowered jump. -/
theorem plain_jump {name : Text} (h : ∀ c ∈ name, isWord c = true) : Plain (Loop.jump name) := by
  unfold Loop.jump Loop.sentinel
  refine plain_append (plain_append (plain_append (plain_append ?_ ?_) ?_) ?_) ?_
  · exact forall_mem_of_all (by decide +kernel)
  · exact plain_of_isWord h
  · exact forall_mem_of_all (by decide +kernel)
  · exact plain_of_isWord h
  · exact forall_mem_of_all (by decide)

/-- Characters that are no braces pass through `closed`. -/
theorem closed_chars {t : Text} (h : Plain t) (pending : List Nat) (ps : List Piece) :
    closed pending (chars t ++ ps) = chars t ++ closed pending ps := by
  induction t with
  | nil => rfl
  | cons c t ih =>
    have hc := h c List.mem_cons_self
    show closed pending (.char c :: (chars t ++ ps)) = .char c :: (chars t ++ closed pending ps)
    rw [closed, dueBefore_of_ne hc.2, pendingAfter_of_plain hc,
      ih fun x hx => h x (List.mem_cons_of_mem _ hx)]
    rfl

/-- Characters that are no braces pass through the sweep. -/
theorem sweep_chars {t : Text} (h : Plain t) (pending : List Nat) (ps : List Piece) :
    sweep pending (chars t ++ ps) = t ++ sweep pending ps := by
  induction t with
  | nil => rfl
  | cons c t ih =>
    have hc := h c List.mem_cons_self
    show sweep pending (.char c :: (chars t ++ ps)) = c :: (t ++ sweep pending ps)
    rw [sweep, dueBefore_of_ne hc.2, pendingAfter_of_plain hc,
      ih fun x hx => h x (List.mem_cons_of_mem _ hx)]
    rfl

/-- What stands between two passes is an edit of the pieces. -/
theorem edit_closed (pending : List Nat) (ps : List Piece) (h : Cut ps) :
    Edit ps (closed pending (lowerJumps ps)) := by
  induction h using Cut.induct generalizing pending with
  | nil =>
    have := Edit.closes .nil pending.sum
    rwa [List.append_nil] at this
  | @char c ps _ _ ih => exact (Edit.keep _ (ih _)).closes _
  | @marker k name raw ps hspells _ ih =>
    cases k with
    | label => exact .keep _ (ih pending)
    | jump =>
      show Edit _ (closed pending (chars (Loop.jump name) ++ lowerJumps ps))
      rw [closed_chars (plain_jump hspells.isWord_name)]
      exact .lower .jump name raw (ih pending)

/-- What the sweep writes is an edit that leaves no marker. -/
theorem edit_sweep (pending : List Nat) (ps : List Piece) :
    Edit ps (chars (sweep pending ps)) := by
  induction ps generalizing pending with
  | nil =>
    have := Edit.closes .nil pending.sum
    rwa [List.append_nil] at this
  | cons p ps ih =>
    cases p with
    | char c =>
      rw [sweep, chars_append]
      exact (Edit.keep _ (ih _)).closes _
    | marker k name raw =>
      rw [sweep, chars_append]
      exact .lower k name raw (ih _)

/-- The braces of loops that wait at open braces outside do not come before the closing brace of a
loop that is open inside: writing that brace is one more loop pending. -/
theorem closeIn_closed_of_depth {ps : List Piece} (h : Cut ps) (depth : Nat)
    (pending : List Nat) :
    closeIn depth (written (closed (List.replicate depth 0 ++ pending) ps)) =
      written (closed (List.replicate depth 0 ++ addLoop pending) ps) := by
  induction h using Cut.induct generalizing depth with
  | nil =>
    rw [closed, closed, written_chars, written_chars, closeIn_replicate]
    congr 1
    rw [List.sum_append, List.sum_append, sum_addLoop]
    omega
  | @char c ps _ _ ih =>
    rw [closed, closed, written_append, written_append, written_chars, written_chars, written_char,
      written_char]
    by_cases hopen : c = '\x7b'
    · subst hopen
      rw [dueBefore_of_ne (by decide), dueBefore_of_ne (by decide)]
      exact (closeIn_cons_of_eq (closeAt_open _ _)).trans (congrArg _ (ih (depth + 1)))
    · by_cases hclose : c = '\x7d'
      · subst hclose
        cases depth with
        | zero =>
          -- the brace goes in front of those that are due here already
          have hfront : ∀ n (u : Text), closeIn 0 (List.replicate n '\x7d' ++ '\x7d' :: u) =
              List.replicate (n + 1) '\x7d' ++ '\x7d' :: u := by
            intro n u
            cases n with
            | zero => exact closeIn_close_zero u
            | succ n =>
              rw [List.replicate_succ, List.cons_append, closeIn_close_zero]
              rfl
          have hdue : ∀ q : List Nat, dueBefore q '\x7d' = q.headD 0 := fun q => rfl
          have htail : ∀ q : List Nat, pendingAfter q '\x7d' = q.tail := fun q => rfl
          rw [hfront, hdue, hdue, htail, htail]
          simp only [List.replicate_zero, List.nil_append, headD_addLoop, tail_addLoop]
        | succ depth =>
          -- nothing is due inside the braces that were opened on the way
          exact (closeIn_cons_of_eq (closeAt_close_succ _ _)).trans (congrArg _ (ih depth))
      · rw [dueBefore_of_ne hclose, dueBefore_of_ne hclose,
          pendingAfter_of_plain ⟨hopen, hclose⟩, pendingAfter_of_plain ⟨hopen, hclose⟩]
        exact (closeIn_cons_of_eq (closeAt_other ⟨hopen, hclose⟩ _ _)).trans
          (congrArg _ (ih depth))
  | @marker k name raw ps hspells _ ih =>
    rw [closed, closed, written_marker, written_marker,
      closeIn_append_of_plain (plain_of_spells hspells), ih]

/-- **A closing brace written at the end of the block is one more loop pending.** -/
theorem closeIn_closed {ps : List Piece} (h : Cut ps) (pending : List Nat) :
    closeIn 0 (written (closed pending ps)) = written (closed (addLoop pending) ps) :=
  closeIn_closed_of_depth h 0 pending

/-! ### One pass -/

/-- **What one pass does**: the marker becomes the header, and a closing brace is written where the
scan over the text after the marker stops. -/
theorem pass_code (header : Header) {raw : Text} (hraw : raw ≠ []) (hplain : Plain raw)
    (pre post name : Text) :
    (pass header (pre ++ (raw ++ post)) ⟨pre.length, raw.length, name⟩).code =
      pre ++ (header name ++ closeIn 0 post) := by
  have hstop := around_stop_of_plain (b := post) hraw hplain pre
  have hclosedAt : (around (pre ++ (raw ++ post)) pre.length).stop + (header name).length -
      raw.length = (pre ++ header name).length + closeAt 0 post := by
    rw [hstop, List.length_append]
    omega
  have hopened : (pre ++ (raw ++ post)).take pre.length ++ header name ++
      (pre ++ (raw ++ post)).drop (pre.length + raw.length) = (pre ++ header name) ++ post := by
    rw [List.take_left, ← List.append_assoc pre raw post, ← List.length_append, List.drop_left]
  show (List.take _ (List.take pre.length _ ++ header name ++ List.drop (_ + _) _)) ++
    '\x7d' :: List.drop _ (_ ++ header name ++ List.drop (_ + _) _) = _
  rw [hclosedAt, hopened, List.take_length_add_append, List.drop_length_add_append, closeIn,
    List.append_assoc, List.append_assoc]

/-! ### All passes -/

/-- Closing braces add no marker. -/
theorem names_closed (k : Kind) (pending : List Nat) (ps : List Piece) :
    names k (closed pending ps) = names k ps := by
  induction ps generalizing pending with
  | nil =>
    show names k (chars _) = []
    rw [← List.append_nil (chars _), names_chars]
    rfl
  | cons p ps ih =>
    cases p with
    | char c => exact (names_chars _ _ _).trans (ih _)
    | marker k' name raw => rw [closed, names_marker, names_marker, ih]

/-- Lowered jumps are no labels. -/
theorem names_lowerJumps (ps : List Piece) : names .label (lowerJumps ps) = names .label ps := by
  induction ps with
  | nil => rfl
  | cons p ps ih =>
    cases p with
    | char c => exact ih
    | marker k name raw =>
      cases k with
      | label => exact congrArg (name :: ·) ih
      | jump => exact (names_chars _ _ _).trans ih

/-- **The records of all passes**, in one sweep: `pre` is what stands before the pieces after the
passes so far, and `offsets` are the places of the markers in the source. -/
def records (pre : Text) (pending : List Nat) : List Piece → List Nat → List Label
  | [], _ => []
  | .char c :: ps, offsets =>
    records (pre ++ (List.replicate (dueBefore pending c) '\x7d' ++ [c])) (pendingAfter pending c)
      ps offsets
  | .marker .label name raw :: ps, offsets =>
    ⟨pass Loop.header (pre ++ (raw ++ written (closed pending (lowerJumps ps))))
        ⟨pre.length, raw.length, name⟩, offsets.headD 0⟩ ::
      records (pre ++ Loop.header name) (addLoop pending) ps offsets.tail
  | .marker .jump name _ :: ps, offsets => records (pre ++ Loop.jump name) pending ps offsets

/-- One step of the run: a pass that consumes its marker is followed by the rest of the run. -/
theorem passes_succ {header : Header} {t : Text} {m : Found Text} {n sourceOffset : Nat}
    {offsets : List Nat} (hfirst : firstLabel? t = some m)
    (hcount : countLabels (pass header t m).code = n) :
    passes header (n + 1) (sourceOffset :: offsets) t =
      (passes header n offsets (pass header t m).code).after (pass header t m) sourceOffset := by
  rw [passes]
  simp only [hfirst, hcount, if_true]

/-- **One step of the sweep is one pass.**  Before the pass, the marker `name` is the first of the
text; after it, there is one loop more pending, and all later markers are still there.  What stands
before the marker is an edit, without markers, of the pieces `done` that stood there at first. -/
theorem pass_written {done ps : List Piece} {pre name raw : Text}
    (hcut : Cut (done ++ .marker .label name raw :: ps)) (hedit : Edit done (chars pre))
    (pending : List Nat) {t : Text}
    (ht : t = pre ++ (raw ++ written (closed pending (lowerJumps ps)))) :
    firstLabel? t = some ⟨pre.length, raw.length, name⟩ ∧
    (pass Loop.header t ⟨pre.length, raw.length, name⟩).code =
      pre ++ Loop.header name ++ written (closed (addLoop pending) (lowerJumps ps)) ∧
    countLabels (pre ++ Loop.header name ++ written (closed (addLoop pending) (lowerJumps ps))) =
      (names .label ps).length := by
  subst ht
  have hspells : Marker.label.Spells name raw := hcut.spells
  have hcut' : Cut ((done ++ [.marker .label name raw]) ++ ps) := by rwa [List.append_assoc]
  refine ⟨?_, ?_, ?_⟩
  · -- no marker begins in what stands before
    have hbefore := labels_written ((hedit.append (edit_closed pending _ hcut.of_append)).cut hcut)
    rw [foundFrom_chars, written_append, written_chars, Nat.zero_add] at hbefore
    rw [firstLabel?_eq_head?]
    exact congrArg List.head? hbefore
  · have hjumps : Cut (lowerJumps ps) := (edit_lowerJumps ps).cut hcut'.of_append
    rw [pass_code Loop.header hspells.ne_nil (plain_of_spells (k := .label) hspells),
      closeIn_closed hjumps, List.append_assoc]
  · have hedit' : Edit (done ++ [.marker .label name raw]) (chars (pre ++ Loop.header name)) := by
      rw [chars_append, ← List.append_nil (chars (Loop.header name))]
      exact hedit.append (.lower .label name raw .nil)
    have hafter := countLabels_written
      ((hedit'.append (edit_closed (addLoop pending) ps hcut'.of_append)).cut hcut')
    rwa [written_append, written_chars, names_chars, names_closed, names_lowerJumps] at hafter

/-- **All passes do what one sweep does.**  The induction is on the pieces still to come; `pre` is
what the sweep has written. -/
theorem passes_written {done ps : List Piece} {pre : Text} (hcut : Cut (done ++ ps))
    (hedit : Edit done (chars pre)) (pending offsets : List Nat)
    (hoffsets : (names .label ps).length ≤ offsets.length) :
    passes Loop.header (names .label ps).length offsets
        (pre ++ written (closed pending (lowerJumps ps))) =
      ⟨(records pre pending ps offsets).map Label.pass,
        .ok (pre ++ sweep pending ps, records pre pending ps offsets)⟩ := by
  induction ps generalizing done pre pending offsets with
  | nil =>
    show (⟨[], .ok (pre ++ written (chars _), [])⟩ : Run) = _
    rw [written_chars]
    rfl
  | cons p ps ih =>
    have hcut' : Cut ((done ++ [p]) ++ ps) := by rwa [List.append_assoc]
    cases p with
    | char c =>
      -- the braces due here and the character join what is settled
      have hedit' : Edit (done ++ [.char c])
          (chars (pre ++ (List.replicate (dueBefore pending c) '\x7d' ++ [c]))) := by
        rw [chars_append, chars_append]
        exact hedit.append ((Edit.keep _ .nil).closes _)
      have hrun := ih hcut' hedit' (pendingAfter pending c) offsets hoffsets
      have htext : ∀ u v : Text, pre ++ (u ++ [c]) ++ v = pre ++ (u ++ c :: v) := by
        intro u v
        simp only [List.append_assoc, List.singleton_append]
      rw [htext, htext] at hrun
      show passes Loop.header _ offsets (pre ++ written (chars _ ++ .char c :: closed _ _)) = _
      rw [written_append, written_chars, written_char]
      exact hrun
    | marker k name raw =>
      cases k with
      | jump =>
        have hedit' : Edit (done ++ [.marker .jump name raw]) (chars (pre ++ Loop.jump name)) := by
          rw [chars_append, ← List.append_nil (chars (Loop.jump name))]
          exact hedit.append (.lower .jump name raw .nil)
        have hrun := ih hcut' hedit' pending offsets hoffsets
        rw [List.append_assoc, List.append_assoc] at hrun
        show passes Loop.header _ offsets
          (pre ++ written (closed pending (chars (Loop.jump name) ++ lowerJumps ps))) = _
        rw [closed_chars (plain_jump hcut.spells.isWord_name), written_append, written_chars]
        exact hrun
      | label =>
        obtain ⟨hfirst, hcode, hcount⟩ := pass_written hcut hedit pending rfl
        have hedit' :
            Edit (done ++ [.marker .label name raw]) (chars (pre ++ Loop.header name)) := by
          rw [chars_append, ← List.append_nil (chars (Loop.header name))]
          exact hedit.append (.lower .label name raw .nil)
        obtain ⟨offset, offsets, rfl⟩ : ∃ o os, offsets = o :: os :=
          List.exists_cons_of_length_pos (Nat.lt_of_lt_of_le (Nat.succ_pos _) hoffsets)
        have hrun := ih hcut' hedit' (addLoop pending) offsets (Nat.le_of_succ_le_succ hoffsets)
        show passes Loop.header ((names .label ps).length + 1) (offset :: offsets)
          (pre ++ (raw ++ written (closed pending (lowerJumps ps)))) = _
        rw [passes_succ hfirst (by rw [hcode]; exact hcount), hcode, hrun, List.append_assoc]
        rfl

/-! ### The whole run -/

/-- Where no loop waits, nothing is written. -/
theorem closed_replicate_zero (depth : Nat) (ps : List Piece) :
    closed (List.replicate depth 0) ps = ps := by
  induction ps generalizing depth with
  | nil =>
    rw [closed, List.sum_replicate_nat, Nat.mul_zero]
    rfl
  | cons p ps ih =>
    cases p with
    | char c =>
      have hdue : dueBefore (List.replicate depth 0) c = 0 := by
        rw [dueBefore]
        cases depth <;> exact ite_self 0
      have hafter :
          ∃ depth', pendingAfter (List.replicate depth 0) c = List.replicate depth' 0 := by
        rw [pendingAfter]
        split
        · exact ⟨depth + 1, rfl⟩
        · split
          · exact ⟨depth - 1, List.tail_replicate⟩
          · exact ⟨depth, rfl⟩
      obtain ⟨depth', hafter⟩ := hafter
      rw [closed, hdue, hafter, ih]
      rfl
    | marker k name raw => rw [closed, ih]

/-- **The run of a text**, read off its cut. -/
theorem run_written {ps : List Piece} (h : Cut ps) :
    run Loop.header (written ps) =
      ⟨(records [] [] ps (labelOffsets (written ps))).map Label.pass,
        .ok (sweep [] ps, records [] [] ps (labelOffsets (written ps)))⟩ := by
  have hcount : countLabels (jumps (written ps)) = (names .label ps).length := by
    rw [jumps_written h, countLabels_written ((edit_lowerJumps ps).cut h), names_lowerJumps]
  have hoffsets : (names .label ps).length ≤ (labelOffsets (written ps)).length := by
    rw [labelOffsets, List.length_map, ← countLabels, countLabels_written h]
  have hrun := @passes_written [] ps [] h .nil [] _ hoffsets
  have hnone : closed [] (lowerJumps ps) = lowerJumps ps := closed_replicate_zero 0 _
  rw [hnone, List.nil_append, List.nil_append] at hrun
  rw [run, labels, hcount, jumps_written h, hrun]

theorem lower_written {ps : List Piece} (h : Cut ps) :
    lower Loop.header (written ps) =
      .ok ⟨sweep [] ps, records [] [] ps (labelOffsets (written ps)),
        jumpTargets (written ps)⟩ := by
  rw [lower, run_written h]
  rfl

theorem lowerJumps_chars (t : Text) : lowerJumps (chars t) = chars t := by
  induction t with
  | nil => rfl
  | cons c t ih => exact congrArg (.char c :: ·) ih

/-- **A text without markers stays as it is.** -/
theorem lower_of_cut_chars {t : Text} (h : Cut (chars t)) :
    lower Loop.header t = .ok ⟨t, [], []⟩ := by
  have hnames : ∀ k, names k (chars t) = [] := by
    intro k
    rw [← List.append_nil (chars t), names_chars]
    rfl
  have hjumps : jumps t = t := by
    have := jumps_written h
    rwa [lowerJumps_chars, written_chars] at this
  have hcount : countLabels t = 0 := by
    have := countLabels_written h
    rwa [written_chars, hnames] at this
  have htargets : jumpTargets t = [] := by
    have := congrArg (List.map Found.item) (search_written h .jump)
    rwa [written_chars, map_item_foundFrom, hnames] at this
  rw [lower, run, labels, hjumps, hcount, htargets]
  rfl

end LabelLoop.Lowering
