import LabelLoop.Proofs.Guard
import LabelLoop.Proofs.Passes

/-!
# Where a pass closes its loop

A pass edits its text twice.  The place of the closing brace is found before the first edit, which
writes a header of any length over the marker, so it has to be shifted by the difference of the two
lengths, and that may be negative.  `Closes` says what must come of it: the marker gives way to the
header, one brace is written where the block around the marker ended, and nothing else changes.

The scan for the end of the block starts inside the marker but cannot stop there, since a marker
holds no brace (`stop_le_around_stop`).  So the shift never leads out of the text, and it does not
matter that a bound below zero would count from the end of the text and one beyond the end would
stop there (`closes_pass`).
-/

namespace LabelLoop.Lowering

open Text Marker Block

/-! ### Bounds of any sign -/

/-- The position that a bound leads to: a negative one counts from the end, and either stops at the
ends of the text. -/
def boundIn (t : Text) (bound : Int) : Nat :=
  if 0 ≤ bound then bound.toNat else (t.length + bound).toNat

/-- A text with a closing brace written at a bound. -/
def braceAt (t : Text) (bound : Int) : Text :=
  t.take (boundIn t bound) ++ '\x7d' :: t.drop (boundIn t bound)

/-- A position is the bound that it is. -/
theorem boundIn_natCast (t : Text) (n : Nat) : boundIn t n = n := by
  unfold boundIn
  rw [if_pos (Int.natCast_nonneg n), Int.toNat_natCast]

/-! ### One pass -/

/-- The text with the header in the place of the marker `m`. -/
def opened (header : Header) (t : Text) (m : Found Text) : Text :=
  t.take m.start ++ header m.item ++ t.drop m.stop

/-- The place for the closing brace: the end of the block around the marker, moved by as much as
the header is longer than the marker. -/
def closingBound (header : Header) (t : Text) (m : Found Text) : Int :=
  (around t m.start).stop + ((header m.item).length - m.length : Int)

/-- A pass over `t` **closes** the loop of the marker `m` where it should. -/
structure Closes (header : Header) (t : Text) (m : Found Text) (p : Pass) : Prop where
  name : p.name = m.item
  offset : p.offset = m.start
  block : p.block = around t m.start
  /-- The block ends behind the marker. -/
  stop_le : m.stop ≤ (around t m.start).stop
  le_length : (around t m.start).stop ≤ t.length
  /-- The bound is not negative, and it is noted. -/
  closedAt : (p.closedAt : Int) = closingBound header t m
  /-- The bound lies in the text that is edited. -/
  closedAt_le : p.closedAt ≤ (opened header t m).length
  /-- The two edits, made one after the other with bounds of any sign. -/
  edits : p.code = braceAt (opened header t m) (closingBound header t m)
  code : p.code = t.take m.start ++ header m.item ++
    slice t m.stop (around t m.start).stop ++ '\x7d' :: t.drop (around t m.start).stop

/-- A marker that was found, with what stands before and behind it. -/
theorem exists_split_of_mem_labels {t : Text} {m : Found Text} (h : m ∈ Marker.labels t) :
    ∃ pre raw post, t = pre ++ (raw ++ post) ∧ m = ⟨pre.length, raw.length, m.item⟩ ∧
      raw ≠ [] ∧ Plain raw := by
  obtain ⟨ps, hcut, rfl⟩ := exists_cut t
  rw [labels_written hcut] at h
  obtain ⟨before, name, raw, after, rfl, rfl⟩ := exists_of_mem_foundFrom h
  refine ⟨written before, raw, written after, ?_, ?_, hcut.spells.ne_nil,
    plain_of_spells hcut.spells⟩
  · rw [written_append, written_marker]
  · rw [Nat.zero_add]

/-- **The scan cannot stop inside a marker.** -/
theorem stop_le_around_stop {t : Text} {m : Found Text} (h : m ∈ Marker.labels t) :
    m.stop ≤ (around t m.start).stop := by
  obtain ⟨pre, raw, post, rfl, hm, hraw, hplain⟩ := exists_split_of_mem_labels h
  have hstop := around_stop_of_plain (b := post) hraw hplain pre
  rw [hm]
  show pre.length + raw.length ≤ (around _ pre.length).stop
  omega

/-- **A pass closes its loop where it should**, for any header. -/
theorem closes_pass (header : Header) {t : Text} {m : Found Text} (h : m ∈ Marker.labels t) :
    Closes header t m (pass header t m) := by
  have hle := stop_le_around_stop h
  have hlength := around_stop_le t m.start
  have hstop : m.stop = m.start + m.length := rfl
  have hopened : (opened header t m).length + m.length = t.length + (header m.item).length := by
    unfold opened
    rw [List.length_append, List.length_append, List.length_take, List.length_drop]
    omega
  have hclosedAt : ((pass header t m).closedAt : Int) = closingBound header t m := by
    unfold closingBound
    show (((around t m.start).stop + (header m.item).length - m.length : Nat) : Int) = _
    omega
  have hbound : (pass header t m).closedAt ≤ (opened header t m).length := by
    show (around t m.start).stop + (header m.item).length - m.length ≤ _
    omega
  refine ⟨rfl, rfl, rfl, hle, hlength, hclosedAt, hbound, ?_, ?_⟩
  · unfold braceAt
    rw [← hclosedAt, boundIn_natCast]
    rfl
  · obtain ⟨pre, raw, post, rfl, hm, hraw, hplain⟩ := exists_split_of_mem_labels h
    have haround := around_stop_of_plain (b := post) hraw hplain pre
    have hcode := pass_code header hraw hplain pre post m.item
    rw [← hm] at hcode
    have hstart : m.start = pre.length := by rw [hm]
    have hend : m.stop = (pre ++ raw).length := by rw [hm, List.length_append]; rfl
    rw [hcode, hstart, hend, haround, List.take_left, ← List.append_assoc pre raw post,
      ← List.length_append, slice, List.take_length_add_append, List.drop_left,
      List.drop_length_add_append, closeIn, List.append_assoc, List.append_assoc]

/-! ### All passes -/

/-- The loop over a text with a marker begins with a pass for the first one. -/
theorem Loops.head?_passes {header : Header} {remaining : Nat} {offsets : List Nat} {t : Text}
    {r : Run} (h : Loops header remaining offsets t r) {m : Found Text}
    (hfirst : firstLabel? t = some m) : r.passes.head? = some (pass header t m) := by
  cases h with
  | finished hnone => simp [hnone] at hfirst
  | exhausted hfirst' | stalled hfirst' | again hfirst' =>
    obtain rfl := Option.some.inj (hfirst.symm.trans hfirst')
    rfl

/-- **Every pass of the loop** works on the first marker of the text that the passes before it
left.  The induction is on the rounds. -/
theorem Loops.exists_of_getElem? {header : Header} {remaining : Nat} {offsets : List Nat} {t : Text}
    {r : Run} (h : Loops header remaining offsets t r) {k : Nat} {p : Pass}
    (hp : r.passes[k]? = some p) :
    ∃ u m, textAfter? header t k = some u ∧ firstLabel? u = some m ∧ p = pass header u m := by
  induction h generalizing k with
  | finished => simp at hp
  | @exhausted _ t m hfirst | @stalled _ _ _ t m hfirst =>
    -- the loop ends with this pass
    rw [List.getElem?_singleton] at hp
    obtain ⟨rfl, hp⟩ := Option.ite_none_right_eq_some.mp hp
    exact ⟨t, m, rfl, hfirst, (Option.some.inj hp).symm⟩
  | @again _ _ _ t m _ hfirst _ _ ih =>
    cases k with
    | zero =>
      obtain rfl := Option.some.inj hp
      exact ⟨t, m, rfl, hfirst, rfl⟩
    | succ k =>
      rw [textAfter?_succ hfirst]
      exact ih hp

/-- The records of a run that has a result are those of its passes. -/
theorem Loops.map_pass {header : Header} {remaining : Nat} {offsets : List Nat} {t code : Text}
    {r : Run} {records : List Label} (h : Loops header remaining offsets t r)
    (hr : r.outcome = .ok (code, records)) : records.map Label.pass = r.passes := by
  induction h generalizing code records with
  | finished =>
    obtain ⟨-, rfl⟩ := Prod.mk.inj (Except.ok.inj hr)
    rfl
  | exhausted => simp at hr
  | stalled => simp at hr
  | @again _ _ _ _ _ r _ _ _ ih =>
    unfold Run.after at hr ⊢
    cases houtcome : r.outcome with
    | error f => simp [houtcome, Except.map] at hr
    | ok result =>
      rw [houtcome] at hr
      obtain ⟨-, rfl⟩ := Prod.mk.inj (Except.ok.inj hr)
      rw [List.map_cons, ih houtcome]

/-- **Every pass closes its loop at the end of the block around its marker**, whatever header is
plugged in, however long or short its texts are.  The loop over a text with a label marker begins
with a pass for the first one; each later pass is for the first marker of the text that the passes
before it left; and every pass writes the header over its marker and one brace where the block
ended, at a place that is never out of bounds and is noted in its record. -/
theorem passes_close_at_block_end (header : Header) (t source : Text) :
    (∀ m, firstLabel? t = some m →
      ∃ p, (labels header t source).passes.head? = some p ∧ Closes header t m p) ∧
    (∀ k p, (labels header t source).passes[k]? = some p →
      ∃ u m, textAfter? header t k = some u ∧ firstLabel? u = some m ∧ Closes header u m p) ∧
    ∀ code records, (labels header t source).outcome = .ok (code, records) →
      records.map Label.pass = (labels header t source).passes := by
  have hloops := loops_iff.mpr (rfl : labels header t source = _)
  refine ⟨fun m hfirst => ?_, fun k p hp => ?_, fun code records => hloops.map_pass⟩
  · exact ⟨_, hloops.head?_passes hfirst, closes_pass header (mem_labels_of_firstLabel? hfirst)⟩
  · obtain ⟨u, m, hu, hm, rfl⟩ := hloops.exists_of_getElem? hp
    exact ⟨u, m, hu, hm, closes_pass header (mem_labels_of_firstLabel? hm)⟩

/-- A header without a text moves the place of the brace back by the length of the marker. -/
example :
    (labels (fun _ => []) "\x7b [lbl] a: x; \x7d".toList "[lbl] a:".toList).passes.map
      (fun p => (p.block.stop, p.closedAt, p.code)) =
        [(14, 6, "\x7b  x; \x7d\x7d".toList)] := by
  rfl

end LabelLoop.Lowering
