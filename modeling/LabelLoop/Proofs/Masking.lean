import LabelLoop.Proofs.Innermost
import LabelLoop.Proofs.Verdict

/-!
# Labels that the loops of earlier labels enclose

A label that stands in the block of an earlier one finds itself inside the loop of that label, and
the braces of the loop may pass for a block that is not there.  How many such loops there are around
a label (`loopsAround`) can be told from the text as it was, and with them what the passes take for
enclosed (`EnclosedWithin`).  So the remarks on labels without a block can be told from the shielded
text alone (`unmatched_block_remarks`): none is wrong, but one is missing wherever the loops around
a label make up for the block.

Of the closing braces of a text, `unmet` counts those that answer none of its opening ones.  A loop
still waits after a text exactly if there are none of them (`sum_pendingThrough`).
-/

namespace LabelLoop.Block

open Text

/-- The number of closing braces of a text that answer none of its opening braces. -/
def unmet : Text → Nat
  | [] => 0
  | c :: cs =>
    if c = '\x7b' then unmet cs - 1
    else if c = '\x7d' then unmet cs + 1
    else unmet cs

theorem unmet_open (t : Text) : unmet ('\x7b' :: t) = unmet t - 1 := rfl

theorem unmet_close (t : Text) : unmet ('\x7d' :: t) = unmet t + 1 := rfl

theorem unmet_other {c : Char} (h : c ≠ '\x7b' ∧ c ≠ '\x7d') (t : Text) :
    unmet (c :: t) = unmet t := by
  rw [unmet, if_neg h.1, if_neg h.2]

theorem unmet_append_of_plain {a : Text} (h : Plain a) (b : Text) : unmet (a ++ b) = unmet b := by
  induction a with
  | nil => rfl
  | cons c a ih =>
    rw [List.cons_append, unmet_other (h c List.mem_cons_self)]
    exact ih fun x hx => h x (List.mem_cons_of_mem _ hx)

/-- The count of open braces fails exactly if there are fewer than the text closes. -/
theorem height_eq_none_iff (depth : Nat) (t : Text) : height depth t = none ↔ depth < unmet t := by
  induction t generalizing depth with
  | nil => simp [height, unmet]
  | cons c t ih =>
    by_cases hopen : c = '\x7b'
    · subst hopen
      rw [height_open, unmet_open, ih]
      omega
    · by_cases hclose : c = '\x7d'
      · subst hclose
        rw [unmet_close]
        cases depth with
        | zero => simp [height_close_zero]
        | succ depth =>
          rw [height_close_succ, ih]
          omega
      · rw [height_other ⟨hopen, hclose⟩, unmet_other ⟨hopen, hclose⟩, ih]

/-- A stretch of a text is **enclosed once `n` loops are written around it**.  Before it a brace is
open, be it that of a loop.  After it one is closed that is open before: by the text, or else by the
loops, which close at its end, and first what the text has left open. -/
def EnclosedWithin (n : Nat) (t : Text) (start stop : Nat) : Prop :=
  0 < level 0 (t.take start) + n ∧ ∀ depth ∈ height 0 (t.drop stop), depth < n

instance (n : Nat) (t : Text) (start stop : Nat) : Decidable (EnclosedWithin n t start stop) :=
  inferInstanceAs (Decidable (_ ∧ _))

/-- More loops enclose no less. -/
theorem EnclosedWithin.mono {n n' : Nat} {t : Text} {start stop : Nat}
    (h : EnclosedWithin n t start stop) (hle : n ≤ n') : EnclosedWithin n' t start stop := by
  refine ⟨?_, fun depth hdepth => ?_⟩
  · have hpos := h.1
    omega
  · have hlt := h.2 depth hdepth
    omega

theorem enclosedWithin_append (n : Nat) (pre a post : Text) :
    EnclosedWithin n (pre ++ (a ++ post)) pre.length (pre.length + a.length) ↔
      0 < level 0 pre + n ∧ ∀ depth ∈ height 0 post, depth < n := by
  rw [EnclosedWithin, List.take_left, ← List.append_assoc, ← List.length_append, List.drop_left]

/-- Without loops this is what it is to be enclosed. -/
theorem enclosedWithin_zero_iff {a : Text} (hplain : Plain a) (pre post : Text) :
    EnclosedWithin 0 (pre ++ (a ++ post)) pre.length (pre.length + a.length) ↔
      Enclosed (pre ++ (a ++ post)) pre.length (pre.length + a.length) := by
  rw [enclosedWithin_append, enclosed_iff hplain, Option.eq_none_iff_forall_not_mem]
  simp

/-- **Whether a block reaches over a place**: what lies between closes none of the braces open
before. -/
theorem lt_around_stop_iff {a b : Text} (ha : a ≠ []) (haplain : Plain a) (hb : b ≠ [])
    (hbplain : Plain b) (pre between post : Text) :
    (pre ++ (a ++ between)).length <
        (around (pre ++ (a ++ (between ++ (b ++ post)))) pre.length).stop ↔
      unmet between = 0 := by
  rw [around_stop_of_plain ha haplain, List.length_append, List.length_append]
  have hpos := List.length_pos_of_ne_nil hb
  cases hbetween : height 0 between with
  | none =>
    -- the block ends between the two
    have hunmet := (height_eq_none_iff 0 between).mp hbetween
    obtain ⟨front, rest, rfl, hfront⟩ := exists_of_height_eq_none hbetween
    rw [List.append_assoc, closeAt_append_of_height hfront, List.cons_append, closeAt_close_zero,
      List.length_append, List.length_cons]
    omega
  | some depth =>
    have hunmet : ¬0 < unmet between := by
      rw [← height_eq_none_iff, hbetween]
      simp
    rw [closeAt_append_of_height hbetween, closeAt_append_of_plain hbplain]
    omega

end LabelLoop.Block

namespace LabelLoop.Lowering

open Text Marker Block

/-! ### How many loops wait -/

/-- The number of labels among the pieces whose loops wait at the end of them. -/
def waiting : List Piece → Nat
  | [] => 0
  | .char _ :: ps => waiting ps
  | .marker .jump _ _ :: ps => waiting ps
  | .marker .label _ _ :: ps => waiting ps + if unmet (written ps) = 0 then 1 else 0

theorem sum_drop_addLoop (pending : List Nat) (n : Nat) :
    ((addLoop pending).drop n).sum = (pending.drop n).sum + if n = 0 then 1 else 0 := by
  cases n with
  | zero => exact sum_addLoop pending
  | succ n =>
    cases pending with
    | nil => simp [addLoop]
    | cons w pending => rfl

/-- **The loops that wait after some pieces**: those of the labels among them that still wait, and
of those that waited before, the ones that no brace of the pieces has closed. -/
theorem sum_pendingThrough {ps : List Piece}
    (hspells : ∀ k name raw, .marker k name raw ∈ ps → k.form.Spells name raw)
    (pending : List Nat) :
    (pendingThrough pending ps).sum = (pending.drop (unmet (written ps))).sum + waiting ps := by
  induction ps generalizing pending with
  | nil => rfl
  | cons p ps ih =>
    have ih := ih fun k name raw hmem => hspells k name raw (List.mem_cons_of_mem _ hmem)
    cases p with
    | char c =>
      rw [pendingThrough, ih, written_char, waiting]
      by_cases hopen : c = '\x7b'
      · subst hopen
        have hafter : pendingAfter pending '\x7b' = 0 :: pending := rfl
        rw [hafter, unmet_open]
        cases unmet (written ps) with
        | zero => simp
        | succ n => rfl
      · by_cases hclose : c = '\x7d'
        · subst hclose
          have hafter : pendingAfter pending '\x7d' = pending.tail := rfl
          rw [hafter, unmet_close, List.drop_tail]
        · rw [pendingAfter_of_plain ⟨hopen, hclose⟩, unmet_other ⟨hopen, hclose⟩]
    | marker k name raw =>
      have hmarker := hspells k name raw List.mem_cons_self
      rw [pendingThrough, ih, written_marker, unmet_append_of_plain (plain_of_spells hmarker)]
      cases k with
      | jump => rfl
      | label =>
        show ((addLoop pending).drop _).sum + _ = _ + (waiting ps + _)
        rw [sum_drop_addLoop]
        omega

/-! ### Loops around a label -/

/-- The loop of the label marker `m'` is written **around** the label marker `m`: this one comes
later, and the block of the other reaches over it. -/
def Surrounds (t : Text) (m' m : Found Text) : Prop :=
  m'.start < m.start ∧ m.start < (around t m'.start).stop

instance (t : Text) (m' m : Found Text) : Decidable (Surrounds t m' m) :=
  inferInstanceAs (Decidable (_ ∧ _))

/-- The number of loops that are written around a label marker. -/
def loopsAround (t : Text) (m : Found Text) : Nat :=
  (Marker.labels t).countP fun m' => Surrounds t m' m

/-- The labels of some pieces before a marker whose loops are written around it.  The pieces `done`
come before them. -/
theorem countP_surrounds {ps : List Piece}
    (hspells : ∀ k name raw, .marker k name raw ∈ ps → k.form.Spells name raw) {a : Text}
    (ha : a ≠ []) (hplain : Plain a) (done : List Piece) {post t : Text}
    (ht : t = written (done ++ ps) ++ (a ++ post)) {m : Found Text}
    (hm : m.start = (written (done ++ ps)).length) :
    ((foundFrom .label (written done).length ps).countP fun m' => Surrounds t m' m) =
      waiting ps := by
  induction ps generalizing done with
  | nil => rfl
  | cons p ps ih =>
    have hsplit : done ++ p :: ps = (done ++ [p]) ++ ps := by simp
    have hlength : (written (done ++ [p])).length = (written done).length + p.text.length := by
      rw [written_append, List.length_append]
      exact congrArg _ (congrArg _ (List.append_nil _))
    have hnext := ih (fun k name raw hmem => hspells k name raw (List.mem_cons_of_mem _ hmem))
      (done ++ [p]) (by rw [ht, hsplit]) (by rw [hm, hsplit])
    rw [hlength] at hnext
    cases p with
    | char c => exact hnext
    | marker k name raw =>
      cases k with
      | jump => exact hnext
      | label =>
        have hmarker := hspells .label name raw List.mem_cons_self
        -- the loop of this label is around the marker exactly if it waits there
        have hsurrounds :
            Surrounds t ⟨(written done).length, raw.length, name⟩ m ↔ unmet (written ps) = 0 := by
          have hpos := List.length_pos_of_ne_nil hmarker.ne_nil
          rw [written_append, written_marker] at hm ht
          rw [Surrounds, hm, ht, List.append_assoc, List.append_assoc,
            lt_around_stop_iff hmarker.ne_nil (plain_of_spells hmarker) ha hplain]
          refine and_iff_right ?_
          show (written done).length < _
          rw [List.length_append, List.length_append]
          omega
        rw [foundFrom_marker, if_pos rfl, List.countP_cons, waiting, ← hnext]
        simp only [decide_eq_true_iff, hsurrounds]
        rfl

/-- **The loops around a label are those that wait at it.** -/
theorem loopsAround_eq {before after : List Piece} {name raw : Text}
    (hcut : Cut (before ++ .marker .label name raw :: after)) :
    loopsAround (written (before ++ .marker .label name raw :: after))
        ⟨(written before).length, raw.length, name⟩ = (pendingThrough [] before).sum := by
  have hspells := hcut.spells
  have hbefore : ∀ k name raw, .marker k name raw ∈ before → k.form.Spells name raw :=
    fun _ _ _ hmem => hcut.spells_of_mem (List.mem_append_left _ hmem)
  have hcount := @countP_surrounds before hbefore raw hspells.ne_nil (plain_of_spells hspells) []
    (written after) _ rfl ⟨(written before).length, raw.length, name⟩ rfl
  -- the marker and those after it have no loop around it
  have hlater : ((foundFrom .label (written before).length
      (.marker .label name raw :: after)).countP fun m' =>
        Surrounds (written before ++ (raw ++ written after)) m'
          ⟨(written before).length, raw.length, name⟩) = 0 := by
    rw [List.countP_eq_zero]
    intro m' hm' hsurrounds
    obtain ⟨_, _, _, _, -, rfl⟩ := exists_of_mem_foundFrom hm'
    have hlt := (of_decide_eq_true hsurrounds).1
    simp only at hlt
    omega
  rw [loopsAround, labels_written hcut, foundFrom_append, List.countP_append, Nat.zero_add,
    written_append, written_marker, hlater, sum_pendingThrough hbefore, List.drop_nil]
  exact hcount.trans (Nat.zero_add _).symm

/-! ### What the passes take for enclosed -/

/-- Where the braces of the text leave all pending loops open, they are closed at its end. -/
theorem written_closed_of_height {ps : List Piece} (h : Cut ps) {depth depth' : Nat}
    (hheight : height depth (written ps) = some depth') (pending : List Nat) :
    written (closed (List.replicate depth 0 ++ pending) ps) =
      written ps ++ List.replicate pending.sum '\x7d' := by
  induction h using Cut.induct generalizing depth with
  | nil =>
    rw [closed, written_chars, List.sum_append, List.sum_replicate_nat, Nat.mul_zero, Nat.zero_add]
    rfl
  | @char c ps _ _ ih =>
    rw [written_char] at hheight
    rw [closed, written_append, written_chars, written_char, written_char, List.cons_append]
    by_cases hopen : c = '\x7b'
    · subst hopen
      rw [height_open] at hheight
      rw [dueBefore_of_ne (by decide)]
      exact congrArg (List.cons _) (ih hheight)
    · by_cases hclose : c = '\x7d'
      · subst hclose
        cases depth with
        | zero => exact absurd hheight (by simp [height_close_zero])
        | succ depth =>
          rw [height_close_succ] at hheight
          exact congrArg (List.cons _) (ih hheight)
      · rw [height_other ⟨hopen, hclose⟩] at hheight
        rw [dueBefore_of_ne hclose, pendingAfter_of_plain ⟨hopen, hclose⟩]
        exact congrArg (List.cons _) (ih hheight)
  | @marker k name raw ps hspells _ ih =>
    rw [written_marker, height_append_of_plain (plain_of_spells hspells)] at hheight
    rw [closed, written_marker, written_marker, List.append_assoc, ih hheight]

/-- Closing braces alone are too many exactly if there are more than are open. -/
theorem height_replicate_eq_none_iff (depth n : Nat) :
    height depth (List.replicate n '\x7d') = none ↔ depth < n := by
  have hunmet : unmet (List.replicate n '\x7d') = n := by
    induction n with
    | zero => rfl
    | succ n ih => rw [List.replicate_succ, unmet_close, ih]
  rw [height_eq_none_iff, hunmet]

/-- **When a pass finds a closing brace**, among those of the text and those of loops that wait. -/
theorem height_closed_eq_none_iff {ps : List Piece} (h : Cut ps) (pending : List Nat) :
    height 0 (written (closed pending ps)) = none ↔
      ∀ depth ∈ height 0 (written ps), depth < pending.sum := by
  cases hheight : height 0 (written ps) with
  | none => exact iff_of_true (height_closed_eq_none h pending hheight) (by simp)
  | some depth =>
    have hclosed : written (closed pending ps) =
        written ps ++ List.replicate pending.sum '\x7d' :=
      written_closed_of_height h hheight pending
    rw [hclosed, height_append, hheight, Option.bind_some, height_replicate_eq_none_iff]
    simp

/-- **What is recorded of a label**: whether it is enclosed, once the loops around it are
written. -/
theorem enclosed_iff_of_recorded {ps : List Piece} (hcut : Cut ps) {l : Label} {m : Found Text}
    (h : Recorded ps l m) :
    l.pass.enclosed = true ↔
      EnclosedWithin (loopsAround (written ps) m) (written ps) m.start m.stop := by
  obtain ⟨before, name, raw, after, rfl, rfl, rfl⟩ := h
  have hspells := hcut.spells
  have hafter : Cut after := hcut.of_append_cons
  rw [loopsAround_eq hcut, written_append, written_marker]
  refine (enclosed_around_iff hspells.ne_nil (plain_of_spells hspells) _ _).trans ?_
  refine Iff.trans ?_ (enclosedWithin_append _ _ _ _).symm
  rw [level_swept_nil fun _ _ _ hmem => hcut.spells_of_mem (List.mem_append_left _ hmem),
    height_closed_eq_none_iff ((edit_lowerJumps after).cut hafter), height_lowerJumps hafter]

/-- Without loops around it, a label is taken for what it is. -/
theorem enclosedWithin_zero_of_mem {t : Text} {m : Found Text} (h : m ∈ Marker.labels t) :
    EnclosedWithin 0 t m.start m.stop ↔ Enclosed t m.start m.stop := by
  obtain ⟨ps, hcut, rfl⟩ := exists_cut t
  rw [labels_written hcut] at h
  obtain ⟨before, name, raw, after, rfl, rfl⟩ := exists_of_mem_foundFrom h
  rw [written_append, written_marker, Found.stop, Nat.zero_add]
  exact enclosedWithin_zero_iff (plain_of_spells hcut.spells) _ _

end LabelLoop.Lowering

namespace LabelLoop.Diagnostic

open Text

/-- The remark on a label marker without a block. -/
def onUnenclosed (m : Found Text) : Diagnostic where
  code := .unmatchedBlock
  message := "Label ".toList ++ quoted m.item ++
    " has no enclosing block; its loop closes at the end of the source".toList
  offset := some m.start
  label := some m.item

/-- Of all remarks, those on blocks are the ones that the check for blocks makes. -/
theorem filter_unmatchedBlock (placeholder source : Text) (lowered : Lowering.Lowered)
    (count : Nat) :
    (ofCollision placeholder source ++ ofLowered lowered ++ ofUnresolved count).filter
        (fun d => d.code = .unmatchedBlock) = ofUnenclosed lowered.labels := by
  have hcollision : (ofCollision placeholder source).filter (fun d => d.code = .unmatchedBlock) =
      [] := by
    rw [ofCollision]
    split <;> rfl
  have hunresolved : (ofUnresolved count).filter (fun d => d.code = .unmatchedBlock) = [] := by
    rw [ofUnresolved]
    split <;> rfl
  have hunenclosed : (ofUnenclosed lowered.labels).filter (fun d => d.code = .unmatchedBlock) =
      ofUnenclosed lowered.labels := by
    simp [ofUnenclosed, List.filter_map, Function.comp_def]
  simp only [List.filter_append, ofLowered, hcollision, hunresolved, hunenclosed]
  simp [ofDuplicates, ofUndeclared, List.filter_map, Function.comp_def]

/-- The remarks on blocks, from records that agree with markers. -/
theorem ofUnenclosed_eq {p : Found Text → Prop} [DecidablePred p] {ls : List Lowering.Label}
    {ms : List (Found Text)}
    (h : List.Forall₂ (fun l m => l.pass.name = m.item ∧ l.sourceOffset = m.start ∧
      (l.pass.enclosed = true ↔ p m)) ls ms) :
    ofUnenclosed ls = (ms.filter fun m => ¬p m).map onUnenclosed := by
  induction h with
  | nil => rfl
  | @cons l m ls ms hl _ ih =>
    obtain ⟨hname, hoffset, henclosed⟩ := hl
    rw [ofUnenclosed] at ih ⊢
    by_cases hm : p m
    · rw [List.filter_cons_of_neg (by simp [henclosed.mpr hm]),
        List.filter_cons_of_neg (by simp [hm]), ih]
    · have hpass : l.pass.enclosed = false := by
        rw [← Bool.not_eq_true, henclosed]
        exact hm
      rw [List.filter_cons_of_pos (by simp [hpass]), List.filter_cons_of_pos (by simp [hm]),
        List.map_cons, List.map_cons, ih, hname, hoffset]
      rfl

end LabelLoop.Diagnostic

namespace LabelLoop.Conversion

open Text Marker Lowering Literal Block

/-- Lowering a text leads to these remarks on blocks. -/
theorem exists_lower_unenclosed (t : Text) :
    ∃ lowered, lower Loop.header t = .ok lowered ∧
      Diagnostic.ofUnenclosed lowered.labels =
        ((Marker.labels t).filter fun m =>
          ¬EnclosedWithin (loopsAround t m) t m.start m.stop).map Diagnostic.onUnenclosed := by
  obtain ⟨ps, hcut, rfl⟩ := exists_cut t
  refine ⟨_, lower_written hcut, Diagnostic.ofUnenclosed_eq ?_⟩
  refine (forall₂_recorded hcut).imp fun l m h => ?_
  have henclosed := enclosed_iff_of_recorded hcut h
  obtain ⟨_, _, _, _, -, rfl, rfl⟩ := h
  exact ⟨rfl, rfl, henclosed⟩

/-- If less is left out by the one condition than by the other, then the same is kept only if the
two agree. -/
theorem map_filter_eq_iff {α β : Type} {p q : α → Prop} [DecidablePred p] [DecidablePred q]
    {l : List α} (f : α → β) (h : ∀ x ∈ l, p x → q x) :
    (l.filter fun x => ¬q x).map f = (l.filter fun x => ¬p x).map f ↔ ∀ x ∈ l, q x → p x := by
  have hfilter : (l.filter fun x => ¬q x) = (l.filter fun x => ¬p x).filter fun x => ¬q x := by
    rw [List.filter_filter]
    refine List.filter_congr fun x hx => ?_
    have hpq := h x hx
    simp only [decide_not]
    grind
  constructor
  · intro heq x hx hq
    have hlength := congrArg List.length heq
    rw [List.length_map, List.length_map, hfilter, List.length_filter_eq_length_iff] at hlength
    by_contra hp
    have hnot := hlength x (List.mem_filter.mpr ⟨hx, decide_eq_true hp⟩)
    exact of_decide_eq_true hnot hq
  · intro hqp
    congr 1
    refine List.filter_congr fun x hx => ?_
    rw [decide_eq_decide, not_iff_not]
    exact ⟨hqp x hx, h x hx⟩

/-- **The remarks on labels without a block.**  They are one for each label marker of the shielded
text that is not enclosed once the loops of earlier labels are written around it, in the order of
the markers, with the name and the place of the marker.  An enclosed label is never remarked, and
one that is not enclosed and has no loop around it always is.  So there is a remark on every label
that is not enclosed exactly if none of them becomes enclosed by the loops around it. -/
theorem unmatched_block_remarks (scan : Scanner) (placeholder source : Text) :
    ∃ t c, (shield scan placeholder source).text = t ∧
      convert { placeholder := placeholder, scan := scan } false source = .ok c ∧
      c.diagnostics.filter (fun d => d.code = .unmatchedBlock) =
        ((Marker.labels t).filter fun m =>
          ¬EnclosedWithin (loopsAround t m) t m.start m.stop).map Diagnostic.onUnenclosed ∧
      (∀ m ∈ Marker.labels t,
        (Enclosed t m.start m.stop → EnclosedWithin (loopsAround t m) t m.start m.stop) ∧
        (loopsAround t m = 0 → EnclosedWithin (loopsAround t m) t m.start m.stop →
          Enclosed t m.start m.stop)) ∧
      (c.diagnostics.filter (fun d => d.code = .unmatchedBlock) =
          ((Marker.labels t).filter fun m =>
            ¬Enclosed t m.start m.stop).map Diagnostic.onUnenclosed ↔
        ∀ m ∈ Marker.labels t, EnclosedWithin (loopsAround t m) t m.start m.stop →
          Enclosed t m.start m.stop) := by
  obtain ⟨lowered, hlower, hunenclosed⟩ :=
    exists_lower_unenclosed (shield scan placeholder source).text
  have hpermissive :=
    permissive_of_lower (o := { placeholder := placeholder, scan := scan }) hlower
  have hmono : ∀ m ∈ Marker.labels (shield scan placeholder source).text,
      Enclosed (shield scan placeholder source).text m.start m.stop →
        EnclosedWithin (loopsAround (shield scan placeholder source).text m)
          (shield scan placeholder source).text m.start m.stop := by
    intro m hm henclosed
    exact ((enclosedWithin_zero_of_mem hm).mpr henclosed).mono (Nat.zero_le _)
  refine ⟨_, _, rfl, convert_false_of_permissive hpermissive, ?_, fun m hm => ⟨hmono m hm, ?_⟩, ?_⟩
  · rw [Diagnostic.filter_unmatchedBlock, hunenclosed]
  · intro hzero hwithin
    rw [hzero] at hwithin
    exact (enclosedWithin_zero_of_mem hm).mp hwithin
  · rw [Diagnostic.filter_unmatchedBlock, hunenclosed]
    exact map_filter_eq_iff _ hmono

/-- Neither of two labels outside of all braces is enclosed, but the second stands in the loop of
the first and is not remarked. -/
theorem unmatched_block_remarks_skip_masked_label :
    (Marker.labels "[lbl] a: [lbl] b:".toList).map (fun m => (m.start, m.item)) =
        [(0, "a".toList), (9, "b".toList)] ∧
      (∀ m ∈ Marker.labels "[lbl] a: [lbl] b:".toList,
        ¬Enclosed "[lbl] a: [lbl] b:".toList m.start m.stop) ∧
      (shield byQuotes "_7".toList "[lbl] a: [lbl] b:".toList).text = "[lbl] a: [lbl] b:".toList ∧
      ∃ c, convert { placeholder := "_7".toList } false "[lbl] a: [lbl] b:".toList = .ok c ∧
        (c.diagnostics.filter fun d => d.code = .unmatchedBlock).map
            (fun d => (d.offset, d.label)) = [(some 0, some "a".toList)] := by
  refine ⟨by decide, by decide, by decide, _, rfl, ?_⟩
  decide +kernel

end LabelLoop.Conversion
