import LabelLoop.Proofs.Simultaneous
import Mathlib.Logic.Function.Iterate

/-!
# The scope of the loops

The loop of a label reaches exactly to the end of the block around its marker.  The braces of the
text keep their partners (`matched_placeOf`), and the brace that opens a loop is answered by one of
the braces written at the end of the block, so that between the two stands the image of the text
from the marker to there (`LoopScope`).

All of this comes from one count of braces (`height_swept`).  Over a stretch of the text in which no
brace closes more than the stretch has opened, the sweep writes as many opening braces as closing
ones, up to the loops that it leaves pending.
-/

namespace LabelLoop.Lowering

open Text Marker Block
open Division (patched)

/-! ### Loops pending at one brace -/

theorem headD_iterate_addLoop (n : Nat) (pending : List Nat) :
    (addLoop^[n] pending).headD 0 = pending.headD 0 + n := by
  induction n generalizing pending with
  | zero => rfl
  | succ n ih =>
    rw [Function.iterate_succ_apply, ih, headD_addLoop]
    omega

theorem sum_iterate_addLoop (n : Nat) (pending : List Nat) :
    (addLoop^[n] pending).sum = pending.sum + n := by
  induction n generalizing pending with
  | zero => rfl
  | succ n ih =>
    rw [Function.iterate_succ_apply, ih, sum_addLoop]
    omega

/-! ### Counting the braces that the sweep writes -/

/-- A header opens one brace. -/
theorem exists_header_eq {name : Text} (h : ∀ c ∈ name, isWord c = true) :
    ∃ front back, Loop.header name = front ++ '\x7b' :: back ∧ Plain front ∧ Plain back := by
  have hname : Plain name := plain_of_isWord h
  have hsentinel : Plain (Loop.sentinel name) :=
    plain_append (forall_mem_of_all (by decide +kernel)) hname
  have hopen : ")\x7b\n ".toList = [')'] ++ '\x7b' :: "\n ".toList := rfl
  refine ⟨"var ".toList ++ Loop.sentinel name ++ " = false;\n".toList ++ name ++
      ": while(!".toList ++ Loop.sentinel name ++ [')'],
    "\n ".toList ++ Loop.sentinel name ++ " = true;\n".toList, ?_, ?_, ?_⟩
  · unfold Loop.header
    simp only [hopen, List.append_assoc, List.cons_append]
  · refine plain_append (plain_append (plain_append (plain_append (plain_append (plain_append ?_
      hsentinel) ?_) hname) ?_) hsentinel) ?_
    all_goals exact forall_mem_of_all (by decide +kernel)
  · refine plain_append (plain_append ?_ hsentinel) ?_
    all_goals exact forall_mem_of_all (by decide +kernel)

theorem height_header_append {name : Text} (h : ∀ c ∈ name, isWord c = true) (depth : Nat)
    (b : Text) : height depth (Loop.header name ++ b) = height (depth + 1) b := by
  obtain ⟨front, back, heq, hfront, hback⟩ := exists_header_eq h
  rw [heq, List.append_assoc, height_append_of_plain hfront, List.cons_append, height_open,
    height_append_of_plain hback]

theorem height_replicate_append (depth n : Nat) (b : Text) :
    height (depth + n) (List.replicate n '\x7d' ++ b) = height depth b := by
  rw [height_append, height_replicate]
  rfl

/-- **Braces over a stretch of the sweep.**  If the pieces lead from `depth` open braces to
`depth'`, the sweep leads from these braces and the loops waiting at them to those after it.
Whatever was pending outside stays so, together with `n` labels that stand outside all braces of the
stretch. -/
theorem height_swept {ps : List Piece}
    (hspells : ∀ k name raw, .marker k name raw ∈ ps → k.form.Spells name raw) {depth depth' : Nat}
    (h : height depth (written ps) = some depth') {inner : List Nat} (hlen : inner.length = depth) :
    ∃ inner' n, inner'.length = depth' ∧ ∀ outer,
      pendingThrough (inner ++ outer) ps = inner' ++ addLoop^[n] outer ∧
      ∀ more, height (more + depth + inner.sum) (swept (inner ++ outer) ps) =
        some (more + depth' + inner'.sum + n) := by
  induction ps generalizing depth inner with
  | nil =>
    obtain rfl := Option.some.inj h
    exact ⟨inner, 0, hlen, fun outer => ⟨rfl, fun more => rfl⟩⟩
  | cons p ps ih =>
    have ih := @ih fun k name raw hmem => hspells k name raw (List.mem_cons_of_mem _ hmem)
    cases p with
    | char c =>
      rw [written_char] at h
      by_cases hopen : c = '\x7b'
      · subst hopen
        rw [height_open] at h
        obtain ⟨inner', n, hlen', hrest⟩ := @ih _ h (0 :: inner) (congrArg (· + 1) hlen)
        refine ⟨inner', n, hlen', fun outer => ⟨(hrest outer).1, fun more => ?_⟩⟩
        rw [swept, dueBefore_of_ne (by decide)]
        show height _ ('\x7b' :: swept (0 :: (inner ++ outer)) ps) = _
        rw [height_open, ← (hrest outer).2 more, List.sum_cons]
        congr 1
        omega
      · by_cases hclose : c = '\x7d'
        · subst hclose
          cases inner with
          | nil =>
            -- no brace is open, and one is closed
            rw [← hlen] at h
            exact absurd h (by simp [height_close_zero])
          | cons w inner =>
            subst hlen
            rw [List.length_cons, height_close_succ] at h
            obtain ⟨inner', n, hlen', hrest⟩ := ih h rfl
            refine ⟨inner', n, hlen', fun outer => ⟨(hrest outer).1, fun more => ?_⟩⟩
            rw [swept]
            show height _ (List.replicate w '\x7d' ++ '\x7d' :: swept (inner ++ outer) ps) = _
            have hmore : more + (w :: inner).length + (w :: inner).sum =
                more + inner.length + inner.sum + 1 + w := by
              rw [List.length_cons, List.sum_cons]
              omega
            rw [hmore, height_replicate_append, height_close_succ, (hrest outer).2 more]
        · rw [height_other ⟨hopen, hclose⟩] at h
          obtain ⟨inner', n, hlen', hrest⟩ := ih h hlen
          refine ⟨inner', n, hlen', fun outer => ?_⟩
          rw [pendingThrough, swept, pendingAfter_of_plain ⟨hopen, hclose⟩, dueBefore_of_ne hclose]
          refine ⟨(hrest outer).1, fun more => ?_⟩
          exact (height_other ⟨hopen, hclose⟩ _ _).trans ((hrest outer).2 more)
    | marker k name raw =>
      have hmarker := hspells k name raw List.mem_cons_self
      rw [written_marker, height_append_of_plain (plain_of_spells hmarker)] at h
      have hname := hmarker.isWord_name
      cases k with
      | jump =>
        obtain ⟨inner', n, hlen', hrest⟩ := ih h hlen
        refine ⟨inner', n, hlen', fun outer => ⟨(hrest outer).1, fun more => ?_⟩⟩
        rw [← (hrest outer).2 more]
        exact height_append_of_plain (plain_jump hname) _ _
      | label =>
        cases inner with
        | nil =>
          -- the label stands outside all braces of the stretch
          obtain ⟨inner', n, hlen', hrest⟩ := ih h hlen
          refine ⟨inner', n + 1, hlen', fun outer => ⟨(hrest (addLoop outer)).1, fun more => ?_⟩⟩
          have hmore : more + depth + ([] : List Nat).sum + 1 =
              more + 1 + depth + ([] : List Nat).sum := by omega
          show height _ (Loop.header name ++ swept (addLoop outer) ps) = _
          rw [height_header_append hname, hmore]
          refine ((hrest (addLoop outer)).2 (more + 1)).trans (congrArg some ?_)
          omega
        | cons w inner =>
          obtain ⟨inner', n, hlen', hrest⟩ := @ih _ h ((w + 1) :: inner) hlen
          refine ⟨inner', n, hlen', fun outer => ⟨(hrest outer).1, fun more => ?_⟩⟩
          rw [← (hrest outer).2 more, List.sum_cons, List.sum_cons]
          show height _ (Loop.header name ++ swept ((w + 1) :: (inner ++ outer)) ps) = _
          rw [height_header_append hname]
          congr 1
          omega

/-- Over a balanced stretch, the loops of its outermost labels are all that is left open. -/
theorem height_swept_of_balanced {ps : List Piece}
    (hspells : ∀ k name raw, .marker k name raw ∈ ps → k.form.Spells name raw)
    (h : BracesBalanced (written ps)) :
    ∃ n, ∀ pending, pendingThrough pending ps = addLoop^[n] pending ∧
      height 0 (swept pending ps) = some n := by
  obtain ⟨inner', n, hlen, hrest⟩ := height_swept hspells h List.length_nil
  obtain rfl := List.eq_nil_of_length_eq_zero hlen
  refine ⟨n, fun pending => ⟨(hrest pending).1, ?_⟩⟩
  have hheight := (hrest pending).2 0
  rwa [Nat.zero_add, List.sum_nil, Nat.zero_add] at hheight

/-! ### Images -/

/-- The patches of all markers of a text. -/
def patches (t : Text) : List (Found Text) :=
  (Marker.labels t).map (patch Loop.header) ++ (search Marker.jump.read? t).map (patch Loop.jump)

/-- **The image** of a stretch of `t`: what is written for its places. -/
def image (t : Text) (start stop : Nat) : Text :=
  (List.range' start (stop - start)).flatMap (chunk (patches t) t)

/-- Where a character of `t` that belongs to no marker is written. -/
def placeOf (t : Text) (place : Nat) : Nat :=
  (image t 0 place).length + closers t place

theorem image_append {a b c : Nat} (hab : a ≤ b) (hbc : b ≤ c) (t : Text) :
    image t a b ++ image t b c = image t a c := by
  have hrange : List.range' a (c - a) = List.range' a (b - a) ++ List.range' b (c - b) := by
    have hsplit := List.range'_append_1 (s := a) (m := b - a) (n := c - b)
    rw [Nat.add_sub_cancel' hab] at hsplit
    rw [hsplit]
    congr 1
    omega
  rw [image, image, image, hrange, List.flatMap_append]

theorem image_succ (t : Text) (place : Nat) :
    image t place (place + 1) = chunk (patches t) t place := by
  rw [image, Nat.add_sub_cancel_left]
  exact List.append_nil _

theorem patches_written {ps : List Piece} (h : Cut ps) :
    patches (written ps) = patchesFrom 0 ps := by
  rw [patches, patchesFrom, labels_written h]
  exact congrArg (_ ++ List.map _ ·) (search_written h .jump)

/-- The stretch of a text that some of its pieces write. -/
theorem slice_written (as bs cs : List Piece) :
    slice (written (as ++ (bs ++ cs))) (written as).length (written (as ++ bs)).length =
      written bs := by
  rw [← List.append_assoc, written_append (as ++ bs), slice, List.take_left, written_append,
    List.drop_left]

/-- The image of pieces is what the sweep writes for them. -/
theorem image_written {as bs cs : List Piece} (h : Cut (as ++ (bs ++ cs))) :
    image (written (as ++ (bs ++ cs))) (written as).length (written (as ++ bs)).length =
      swept (pendingThrough [] as) bs := by
  have hlength : (written (as ++ bs)).length - (written as).length = (written bs).length := by
    rw [written_append, List.length_append]
    omega
  rw [image, hlength, patches_written h, flatMap_chunk h]

/-! ### Braces keep their partners -/

/-- A brace of a text is a piece of its own. -/
theorem exists_split_of_brace {ps : List Piece}
    (hspells : ∀ k name raw, .marker k name raw ∈ ps → k.form.Spells name raw) {c : Char}
    (hc : ¬(c ≠ '\x7b' ∧ c ≠ '\x7d')) {a b : Text} (h : written ps = a ++ c :: b) :
    ∃ as bs, ps = as ++ .char c :: bs ∧ written as = a ∧ written bs = b := by
  induction ps generalizing a with
  | nil => exact absurd h.symm (by simp)
  | cons p ps ih =>
    have ih := @ih fun k name raw hmem => hspells k name raw (List.mem_cons_of_mem _ hmem)
    cases p with
    | char x =>
      rw [written_char] at h
      cases a with
      | nil =>
        obtain ⟨rfl, hb⟩ := List.cons.inj h
        exact ⟨[], ps, rfl, rfl, hb⟩
      | cons y a =>
        obtain ⟨rfl, htail⟩ := List.cons.inj h
        obtain ⟨as, bs, rfl, rfl, hbs⟩ := ih htail
        exact ⟨.char x :: as, bs, rfl, rfl, hbs⟩
    | marker k name raw =>
      have hplain : Plain raw := plain_of_spells (hspells k name raw List.mem_cons_self)
      rw [written_marker] at h
      -- the brace does not stand in the marker
      obtain ⟨d, rfl, hd⟩ := exists_of_append_eq_append_cons (fun hmem => hc (hplain c hmem)) h
      obtain ⟨as, bs, rfl, rfl, hbs⟩ := ih hd
      exact ⟨.marker k name raw :: as, bs, rfl, rfl, hbs⟩

theorem placeOf_written {as bs : List Piece} {c : Char} (h : Cut (as ++ .char c :: bs)) :
    placeOf (written (as ++ .char c :: bs)) (written as).length =
      (swept [] as).length + dueBefore (pendingThrough [] as) c := by
  have himage : image (written (as ++ .char c :: bs)) 0 (written as).length = swept [] as :=
    @image_written [] as _ h
  rw [placeOf, himage, closers_written h (Nat.le_refl _), dueFrom_char]

/-- **Braces matched by nesting stay matched.** -/
theorem matched_placeOf {ps : List Piece} (hcut : Cut ps) {i j : Nat}
    (h : Matched (written ps) i j) :
    Matched (sweep [] ps) (placeOf (written ps) i) (placeOf (written ps) j) := by
  obtain ⟨a, b, c, heq, hbalanced, rfl, rfl⟩ := matched_iff.mp h
  obtain ⟨as, rest, rfl, rfl, hrest⟩ :=
    exists_split_of_brace (fun _ _ _ => hcut.spells_of_mem) (by decide) heq
  obtain ⟨bs, cs, rfl, rfl, rfl⟩ := exists_split_of_brace
    (fun _ _ _ hmem => hcut.spells_of_mem (by simp [hmem])) (by decide) hrest
  obtain ⟨n, hbs⟩ := height_swept_of_balanced
    (fun _ _ _ hmem => hcut.spells_of_mem (by simp [hmem])) hbalanced
  obtain ⟨hpending, hheight⟩ := hbs (0 :: pendingThrough [] as)
  -- what is pending at the closing brace are the loops of the labels between the two
  have hdue : dueBefore (addLoop^[n] (0 :: pendingThrough [] as)) '\x7d' = n := by
    show (addLoop^[n] (0 :: pendingThrough [] as)).headD 0 = n
    rw [headD_iterate_addLoop]
    exact Nat.zero_add n
  have hsweep : sweep [] (as ++ .char '\x7b' :: (bs ++ .char '\x7d' :: cs)) =
      swept [] as ++ '\x7b' :: ((swept (0 :: pendingThrough [] as) bs ++ List.replicate n '\x7d') ++
        '\x7d' :: sweep (addLoop^[n] (0 :: pendingThrough [] as)).tail cs) := by
    rw [sweep_append]
    show _ ++ '\x7b' :: sweep (0 :: pendingThrough [] as) (bs ++ .char '\x7d' :: cs) = _
    rw [sweep_append, hpending, sweep, hdue, List.append_assoc]
    rfl
  have hopen : placeOf (written (as ++ .char '\x7b' :: (bs ++ .char '\x7d' :: cs)))
      (written as).length = (swept [] as).length :=
    placeOf_written hcut
  have hclose : placeOf (written (as ++ .char '\x7b' :: (bs ++ .char '\x7d' :: cs)))
      ((written as).length + 1 + (written bs).length) =
      (swept [] as).length + 1 + (swept (0 :: pendingThrough [] as) bs ++
        List.replicate n '\x7d').length := by
    have hassoc : as ++ .char '\x7b' :: (bs ++ .char '\x7d' :: cs) =
        (as ++ .char '\x7b' :: bs) ++ .char '\x7d' :: cs := by rw [List.append_assoc]; rfl
    have hlength : (written as).length + 1 + (written bs).length =
        (written (as ++ .char '\x7b' :: bs)).length := by
      rw [written_append, written_char, List.length_append, List.length_cons]
      omega
    have hpast : pendingThrough (pendingThrough [] as) (.char '\x7b' :: bs) =
        addLoop^[n] (0 :: pendingThrough [] as) := hpending
    have hswept : swept (pendingThrough [] as) (.char '\x7b' :: bs) =
        '\x7b' :: swept (0 :: pendingThrough [] as) bs := rfl
    rw [hassoc] at hcut ⊢
    rw [hlength, placeOf_written hcut, pendingThrough_append, swept_append, hpast, hdue, hswept,
      List.length_append, List.length_cons, List.length_append, List.length_replicate]
    omega
  rw [hsweep, hopen, hclose, matched_iff]
  refine ⟨_, _, _, rfl, ?_, rfl, rfl⟩
  have := height_replicate 0 n
  rw [Nat.zero_add] at this
  rw [BracesBalanced, height_append, hheight]
  exact this

/-- **A balanced text stays balanced.** -/
theorem balanced_sweep {ps : List Piece} (hcut : Cut ps) (h : BracesBalanced (written ps)) :
    BracesBalanced (sweep [] ps) := by
  obtain ⟨n, hps⟩ := height_swept_of_balanced (fun _ _ _ => hcut.spells_of_mem) h
  obtain ⟨hpending, hheight⟩ := hps []
  have hsweep := sweep_append [] ps []
  have hsum : (addLoop^[n] []).sum = n := by
    rw [sum_iterate_addLoop]
    exact Nat.zero_add n
  rw [List.append_nil, hpending, sweep, hsum] at hsweep
  have hcloses := height_replicate 0 n
  rw [Nat.zero_add] at hcloses
  rw [hsweep, BracesBalanced, height_append, hheight]
  exact hcloses

/-! ### The stretch from a label to the end of its block -/

/-- How many label markers after `m` have a block that ends where the block around `m` does. -/
def later (t : Text) (m : Found Text) : Nat :=
  (((Marker.labels t).filter (m.start < ·.start)).map (blockEnd t)).count (blockEnd t m)

/-- **The scope of the loop** of a label marker: the header is cut at its only brace into `front`
and `back`. -/
structure LoopScope (t code : Text) (m : Found Text) (front back : Text) : Prop where
  header : Loop.header m.item = front ++ '\x7b' :: back
  plain : Plain front ∧ Plain back
  /-- Before the loop stands the image of what is before the marker.  In it stands the image of what
  is between the marker and the end of its block, and then the closing braces of later loops of the
  block. -/
  code_eq : code = (image t 0 m.start ++ front) ++ '\x7b' ::
    ((back ++ image t m.stop (blockEnd t m) ++ List.replicate (later t m) '\x7d') ++ '\x7d' ::
      (List.replicate (closers t (blockEnd t m) - later t m - 1) '\x7d' ++
        patched (patches t) t (blockEnd t m) ++ image t (blockEnd t m + 1) (t.length + 1)))
  /-- The closing brace is one of those written at the end of the block. -/
  later_lt : later t m < closers t (blockEnd t m)
  /-- It answers the brace of the header. -/
  matched : Matched code (image t 0 m.start ++ front).length
    ((image t 0 m.start ++ front).length + 1 +
      (back ++ image t m.stop (blockEnd t m) ++ List.replicate (later t m) '\x7d').length)
  /-- A jump marker inside is lowered inside. -/
  jumps : ∀ g ∈ search Marker.jump.read? t, m.stop ≤ g.start → g.start < blockEnd t m →
    image t m.stop (blockEnd t m) =
      image t m.stop g.start ++ (Loop.jump g.item ++ image t g.stop (blockEnd t m))

/-- The image of a marker is what it is lowered to. -/
theorem image_marker {before after : List Piece} {k : Kind} {name raw : Text}
    (h : Cut (before ++ .marker k name raw :: after)) :
    image (written (before ++ .marker k name raw :: after)) (written before).length
      ((written before).length + raw.length) = k.lowered name := by
  have himage := @image_written before [.marker k name raw] after h
  have hlength : (written (before ++ [.marker k name raw])).length =
      (written before).length + raw.length := by
    rw [written_append, List.length_append, written_marker, written_nil, List.append_nil]
  rw [hlength, swept, swept, List.append_nil] at himage
  exact himage

/-- The label markers after a given one. -/
theorem filter_labels {before after : List Piece} {name raw : Text}
    (h : Cut (before ++ .marker .label name raw :: after)) :
    (Marker.labels (written (before ++ .marker .label name raw :: after))).filter
        ((written before).length < ·.start) =
      foundFrom .label ((written before).length + raw.length) after := by
  have hraw := List.length_pos_of_ne_nil h.spells.ne_nil
  have hbefore : (foundFrom .label 0 before).filter ((written before).length < ·.start) = [] := by
    refine List.filter_eq_nil_iff.mpr fun m hm => ?_
    obtain ⟨front, _, _, _, rfl, rfl⟩ := exists_of_mem_foundFrom hm
    rw [written_append, List.length_append, decide_eq_true_eq]
    dsimp only
    omega
  have hafter : (foundFrom .label ((written before).length + raw.length) after).filter
      ((written before).length < ·.start) =
      foundFrom .label ((written before).length + raw.length) after := by
    refine List.filter_eq_self.mpr fun m hm => ?_
    obtain ⟨front, _, _, _, rfl, rfl⟩ := exists_of_mem_foundFrom hm
    rw [decide_eq_true_eq]
    dsimp only
    omega
  rw [labels_written h, foundFrom_append, List.filter_append, hbefore, List.nil_append,
    Nat.zero_add, foundFrom_marker, if_pos rfl, List.filter_cons_of_neg (by simp), hafter]

/-- The pieces up to the place where the scan over them stops. -/
theorem exists_split_closeAt {ps : List Piece}
    (hspells : ∀ k name raw, .marker k name raw ∈ ps → k.form.Spells name raw) :
    ∃ as bs, ps = as ++ bs ∧ (written as).length = closeAt 0 (written ps) ∧
      (bs = [] ∨ ∃ cs, bs = .char '\x7d' :: cs) := by
  obtain ⟨-, hbrace | hend⟩ := closeAt_spec 0 (written ps)
  · obtain ⟨hlt, hbrace⟩ := List.getElem?_eq_some_iff.mp hbrace
    have hsplit : written ps = (written ps).take (closeAt 0 (written ps)) ++
        '\x7d' :: (written ps).drop (closeAt 0 (written ps) + 1) := by
      rw [← hbrace, List.getElem_cons_drop, List.take_append_drop]
    obtain ⟨as, bs, hps, has, -⟩ := exists_split_of_brace hspells (by decide) hsplit
    refine ⟨as, _, hps, ?_, Or.inr ⟨bs, rfl⟩⟩
    rw [has, List.length_take]
    omega
  · exact ⟨ps, [], (List.append_nil ps).symm, hend.symm, Or.inl rfl⟩

/-- Where a block ends, one closing brace is due for every loop left pending by its outermost
labels. -/
theorem count_ends_of_pendingThrough {as bs : List Piece} (hcut : Cut (as ++ bs)) {n : Nat}
    (hpending : pendingThrough [] as = addLoop^[n] [])
    (hbs : bs = [] ∨ ∃ cs, bs = .char '\x7d' :: cs) (offset : Nat) :
    (ends offset (as ++ bs)).count (offset + (written as).length) = n := by
  have hdue := dueFrom_append hcut (Nat.le_refl (offset + (written as).length)) []
  rw [hpending, dueFrom, dueAt, Nat.zero_add] at hdue
  rw [hdue]
  rcases hbs with rfl | ⟨cs, rfl⟩
  · rw [dueFrom_nil, sum_iterate_addLoop]
    exact Nat.zero_add n
  · rw [dueFrom_char]
    show (addLoop^[n] []).headD 0 = n
    rw [headD_iterate_addLoop]
    exact Nat.zero_add n

/-- No marker reaches over the end of a block. -/
theorem stop_le_blockEnd {k : Kind} {before after : List Piece} {name raw : Text}
    (hspells : k.form.Spells name raw) {e : Nat}
    (he : (written (before ++ .marker k name raw :: after))[e]? = some '\x7d' ∨
      e = (written (before ++ .marker k name raw :: after)).length)
    (hlt : (written before).length < e) : (written before).length + raw.length ≤ e := by
  rw [written_append, written_marker] at he
  by_contra hinside
  push Not at hinside
  rcases he with he | he
  · -- there would be a brace in the marker
    rw [List.getElem?_append_right (Nat.le_of_lt hlt), List.getElem?_append_left (by omega)] at he
    exact (plain_of_spells hspells _ (List.mem_of_getElem? he)).2 rfl
  · rw [List.length_append, List.length_append] at he
    omega

/-- The sweep writes the image of the whole text. -/
theorem sweep_eq_image {ps : List Piece} (h : Cut ps) :
    sweep [] ps = image (written ps) 0 ((written ps).length + 1) := by
  rw [← edited_written h, edited, image, patches_written h, List.range_eq_range', Nat.sub_zero]

section Label

variable {before after : List Piece} {name raw t : Text} {m : Found Text}

theorem blockEnd_eq_of_label (h : Cut (before ++ .marker .label name raw :: after))
    (ht : written (before ++ .marker .label name raw :: after) = t)
    (hm : ⟨(written before).length, raw.length, name⟩ = m) :
    blockEnd t m = m.stop + closeAt 0 (written after) := by
  subst ht hm
  rw [written_append, written_marker]
  exact around_stop_of_plain h.spells.ne_nil (plain_of_spells h.spells) _

/-- The loop of a label is closed after those of later labels of its block. -/
theorem later_lt_closers (h : Cut (before ++ .marker .label name raw :: after))
    (ht : written (before ++ .marker .label name raw :: after) = t)
    (hm : ⟨(written before).length, raw.length, name⟩ = m) :
    later t m < closers t (blockEnd t m) := by
  subst ht hm
  rw [later, filter_labels h, closers, labels_written h, foundFrom_append, Nat.zero_add,
    foundFrom_marker, if_pos rfl, List.map_append, List.count_append, List.map_cons,
    List.count_cons_self]
  omega

/-- What the loop of a label holds is balanced once the later loops of its block are closed. -/
theorem balanced_image (h : Cut (before ++ .marker .label name raw :: after))
    (ht : written (before ++ .marker .label name raw :: after) = t)
    (hm : ⟨(written before).length, raw.length, name⟩ = m)
    (hbalanced : BracesBalanced (slice t m.stop (blockEnd t m))) :
    BracesBalanced (image t m.stop (blockEnd t m) ++ List.replicate (later t m) '\x7d') := by
  have hend := blockEnd_eq_of_label h ht hm
  have hassoc : before ++ .marker .label name raw :: after =
      (before ++ [.marker .label name raw]) ++ after := by simp
  have hstop : (written (before ++ [.marker .label name raw])).length = m.stop := by
    rw [written_append, List.length_append, written_marker, written_nil, List.append_nil, ← hm,
      Found.stop]
  have hafter : Cut after := by
    rw [hassoc] at h
    exact h.of_append
  obtain ⟨as, bs, rfl, hlength, hbs⟩ :=
    exists_split_closeAt fun _ _ _ => hafter.spells_of_mem
  have hreach : (written ((before ++ [.marker .label name raw]) ++ as)).length =
      blockEnd t m := by
    rw [written_append, List.length_append, hstop, hlength, hend]
  -- the stretch is that of the pieces `as`
  have hslice : slice t m.stop (blockEnd t m) = written as := by
    rw [← hreach, ← hstop, ← ht, hassoc]
    exact slice_written _ _ _
  rw [hslice] at hbalanced
  obtain ⟨n, has⟩ := height_swept_of_balanced
    (fun _ _ _ hmem => hafter.spells_of_mem (List.mem_append_left _ hmem)) hbalanced
  have himage : image t m.stop (blockEnd t m) =
      swept (pendingThrough [] (before ++ [.marker .label name raw])) as := by
    rw [← hreach, ← hstop, ← ht, hassoc]
    exact image_written (by rwa [← hassoc])
  have hlater : later t m = n := by
    have hends := map_blockEnd_foundFrom hafter (written (before ++ [.marker .label name raw]))
    rw [← written_append, ← hassoc, ht, hstop] at hends
    have hfilter := filter_labels h
    rw [ht, show (written before).length + raw.length = m.stop by rw [← hm, Found.stop],
      show (written before).length = m.start by rw [← hm]] at hfilter
    rw [later, hfilter, hends, hend, ← hlength]
    exact count_ends_of_pendingThrough hafter (has []).1 hbs _
  have hcloses := height_replicate 0 n
  rw [Nat.zero_add] at hcloses
  rw [himage, hlater, BracesBalanced, height_append, (has _).2]
  exact hcloses

/-- The whole output, cut at a label and at the end of its block. -/
theorem sweep_eq_of_label (h : Cut (before ++ .marker .label name raw :: after))
    (ht : written (before ++ .marker .label name raw :: after) = t)
    (hm : ⟨(written before).length, raw.length, name⟩ = m) {e : Nat}
    (hle : m.stop ≤ e) (hlen : e ≤ t.length) :
    sweep [] (before ++ .marker .label name raw :: after) =
      image t 0 m.start ++ (Loop.header m.item ++ (image t m.stop e ++
        (List.replicate (closers t e) '\x7d' ++
          (patched (patches t) t e ++ image t (e + 1) (t.length + 1))))) := by
  have hheader : image t m.start m.stop = Loop.header m.item := by
    rw [← ht, ← hm]
    exact image_marker h
  have hchunk := image_succ t e
  rw [chunk] at hchunk
  have hstart : m.start ≤ m.stop := Nat.le_add_right _ _
  rw [sweep_eq_image h, ht, ← List.append_assoc (List.replicate _ _), ← hchunk,
    image_append (by omega) (by omega), image_append hle (by omega), ← hheader,
    image_append hstart (by omega), image_append (by omega) (by omega)]

end Label

/-- The image of a jump marker stands in the image of every stretch around it that ends with a
block. -/
theorem image_jump {ps : List Piece} (hcut : Cut ps) {g : Found Text}
    (hg : g ∈ search Marker.jump.read? (written ps)) {a e : Nat}
    (he : (written ps)[e]? = some '\x7d' ∨ e = (written ps).length) (ha : a ≤ g.start)
    (hlt : g.start < e) :
    image (written ps) a e =
      image (written ps) a g.start ++ (Loop.jump g.item ++ image (written ps) g.stop e) := by
  have hfound : search Marker.jump.read? (written ps) = foundFrom .jump 0 ps :=
    search_written hcut .jump
  rw [hfound] at hg
  obtain ⟨before, name, raw, after, rfl, rfl⟩ := exists_of_mem_foundFrom hg
  have hjump := image_marker hcut
  dsimp only [Found.stop] at *
  rw [Nat.zero_add] at *
  have hstop := stop_le_blockEnd hcut.spells he hlt
  rw [← show _ = Loop.jump name from hjump, image_append (by omega) hstop,
    image_append ha (by omega)]

/-- Among closing braces in a row, any can be singled out. -/
theorem replicate_eq_of_lt {n k : Nat} (h : k < n) :
    List.replicate n '\x7d' =
      List.replicate k '\x7d' ++ '\x7d' :: List.replicate (n - k - 1) '\x7d' := by
  rw [← List.replicate_succ, List.replicate_append_replicate]
  congr 1
  omega

/-- **The loop of a label has the scope of its block**, if the rest of the block is balanced. -/
theorem exists_loopScope {ps : List Piece} (hcut : Cut ps) {m : Found Text}
    (hm : m ∈ Marker.labels (written ps))
    (hbalanced : BracesBalanced (slice (written ps) m.stop (blockEnd (written ps) m))) :
    ∃ front back, LoopScope (written ps) (sweep [] ps) m front back := by
  have hbrace := getElem?_blockEnd hm
  rw [labels_written hcut] at hm
  obtain ⟨before, name, raw, after, rfl, hfound⟩ := exists_of_mem_foundFrom hm
  rw [Nat.zero_add] at hfound
  have hword := hcut.spells.isWord_name
  rw [show name = m.item by rw [hfound]] at hword
  obtain ⟨front, back, heq, hfront, hback⟩ := exists_header_eq hword
  have hlater := later_lt_closers hcut rfl hfound.symm
  have hbody := balanced_image hcut rfl hfound.symm hbalanced
  have hend := blockEnd_eq_of_label hcut rfl hfound.symm
  have hcode := sweep_eq_of_label hcut rfl hfound.symm
    ((Nat.le_add_right _ _).trans hend.ge) (around_stop_le _ _)
  -- the first of the braces at the end of the block close later loops, and the next this one
  have hassoc : ∀ a front back body r s p z : Text,
      a ++ ((front ++ '\x7b' :: back) ++ (body ++ ((r ++ '\x7d' :: s) ++ (p ++ z)))) =
        (a ++ front) ++ '\x7b' :: ((back ++ body ++ r) ++ '\x7d' :: (s ++ p ++ z)) := by
    intros
    simp only [List.append_assoc, List.cons_append]
  rw [heq, replicate_eq_of_lt hlater, hassoc] at hcode
  refine ⟨front, back, heq, ⟨hfront, hback⟩, hcode, hlater,
    matched_iff.mpr ⟨_, _, _, hcode, ?_, rfl, rfl⟩,
    fun g hg hle hlt => image_jump hcut hg hbrace hle hlt⟩
  rw [List.append_assoc, BracesBalanced, height_append_of_plain hback]
  exact hbody

/-- **The loops have exactly the scope of the blocks of their labels.**  For every text, braces
matched by nesting stay matched, the loop of every label whose block is balanced from the label on
holds the image of just that part of the block, and a balanced text stays balanced. -/
theorem loops_have_block_scope (t : Text) :
    ∃ lowered, lower Loop.header t = .ok lowered ∧
      lowered.code = image t 0 (t.length + 1) ∧
      (∀ i j, Matched t i j → Matched lowered.code (placeOf t i) (placeOf t j)) ∧
      (∀ m ∈ Marker.labels t, BracesBalanced (slice t m.stop (blockEnd t m)) →
        ∃ front back, LoopScope t lowered.code m front back) ∧
      (BracesBalanced t → BracesBalanced lowered.code) := by
  obtain ⟨ps, hcut, rfl⟩ := exists_cut t
  exact ⟨_, lower_written hcut, sweep_eq_image hcut, fun i j => matched_placeOf hcut,
    fun m => exists_loopScope hcut, balanced_sweep hcut⟩

end LabelLoop.Lowering
