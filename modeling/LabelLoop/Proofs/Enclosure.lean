import LabelLoop.Proofs.Scopes
import Mathlib.Data.List.Induction

/-!
# Labels without an enclosing block

A pass notes whether its marker lies between two braces, and looks for them in a text to which
earlier passes have added braces.  In the text as it was, a stretch is `Enclosed` if braces matched
by nesting stand on both sides of it.  The passes never take an enclosed marker for one that is not
(`enclosed_of_recorded`), and they can only be wrong about a marker that is not enclosed if an
earlier one is not (`exists_unenclosed_before`).

Both come from two counts.  `level` is the number of braces open after a text, where a closing brace
that answers none is passed over: an opening brace is found on the way back exactly if it is not
zero.  `height` fails on the way forward exactly if a closing brace is found.
-/

namespace LabelLoop.Block

open Text

/-- A stretch of a text is **enclosed**: it stands between braces that are matched by nesting. -/
def Enclosed (t : Text) (start stop : Nat) : Prop :=
  ∃ i j, Matched t i j ∧ i < start ∧ stop ≤ j

instance (t : Text) (start stop : Nat) : Decidable (Enclosed t start stop) :=
  decidable_of_iff (∃ i, i < start ∧ ∃ j, j < t.length ∧ Matched t i j ∧ stop ≤ j) <| by
    constructor
    · rintro ⟨i, hi, j, -, hmatched, hj⟩
      exact ⟨i, j, hmatched, hi, hj⟩
    · rintro ⟨i, j, hmatched, hi, hj⟩
      obtain ⟨hlt, -⟩ := List.getElem?_eq_some_iff.mp hmatched.2.1
      exact ⟨i, hi, j, hlt, hmatched, hj⟩

/-! ### Open braces -/

/-- The number of braces open after `t`, if `depth` are open before it.  A closing brace that finds
none open is passed over. -/
def level (depth : Nat) : Text → Nat
  | [] => depth
  | c :: cs =>
    if c = '\x7b' then level (depth + 1) cs
    else if c = '\x7d' then level (depth - 1) cs
    else level depth cs

@[simp] theorem level_nil (depth : Nat) : level depth [] = depth := rfl

theorem level_open (depth : Nat) (t : Text) : level depth ('\x7b' :: t) = level (depth + 1) t :=
  rfl

theorem level_close (depth : Nat) (t : Text) : level depth ('\x7d' :: t) = level (depth - 1) t :=
  rfl

theorem level_other {c : Char} (h : c ≠ '\x7b' ∧ c ≠ '\x7d') (depth : Nat) (t : Text) :
    level depth (c :: t) = level depth t := by
  rw [level, if_neg h.1, if_neg h.2]

theorem level_append (depth : Nat) (a b : Text) :
    level depth (a ++ b) = level (level depth a) b := by
  induction a generalizing depth with
  | nil => rfl
  | cons c a ih =>
    rw [List.cons_append, level, level]
    split
    · exact ih _
    · split
      · exact ih _
      · exact ih _

theorem level_append_of_plain {a : Text} (h : Plain a) (depth : Nat) (b : Text) :
    level depth (a ++ b) = level depth b := by
  induction a with
  | nil => rfl
  | cons c a ih =>
    rw [List.cons_append, level_other (h c List.mem_cons_self)]
    exact ih fun x hx => h x (List.mem_cons_of_mem _ hx)

theorem level_replicate_append (depth n : Nat) (b : Text) :
    level depth (List.replicate n '\x7d' ++ b) = level (depth - n) b := by
  induction n generalizing depth with
  | zero => rfl
  | succ n ih =>
    rw [List.replicate_succ, List.cons_append, level_close, ih]
    congr 1
    omega

/-- More braces that are open before a text stay open. -/
theorem height_add {depth depth' : Nat} {t : Text} (h : height depth t = some depth') (more : Nat) :
    height (depth + more) t = some (depth' + more) := by
  induction t generalizing depth with
  | nil =>
    obtain rfl := Option.some.inj h
    rfl
  | cons c t ih =>
    by_cases hopen : c = '\x7b'
    · subst hopen
      rw [height_open] at h ⊢
      rw [Nat.add_right_comm]
      exact ih h
    · by_cases hclose : c = '\x7d'
      · subst hclose
        cases depth with
        | zero => exact absurd h (by simp [height_close_zero])
        | succ depth =>
          rw [height_close_succ] at h
          rw [Nat.add_right_comm, height_close_succ]
          exact ih h
      · rw [height_other ⟨hopen, hclose⟩] at h ⊢
        exact ih h

/-- What fails with some braces open fails with none. -/
theorem height_eq_none_of_zero {depth : Nat} {t : Text} (h : height depth t = none) :
    height 0 t = none := by
  cases hzero : height 0 t with
  | none => rfl
  | some depth' =>
    have hadd := height_add hzero depth
    rw [Nat.zero_add, h] at hadd
    exact absurd hadd (by simp)

/-- Where no closing brace is passed over, the two counts agree. -/
theorem level_of_height {depth depth' : Nat} {t : Text} (h : height depth t = some depth') :
    level depth t = depth' := by
  induction t generalizing depth with
  | nil => exact Option.some.inj h
  | cons c t ih =>
    by_cases hopen : c = '\x7b'
    · subst hopen
      rw [height_open] at h
      exact ih h
    · by_cases hclose : c = '\x7d'
      · subst hclose
        cases depth with
        | zero => exact absurd h (by simp [height_close_zero])
        | succ depth =>
          rw [height_close_succ] at h
          exact ih h
      · rw [height_other ⟨hopen, hclose⟩] at h
        rw [level_other ⟨hopen, hclose⟩]
        exact ih h

/-! ### What the two scans find -/

/-- The scan backwards finds an opening brace exactly if enough braces are open. -/
theorem isSome_unanswered?_reverse (depth : Nat) (t : Text) :
    (unanswered? '\x7d' '\x7b' depth t.reverse).isSome = true ↔ depth < level 0 t := by
  induction t using List.reverseRecOn generalizing depth with
  | nil => simp [unanswered?]
  | append_singleton t c ih =>
    rw [List.reverse_append, List.reverse_singleton, List.singleton_append, level_append]
    by_cases hopen : c = '\x7b'
    · subst hopen
      rw [level_open, level_nil]
      cases depth with
      | zero => simp [unanswered?]
      | succ depth =>
        rw [unanswered?, if_neg (by decide), if_pos rfl, ih]
        omega
    · by_cases hclose : c = '\x7d'
      · subst hclose
        rw [level_close, level_nil, unanswered?.eq_def]
        simp only [if_true]
        rw [ih]
        omega
      · rw [level_other ⟨hopen, hclose⟩, level_nil, unanswered?.eq_def]
        simp only [if_neg hclose, if_neg hopen]
        exact ih depth

/-- The scan forwards finds a closing brace exactly if the count fails. -/
theorem closeAt_lt_iff (depth : Nat) (t : Text) :
    closeAt depth t < t.length ↔ height depth t = none := by
  induction t generalizing depth with
  | nil => simp [height]
  | cons c t ih =>
    rw [List.length_cons]
    by_cases hopen : c = '\x7b'
    · subst hopen
      rw [closeAt_open, height_open, ← ih]
      omega
    · by_cases hclose : c = '\x7d'
      · subst hclose
        cases depth with
        | zero => simp [closeAt_close_zero, height_close_zero]
        | succ depth =>
          rw [closeAt_close_succ, height_close_succ, ← ih]
          omega
      · rw [closeAt_other ⟨hopen, hclose⟩, height_other ⟨hopen, hclose⟩, ← ih]
        omega

/-- **When the block around a marker is enclosed.**  The marker is a text `a` without braces. -/
theorem enclosed_around_iff {a : Text} (ha : a ≠ []) (hplain : Plain a) (pre post : Text) :
    (around (pre ++ (a ++ post)) pre.length).enclosed (pre ++ (a ++ post)) = true ↔
      0 < level 0 pre ∧ height 0 post = none := by
  have hopening : (around (pre ++ (a ++ post)) pre.length).hasOpening = true ↔
      0 < level 0 pre := by
    rw [← isSome_unanswered?_reverse]
    show (unanswered? _ _ 0 ((pre ++ (a ++ post)).take pre.length).reverse).isSome = true ↔ _
    rw [List.take_left]
  have hclosing : (around (pre ++ (a ++ post)) pre.length).hasClosing (pre ++ (a ++ post)) = true ↔
      height 0 post = none := by
    rw [← closeAt_lt_iff, hasClosing, decide_eq_true_iff, around_stop_of_plain ha hplain,
      List.length_append, List.length_append]
    omega
  rw [enclosed, Bool.and_eq_true, hopening, hclosing]

/-! ### Matched braces around a stretch -/

/-- An open brace, and what stands after it. -/
theorem exists_of_lt_level {depth : Nat} {t : Text} (h : depth < level 0 t) :
    ∃ a b, t = a ++ '\x7b' :: b ∧ height 0 b = some depth := by
  induction t using List.reverseRecOn generalizing depth with
  | nil => exact absurd h (Nat.not_lt_zero _)
  | append_singleton t c ih =>
    rw [level_append] at h
    -- an open brace of the text before, with the last character after it
    have hlast : ∀ {depth' : Nat}, depth' < level 0 t → height depth' [c] = some depth →
        ∃ a b, t ++ [c] = a ++ '\x7b' :: b ∧ height 0 b = some depth := by
      intro depth' hlt hc
      obtain ⟨a, b, rfl, hb⟩ := ih hlt
      refine ⟨a, b ++ [c], by rw [List.append_assoc, List.cons_append], ?_⟩
      rw [height_append, hb]
      exact hc
    by_cases hopen : c = '\x7b'
    · subst hopen
      cases depth with
      | zero => exact ⟨t, [], rfl, rfl⟩
      | succ depth => exact hlast (Nat.lt_of_succ_lt_succ h) rfl
    · by_cases hclose : c = '\x7d'
      · subst hclose
        have hlt : depth < level 0 t - 1 := h
        exact @hlast (depth + 1) (by omega) rfl
      · rw [level_other ⟨hopen, hclose⟩, level_nil] at h
        exact hlast h (height_other ⟨hopen, hclose⟩ depth [])

/-- The closing brace at which the count fails, and what stands before it. -/
theorem exists_of_height_eq_none {depth : Nat} {t : Text} (h : height depth t = none) :
    ∃ a b, t = a ++ '\x7d' :: b ∧ height depth a = some 0 := by
  induction t generalizing depth with
  | nil => exact absurd h (by simp [height])
  | cons c t ih =>
    by_cases hopen : c = '\x7b'
    · subst hopen
      rw [height_open] at h
      obtain ⟨a, b, rfl, ha⟩ := ih h
      exact ⟨'\x7b' :: a, b, rfl, by rwa [height_open]⟩
    · by_cases hclose : c = '\x7d'
      · subst hclose
        cases depth with
        | zero => exact ⟨[], t, rfl, rfl⟩
        | succ depth =>
          rw [height_close_succ] at h
          obtain ⟨a, b, rfl, ha⟩ := ih h
          exact ⟨'\x7d' :: a, b, rfl, by rwa [height_close_succ]⟩
      · rw [height_other ⟨hopen, hclose⟩] at h
        obtain ⟨a, b, rfl, ha⟩ := ih h
        exact ⟨c :: a, b, rfl, by rwa [height_other ⟨hopen, hclose⟩]⟩

/-- Matched braces on both sides of a stretch. -/
theorem exists_of_matched {pre a post : Text} {i j : Nat} (h : Matched (pre ++ (a ++ post)) i j)
    (hi : i < pre.length) (hj : pre.length + a.length ≤ j) :
    ∃ outer front back rest, pre = outer ++ '\x7b' :: front ∧ post = back ++ '\x7d' :: rest ∧
      BracesBalanced (front ++ (a ++ back)) ∧ i = outer.length ∧
      j = pre.length + a.length + back.length := by
  obtain ⟨outer, inner, rest, heq, hbalanced, rfl, rfl⟩ := matched_iff.mp h
  obtain ⟨front, rfl, hfront⟩ : ∃ front, pre = outer ++ '\x7b' :: front ∧
      inner ++ '\x7d' :: rest = front ++ (a ++ post) := by
    rcases List.append_eq_append_iff.mp heq with ⟨d, hd, -⟩ | ⟨d, hd, hrest⟩
    · rw [hd, List.length_append] at hi
      omega
    · cases d with
      | nil =>
        rw [hd, List.append_nil] at hi
        omega
      | cons c d =>
        obtain ⟨rfl, hinner⟩ := List.cons.inj hrest
        exact ⟨d, hd, hinner⟩
  obtain ⟨back, rfl, rfl⟩ : ∃ back, inner = front ++ (a ++ back) ∧
      post = back ++ '\x7d' :: rest := by
    rw [← List.append_assoc] at hfront
    rcases List.append_eq_append_iff.mp hfront with ⟨d, hd, hrest⟩ | ⟨d, hd, hrest⟩
    · have hlength := congrArg List.length hd
      rw [List.length_append, List.length_append] at hlength
      rw [List.length_append, List.length_cons] at hj
      obtain rfl : d = [] := List.eq_nil_of_length_eq_zero (by omega)
      rw [List.append_nil] at hd
      exact ⟨[], by rw [List.append_nil, hd], hrest.symm⟩
    · exact ⟨d, by rw [hd, List.append_assoc], hrest⟩
  refine ⟨outer, front, back, rest, rfl, rfl, hbalanced, rfl, ?_⟩
  simp only [List.length_append, List.length_cons]
  omega

/-- **When a stretch is enclosed**: a brace is open before it, and one that is not opened after it
is closed there. -/
theorem enclosed_iff {a : Text} (hplain : Plain a) (pre post : Text) :
    Enclosed (pre ++ (a ++ post)) pre.length (pre.length + a.length) ↔
      0 < level 0 pre ∧ height 0 post = none := by
  constructor
  · rintro ⟨i, j, hmatched, hi, hj⟩
    obtain ⟨outer, front, back, rest, rfl, rfl, hbalanced, -, -⟩ :=
      exists_of_matched hmatched hi hj
    rw [BracesBalanced, height_append] at hbalanced
    obtain ⟨depth, hdepth, hback⟩ := Option.bind_eq_some_iff.mp hbalanced
    rw [height_append_of_plain hplain] at hback
    constructor
    · have hfront := level_of_height (height_add hdepth (level 0 outer + 1))
      rw [Nat.zero_add] at hfront
      rw [level_append, level_open, hfront]
      omega
    · apply @height_eq_none_of_zero depth
      rw [height_append, hback]
      rfl
  · rintro ⟨hlevel, hheight⟩
    obtain ⟨outer, front, rfl, hfront⟩ := exists_of_lt_level hlevel
    obtain ⟨back, rest, rfl, hback⟩ := exists_of_height_eq_none hheight
    have hmatched : Matched ((outer ++ '\x7b' :: front) ++ (a ++ (back ++ '\x7d' :: rest)))
        outer.length (outer.length + 1 + (front ++ (a ++ back)).length) := by
      refine matched_iff.mpr ⟨outer, front ++ (a ++ back), rest, by simp, ?_, rfl, rfl⟩
      rw [BracesBalanced, height_append, hfront]
      show height 0 (a ++ back) = some 0
      rw [height_append_of_plain hplain, hback]
    refine ⟨_, _, hmatched, ?_, ?_⟩
    · rw [List.length_append, List.length_cons]
      omega
    · simp only [List.length_append, List.length_cons]
      omega

/-- **What stands in the block of an enclosed stretch is enclosed**: between the two, no more braces
are closed than are opened. -/
theorem enclosed_of_enclosed_before {a b between pre post : Text} {place : Nat} (ha : Plain a)
    (hb : Plain b) (hbetween : height 0 between = some place)
    (h : Enclosed (pre ++ (a ++ (between ++ (b ++ post)))) pre.length (pre.length + a.length)) :
    Enclosed ((pre ++ (a ++ between)) ++ (b ++ post)) (pre ++ (a ++ between)).length
      ((pre ++ (a ++ between)).length + b.length) := by
  obtain ⟨hlevel, hheight⟩ := (enclosed_iff ha _ _).mp h
  refine (enclosed_iff hb _ _).mpr ⟨?_, ?_⟩
  · have hadd := level_of_height (height_add hbetween (level 0 pre))
    rw [Nat.zero_add] at hadd
    rw [level_append, level_append_of_plain ha, hadd]
    omega
  · rw [height_append, hbetween] at hheight
    replace hheight : height place (b ++ post) = none := hheight
    rw [height_append_of_plain hb] at hheight
    exact height_eq_none_of_zero hheight

end LabelLoop.Block

namespace LabelLoop.Lowering

open Text Marker Block

/-! ### Open braces after the sweep -/

theorem level_header_append {name : Text} (h : ∀ c ∈ name, isWord c = true) (depth : Nat)
    (b : Text) : level depth (Loop.header name ++ b) = level (depth + 1) b := by
  obtain ⟨front, back, heq, hfront, hback⟩ := exists_header_eq h
  rw [heq, List.append_assoc, level_append_of_plain hfront, List.cons_append, level_open,
    level_append_of_plain hback]

theorem length_addLoop_le {pending : List Nat} {n : Nat} (h : pending.length ≤ n + 1) :
    (addLoop pending).length ≤ n + 1 := by
  cases pending with
  | nil => exact Nat.le_add_left 1 n
  | cons w pending => exact h

/-- **Braces open after the sweep**: those that are open in the text, and one for every loop that
waits.  There is at most one entry of `pending` for every open brace and one for the outside. -/
theorem level_swept {ps : List Piece}
    (hspells : ∀ k name raw, .marker k name raw ∈ ps → k.form.Spells name raw) {depth : Nat}
    {pending : List Nat} (hlen : pending.length ≤ depth + 1) :
    level (depth + pending.sum) (swept pending ps) =
        level depth (written ps) + (pendingThrough pending ps).sum ∧
      (pendingThrough pending ps).length ≤ level depth (written ps) + 1 := by
  induction ps generalizing depth pending with
  | nil => exact ⟨rfl, hlen⟩
  | cons p ps ih =>
    have ih := @ih fun k name raw hmem => hspells k name raw (List.mem_cons_of_mem _ hmem)
    cases p with
    | char c =>
      rw [written_char]
      by_cases hopen : c = '\x7b'
      · subst hopen
        have hrest := @ih (depth + 1) (0 :: pending) (Nat.succ_le_succ hlen)
        rw [List.sum_cons, Nat.zero_add, Nat.add_right_comm] at hrest
        exact hrest
      · by_cases hclose : c = '\x7d'
        · subst hclose
          show level _ (List.replicate (pending.headD 0) '\x7d' ++
                '\x7d' :: swept pending.tail ps) =
              level (depth - 1) (written ps) + (pendingThrough pending.tail ps).sum ∧
            (pendingThrough pending.tail ps).length ≤ level (depth - 1) (written ps) + 1
          rw [level_replicate_append, level_close]
          -- the loops that wait at the brace are closed before it
          cases pending with
          | nil => exact @ih (depth - 1) [] (Nat.zero_le _)
          | cons w pending =>
            have hlen' : pending.length ≤ depth := Nat.le_of_succ_le_succ hlen
            have hrest := @ih (depth - 1) pending (by omega)
            have hsum : depth + (w :: pending).sum - (w :: pending).headD 0 - 1 =
                depth - 1 + pending.sum := by
              rw [List.sum_cons, List.headD_cons]
              cases depth with
              | zero =>
                obtain rfl := List.eq_nil_of_length_eq_zero (Nat.le_zero.mp hlen')
                simp
              | succ depth => omega
            rw [hsum]
            exact hrest
        · rw [swept, pendingThrough, pendingAfter_of_plain ⟨hopen, hclose⟩, dueBefore_of_ne hclose,
            level_other ⟨hopen, hclose⟩]
          show level _ (c :: swept pending ps) = _ ∧ _
          rw [level_other ⟨hopen, hclose⟩]
          exact ih hlen
    | marker k name raw =>
      have hmarker := hspells k name raw List.mem_cons_self
      rw [written_marker, level_append_of_plain (plain_of_spells hmarker)]
      cases k with
      | jump =>
        show level _ (Loop.jump name ++ swept pending ps) = _ ∧ _
        rw [level_append_of_plain (plain_jump hmarker.isWord_name)]
        exact ih hlen
      | label =>
        show level _ (Loop.header name ++ swept (addLoop pending) ps) = _ ∧ _
        rw [level_header_append hmarker.isWord_name]
        have hrest := ih (length_addLoop_le hlen)
        rw [sum_addLoop] at hrest
        exact hrest

theorem level_swept_nil {ps : List Piece}
    (hspells : ∀ k name raw, .marker k name raw ∈ ps → k.form.Spells name raw) :
    level 0 (swept [] ps) = level 0 (written ps) + (pendingThrough [] ps).sum :=
  (@level_swept ps hspells 0 [] (Nat.zero_le _)).1

/-! ### Closing braces after the marker -/

/-- A closing brace that is found is found also when more of them are written for loops outside. -/
theorem height_closed_eq_none {ps : List Piece} (h : Cut ps) {depth : Nat} (pending : List Nat)
    (hnone : height depth (written ps) = none) :
    height depth (written (closed (List.replicate depth 0 ++ pending) ps)) = none := by
  induction h using Cut.induct generalizing depth with
  | nil => exact absurd hnone (by simp [height])
  | @char c ps _ _ ih =>
    rw [written_char] at hnone
    rw [closed, written_append, written_chars, written_char]
    by_cases hopen : c = '\x7b'
    · subst hopen
      rw [height_open] at hnone
      rw [dueBefore_of_ne (by decide)]
      exact ih hnone
    · by_cases hclose : c = '\x7d'
      · subst hclose
        cases depth with
        | zero =>
          -- whatever is due here, the first character is a closing brace
          cases dueBefore (List.replicate 0 0 ++ pending) '\x7d' with
          | zero => rfl
          | succ n => rfl
        | succ depth =>
          rw [height_close_succ] at hnone
          exact ih hnone
      · rw [height_other ⟨hopen, hclose⟩] at hnone
        rw [dueBefore_of_ne hclose, pendingAfter_of_plain ⟨hopen, hclose⟩]
        show height depth (c :: _) = none
        rw [height_other ⟨hopen, hclose⟩]
        exact ih hnone
  | @marker k name raw ps hspells _ ih =>
    rw [written_marker, height_append_of_plain (plain_of_spells hspells)] at hnone
    rw [closed, written_marker, height_append_of_plain (plain_of_spells hspells)]
    exact ih hnone

/-- Lowering jumps changes no braces. -/
theorem height_lowerJumps {ps : List Piece} (h : Cut ps) (depth : Nat) :
    height depth (written (lowerJumps ps)) = height depth (written ps) := by
  induction h using Cut.induct generalizing depth with
  | nil => rfl
  | @char c ps _ _ ih =>
    show height depth (c :: written (lowerJumps ps)) = height depth (c :: written ps)
    rw [height.eq_def, height.eq_def depth (c :: _)]
    simp only [ih]
  | @marker k name raw ps hspells _ ih =>
    rw [written_marker, height_append_of_plain (plain_of_spells hspells)]
    cases k with
    | label =>
      show height depth (raw ++ written (lowerJumps ps)) = _
      rw [height_append_of_plain (plain_of_spells hspells), ih]
    | jump =>
      show height depth (written (chars (Loop.jump name) ++ lowerJumps ps)) = _
      rw [written_append, written_chars, height_append_of_plain (plain_jump hspells.isWord_name),
        ih]

/-! ### Loops that wait belong to labels -/

/-- A loop that waits at an open brace belongs to a label before: as many braces were opened after
that label, and not closed, as are open inside. -/
theorem exists_label_of_pending {ps : List Piece}
    (hspells : ∀ k name raw, .marker k name raw ∈ ps → k.form.Spells name raw) {place : Nat}
    (h : 0 < (pendingThrough [] ps).getD place 0) :
    ∃ before name raw after, ps = before ++ .marker .label name raw :: after ∧
      height 0 (written after) = some place := by
  induction ps using List.reverseRecOn generalizing place with
  | nil => exact absurd h (by simp [pendingThrough])
  | append_singleton ps p ih =>
    have ih := @ih fun k name raw hmem => hspells k name raw (List.mem_append_left _ hmem)
    rw [pendingThrough_append] at h
    -- a label among the pieces before, with the last piece after it
    have hlast : ∀ {place' : Nat}, 0 < (pendingThrough [] ps).getD place' 0 →
        height place' p.text = some place → ∃ before name raw after,
          ps ++ [p] = before ++ .marker .label name raw :: after ∧
            height 0 (written after) = some place := by
      intro place' hpos hp
      obtain ⟨before, name, raw, after, rfl, hafter⟩ := ih hpos
      refine ⟨before, name, raw, after ++ [p], by rw [List.append_assoc, List.cons_append], ?_⟩
      have hwritten : written [p] = p.text := List.append_nil _
      rw [written_append, hwritten, height_append, hafter]
      exact hp
    cases p with
    | char c =>
      replace h : 0 < (pendingAfter (pendingThrough [] ps) c).getD place 0 := h
      by_cases hopen : c = '\x7b'
      · subst hopen
        cases place with
        | zero => exact absurd h (Nat.lt_irrefl 0)
        | succ place => exact hlast h rfl
      · by_cases hclose : c = '\x7d'
        · subst hclose
          refine @hlast (place + 1) ?_ rfl
          have htail : pendingAfter (pendingThrough [] ps) '\x7d' =
              (pendingThrough [] ps).tail := rfl
          rw [htail] at h
          cases hpending : pendingThrough [] ps with
          | nil => simp [hpending] at h
          | cons w pending => simpa [hpending] using h
        · rw [pendingAfter_of_plain ⟨hopen, hclose⟩] at h
          exact hlast h (height_other ⟨hopen, hclose⟩ place [])
    | marker k name raw =>
      have hmarker := hspells k name raw (List.mem_append_right _ List.mem_cons_self)
      have hplain := height_of_plain (plain_of_spells hmarker) place
      cases k with
      | jump => exact hlast h hplain
      | label =>
        cases place with
        | zero => exact ⟨ps, name, raw, [], rfl, rfl⟩
        | succ place =>
          refine hlast ?_ hplain
          replace h : 0 < (addLoop (pendingThrough [] ps)).getD (place + 1) 0 := h
          cases hpending : pendingThrough [] ps with
          | nil => simp [hpending, addLoop] at h
          | cons w pending => simpa [hpending, addLoop] using h

theorem eq_replicate_zero {pending : List Nat} (h : ∀ place, pending.getD place 0 = 0) :
    pending = List.replicate pending.length 0 := by
  refine List.eq_replicate_of_mem fun n hn => ?_
  obtain ⟨place, hlt, rfl⟩ := List.mem_iff_getElem.mp hn
  have hplace := h place
  rwa [List.getD_eq_getElem?_getD, List.getElem?_eq_getElem hlt, Option.getD_some] at hplace

/-! ### The records of the passes -/

/-- The record `l` is that of the label marker `m` of the text that the pieces make up: what the
pass found before the marker is what the sweep wrote there, and what it found after the marker are
the pieces still to come, with the loops that wait closed. -/
def Recorded (ps : List Piece) (l : Label) (m : Found Text) : Prop :=
  ∃ before name raw after, ps = before ++ .marker .label name raw :: after ∧
    m = ⟨(written before).length, raw.length, name⟩ ∧
    l = ⟨pass Loop.header
        (swept [] before ++
          (raw ++ written (closed (pendingThrough [] before) (lowerJumps after))))
        ⟨(swept [] before).length, raw.length, name⟩, (written before).length⟩

theorem forall₂_recorded_append (done ps : List Piece) :
    List.Forall₂ (Recorded (done ++ ps))
      (records (swept [] done) (pendingThrough [] done) ps
        ((foundFrom .label (written done).length ps).map Found.start))
      (foundFrom .label (written done).length ps) := by
  induction ps generalizing done with
  | nil => exact .nil
  | cons p ps ih =>
    have hnext := ih (done ++ [p])
    rw [swept_append, pendingThrough_append, List.append_assoc, written_append,
      List.length_append] at hnext
    cases p with
    | char c => exact hnext
    | marker k name raw =>
      have hraw : written [.marker k name raw] = raw := List.append_nil raw
      rw [hraw] at hnext
      cases k with
      | jump =>
        have hswept : swept (pendingThrough [] done) [.marker .jump name raw] = Loop.jump name :=
          List.append_nil _
        rw [hswept] at hnext
        exact hnext
      | label =>
        have hswept : swept (pendingThrough [] done) [.marker .label name raw] =
            Loop.header name := List.append_nil _
        rw [hswept] at hnext
        exact .cons ⟨done, name, raw, ps, rfl, rfl, rfl⟩ hnext

/-- **The records are those of the label markers**, in order. -/
theorem forall₂_recorded {ps : List Piece} (h : Cut ps) :
    List.Forall₂ (Recorded ps) (records [] [] ps (labelOffsets (written ps)))
      (Marker.labels (written ps)) := by
  rw [labelOffsets, labels_written h]
  exact forall₂_recorded_append [] ps

section Recorded

variable {ps : List Piece} (hcut : Cut ps) {l : Label} {m : Found Text} (h : Recorded ps l m)

include hcut h

/-- **An enclosed label is recorded as such.**  The braces written by earlier passes hide neither
the one that is open before the marker nor the one that is closed after it. -/
theorem enclosed_of_recorded (henclosed : Enclosed (written ps) m.start m.stop) :
    l.pass.enclosed = true := by
  obtain ⟨before, name, raw, after, rfl, rfl, rfl⟩ := h
  have hspells := hcut.spells
  have hafter : Cut after := hcut.of_append_cons
  rw [written_append, written_marker] at henclosed
  obtain ⟨hlevel, hheight⟩ := (enclosed_iff (plain_of_spells hspells) _ _).mp henclosed
  refine (enclosed_around_iff hspells.ne_nil (plain_of_spells hspells) _ _).mpr ⟨?_, ?_⟩
  · rw [level_swept_nil fun _ _ _ hmem => hcut.spells_of_mem (List.mem_append_left _ hmem)]
    exact Nat.add_pos_left hlevel _
  · rw [← height_lowerJumps hafter] at hheight
    exact height_closed_eq_none ((edit_lowerJumps after).cut hafter) _ hheight

/-- **A label that is wrongly recorded as enclosed comes after one that is not.**  Only a loop that
waits can have changed what the pass found, and if the label of that loop is enclosed, then so is
every marker that stands in its block. -/
theorem exists_unenclosed_before (hpass : l.pass.enclosed = true)
    (hnot : ¬Enclosed (written ps) m.start m.stop) :
    ∃ m' ∈ Marker.labels (written ps), m'.start < m.start ∧
      ¬Enclosed (written ps) m'.start m'.stop := by
  obtain ⟨before, name, raw, after, rfl, rfl, rfl⟩ := h
  have hspells := hcut.spells
  have hbefore : ∀ k name raw, .marker k name raw ∈ before → k.form.Spells name raw :=
    fun _ _ _ hmem => hcut.spells_of_mem (List.mem_append_left _ hmem)
  have hafter : Cut after := hcut.of_append_cons
  obtain ⟨hlevel, hheight⟩ :=
    (enclosed_around_iff hspells.ne_nil (plain_of_spells hspells) _ _).mp hpass
  by_cases hwaits : ∃ place, 0 < (pendingThrough [] before).getD place 0
  · -- the label of a loop that waits at the marker
    obtain ⟨place, hplace⟩ := hwaits
    obtain ⟨before', name', raw', between, rfl, hbetween⟩ := exists_label_of_pending hbefore hplace
    have hspells' := hbefore .label name' raw' (by simp)
    refine ⟨⟨(written before').length, raw'.length, name'⟩, ?_, ?_, ?_⟩
    · rw [labels_written hcut, List.append_assoc, foundFrom_append, Nat.zero_add]
      exact List.mem_append_right _ List.mem_cons_self
    · have hpos := List.length_pos_of_ne_nil hspells'.ne_nil
      show (written before').length < (written (before' ++ _)).length
      rw [written_append, written_marker, List.length_append, List.length_append]
      omega
    · intro henclosed
      apply hnot
      rw [List.append_assoc, List.cons_append, written_append, written_marker, written_append,
        written_marker] at henclosed
      rw [written_append, written_marker, written_append, written_marker]
      exact enclosed_of_enclosed_before (plain_of_spells hspells') (plain_of_spells hspells)
        hbetween henclosed
  · -- no loop waits, and the pass found the text as it was
    exfalso
    apply hnot
    have hzero := eq_replicate_zero fun place => by
      by_contra hne
      exact hwaits ⟨place, Nat.pos_of_ne_zero hne⟩
    rw [level_swept_nil hbefore, hzero, List.sum_replicate_nat, Nat.mul_zero,
      Nat.add_zero] at hlevel
    rw [hzero, closed_replicate_zero, height_lowerJumps hafter] at hheight
    rw [written_append, written_marker]
    exact (enclosed_iff (plain_of_spells hspells) _ _).mpr ⟨hlevel, hheight⟩

end Recorded

/-! ### The records and the text alone -/

/-- What the record `l` of the label marker `m` of `t` **reports**: its name and its place, and
whether it is enclosed in `t`, where only an earlier marker that is not enclosed can mislead it. -/
structure Reports (t : Text) (l : Label) (m : Found Text) : Prop where
  name_eq : l.pass.name = m.item
  offset_eq : l.sourceOffset = m.start
  enclosed : Enclosed t m.start m.stop → l.pass.enclosed = true
  misled : l.pass.enclosed = true → ¬Enclosed t m.start m.stop →
    ∃ m' ∈ Marker.labels t, m'.start < m.start ∧ ¬Enclosed t m'.start m'.stop

/-- **Lowering reports on the label markers of the text that it is given**, in order. -/
theorem exists_lower_reports (t : Text) :
    ∃ lowered, lower Loop.header t = .ok lowered ∧ lowered.jumpTargets = jumpTargets t ∧
      List.Forall₂ (Reports t) lowered.labels (Marker.labels t) := by
  obtain ⟨ps, hcut, rfl⟩ := exists_cut t
  refine ⟨_, lower_written hcut, rfl, (forall₂_recorded hcut).imp fun l m h => ?_⟩
  refine ⟨?_, ?_, enclosed_of_recorded hcut h, exists_unenclosed_before hcut h⟩
  · obtain ⟨_, _, _, _, _, rfl, rfl⟩ := h
    rfl
  · obtain ⟨_, _, _, _, _, rfl, rfl⟩ := h
    rfl

section Reports

variable {t : Text} {ls : List Label} (h : List.Forall₂ (Reports t) ls (Marker.labels t))

include h

theorem map_name_of_reports :
    ls.map (·.pass.name) = (Marker.labels t).map Found.item := by
  generalize Marker.labels t = ms at h ⊢
  induction h with
  | nil => rfl
  | cons hreports _ ih => rw [List.map_cons, List.map_cons, hreports.name_eq, ih]

/-- A label that is said not to be enclosed is not. -/
theorem exists_label_of_unenclosed {l : Label} (hl : l ∈ ls) (hpass : l.pass.enclosed = false) :
    ∃ m ∈ Marker.labels t, l.sourceOffset = m.start ∧ l.pass.name = m.item ∧
      ¬Enclosed t m.start m.stop := by
  obtain ⟨i, hi, rfl⟩ := List.mem_iff_getElem.mp hl
  have hi' : i < (Marker.labels t).length := by rwa [← h.length_eq]
  have hreports := h.get hi hi'
  refine ⟨_, List.getElem_mem hi', hreports.offset_eq, hreports.name_eq, fun henclosed => ?_⟩
  exact Bool.false_ne_true (hpass.symm.trans (hreports.enclosed henclosed))

/-- **The first label that is not enclosed is said not to be.** -/
theorem exists_unenclosed_of_first {m : Found Text} (hm : m ∈ Marker.labels t)
    (hnot : ¬Enclosed t m.start m.stop)
    (hfirst : ∀ m' ∈ Marker.labels t, m'.start < m.start → Enclosed t m'.start m'.stop) :
    ∃ l ∈ ls, l.pass.enclosed = false ∧ l.sourceOffset = m.start ∧ l.pass.name = m.item := by
  obtain ⟨i, hi', rfl⟩ := List.mem_iff_getElem.mp hm
  have hi : i < ls.length := by rwa [h.length_eq]
  have hreports := h.get hi hi'
  refine ⟨_, List.getElem_mem hi, ?_, hreports.offset_eq, hreports.name_eq⟩
  by_contra hpass
  obtain ⟨m', hm', hlt, hnot'⟩ := hreports.misled (Bool.not_eq_false _ ▸ hpass) hnot
  exact hnot' (hfirst m' hm' hlt)

/-- **Some label is said not to be enclosed exactly if one is not.** -/
theorem exists_unenclosed_iff :
    (∃ l ∈ ls, l.pass.enclosed = false) ↔
      ∃ m ∈ Marker.labels t, ¬Enclosed t m.start m.stop := by
  constructor
  · rintro ⟨l, hl, hpass⟩
    obtain ⟨m, hm, -, -, hnot⟩ := exists_label_of_unenclosed h hl hpass
    exact ⟨m, hm, hnot⟩
  · rintro ⟨m, hm, hnot⟩
    -- go back to the first of them
    induction hstart : m.start using Nat.strong_induction_on generalizing m with
    | _ n ih =>
      by_cases hfirst : ∃ m' ∈ Marker.labels t, m'.start < n ∧ ¬Enclosed t m'.start m'.stop
      · obtain ⟨m', hm', hlt, hnot'⟩ := hfirst
        exact ih m'.start hlt m' hm' hnot' rfl
      · push Not at hfirst
        obtain ⟨l, hl, hpass, -⟩ := exists_unenclosed_of_first h hm hnot (by rwa [hstart])
        exact ⟨l, hl, hpass⟩

end Reports

end LabelLoop.Lowering
