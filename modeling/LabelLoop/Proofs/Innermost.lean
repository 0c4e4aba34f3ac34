import LabelLoop.Block.Locate
import LabelLoop.Proofs.Enclosure
import Mathlib.Order.Bounds.Basic

/-!
# The innermost block

The two scans that look for the block around a place know nothing of each other.  Still, when both
of them find a brace, these two braces answer each other, and no braces around the place that do so
stand closer to it (`located_block_is_innermost`).

Each scan, taken alone, looks for the nearest brace that is not matched on its own side of the
place: before the place an opening brace after which the text is balanced
(`isGreatest_of_balanced`), behind it a closing brace before which it is (`isLeast_of_balanced`).
Braces that are matched across the place are unmatched on either side, and so they stand no closer
than those that are found.
-/

namespace LabelLoop.Block

open Text

/-! ### Unmatched braces -/

/-- The brace at `i` **opens and is not answered** within `t`. -/
def OpeningUnmatched (t : Text) (i : Nat) : Prop :=
  t[i]? = some '\x7b' ∧ ∀ j, ¬Matched t i j

/-- The brace at `j` **closes and answers none** of `t`. -/
def ClosingUnmatched (t : Text) (j : Nat) : Prop :=
  t[j]? = some '\x7d' ∧ ∀ i, ¬Matched t i j

theorem exists_of_getElem? {t : Text} {i : Nat} {c : Char} (h : t[i]? = some c) :
    ∃ a b, t = a ++ c :: b ∧ i = a.length := by
  obtain ⟨hlt, rfl⟩ := List.getElem?_eq_some_iff.mp h
  refine ⟨t.take i, t.drop (i + 1), ?_, ?_⟩
  · rw [List.getElem_cons_drop, List.take_append_drop]
  · rw [List.length_take]
    omega

/-- An opening brace is answered exactly if the text after it closes more than it opens. -/
theorem exists_matched_opening_iff (a b : Text) :
    (∃ j, Matched (a ++ '\x7b' :: b) a.length j) ↔ height 0 b = none := by
  constructor
  · rintro ⟨j, hmatched⟩
    obtain ⟨a', x, y, heq, hbalanced, hlen, -⟩ := matched_iff.mp hmatched
    obtain ⟨-, htail⟩ := List.append_inj heq hlen
    rw [(List.cons.inj htail).2, height_append, hbalanced]
    rfl
  · intro hnone
    obtain ⟨x, y, rfl, hbalanced⟩ := exists_of_height_eq_none hnone
    exact ⟨_, matched_iff.mpr ⟨a, x, y, rfl, hbalanced, rfl, rfl⟩⟩

/-- A closing brace answers one exactly if a brace is open before it. -/
theorem exists_matched_closing_iff (a b : Text) :
    (∃ i, Matched (a ++ '\x7d' :: b) i a.length) ↔ 0 < level 0 a := by
  constructor
  · rintro ⟨i, hmatched⟩
    obtain ⟨x, y, z, heq, hbalanced, -, hlen⟩ := matched_iff.mp hmatched
    have hassoc : x ++ '\x7b' :: (y ++ '\x7d' :: z) = (x ++ '\x7b' :: y) ++ '\x7d' :: z := by simp
    rw [hassoc] at heq
    obtain ⟨rfl, -⟩ := List.append_inj heq (by rw [hlen]; simp; omega)
    have hy := level_of_height (height_add hbalanced (level 0 x + 1))
    rw [Nat.zero_add] at hy
    rw [level_append, level_open, hy]
    omega
  · intro hlevel
    obtain ⟨x, y, rfl, hbalanced⟩ := exists_of_lt_level hlevel
    refine ⟨x.length, matched_iff.mpr ⟨x, y, b, by simp, hbalanced, rfl, ?_⟩⟩
    rw [List.length_append, List.length_cons]
    omega

theorem openingUnmatched_iff {t : Text} {i : Nat} :
    OpeningUnmatched t i ↔
      ∃ a b depth, t = a ++ '\x7b' :: b ∧ i = a.length ∧ height 0 b = some depth := by
  constructor
  · rintro ⟨hopen, hnot⟩
    obtain ⟨a, b, rfl, rfl⟩ := exists_of_getElem? hopen
    obtain ⟨depth, hdepth⟩ := Option.ne_none_iff_exists'.mp fun hnone =>
      not_exists.mpr hnot ((exists_matched_opening_iff a b).mpr hnone)
    exact ⟨a, b, depth, rfl, rfl, hdepth⟩
  · rintro ⟨a, b, depth, rfl, rfl, hdepth⟩
    refine ⟨by simp, not_exists.mp fun hmatched => ?_⟩
    rw [(exists_matched_opening_iff a b).mp hmatched] at hdepth
    exact absurd hdepth (by simp)

theorem closingUnmatched_iff {t : Text} {j : Nat} :
    ClosingUnmatched t j ↔ ∃ a b, t = a ++ '\x7d' :: b ∧ j = a.length ∧ level 0 a = 0 := by
  constructor
  · rintro ⟨hclose, hnot⟩
    obtain ⟨a, b, rfl, rfl⟩ := exists_of_getElem? hclose
    refine ⟨a, b, rfl, rfl, Nat.eq_zero_of_not_pos fun hpos => ?_⟩
    exact not_exists.mpr hnot ((exists_matched_closing_iff a b).mpr hpos)
  · rintro ⟨a, b, rfl, rfl, hlevel⟩
    refine ⟨by simp, not_exists.mp fun hmatched => ?_⟩
    have hpos := (exists_matched_closing_iff a b).mp hmatched
    omega

/-! ### The nearest unmatched brace -/

/-- **The last unmatched opening brace** is the one after which the text is balanced. -/
theorem isGreatest_of_balanced {a b : Text} (hb : BracesBalanced b) :
    IsGreatest {i | OpeningUnmatched (a ++ '\x7b' :: b) i} a.length := by
  refine ⟨openingUnmatched_iff.mpr ⟨a, b, 0, rfl, rfl, hb⟩, ?_⟩
  intro i hi
  obtain ⟨x, y, depth, heq, rfl, hdepth⟩ := openingUnmatched_iff.mp hi
  rcases List.append_eq_append_iff.mp heq with ⟨d, rfl, htail⟩ | ⟨d, rfl, -⟩
  · cases d with
    | nil => simp
    | cons z d =>
      -- a brace that is open at the end of `b` is open also if others are open before it
      obtain rfl : b = d ++ '\x7b' :: y := (List.cons.inj htail).2
      rw [BracesBalanced, height_append] at hb
      obtain ⟨before, -, hrest⟩ := Option.bind_eq_some_iff.mp hb
      have hadd := height_add hdepth (before + 1)
      rw [Nat.zero_add] at hadd
      rw [height_open, hadd] at hrest
      exact absurd (Option.some.inj hrest) (by omega)
  · simp

/-- **The first unmatched closing brace** is the one before which the text is balanced. -/
theorem isLeast_of_balanced {a b : Text} (ha : BracesBalanced a) :
    IsLeast {j | ClosingUnmatched (a ++ '\x7d' :: b) j} a.length := by
  refine ⟨closingUnmatched_iff.mpr ⟨a, b, rfl, rfl, level_of_height ha⟩, ?_⟩
  intro j hj
  obtain ⟨x, y, heq, rfl, hlevel⟩ := closingUnmatched_iff.mp hj
  rcases List.append_eq_append_iff.mp heq with ⟨d, rfl, -⟩ | ⟨d, rfl, htail⟩
  · simp
  · cases d with
    | nil => simp
    | cons z d =>
      -- the count over `a` would fail at this brace
      obtain ⟨rfl, -⟩ := List.cons.inj htail
      rw [BracesBalanced, height_append] at ha
      obtain ⟨depth, hdepth, hrest⟩ := Option.bind_eq_some_iff.mp ha
      rw [level_of_height hdepth] at hlevel
      rw [hlevel, height_close_zero] at hrest
      exact absurd hrest (by simp)

theorem not_openingUnmatched_of_level {t : Text} (h : level 0 t = 0) (i : Nat) :
    ¬OpeningUnmatched t i := by
  intro hi
  obtain ⟨a, b, depth, rfl, -, hdepth⟩ := openingUnmatched_iff.mp hi
  have hb := level_of_height (height_add hdepth (level 0 a + 1))
  rw [Nat.zero_add] at hb
  rw [level_append, level_open, hb] at h
  omega

theorem not_closingUnmatched_of_height {t : Text} {depth : Nat} (h : height 0 t = some depth)
    (j : Nat) : ¬ClosingUnmatched t j := by
  intro hj
  obtain ⟨a, b, rfl, -, hlevel⟩ := closingUnmatched_iff.mp hj
  rw [height_append] at h
  obtain ⟨before, hbefore, hrest⟩ := Option.bind_eq_some_iff.mp h
  rw [level_of_height hbefore] at hlevel
  rw [hlevel, height_close_zero] at hrest
  exact absurd hrest (by simp)

/-! ### What the two scans stop at -/

/-- On the way back over a text, the scan takes back what the text has opened and closed. -/
theorem unanswered?_reverse_append {depth depth' : Nat} {b : Text}
    (h : height depth b = some depth') (rest : Text) :
    unanswered? '\x7d' '\x7b' depth' (b.reverse ++ rest) =
      unanswered? '\x7d' '\x7b' depth rest := by
  induction b generalizing depth rest with
  | nil =>
    obtain rfl := Option.some.inj h
    rfl
  | cons c b ih =>
    rw [List.reverse_cons, List.append_assoc, List.singleton_append]
    by_cases hopen : c = '\x7b'
    · subst hopen
      rw [height_open] at h
      rw [ih h, unanswered?, if_neg (by decide), if_pos rfl]
    · by_cases hclose : c = '\x7d'
      · subst hclose
        cases depth with
        | zero => exact absurd h (by simp [height_close_zero])
        | succ depth =>
          rw [height_close_succ] at h
          rw [ih h, unanswered?.eq_def]
          simp only [if_true]
      · rw [height_other ⟨hopen, hclose⟩] at h
        rw [ih h, unanswered?.eq_def]
        simp only [if_neg hclose, if_neg hopen]

/-- The scan forwards passes over a text and takes along what it has opened and closed. -/
theorem closeAt_append_of_height {depth depth' : Nat} {a : Text}
    (h : height depth a = some depth') (rest : Text) :
    closeAt depth (a ++ rest) = a.length + closeAt depth' rest := by
  induction a generalizing depth with
  | nil =>
    obtain rfl := Option.some.inj h
    exact (Nat.zero_add _).symm
  | cons c a ih =>
    rw [List.cons_append, List.length_cons]
    by_cases hopen : c = '\x7b'
    · subst hopen
      rw [height_open] at h
      rw [closeAt_open, ih h]
      omega
    · by_cases hclose : c = '\x7d'
      · subst hclose
        cases depth with
        | zero => exact absurd h (by simp [height_close_zero])
        | succ depth =>
          rw [height_close_succ] at h
          rw [closeAt_close_succ, ih h]
          omega
      · rw [height_other ⟨hopen, hclose⟩] at h
        rw [closeAt_other ⟨hopen, hclose⟩, ih h]
        omega

section Around

variable (pre post : Text) (c : Char)

/-- The block around a place opens at a brace after which the text is balanced. -/
theorem start_around_of_balanced (outer : Text) {front : Text} (hfront : BracesBalanced front) :
    (around ((outer ++ '\x7b' :: front) ++ c :: post) (outer ++ '\x7b' :: front).length).start =
      outer.length := by
  have hreverse : (outer ++ '\x7b' :: front).reverse =
      front.reverse ++ '\x7b' :: outer.reverse := by simp
  have hopening : opening? ((outer ++ '\x7b' :: front) ++ c :: post)
      (outer ++ '\x7b' :: front).length = some outer.length := by
    rw [opening?, List.take_left, hreverse, unanswered?_reverse_append hfront, unanswered?,
      if_neg (by decide), if_pos rfl, List.length_reverse]
  rw [start, around, hopening]

/-- It has no opening brace if none is open. -/
theorem start_around_of_level {pre : Text} (h : level 0 pre = 0) :
    (around (pre ++ c :: post) pre.length).start = -1 := by
  have hopening : opening? (pre ++ c :: post) pre.length = none := by
    rw [opening?, List.take_left, ← Option.not_isSome_iff_eq_none, isSome_unanswered?_reverse, h]
    exact Nat.lt_irrefl 0
  rw [start, around, hopening]

theorem stop_around :
    (around (pre ++ c :: post) pre.length).stop = pre.length + 1 + closeAt 0 post := by
  have hdrop : (pre ++ c :: post).drop (pre.length + 1) = post := by
    rw [List.drop_length_add_append]
    rfl
  rw [around_stop (by simp), hdrop]

/-- It closes at a brace before which the text is balanced. -/
theorem stop_around_of_balanced {back : Text} (hback : BracesBalanced back) (rest : Text) :
    (around (pre ++ c :: (back ++ '\x7d' :: rest)) pre.length).stop =
      pre.length + 1 + back.length := by
  rw [stop_around, closeAt_append_of_height hback, closeAt_close_zero]
  rfl

/-- It ends with the text if no brace is closed that was not opened behind the place. -/
theorem stop_around_of_height {post : Text} {depth : Nat} (h : height 0 post = some depth) :
    (around (pre ++ c :: post) pre.length).stop = (pre ++ c :: post).length := by
  have hend : closeAt 0 post = post.length := by
    refine ((closeAt_spec 0 post).1.lt_or_eq).resolve_left fun hlt => ?_
    rw [(closeAt_lt_iff 0 post).mp hlt] at h
    exact absurd h (by simp)
  rw [stop_around, hend, List.length_append, List.length_cons]
  omega

/-! ### Both scans together -/

/-- **The opening brace of the block** is the nearest one that is unmatched before the place. -/
theorem start_around_cases :
    (∃ i : Nat, (around (pre ++ c :: post) pre.length).start = i ∧
      IsGreatest {k | OpeningUnmatched pre k} i) ∨
    ((around (pre ++ c :: post) pre.length).start = -1 ∧ ∀ k, ¬OpeningUnmatched pre k) := by
  rcases Nat.eq_zero_or_pos (level 0 pre) with hlevel | hlevel
  · exact Or.inr ⟨start_around_of_level _ _ hlevel, not_openingUnmatched_of_level hlevel⟩
  · obtain ⟨outer, front, rfl, hfront⟩ := exists_of_lt_level hlevel
    exact Or.inl ⟨_, start_around_of_balanced _ _ _ hfront, isGreatest_of_balanced hfront⟩

/-- **The closing brace of the block** is the nearest one that is unmatched behind the place. -/
theorem stop_around_cases :
    (∃ j, (around (pre ++ c :: post) pre.length).stop = pre.length + 1 + j ∧
      IsLeast {k | ClosingUnmatched post k} j) ∨
    ((around (pre ++ c :: post) pre.length).stop = (pre ++ c :: post).length ∧
      ∀ k, ¬ClosingUnmatched post k) := by
  cases hheight : height 0 post with
  | none =>
    obtain ⟨back, rest, rfl, hback⟩ := exists_of_height_eq_none hheight
    exact Or.inl ⟨_, stop_around_of_balanced _ _ hback _, isLeast_of_balanced hback⟩
  | some depth =>
    exact Or.inr ⟨stop_around_of_height _ _ hheight, not_closingUnmatched_of_height hheight⟩

end Around

/-! ### The innermost block -/

/-- With more braces open before a text, no fewer are open after it. -/
theorem level_mono {depth depth' : Nat} (h : depth ≤ depth') (t : Text) :
    level depth t ≤ level depth' t := by
  induction t generalizing depth depth' with
  | nil => exact h
  | cons c t ih =>
    rw [level, level]
    split
    · exact ih (Nat.succ_le_succ h)
    · split
      · exact ih (Nat.sub_le_sub_right h 1)
      · exact ih h

/-- **Braces matched across a place are unmatched on either side of it.** -/
theorem unmatched_of_matched {pre post : Text} {c : Char} (hc : c ≠ '\x7b' ∧ c ≠ '\x7d') {i j : Nat}
    (h : Matched (pre ++ c :: post) i j) (hi : i < pre.length) (hj : pre.length < j) :
    OpeningUnmatched pre i ∧ ∃ k, j = pre.length + 1 + k ∧ ClosingUnmatched post k := by
  obtain ⟨outer, front, back, rest, rfl, rfl, hbalanced, rfl, rfl⟩ :=
    exists_of_matched (a := [c]) h hi hj
  rw [BracesBalanced, height_append] at hbalanced
  obtain ⟨depth, hdepth, hback⟩ := Option.bind_eq_some_iff.mp hbalanced
  rw [List.singleton_append, height_other hc] at hback
  refine ⟨openingUnmatched_iff.mpr ⟨outer, front, depth, rfl, rfl, hdepth⟩, back.length, rfl,
    closingUnmatched_iff.mpr ⟨back, rest, rfl, rfl, ?_⟩⟩
  have hle := level_mono (Nat.zero_le depth) back
  rw [level_of_height hback] at hle
  exact Nat.le_zero.mp hle

/-- A block is the **innermost** one around a place: its braces are matched with each other, the
text between them is balanced, and all matched braces around the place lie around the block. -/
structure Innermost (t : Text) (place : Nat) (b : Block) : Prop where
  matched : ∃ i : Nat, b.start = i ∧ i < place ∧ place < b.stop ∧ Matched t i b.stop
  balanced : BracesBalanced (b.inner t)
  within : ∀ i j : Nat, Matched t i j → i < place → place < j → i ≤ b.start ∧ b.stop ≤ j

/-- The block found between two braces is the innermost one. -/
theorem innermost_around {pre post : Text} {c : Char} (hc : c ≠ '\x7b' ∧ c ≠ '\x7d')
    (hlevel : 0 < level 0 pre) (hheight : height 0 post = none) :
    Innermost (pre ++ c :: post) pre.length (around (pre ++ c :: post) pre.length) := by
  obtain ⟨outer, front, rfl, hfront⟩ := exists_of_lt_level hlevel
  obtain ⟨back, rest, rfl, hback⟩ := exists_of_height_eq_none hheight
  have hstart := start_around_of_balanced (back ++ '\x7d' :: rest) c outer hfront
  have hstop := stop_around_of_balanced (outer ++ '\x7b' :: front) c hback rest
  have hmatched : Matched ((outer ++ '\x7b' :: front) ++ c :: (back ++ '\x7d' :: rest))
      outer.length ((outer ++ '\x7b' :: front).length + 1 + back.length) := by
    refine matched_iff.mpr ⟨outer, front ++ c :: back, rest, by simp, ?_, rfl, ?_⟩
    · rw [BracesBalanced, height_append, hfront]
      exact (height_other hc 0 back).trans hback
    · simp only [List.length_append, List.length_cons]
      omega
  refine ⟨⟨outer.length, hstart, ?_, ?_, by rwa [hstop]⟩, ?_, fun i j h hi hj => ?_⟩
  · rw [List.length_append, List.length_cons]
    omega
  · rw [hstop]
    omega
  · rw [inner, hstart, hstop]
    exact hmatched.2.2.2
  · obtain ⟨hopening, k, rfl, hclosing⟩ := unmatched_of_matched hc h hi hj
    rw [hstart, hstop]
    exact ⟨Int.ofNat_le.mpr ((isGreatest_of_balanced hfront).2 hopening),
      Nat.add_le_add_left ((isLeast_of_balanced hback).2 hclosing) _⟩

theorem locate_of_lt {t : Text} {place : Nat} (h : place < t.length) :
    locate t place = .ok (around t place) := by
  rw [locate, if_pos (Int.natCast_nonneg place), if_pos (Int.ofNat_le.mpr (Nat.le_of_lt h))]
  rfl

/-- **The block that is located around a place is the innermost one.**  It has both braces exactly
if some braces matched by nesting stand around the place, and then it is the innermost block.  In
any case it reaches, on either side, to the nearest brace that is unmatched on that side of the
place, or to the end of the text on that side if there is none. -/
theorem located_block_is_innermost {t : Text} {place : Nat} {c : Char} (hplace : t[place]? = some c)
    (hc : c ≠ '\x7b' ∧ c ≠ '\x7d') :
    ∃ b, locate t place = .ok b ∧
      (b.hasOpening = true ∧ b.hasClosing t = true ↔
        ∃ i j, Matched t i j ∧ i < place ∧ place < j) ∧
      (b.hasOpening = true ∧ b.hasClosing t = true → Innermost t place b) ∧
      ((∃ i : Nat, b.start = i ∧ IsGreatest {k | OpeningUnmatched (t.take place) k} i) ∨
        b.start = -1 ∧ ∀ k, ¬OpeningUnmatched (t.take place) k) ∧
      ((∃ j, b.stop = place + 1 + j ∧ IsLeast {k | ClosingUnmatched (t.drop (place + 1)) k} j) ∨
        b.stop = t.length ∧ ∀ k, ¬ClosingUnmatched (t.drop (place + 1)) k) := by
  obtain ⟨pre, post, rfl, rfl⟩ := exists_of_getElem? hplace
  have hplain : Plain [c] := fun x hx => List.mem_singleton.mp hx ▸ hc
  have henclosed := enclosed_around_iff (List.cons_ne_nil c []) hplain pre post
  rw [List.singleton_append, Block.enclosed, Bool.and_eq_true] at henclosed
  have hdrop : (pre ++ c :: post).drop (pre.length + 1) = post := by
    rw [List.drop_length_add_append]
    rfl
  refine ⟨_, locate_of_lt (by simp), ?_, ?_, ?_, ?_⟩
  · rw [henclosed, ← enclosed_iff hplain pre post]
    exact Iff.rfl
  · intro hboth
    obtain ⟨hlevel, hheight⟩ := henclosed.mp hboth
    exact innermost_around hc hlevel hheight
  · rw [List.take_left]
    exact start_around_cases pre post c
  · rw [hdrop]
    exact stop_around_cases pre post c

/-- Around the `x` there is a block, though the first brace of the text and the last have no
partners. -/
theorem located_block_among_lone_braces :
    ∃ b, locate "\x7d\x7ba\x7bb\x7dx\x7d\x7b".toList 6 = .ok b ∧ b.start = 1 ∧ b.stop = 7 ∧
      Innermost "\x7d\x7ba\x7bb\x7dx\x7d\x7b".toList 6 b := by
  have hplace : "\x7d\x7ba\x7bb\x7dx\x7d\x7b".toList[6]? = some 'x' := rfl
  obtain ⟨b, hlocate, -, hinnermost, -⟩ := located_block_is_innermost hplace (by decide)
  have hblock : locate "\x7d\x7ba\x7bb\x7dx\x7d\x7b".toList 6 = .ok ⟨some 1, 7⟩ := rfl
  obtain rfl : b = ⟨some 1, 7⟩ := Except.ok.inj (hlocate.symm.trans hblock)
  exact ⟨_, hlocate, rfl, rfl, hinnermost (by decide)⟩

end LabelLoop.Block
