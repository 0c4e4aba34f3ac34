import LabelLoop.Proofs.Passes

/-!
# Lowered texts hold no markers

`Kind.Stands k t i name` says that the marker `name` is spelled at the place `i` of a text, whatever
stands before it and whatever a search would have passed over.  A search misses none of them: no
marker begins inside another one (`Form.Spells.silent_tail`), so every marker that stands in a text
is one of the pieces of its cut (`exists_mem_foundFrom_of_stands`).

A lowered text is cut into characters alone (`edit_sweep`).  So no marker stands anywhere in it, and
lowering it once more changes nothing (`lowered_text_is_normal`).
-/

namespace LabelLoop.Marker

open Text

/-! ### Where markers stand -/

/-- The marker `name` of the kind `k` **stands** at the place `i` of a text. -/
def Kind.Stands (k : Kind) (t : Text) (i : Nat) (name : Text) : Prop :=
  ∃ raw, k.form.Spells name raw ∧ raw <+: t.drop i

/-- A marker stands where it can be read. -/
theorem Kind.Stands.exists_read? {k : Kind} {t name : Text} {i : Nat} (h : k.Stands t i name) :
    ∃ n, k.form.read? (t.drop i) = some (name, n) := by
  obtain ⟨raw, hspells, rest, hrest⟩ := h
  exact ⟨raw.length, by rw [← hrest]; exact hspells.read?_append k.proper rest⟩

/-- Where no marker begins, none stands. -/
theorem not_stands_of_silent {k : Kind} {a b name : Text} (h : Silent k a b) {i : Nat}
    (hi : i < a.length) : ¬k.Stands (a ++ b) i name := by
  intro hstands
  obtain ⟨n, hread⟩ := hstands.exists_read?
  induction a generalizing i with
  | nil => exact absurd hi (Nat.not_lt_zero i)
  | cons c a ih =>
    cases i with
    | zero =>
      rw [List.drop_zero, List.cons_append, h.1] at hread
      exact absurd hread (by simp)
    | succ i => exact ih h.2 (Nat.lt_of_succ_lt_succ hi) hstands hread

/-- No marker begins inside a label marker: it opens with a bracket, and holds no other. -/
theorem silent_tail_label {name cs : Text} {c : Char} (h : label.Spells name (c :: cs)) (b : Text) :
    Silent .label cs b := by
  obtain ⟨key, gap, pad, heq, hkey, ⟨-, hgap⟩, ⟨-, hname⟩, hpad⟩ := h
  have hword : label.keyword = '[' :: ['l', 'b', 'l', ']'] := rfl
  rw [hword] at hkey
  obtain ⟨x, key', -, hrest, rfl⟩ := List.forall₂_cons_left_iff.mp hkey
  rw [List.cons_append] at heq
  obtain ⟨-, rfl⟩ := List.cons.inj heq
  refine silent_of_initial (fun y hy => ?_) b
  by_contra hagrees
  rw [Bool.not_eq_false] at hagrees
  obtain rfl := eq_of_agrees (by decide) hagrees
  simp only [List.mem_append, List.mem_singleton] at hy
  rcases hy with hy | hy | hy | hy | hy
  · have hnone : ∀ p ∈ ['l', 'b', 'l', ']'], agrees p Kind.label.initial = false :=
      forall_mem_of_all (by decide)
    obtain ⟨p, hp, hp'⟩ := exists_agrees_of_mem hrest hy
    exact Bool.false_ne_true ((hnone p hp).symm.trans hp')
  · exact absurd (hgap _ hy) (by decide)
  · exact absurd (hname _ hy) (by decide)
  · exact absurd (hpad _ hy) (by decide)
  · exact absurd hy (by decide)

/-- No marker begins inside a jump marker: not in its keyword, which has one `g`, not in the blanks,
and not in the name, after which no further name comes before the closer. -/
theorem silent_tail_jump {name cs : Text} {c : Char} (h : jump.Spells name (c :: cs)) (b : Text) :
    Silent .jump cs b := by
  obtain ⟨key, gap, pad, heq, hkey, ⟨-, hgap⟩, ⟨-, hname⟩, hpad⟩ := h
  have hword : jump.keyword = 'g' :: ['o', 't', 'o'] := rfl
  rw [hword] at hkey
  obtain ⟨x, key', -, hrest, rfl⟩ := List.forall₂_cons_left_iff.mp hkey
  rw [List.cons_append] at heq
  obtain ⟨-, rfl⟩ := List.cons.inj heq
  have hplain : ∀ p ∈ ['o', 't', 'o'], PlainCase p ∧ p ≠ 'g' := forall_mem_of_all (by decide)
  refine silent_append.mpr ⟨silent_of_initial (fun y hy => ?_) _, ?_⟩
  · by_contra hagrees
    rw [Bool.not_eq_false] at hagrees
    obtain ⟨p, hp, hp'⟩ := exists_agrees_of_mem hrest hy
    have hlower : y.toLower = 'g' := (agrees_iff_toLower_eq (by decide)).mp hagrees
    rw [(agrees_iff_toLower_eq (hplain p hp).1).mp hp'] at hlower
    exact (hplain p hp).2 hlower
  refine silent_append.mpr ⟨silent_of_initial (fun y hy => ?_) _, ?_⟩
  · by_contra hagrees
    rw [Bool.not_eq_false] at hagrees
    have hy' : isWord y = true := isWord_of_agrees (p := Kind.jump.initial) (by decide) hagrees
    rw [isWord_eq_false_of_isBlank (hgap y hy)] at hy'
    exact Bool.false_ne_true hy'
  rw [← List.append_assoc]
  exact silent_append.mpr ⟨silent_jump_of_word_append hname hpad (by decide) (by decide),
    silent_of_all (by decide) b⟩

/-- **No marker begins inside a marker of its own kind.** -/
theorem Form.Spells.silent_tail {k : Kind} {name cs : Text} {c : Char}
    (h : k.form.Spells name (c :: cs)) (b : Text) : Silent k cs b := by
  cases k with
  | label => exact silent_tail_label h b
  | jump => exact silent_tail_jump h b

/-- **Every marker that stands in a text is a piece of its cut.** -/
theorem exists_mem_foundFrom_of_stands {ps : List Piece} (h : Cut ps) {k : Kind} {i : Nat}
    {name : Text} (hstands : k.Stands (written ps) i name) (offset : Nat) :
    ∃ m ∈ foundFrom k offset ps, m.start = offset + i ∧ m.item = name := by
  induction h using Cut.induct generalizing i offset with
  | nil =>
    obtain ⟨raw, hspells, hprefix⟩ := hstands
    rw [written_nil, List.drop_nil, List.prefix_nil] at hprefix
    exact absurd hprefix hspells.ne_nil
  | @char c ps hnone _ ih =>
    cases i with
    | zero =>
      obtain ⟨n, hread⟩ := hstands.exists_read?
      rw [List.drop_zero, written_char, hnone k] at hread
      exact absurd hread (by simp)
    | succ i =>
      obtain ⟨m, hm, hstart, hitem⟩ := ih (i := i) hstands (offset + 1)
      exact ⟨m, hm, by omega, hitem⟩
  | @marker k' name' raw ps hspells _ ih =>
    rw [written_marker] at hstands
    by_cases hi : i < raw.length
    · -- inside a marker only its own beginning is one
      by_cases hk : k' = k
      · subst hk
        obtain ⟨c, cs, rfl⟩ := List.exists_cons_of_ne_nil hspells.ne_nil
        cases i with
        | zero =>
          obtain ⟨n, hread⟩ := hstands.exists_read?
          rw [List.drop_zero, hspells.read?_append k'.proper] at hread
          obtain ⟨rfl, -⟩ := Prod.mk.inj (Option.some.inj hread)
          rw [foundFrom_marker, if_pos rfl]
          exact ⟨_, List.mem_cons_self, rfl, rfl⟩
        | succ i =>
          exact absurd hstands
            (not_stands_of_silent (hspells.silent_tail _) (Nat.lt_of_succ_lt_succ hi))
      · exact absurd hstands (not_stands_of_silent (hspells.silent_of_ne (Ne.symm hk) _) hi)
    · obtain ⟨j, rfl⟩ := Nat.exists_eq_add_of_le (Nat.le_of_not_lt hi)
      have hafter : k.Stands (written ps) j name := by
        obtain ⟨raw', hspells', hprefix⟩ := hstands
        rw [List.drop_length_add_append] at hprefix
        exact ⟨raw', hspells', hprefix⟩
      obtain ⟨m, hm, hstart, hitem⟩ := ih hafter (offset + raw.length)
      refine ⟨m, ?_, by omega, hitem⟩
      rw [foundFrom_marker]
      split
      · exact List.mem_cons_of_mem _ hm
      · exact hm

/-- A piece of a cut stands where it is found. -/
theorem stands_of_mem_foundFrom {ps : List Piece} (h : Cut ps) {k : Kind} {m : Found Text}
    (hm : m ∈ foundFrom k 0 ps) : k.Stands (written ps) m.start m.item := by
  obtain ⟨raw, rest, hdrop, -, hspells⟩ := exists_spells_of_mem_foundFrom h hm
  exact ⟨raw, hspells, rest, hdrop.symm⟩

end LabelLoop.Marker

namespace LabelLoop.Lowering

open Text Marker

/-- **Lowering reaches a normal form.**  It always has a result, in which no marker of either kind
stands anywhere; lowering the result gives it back, with neither labels nor jumps.  The jump targets
are the names of all jump markers of the text, in the order of their places. -/
theorem lowered_text_is_normal (t : Text) :
    ∃ lowered, lower Loop.header t = .ok lowered ∧
      (∀ k i name, ¬Kind.Stands k lowered.code i name) ∧
      lower Loop.header lowered.code = .ok ⟨lowered.code, [], []⟩ ∧
      ∃ markers : List (Nat × Text),
        lowered.jumpTargets = markers.map Prod.snd ∧
        (markers.Pairwise fun m m' => m.1 < m'.1) ∧
        ∀ i name, (i, name) ∈ markers ↔ Kind.jump.Stands t i name := by
  obtain ⟨ps, hcut, rfl⟩ := exists_cut t
  have hlowered : Cut (chars (sweep [] ps)) := (edit_sweep [] ps).cut hcut
  refine ⟨_, lower_written hcut, fun k i name hstands => ?_, lower_of_cut_chars hlowered,
    (foundFrom .jump 0 ps).map fun m => (m.start, m.item), ?_, ?_, fun i name => ?_⟩
  · rw [← written_chars (sweep [] ps)] at hstands
    obtain ⟨m, hm, -⟩ := exists_mem_foundFrom_of_stands hlowered hstands 0
    rw [← List.append_nil (chars _), foundFrom_chars] at hm
    exact absurd hm List.not_mem_nil
  · rw [List.map_map]
    exact congrArg (List.map Found.item) (search_written hcut .jump)
  · rw [List.pairwise_map]
    exact pairwise_foundFrom hcut .jump 0
  · rw [List.mem_map]
    constructor
    · rintro ⟨m, hm, heq⟩
      obtain ⟨rfl, rfl⟩ := Prod.mk.inj heq
      exact stands_of_mem_foundFrom hcut hm
    · intro hstands
      obtain ⟨m, hm, hstart, rfl⟩ := exists_mem_foundFrom_of_stands hcut hstands 0
      exact ⟨m, hm, by rw [hstart, Nat.zero_add]⟩

end LabelLoop.Lowering
