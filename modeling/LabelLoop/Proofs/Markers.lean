import LabelLoop.Marker.Basic
import LabelLoop.Proofs.Characters
import Mathlib.Data.List.TakeWhile

/-!
# How markers are spelled

`Form.Spells form name t` says, without reading from left to right, that `t` is a marker: a keyword
in any case, blanks, a name, perhaps blanks, and the closer.  `Form.read?` finds at the front of a
text exactly what is spelled there (`read?_eq_some_iff`), so a marker is read whatever follows it
(`Form.Spells.read?_append`).

A marker reaches its closer through keyword characters, blanks and word characters only.  So no
marker is read across a character of any other kind (`read?_eq_none_of_barrier`); this is the one
fact that all arguments about neighbouring texts rest on.
-/

namespace LabelLoop.Marker

open Text

/-! ### Forms and their markers -/

/-- A form is **proper** if its closer can be told from the name and from the blanks before it. -/
structure Form.Proper (form : Form) : Prop where
  closer_not_blank : isBlank form.closer = false
  closer_not_word : isWord form.closer = false

theorem label_proper : label.Proper :=
  ⟨by decide, by decide⟩

theorem jump_proper : jump.Proper :=
  ⟨by decide, by decide⟩

/-- `t` is a **marker** of the given form with the name `name`. -/
def Form.Spells (form : Form) (name t : Text) : Prop :=
  ∃ key gap pad, t = key ++ (gap ++ (name ++ (pad ++ [form.closer]))) ∧
    List.Forall₂ (fun p c => agrees p c = true) form.keyword key ∧
    (gap ≠ [] ∧ ∀ c ∈ gap, isBlank c = true) ∧ (name ≠ [] ∧ ∀ c ∈ name, isWord c = true) ∧
    ∀ c ∈ pad, isBlank c = true

/-- The characters before one that does not belong to them are taken all, and no more. -/
theorem takeWhile_append_cons_of_neg {p : Char → Bool} {a b : Text} {c : Char}
    (ha : ∀ x ∈ a, p x = true) (hc : p c = false) : (a ++ c :: b).takeWhile p = a := by
  rw [List.takeWhile_append_of_pos ha, List.takeWhile_cons_of_neg (by simp [hc]), List.append_nil]

/-- A text is what is taken from its front, and the rest of it. -/
theorem takeWhile_append_drop (p : Char → Bool) (t : Text) :
    t.takeWhile p ++ t.drop (t.takeWhile p).length = t :=
  List.prefix_iff_eq_append.mp (List.takeWhile_prefix p)

/-- What is read is spelled. -/
theorem Form.spells_of_read? {form : Form} {t name : Text} {n : Nat}
    (h : form.read? t = some (name, n)) :
    ∃ raw rest, t = raw ++ rest ∧ raw.length = n ∧ form.Spells name raw := by
  rw [Form.read?] at h
  split at h
  · exact absurd h (by simp)
  · rename_i afterKeyword hafter
    obtain ⟨key, rfl, hkey⟩ := afterIgnoringCase?_eq_some_iff.mp hafter
    simp only at h
    split at h
    · exact absurd h (by simp)
    · rename_i hparts
      split at h
      · exact absurd h (by simp)
      · rename_i c rest hrest
        split at h
        · rename_i hc
          simp only [Option.some.injEq, Prod.mk.injEq] at h
          obtain ⟨rfl, rfl⟩ := h
          simp only [Bool.or_eq_true, decide_eq_true_eq, List.isEmpty_iff, not_or] at hparts
          -- the parts of the marker, one after another
          set gap := afterKeyword.takeWhile isBlank with hgap
          set afterGap := afterKeyword.drop gap.length with hafterGap
          set name := afterGap.takeWhile isWord with hname
          set afterName := afterGap.drop name.length with hafterName
          set pad := afterName.takeWhile isBlank with hpad
          have h1 : afterKeyword = gap ++ afterGap := (takeWhile_append_drop _ _).symm
          have h2 : afterGap = name ++ afterName := (takeWhile_append_drop _ _).symm
          have h3 : afterName = pad ++ c :: rest := by
            rw [← hrest]; exact (takeWhile_append_drop _ _).symm
          refine ⟨key ++ (gap ++ (name ++ (pad ++ [form.closer]))), rest, ?_, ?_,
            key, gap, pad, rfl, hkey, ⟨?_, ?_⟩, ⟨hparts.2, ?_⟩, ?_⟩
          · rw [h1, h2, h3, hc]
            simp only [List.append_assoc, List.cons_append, List.nil_append]
          · simp only [List.length_append, List.length_cons, List.length_nil, hkey.length_eq]
            omega
          · intro hnil
            exact hparts.1 (by rw [hnil, List.length_nil])
          · exact fun c hc => List.mem_takeWhile_imp hc
          · exact fun c hc => List.mem_takeWhile_imp hc
          · exact fun c hc => List.mem_takeWhile_imp hc
        · exact absurd h (by simp)

/-- What is spelled is read, whatever follows. -/
theorem Form.Spells.read?_append {form : Form} (hform : form.Proper) {name raw : Text}
    (h : form.Spells name raw) (rest : Text) :
    form.read? (raw ++ rest) = some (name, raw.length) := by
  obtain ⟨key, gap, pad, rfl, hkey, ⟨hgap0, hgap⟩, ⟨hname0, hname⟩, hpad⟩ := h
  have hafter : afterIgnoringCase? form.keyword
      (key ++ (gap ++ (name ++ (pad ++ [form.closer]))) ++ rest)
        = some (gap ++ (name ++ (pad ++ form.closer :: rest))) := by
    refine afterIgnoringCase?_eq_some_iff.mpr ⟨key, ?_, hkey⟩
    simp only [List.append_assoc, List.cons_append, List.nil_append]
  have htakeGap : (gap ++ (name ++ (pad ++ form.closer :: rest))).takeWhile isBlank = gap := by
    cases hn : name with
    | nil => exact absurd hn hname0
    | cons c cs =>
      refine takeWhile_append_cons_of_neg hgap (isBlank_eq_false_of_isWord (hname c ?_))
      rw [hn]; exact List.mem_cons_self
  have htakeName : (name ++ (pad ++ form.closer :: rest)).takeWhile isWord = name := by
    cases hp : pad with
    | nil => exact takeWhile_append_cons_of_neg hname hform.closer_not_word
    | cons c cs =>
      refine takeWhile_append_cons_of_neg hname (isWord_eq_false_of_isBlank (hpad c ?_))
      rw [hp]; exact List.mem_cons_self
  have htakePad : (pad ++ form.closer :: rest).takeWhile isBlank = pad :=
    takeWhile_append_cons_of_neg hpad hform.closer_not_blank
  have hparts : (decide (gap.length = 0) || name.isEmpty) = false := by
    simp [hgap0, hname0]
  rw [Form.read?, hafter]
  simp only [htakeGap, List.drop_left, htakeName, htakePad, hparts, Bool.false_eq_true, if_false,
    if_true]
  simp only [List.length_append, List.length_cons, List.length_nil, hkey.length_eq, Nat.add_assoc]

/-- **A marker is read exactly where one is spelled.** -/
theorem Form.read?_eq_some_iff {form : Form} (hform : form.Proper) {t name : Text} {n : Nat} :
    form.read? t = some (name, n) ↔
      ∃ raw rest, t = raw ++ rest ∧ raw.length = n ∧ form.Spells name raw := by
  constructor
  · exact Form.spells_of_read?
  · rintro ⟨raw, rest, rfl, rfl, h⟩
    exact h.read?_append hform rest

/-! ### What stands inside a marker -/

/-- The characters that may stand in a marker before its closer. -/
def Form.admits (form : Form) (c : Char) : Bool :=
  form.keyword.any (agrees · c) || isBlank c || isWord c

/-- A marker consists of admitted characters and the closer. -/
theorem Form.Spells.eq_append_closer {form : Form} {name raw : Text} (h : form.Spells name raw) :
    ∃ front, raw = front ++ [form.closer] ∧ ∀ c ∈ front, form.admits c = true := by
  obtain ⟨key, gap, pad, rfl, hkey, ⟨-, hgap⟩, ⟨-, hname⟩, hpad⟩ := h
  refine ⟨key ++ (gap ++ (name ++ pad)), ?_, ?_⟩
  · simp only [List.append_assoc]
  · intro c hc
    simp only [List.mem_append] at hc
    simp only [Form.admits, Bool.or_eq_true, List.any_eq_true]
    rcases hc with hc | hc | hc | hc
    · exact Or.inl (Or.inl (exists_agrees_of_mem hkey hc))
    · exact Or.inl (Or.inr (hgap c hc))
    · exact Or.inr (hname c hc)
    · exact Or.inl (Or.inr (hpad c hc))

/-- Every character of a marker is admitted or is the closer. -/
theorem Form.Spells.admits_or_eq {form : Form} {name raw : Text} (h : form.Spells name raw)
    {c : Char} (hc : c ∈ raw) : form.admits c = true ∨ c = form.closer := by
  obtain ⟨front, rfl, hfront⟩ := h.eq_append_closer
  rcases List.mem_append.mp hc with hc | hc
  · exact Or.inl (hfront c hc)
  · exact Or.inr (List.mem_singleton.mp hc)

theorem Form.Spells.ne_nil {form : Form} {name raw : Text} (h : form.Spells name raw) :
    raw ≠ [] := by
  obtain ⟨front, rfl, -⟩ := h.eq_append_closer
  simp

theorem Form.Spells.isWord_name {form : Form} {name raw : Text} (h : form.Spells name raw) :
    ∀ c ∈ name, isWord c = true := by
  obtain ⟨-, -, -, -, -, -, ⟨-, hname⟩, -⟩ := h
  exact hname

/-- The first character of a marker is that of its keyword. -/
theorem Form.Spells.agrees_head {form : Form} {name raw : Text} {p : Char} {ps : Text}
    (hform : form.keyword = p :: ps) (h : form.Spells name raw) :
    ∃ c cs, raw = c :: cs ∧ agrees p c = true := by
  obtain ⟨key, gap, pad, rfl, hkey, -⟩ := h
  rw [hform] at hkey
  cases hkey with
  | cons hc hcs => exact ⟨_, _, rfl, hc⟩

/-- **No marker is read across a barrier**: a character that is neither admitted nor the closer,
with no closer before it. -/
theorem Form.read?_eq_none_of_barrier {form : Form} {a b : Text} {c : Char}
    (ha : form.closer ∉ a) (hc : c ≠ form.closer) (hadm : form.admits c = false) :
    form.read? (a ++ c :: b) = none := by
  by_contra hne
  obtain ⟨⟨name, n⟩, hread⟩ := Option.ne_none_iff_exists'.mp hne
  obtain ⟨raw, rest, heq, -, hspells⟩ := Form.spells_of_read? hread
  obtain ⟨front, hraw, hfront⟩ := hspells.eq_append_closer
  rw [hraw, List.append_assoc, List.singleton_append] at heq
  rcases List.append_eq_append_iff.mp heq with ⟨d, hd, hrest⟩ | ⟨d, hd, hrest⟩
  · -- `c` stands before the closer
    cases d with
    | nil => exact hc (List.cons.inj hrest).1
    | cons x d =>
      rw [(List.cons.inj hrest).1] at hadm
      have := hfront x (by rw [hd]; simp)
      exact Bool.false_ne_true (hadm.symm.trans this)
  · -- the closer stands in `a`
    cases d with
    | nil => exact hc (List.cons.inj hrest).1.symm
    | cons x d => exact ha (by rw [hd, (List.cons.inj hrest).1]; simp)

end LabelLoop.Marker
