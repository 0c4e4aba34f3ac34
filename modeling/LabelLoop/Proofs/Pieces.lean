import LabelLoop.Proofs.Divisions
import LabelLoop.Proofs.Markers

/-!
# Texts cut into pieces

A text is cut into its markers and the single characters between them.  `Cut ps` says that a list
of pieces is such a cut of the text it spells, `written ps`: every marker is spelled as its kind
wants, and at no other character does a marker begin, with everything that follows in view.  Every
text has a cut (`exists_cut`).

What a search finds in a text can be read off its cut (`search_written`), and replacing all markers
of one kind replaces pieces (`replace_written`).  Both rest on `Silent k a b`: no marker of kind `k`
begins in `a` when `b` follows it.
-/

namespace LabelLoop.Marker

open Text
open Division (Divided divided_cons_iff exists_divided mem_foundFrom_iff searchFrom_divided
  searchFrom_append_of_read)

/-! ### The two kinds -/

/-- The **kinds** of markers. -/
inductive Kind where
  | label
  | jump
  deriving DecidableEq, Repr

/-- The form of a kind. -/
def Kind.form : Kind → Form
  | .label => Marker.label
  | .jump => Marker.jump

theorem Kind.proper : ∀ k : Kind, k.form.Proper
  | .label => label_proper
  | .jump => jump_proper

/-- The first character of the keyword of a kind. -/
def Kind.initial : Kind → Char
  | .label => '['
  | .jump => 'g'

theorem Kind.keyword_eq (k : Kind) : ∃ ps, k.form.keyword = k.initial :: ps := by
  cases k with
  | label => exact ⟨['l', 'b', 'l', ']'], rfl⟩
  | jump => exact ⟨['o', 't', 'o'], rfl⟩

/-- No character of a keyword has odd forms. -/
theorem Kind.plainCase (k : Kind) : ∀ p ∈ k.form.keyword, PlainCase p :=
  forall_mem_of_all (by cases k <;> decide)

/-- A text that does not begin like the keyword has no marker at its front. -/
theorem Kind.read?_cons_eq_none {k : Kind} {c : Char} (hc : agrees k.initial c = false)
    (t : Text) : k.form.read? (c :: t) = none := by
  by_contra hne
  obtain ⟨⟨name, n⟩, hread⟩ := Option.ne_none_iff_exists'.mp hne
  obtain ⟨raw, rest, heq, -, hspells⟩ := Form.spells_of_read? hread
  obtain ⟨ps, hps⟩ := k.keyword_eq
  obtain ⟨c', cs, rfl, hagrees⟩ := hspells.agrees_head hps
  rw [(List.cons.inj heq).1, hagrees] at hc
  exact Bool.false_ne_true hc.symm

/-! ### Texts in which no marker begins -/

/-- **No marker** of kind `k` begins in the first text when the second follows it. -/
def Silent (k : Kind) : Text → Text → Prop
  | [], _ => True
  | c :: a, b => k.form.read? (c :: (a ++ b)) = none ∧ Silent k a b

theorem silent_append {k : Kind} {a a' b : Text} :
    Silent k (a ++ a') b ↔ Silent k a (a' ++ b) ∧ Silent k a' b := by
  induction a with
  | nil => simp [Silent]
  | cons c a ih => simp only [List.cons_append, Silent, List.append_assoc, ih, and_assoc]

/-- No marker begins in a text without the first character of its keyword. -/
theorem silent_of_initial {k : Kind} {a : Text} (h : ∀ c ∈ a, agrees k.initial c = false)
    (b : Text) : Silent k a b := by
  induction a with
  | nil => trivial
  | cons c a ih =>
    exact ⟨Kind.read?_cons_eq_none (h c List.mem_cons_self) _,
      ih fun x hx => h x (List.mem_cons_of_mem _ hx)⟩

/-- The same for a given text, whose characters are checked one by one. -/
theorem silent_of_all {k : Kind} {a : Text} (h : a.all (fun c => !agrees k.initial c) = true)
    (b : Text) : Silent k a b := by
  refine silent_of_initial (fun c hc => ?_) b
  have hc := List.all_eq_true.mp h c hc
  rwa [Bool.not_eq_true'] at hc

/-- No marker begins in a text without a closer that a barrier follows. -/
theorem silent_of_barrier {k : Kind} {a b : Text} {c : Char} (ha : k.form.closer ∉ a)
    (hc : c ≠ k.form.closer) (hadm : k.form.admits c = false) : Silent k a (c :: b) := by
  induction a with
  | nil => trivial
  | cons x a ih =>
    refine ⟨?_, ih fun h => ha (List.mem_cons_of_mem _ h)⟩
    rw [← List.cons_append]
    exact Form.read?_eq_none_of_barrier ha hc hadm

/-- A text falls in one way only into a run of characters of a class and a rest that does not go on
with one. -/
theorem run_append_inj {p : Char → Bool} {a a' b b' : Text} (ha : ∀ x ∈ a, p x = true)
    (hb : ∀ x ∈ b.head?, p x = false) (ha' : ∀ x ∈ a', p x = true)
    (hb' : ∀ x ∈ b'.head?, p x = false) (h : a ++ b = a' ++ b') : a = a' ∧ b = b' := by
  rcases List.append_eq_append_iff.mp h with ⟨d, rfl, rfl⟩ | ⟨d, rfl, rfl⟩
  · cases d with
    | nil => simp
    | cons x d =>
      have hx := hb x rfl
      rw [ha' x (by simp)] at hx
      exact absurd hx (by simp)
  · cases d with
    | nil => simp
    | cons x d =>
      have hx := hb' x rfl
      rw [ha x (by simp)] at hx
      exact absurd hx (by simp)

/-- No jump marker begins in a word and the blanks after it, if what follows is neither blank nor a
word character: its keyword would end with the word and its gap with the blanks, and no name comes
after them. -/
theorem silent_jump_of_word_append {a pad b : Text} {c : Char} (ha : ∀ x ∈ a, isWord x = true)
    (hpad : ∀ x ∈ pad, isBlank x = true) (hblank : isBlank c = false) (hword : isWord c = false) :
    Silent .jump (a ++ pad) (c :: b) := by
  induction a with
  | nil =>
    refine silent_of_initial (fun x hx => ?_) _
    by_contra hagrees
    rw [Bool.not_eq_false] at hagrees
    have hx' : isWord x = true := isWord_of_agrees (p := Kind.jump.initial) (by decide) hagrees
    rw [isWord_eq_false_of_isBlank (hpad x hx)] at hx'
    exact Bool.false_ne_true hx'
  | cons x a ih =>
    rw [List.cons_append]
    refine ⟨?_, ih fun y hy => ha y (List.mem_cons_of_mem _ hy)⟩
    by_contra hne
    obtain ⟨⟨name, n⟩, hread⟩ := Option.ne_none_iff_exists'.mp hne
    obtain ⟨raw, rest, heq, -, key, gap, pad', rfl, hkey, ⟨hgap0, hgap⟩, ⟨hname0, hname⟩, -⟩ :=
      Form.spells_of_read? hread
    obtain ⟨g, gs, rfl⟩ := List.exists_cons_of_ne_nil hgap0
    obtain ⟨m, ms, rfl⟩ := List.exists_cons_of_ne_nil hname0
    have hg : isWord g = false := isWord_eq_false_of_isBlank (hgap g List.mem_cons_self)
    have hm : isWord m = true := hname m List.mem_cons_self
    have hkeyword : ∀ y ∈ key, isWord y = true := by
      intro y hy
      have halpha : ∀ p ∈ Kind.jump.form.keyword, p.isAlpha = true :=
        forall_mem_of_all (by decide)
      obtain ⟨p, hp, hagrees⟩ := exists_agrees_of_mem hkey hy
      exact isWord_of_agrees (halpha p hp) hagrees
    have hafter : ∀ y ∈ (pad ++ c :: b).head?, isWord y = false := by
      cases pad with
      | nil => simpa using hword
      | cons z pad => simpa using isWord_eq_false_of_isBlank (hpad z List.mem_cons_self)
    rw [← List.cons_append, ← List.cons_append, List.append_assoc, List.append_assoc] at heq
    -- the keyword is the word, the gap is the blanks, and the name would begin with `c`
    obtain ⟨-, htail⟩ := run_append_inj ha hafter hkeyword (by simpa using hg) heq
    rw [List.append_assoc] at htail
    obtain ⟨-, htail⟩ := run_append_inj hpad (by simpa using hblank) hgap
      (by simpa using isBlank_eq_false_of_isWord hm) htail
    rw [(List.cons.inj htail).1, hm] at hword
    exact Bool.false_ne_true hword.symm

/-- No jump marker begins in a word that neither a blank nor a word character follows. -/
theorem silent_jump_of_word {a b : Text} {c : Char} (ha : ∀ x ∈ a, isWord x = true)
    (hblank : isBlank c = false) (hword : isWord c = false) : Silent .jump a (c :: b) := by
  have hsilent : Silent .jump (a ++ []) (c :: b) :=
    silent_jump_of_word_append ha (fun x hx => absurd hx List.not_mem_nil) hblank hword
  rwa [List.append_nil] at hsilent

/-- A search passes over a text in which no marker begins. -/
theorem searchFrom_append_of_silent {k : Kind} {a b : Text} (h : Silent k a b) (offset : Nat) :
    searchFrom k.form.read? offset 0 (a ++ b) =
      searchFrom k.form.read? (offset + a.length) 0 b := by
  induction a generalizing offset with
  | nil => rfl
  | cons c a ih =>
    rw [List.cons_append, searchFrom, h.1]
    simp only
    rw [ih h.2, List.length_cons, Nat.add_assoc, Nat.add_comm 1]

/-- Replacement keeps a text in which no marker begins. -/
theorem replaceFrom_append_of_silent {k : Kind} {render : Text → Text} {a b : Text}
    (h : Silent k a b) :
    replaceFrom k.form.read? render 0 (a ++ b) = a ++ replaceFrom k.form.read? render 0 b := by
  induction a with
  | nil => rfl
  | cons c a ih =>
    rw [List.cons_append, replaceFrom, h.1]
    simp only
    rw [ih h.2, List.cons_append]

/-- No marker begins inside a marker of the other kind. -/
theorem Form.Spells.silent_of_ne {k k' : Kind} {name raw : Text} (hk : k ≠ k')
    (h : k'.form.Spells name raw) (b : Text) : Silent k raw b := by
  cases k with
  | label =>
    cases k' with
    | label => exact absurd rfl hk
    | jump =>
      -- there is no bracket in a jump marker
      refine silent_of_initial (fun c hc => ?_) b
      by_contra hagrees
      rw [Bool.not_eq_false] at hagrees
      obtain rfl := eq_of_agrees (by decide) hagrees
      rcases h.admits_or_eq hc with hadm | hcloser
      · exact absurd hadm (by decide +kernel)
      · exact absurd hcloser (by decide)
  | jump =>
    cases k' with
    | jump => exact absurd rfl hk
    | label =>
      -- a jump marker would reach over the colon that ends the label marker
      obtain ⟨front, rfl, hfront⟩ := h.eq_append_closer
      refine silent_append.mpr ⟨silent_of_barrier ?_ (by decide) (by decide +kernel),
        silent_of_all (by decide +kernel) b⟩
      intro hmem
      exact absurd (hfront _ hmem) (by decide +kernel)

/-- A character that does not stand in the first of two texts stands in the second. -/
theorem exists_of_append_eq_append_cons {c : Char} {r u a b : Text} (hc : c ∉ r)
    (h : r ++ u = a ++ c :: b) : ∃ d, a = r ++ d ∧ u = d ++ c :: b := by
  rcases List.append_eq_append_iff.mp h with hrest | ⟨d, hr, hd⟩
  · exact hrest
  · cases d with
    | nil => exact ⟨[], by rw [hr]; simp, hd.symm⟩
    | cons x d =>
      obtain rfl := (List.cons.inj hd).1
      exact absurd (by rw [hr]; simp) hc

/-! ### Pieces -/

/-- A **piece** of a text: one character, or a marker with its name and the way it is spelled. -/
inductive Piece where
  | char (c : Char)
  | marker (kind : Kind) (name raw : Text)
  deriving DecidableEq, Repr

/-- The text of a piece. -/
def Piece.text : Piece → Text
  | .char c => [c]
  | .marker _ _ raw => raw

/-- The text that pieces make up. -/
def written (ps : List Piece) : Text :=
  ps.flatMap Piece.text

/-- The characters of a text as pieces. -/
def chars (t : Text) : List Piece :=
  t.map .char

@[simp] theorem written_nil : written [] = [] := rfl

@[simp] theorem written_char (c : Char) (ps : List Piece) :
    written (.char c :: ps) = c :: written ps := rfl

@[simp] theorem written_marker (k : Kind) (name raw : Text) (ps : List Piece) :
    written (.marker k name raw :: ps) = raw ++ written ps := rfl

@[simp] theorem written_append (ps qs : List Piece) :
    written (ps ++ qs) = written ps ++ written qs :=
  List.flatMap_append

@[simp] theorem written_chars (t : Text) : written (chars t) = t := by
  induction t with
  | nil => rfl
  | cons c t ih => rw [chars, List.map_cons, written_char, ← chars, ih]

theorem chars_append (s t : Text) : chars (s ++ t) = chars s ++ chars t :=
  List.map_append

/-- When a piece **fits** before a text: no marker begins at a character there, and a marker is
spelled as its kind wants. -/
def Piece.Fits : Piece → Text → Prop
  | .char c, rest => ∀ k : Kind, k.form.read? (c :: rest) = none
  | .marker k name raw, _ => k.form.Spells name raw

/-- The pieces are a **cut** of the text they make up. -/
abbrev Cut : List Piece → Prop :=
  Divided Piece.text Piece.Fits

theorem cut_char_iff {c : Char} {ps : List Piece} :
    Cut (.char c :: ps) ↔ (∀ k : Kind, k.form.read? (c :: written ps) = none) ∧ Cut ps :=
  divided_cons_iff

theorem cut_marker_iff {k : Kind} {name raw : Text} {ps : List Piece} :
    Cut (.marker k name raw :: ps) ↔ k.form.Spells name raw ∧ Cut ps :=
  divided_cons_iff

/-- A character at which no marker begins. -/
theorem Cut.char {c : Char} {ps : List Piece}
    (h : ∀ k : Kind, k.form.read? (c :: written ps) = none) (hps : Cut ps) : Cut (.char c :: ps) :=
  cut_char_iff.mpr ⟨h, hps⟩

/-- A marker as its kind spells it. -/
theorem Cut.marker {k : Kind} {name raw : Text} {ps : List Piece} (h : k.form.Spells name raw)
    (hps : Cut ps) : Cut (.marker k name raw :: ps) :=
  cut_marker_iff.mpr ⟨h, hps⟩

/-- Induction on a cut, with a case for each kind of piece. -/
@[elab_as_elim]
theorem Cut.induct {motive : (ps : List Piece) → Cut ps → Prop} (nil : motive [] .nil)
    (char : ∀ {c : Char} {ps : List Piece} (h : ∀ k : Kind, k.form.read? (c :: written ps) = none)
      (hps : Cut ps), motive ps hps → motive (.char c :: ps) (.char h hps))
    (marker : ∀ {k : Kind} {name raw : Text} {ps : List Piece} (h : k.form.Spells name raw)
      (hps : Cut ps), motive ps hps → motive (.marker k name raw :: ps) (.marker h hps))
    {ps : List Piece} (h : Cut ps) : motive ps h := by
  induction h with
  | nil => exact nil
  | @cons p ps h hps ih =>
    cases p with
    | char c => exact char h hps ih
    | marker k name raw => exact marker h hps ih

theorem Cut.of_append_cons {ps qs : List Piece} {p : Piece} (h : Cut (ps ++ p :: qs)) : Cut qs :=
  (divided_cons_iff.mp h.of_append).2

/-- A marker of a cut is spelled as its kind wants. -/
theorem Cut.spells {ps qs : List Piece} {k : Kind} {name raw : Text}
    (h : Cut (ps ++ .marker k name raw :: qs)) : k.form.Spells name raw :=
  h.fits

theorem Cut.spells_of_mem {ps : List Piece} (h : Cut ps) {k : Kind} {name raw : Text}
    (hmem : .marker k name raw ∈ ps) : k.form.Spells name raw := by
  obtain ⟨before, after, rfl⟩ := List.append_of_mem hmem
  exact h.spells

/-- No piece of a cut is empty. -/
theorem Cut.text_ne_nil {ps : List Piece} (h : Cut ps) : ∀ p ∈ ps, p.text ≠ [] := by
  intro p hp
  cases p with
  | char c => exact List.cons_ne_nil _ _
  | marker k name raw => exact (h.spells_of_mem hp).ne_nil

/-- **Every text has a cut.** -/
theorem exists_cut (t : Text) : ∃ ps, Cut ps ∧ written ps = t := by
  refine exists_divided (fun c cs => ?_) t
  by_cases hnone : ∀ k : Kind, k.form.read? (c :: cs) = none
  · exact ⟨.char c, cs, rfl, List.cons_ne_nil _ _, hnone⟩
  · push Not at hnone
    obtain ⟨k, hk⟩ := hnone
    obtain ⟨⟨name, m⟩, hread⟩ := Option.ne_none_iff_exists'.mp hk
    obtain ⟨raw, rest, heq, -, hspells⟩ := Form.spells_of_read? hread
    exact ⟨.marker k name raw, rest, heq, hspells.ne_nil, hspells⟩

/-! ### What a search finds -/

/-- The name of a marker of the kind `k`. -/
def Piece.name? (k : Kind) : Piece → Option Text
  | .char _ => none
  | .marker k' name _ => if k' = k then some name else none

/-- The markers of a kind among pieces of which the first stands at `offset`. -/
def foundFrom (k : Kind) (offset : Nat) (ps : List Piece) : List (Found Text) :=
  Division.foundFrom Piece.text (Piece.name? k) offset ps

theorem foundFrom_marker (k k' : Kind) (offset : Nat) (name raw : Text) (ps : List Piece) :
    foundFrom k offset (.marker k' name raw :: ps) =
      if k' = k then ⟨offset, raw.length, name⟩ :: foundFrom k (offset + raw.length) ps
      else foundFrom k (offset + raw.length) ps := by
  rw [foundFrom, Division.foundFrom, Piece.name?]
  split <;> rfl

theorem foundFrom_chars (k : Kind) (offset : Nat) (t : Text) (ps : List Piece) :
    foundFrom k offset (chars t ++ ps) = foundFrom k (offset + t.length) ps := by
  induction t generalizing offset with
  | nil => rfl
  | cons c t ih =>
    show foundFrom k (offset + 1) (chars t ++ ps) = _
    rw [ih, List.length_cons, Nat.add_assoc, Nat.add_comm 1]

theorem foundFrom_append (k : Kind) (offset : Nat) (ps qs : List Piece) :
    foundFrom k offset (ps ++ qs) =
      foundFrom k offset ps ++ foundFrom k (offset + (written ps).length) qs :=
  Division.foundFrom_append offset ps qs

theorem name?_eq_some_iff {k : Kind} {p : Piece} {name : Text} :
    p.name? k = some name ↔ ∃ raw, p = .marker k name raw := by
  cases p with
  | char c => simp [Piece.name?]
  | marker k' name' raw =>
    by_cases hk : k' = k
    · simp [Piece.name?, hk]
    · simp [Piece.name?, hk]

/-- A marker found is one of the pieces, and stands after those before it. -/
theorem exists_of_mem_foundFrom {k : Kind} {offset : Nat} {ps : List Piece} {m : Found Text}
    (h : m ∈ foundFrom k offset ps) :
    ∃ before name raw after, ps = before ++ .marker k name raw :: after ∧
      m = ⟨offset + (written before).length, raw.length, name⟩ := by
  obtain ⟨before, p, after, name, rfl, hname, rfl⟩ := mem_foundFrom_iff.mp h
  obtain ⟨raw, rfl⟩ := name?_eq_some_iff.mp hname
  exact ⟨before, name, raw, after, rfl, rfl⟩

/-- A marker found in a cut is spelled at its place. -/
theorem exists_spells_of_mem_foundFrom {ps : List Piece} (h : Cut ps) {k : Kind} {m : Found Text}
    (hm : m ∈ foundFrom k 0 ps) :
    ∃ raw rest, (written ps).drop m.start = raw ++ rest ∧ raw.length = m.length ∧
      k.form.Spells m.item raw := by
  obtain ⟨before, name, raw, after, rfl, rfl⟩ := exists_of_mem_foundFrom hm
  refine ⟨raw, written after, ?_, rfl, h.spells⟩
  rw [written_append, written_marker, Nat.zero_add, List.drop_left]

/-- The markers found stand one after another. -/
theorem pairwise_foundFrom {ps : List Piece} (h : Cut ps) (k : Kind) (offset : Nat) :
    (foundFrom k offset ps).Pairwise fun a b => a.start < b.start :=
  Division.pairwise_foundFrom h.text_ne_nil offset

/-- The names of the markers of a kind, in order. -/
def names (k : Kind) (ps : List Piece) : List Text :=
  ps.filterMap (Piece.name? k)

theorem names_marker (k k' : Kind) (name raw : Text) (ps : List Piece) :
    names k (.marker k' name raw :: ps) = if k' = k then name :: names k ps else names k ps := by
  by_cases hk : k' = k
  · rw [if_pos hk]
    exact List.filterMap_cons_some (if_pos hk)
  · rw [if_neg hk]
    exact List.filterMap_cons_none (if_neg hk)

theorem names_chars (k : Kind) (t : Text) (ps : List Piece) :
    names k (chars t ++ ps) = names k ps := by
  induction t with
  | nil => rfl
  | cons c t ih => exact ih

theorem names_append (k : Kind) (ps qs : List Piece) :
    names k (ps ++ qs) = names k ps ++ names k qs :=
  List.filterMap_append

theorem map_item_foundFrom (k : Kind) (offset : Nat) (ps : List Piece) :
    (foundFrom k offset ps).map Found.item = names k ps :=
  Division.map_item_foundFrom offset ps

/-- **The markers of a text are the markers of its cut.** -/
theorem searchFrom_written {ps : List Piece} (h : Cut ps) (k : Kind) (offset : Nat) :
    searchFrom k.form.read? offset 0 (written ps) = foundFrom k offset ps := by
  refine searchFrom_divided (fun p rest offset hfits => ?_) h offset
  cases p with
  | char c =>
    show searchFrom k.form.read? offset 0 (c :: rest) = _
    rw [searchFrom, hfits k]
    rfl
  | marker k' name raw =>
    rw [Piece.name?]
    by_cases hk : k' = k
    · subst hk
      rw [if_pos rfl]
      exact searchFrom_append_of_read hfits.ne_nil (hfits.read?_append k'.proper rest) offset
    · rw [if_neg hk]
      exact searchFrom_append_of_silent (hfits.silent_of_ne (Ne.symm hk) _) offset

theorem search_written {ps : List Piece} (h : Cut ps) (k : Kind) :
    search k.form.read? (written ps) = foundFrom k 0 ps :=
  searchFrom_written h k 0

theorem labels_written {ps : List Piece} (h : Cut ps) :
    labels (written ps) = foundFrom .label 0 ps :=
  search_written h .label

/-- A label marker begins inside the text. -/
theorem start_lt_of_mem_labels {t : Text} {m : Found Text} (h : m ∈ labels t) :
    m.start < t.length := by
  obtain ⟨ps, hcut, rfl⟩ := exists_cut t
  rw [labels_written hcut] at h
  obtain ⟨before, name, raw, after, rfl, rfl⟩ := exists_of_mem_foundFrom h
  have := List.length_pos_of_ne_nil hcut.spells.ne_nil
  rw [written_append, written_marker, List.length_append, List.length_append]
  dsimp only
  omega

theorem countLabels_written {ps : List Piece} (h : Cut ps) :
    countLabels (written ps) = (names .label ps).length := by
  rw [countLabels, labels_written h, ← map_item_foundFrom .label 0 ps, List.length_map]

/-- The first marker of a text, if any, is the first one found. -/
theorem firstFrom?_eq_head? {α : Type} (read : Recogniser α) (offset : Nat) (t : Text) :
    firstFrom? read offset t = (searchFrom read offset 0 t).head? := by
  induction t generalizing offset with
  | nil => rfl
  | cons c cs ih =>
    rw [firstFrom?, searchFrom]
    cases read (c :: cs) with
    | none => exact ih (offset + 1)
    | some a => rfl

theorem firstLabel?_eq_head? (t : Text) : firstLabel? t = (labels t).head? :=
  firstFrom?_eq_head? _ 0 t

theorem mem_labels_of_firstLabel? {t : Text} {m : Found Text} (h : firstLabel? t = some m) :
    m ∈ labels t := by
  rw [firstLabel?_eq_head?] at h
  exact List.mem_of_head? h

/-! ### Replacing the markers of one kind -/

/-- Writes `render name` for every marker of the kind `k`. -/
def rendered (k : Kind) (render : Text → Text) : List Piece → List Piece
  | [] => []
  | .char c :: ps => .char c :: rendered k render ps
  | .marker k' name raw :: ps =>
    if k' = k then chars (render name) ++ rendered k render ps
    else .marker k' name raw :: rendered k render ps

/-- **Replacing markers of a text replaces pieces of its cut.** -/
theorem replace_written {ps : List Piece} (h : Cut ps) (k : Kind) (render : Text → Text) :
    replace k.form.read? render (written ps) = written (rendered k render ps) := by
  rw [replace]
  induction h using Cut.induct with
  | nil => rfl
  | @char c ps hnone hps ih =>
    rw [written_char, replaceFrom, hnone k, rendered, written_char, ← ih]
  | @marker k' name raw ps hspells hps ih =>
    rw [written_marker, rendered]
    by_cases hk : k' = k
    · subst hk
      obtain ⟨c, cs, hraw⟩ := List.exists_cons_of_ne_nil hspells.ne_nil
      have hread := hspells.read?_append k'.proper (written ps)
      rw [hraw, List.cons_append] at hread ⊢
      rw [replaceFrom, hread, if_pos rfl]
      simp only [List.length_cons, Nat.add_sub_cancel]
      rw [replaceFrom_skip, List.drop_left, ih, written_append, written_chars]
    · rw [replaceFrom_append_of_silent (hspells.silent_of_ne (Ne.symm hk) _), if_neg hk, ih,
        written_marker]

end LabelLoop.Marker
