import LabelLoop.Lowering.Loop
import LabelLoop.Proofs.Pieces

/-!
# What lowering writes makes no markers

Lowering writes three things into a text: the header of a loop, the lowered form of a jump, and
closing braces.  None of them holds a marker, and none of them makes one together with the text
around it, whatever that text is.  So the pieces of a text stay the pieces of the text after any of
these edits, in any number and at any seams between pieces (`Edit.cut`).

The argument for the seams is the same for all of them.  A marker that begins in the old text and
ends in its closer meets, before any closer that was written, an equals sign or a brace, over which
no marker reaches.  So it ends in the old text, and was there before (`Edit.begins_of_begins`).
-/

namespace LabelLoop.Marker

open Text

/-! ### The templates -/

/-- What the marker `name` of a kind becomes. -/
def Kind.lowered : Kind → Text → Text
  | .label => Loop.header
  | .jump => Loop.jump

/-- Every character that a template writes beside the name. -/
def templateChars : Text :=
  "var goto_function_ = false;\n: while(!)\x7b\n true continue".toList

/-- A lowered marker consists of characters of its name and of the templates. -/
theorem mem_lowered {k : Kind} {name : Text} {c : Char} (h : c ∈ k.lowered name) :
    c ∈ name ∨ c ∈ templateChars := by
  have hpart : ∀ s : Text, s.all (fun x => decide (x ∈ templateChars)) = true → c ∈ s →
      c ∈ name ∨ c ∈ templateChars :=
    fun s hs hc => Or.inr (forall_mem_of_all hs c hc)
  cases k with
  | label =>
    unfold Kind.lowered Loop.header Loop.sentinel at h
    simp only [List.mem_append] at h
    rcases h with (((((((h | h | h) | h) | h) | h) | h | h) | h) | h | h) | h
    · exact hpart _ (by decide +kernel) h
    · exact hpart _ (by decide +kernel) h
    · exact Or.inl h
    · exact hpart _ (by decide +kernel) h
    · exact Or.inl h
    · exact hpart _ (by decide +kernel) h
    · exact hpart _ (by decide +kernel) h
    · exact Or.inl h
    · exact hpart _ (by decide +kernel) h
    · exact hpart _ (by decide +kernel) h
    · exact Or.inl h
    · exact hpart _ (by decide +kernel) h
  | jump =>
    unfold Kind.lowered Loop.jump Loop.sentinel at h
    simp only [List.mem_append] at h
    rcases h with (((h | h) | h) | h) | h
    · exact hpart _ (by decide +kernel) h
    · exact Or.inl h
    · exact hpart _ (by decide +kernel) h
    · exact Or.inl h
    · exact hpart _ (by decide +kernel) h

/-- A header, cut where an equals sign, a colon or a parenthesis stops every jump marker. -/
theorem header_eq (name : Text) :
    Loop.header name =
      ("var goto_function_".toList ++ (name ++ [' '])) ++ ('=' :: " false;\n".toList ++ (name ++
        (':' :: " while(!".toList ++ (("goto_function_".toList ++ name) ++
          (')' :: "\x7b\n ".toList ++
            (("goto_function_".toList ++ (name ++ [' '])) ++ '=' :: " true;\n".toList)))))) := by
  have h1 : "var goto_function_".toList = "var ".toList ++ "goto_function_".toList := rfl
  have h2 : " = false;\n".toList = [' '] ++ ('=' :: " false;\n".toList) := rfl
  have h3 : ": while(!".toList = ':' :: " while(!".toList := rfl
  have h4 : ")\x7b\n ".toList = ')' :: "\x7b\n ".toList := rfl
  have h5 : " = true;\n".toList = [' '] ++ ('=' :: " true;\n".toList) := rfl
  unfold Loop.header Loop.sentinel
  simp only [h1, h2, h3, h4, h5, List.append_assoc]

/-- A lowered jump, cut the same way. -/
theorem jump_eq (name : Text) :
    Loop.jump name =
      ("goto_function_".toList ++ (name ++ [' '])) ++
        ('=' :: " false;\n continue ".toList ++ (name ++ [';'])) := by
  have h : " = false;\n continue ".toList = [' '] ++ ('=' :: " false;\n continue ".toList) := rfl
  unfold Loop.jump Loop.sentinel
  simp only [h, List.append_assoc]

/-- A word character is none of the given other characters. -/
theorem ne_of_isWord {c d : Char} (h : isWord c = true) (hd : isWord d = false) : c ≠ d := by
  rintro rfl
  rw [hd] at h
  exact Bool.false_ne_true h

theorem not_mem_of_isWord {name : Text} {d : Char} (h : ∀ c ∈ name, isWord c = true)
    (hd : isWord d = false) : d ∉ name :=
  fun hmem => ne_of_isWord (h d hmem) hd rfl

/-- No bracket is written. -/
theorem silent_label_lowered (k : Kind) {name : Text} (hname : ∀ c ∈ name, isWord c = true)
    (b : Text) : Silent .label (k.lowered name) b := by
  refine silent_of_initial (fun c hc => ?_) b
  by_contra hagrees
  rw [Bool.not_eq_false] at hagrees
  obtain rfl := eq_of_agrees (by decide) hagrees
  rcases mem_lowered hc with hc | hc
  · exact not_mem_of_isWord hname (by decide) hc
  · exact absurd hc (by decide)

/-- No jump marker begins in a header: whatever could be its keyword is stopped before the next
semicolon. -/
theorem silent_jump_header {name : Text} (hname : ∀ c ∈ name, isWord c = true) (b : Text) :
    Silent .jump (Loop.header name) b := by
  have hsemi : ';' ∉ name := not_mem_of_isWord hname (by decide)
  have hassign : ∀ s u : Text, ';' ∉ s → Silent .jump (s ++ (name ++ [' '])) ('=' :: u) := by
    intro s u hs
    refine silent_of_barrier ?_ (by decide) (by decide)
    simp only [List.mem_append, List.mem_singleton, not_or]
    exact ⟨hs, hsemi, by decide⟩
  have htest : ∀ u : Text, Silent .jump ("goto_function_".toList ++ name) (')' :: u) := by
    intro u
    refine silent_of_barrier ?_ (by decide) (by decide)
    simp only [List.mem_append, not_or]
    exact ⟨by decide +kernel, hsemi⟩
  have hlabel : ∀ u : Text, Silent .jump name (':' :: u) :=
    fun u => silent_of_barrier hsemi (by decide) (by decide)
  rw [header_eq]
  refine silent_append.mpr ⟨hassign _ _ (by decide +kernel), ?_⟩
  refine silent_append.mpr ⟨silent_of_all (by decide +kernel) _, ?_⟩
  refine silent_append.mpr ⟨hlabel _, ?_⟩
  refine silent_append.mpr ⟨silent_of_all (by decide +kernel) _, ?_⟩
  refine silent_append.mpr ⟨htest _, ?_⟩
  refine silent_append.mpr ⟨silent_of_all (by decide +kernel) _, ?_⟩
  exact silent_append.mpr ⟨hassign _ _ (by decide +kernel), silent_of_all (by decide +kernel) _⟩

/-- No jump marker begins in a lowered jump: the first name is stopped by the equals sign, and no
gap follows the second. -/
theorem silent_jump_jump {name : Text} (hname : ∀ c ∈ name, isWord c = true) (b : Text) :
    Silent .jump (Loop.jump name) b := by
  have hsemi : ';' ∉ name := not_mem_of_isWord hname (by decide)
  have hassign : ∀ u : Text,
      Silent .jump ("goto_function_".toList ++ (name ++ [' '])) ('=' :: u) := by
    intro u
    refine silent_of_barrier ?_ (by decide) (by decide)
    simp only [List.mem_append, List.mem_singleton, not_or]
    exact ⟨by decide +kernel, hsemi, by decide⟩
  rw [jump_eq]
  refine silent_append.mpr ⟨hassign _, ?_⟩
  refine silent_append.mpr ⟨silent_of_all (by decide +kernel) _, ?_⟩
  exact silent_append.mpr ⟨silent_jump_of_word hname (by decide) (by decide),
    silent_of_all (by decide) _⟩

/-- **No marker begins in what is written for a marker**, whatever follows it. -/
theorem silent_lowered (k k' : Kind) {name : Text} (hname : ∀ c ∈ name, isWord c = true)
    (b : Text) : Silent k (k'.lowered name) b := by
  cases k with
  | label => exact silent_label_lowered k' hname b
  | jump =>
    cases k' with
    | label => exact silent_jump_header hname b
    | jump => exact silent_jump_jump hname b

/-- Every template comes to an equals sign before it comes to a closer. -/
theorem exists_lowered_eq (k : Kind) {name : Text} (hname : ∀ c ∈ name, isWord c = true) :
    ∃ a b, k.lowered name = a ++ '=' :: b ∧ ∀ c ∈ a, c ≠ ':' ∧ c ≠ ';' := by
  have hpart : ∀ s : Text, (∀ c ∈ s, c ≠ ':' ∧ c ≠ ';') →
      ∀ c ∈ s ++ (name ++ [' ']), c ≠ ':' ∧ c ≠ ';' := by
    intro s hs c hc
    simp only [List.mem_append, List.mem_singleton] at hc
    rcases hc with hc | hc | rfl
    · exact hs c hc
    · exact ⟨ne_of_isWord (hname c hc) (by decide), ne_of_isWord (hname c hc) (by decide)⟩
    · decide
  cases k with
  | label => exact ⟨_, _, header_eq name, hpart _ (forall_mem_of_all (by decide +kernel))⟩
  | jump => exact ⟨_, _, jump_eq name, hpart _ (forall_mem_of_all (by decide +kernel))⟩

/-! ### Edits -/

/-- An **edit** of pieces: some markers are lowered, and closing braces are written at some of the
seams. -/
inductive Edit : List Piece → List Piece → Prop where
  | nil : Edit [] []
  | keep (p : Piece) {ps qs : List Piece} (h : Edit ps qs) : Edit (p :: ps) (p :: qs)
  | lower (k : Kind) (name raw : Text) {ps qs : List Piece} (h : Edit ps qs) :
      Edit (.marker k name raw :: ps) (chars (k.lowered name) ++ qs)
  | close {ps qs : List Piece} (h : Edit ps qs) : Edit ps (.char '\x7d' :: qs)

/-- Edits of two texts make an edit of both together. -/
theorem Edit.append {ps qs ps' qs' : List Piece} (h : Edit ps qs) (h' : Edit ps' qs') :
    Edit (ps ++ ps') (qs ++ qs') := by
  induction h with
  | nil => exact h'
  | keep p _ ih => exact .keep p ih
  | lower k name raw _ ih =>
    rw [List.append_assoc]
    exact .lower k name raw ih
  | close _ ih => exact .close ih

/-- Any number of closing braces may be written in front. -/
theorem Edit.closes {ps qs : List Piece} (h : Edit ps qs) (n : Nat) :
    Edit ps (chars (List.replicate n '\x7d') ++ qs) := by
  induction n with
  | zero => exact h
  | succ n ih => exact .close ih

/-- **What begins a text after an edit began it before**, if it holds neither an equals sign nor a
closing brace and ends in a closer. -/
theorem Edit.begins_of_begins {ps qs : List Piece} (h : Edit ps qs) (hcut : Cut ps) {w rest : Text}
    (heq : written qs = w ++ rest) (hw : ∀ c ∈ w, c ≠ '=' ∧ c ≠ '\x7d')
    (hlast : ∀ c ∈ w.getLast?, c = ':' ∨ c = ';') : ∃ rest', written ps = w ++ rest' := by
  induction h generalizing w with
  | nil =>
    rw [written_nil] at heq
    rw [(List.append_eq_nil_iff.mp heq.symm).1]
    exact ⟨[], rfl⟩
  | @keep p ps qs _ ih =>
    cases p with
    | char c =>
      obtain ⟨-, hps⟩ := cut_char_iff.mp hcut
      cases w with
      | nil => exact ⟨_, rfl⟩
      | cons x w =>
        rw [written_char, List.cons_append] at heq
        obtain ⟨rfl, htail⟩ := List.cons.inj heq
        have hlast' : ∀ c ∈ w.getLast?, c = ':' ∨ c = ';' := by
          intro y hy
          refine hlast y ?_
          rw [List.getLast?_cons, hy]
          rfl
        obtain ⟨rest', hrest⟩ :=
          ih hps htail (fun y hy => hw y (List.mem_cons_of_mem _ hy)) hlast'
        exact ⟨rest', by rw [written_char, hrest, List.cons_append]⟩
    | marker k name raw =>
      obtain ⟨-, hps⟩ := cut_marker_iff.mp hcut
      rw [written_marker] at heq
      rcases List.append_eq_append_iff.mp heq with ⟨d, hd, hrest⟩ | ⟨d, hd, -⟩
      · -- the whole marker lies in `w`
        rw [hd] at hw hlast
        have hlast' : ∀ c ∈ d.getLast?, c = ':' ∨ c = ';' := by
          intro y hy
          refine hlast y ?_
          rw [List.getLast?_append, hy]
          rfl
        obtain ⟨rest', hrest'⟩ :=
          ih hps hrest (fun y hy => hw y (List.mem_append_right _ hy)) hlast'
        exact ⟨rest', by rw [written_marker, hrest', hd, List.append_assoc]⟩
      · exact ⟨d ++ written ps, by rw [written_marker, hd, List.append_assoc]⟩
  | @lower k name raw ps qs _ ih =>
    obtain ⟨hspells, hps⟩ := cut_marker_iff.mp hcut
    -- `w` would end within the template, before its equals sign
    obtain ⟨a, b, hab, ha⟩ := exists_lowered_eq k hspells.isWord_name
    rw [written_append, written_chars, hab, List.append_assoc, List.cons_append] at heq
    rcases List.eq_nil_or_concat w with rfl | ⟨v, x, hv⟩
    · exact ⟨_, rfl⟩
    · have hx : x = ':' ∨ x = ';' := hlast x (by rw [hv]; simp)
      have hxa : x ∉ a := by
        intro hmem
        obtain ⟨h1, h2⟩ := ha x hmem
        rcases hx with hx | hx
        · exact h1 hx
        · exact h2 hx
      rcases List.append_eq_append_iff.mp heq with ⟨d, hd, hrest⟩ | ⟨d, hd, -⟩
      · cases d with
        | nil => exact absurd (by rw [← List.append_nil a, ← hd, hv]; simp) hxa
        | cons y d =>
          rw [← (List.cons.inj hrest).1] at hd
          exact absurd rfl (hw '=' (by rw [hd]; simp)).1
      · exact absurd (by rw [hd, hv]; simp) hxa
  | close _ ih =>
    cases w with
    | nil => exact ⟨_, rfl⟩
    | cons x w =>
      rw [written_char, List.cons_append] at heq
      exact absurd (List.cons.inj heq).1.symm (hw x List.mem_cons_self).2

/-- A text in which no marker begins is cut into its characters. -/
theorem cut_chars_append {t : Text} {ps : List Piece} (h : ∀ k, Silent k t (written ps))
    (hps : Cut ps) : Cut (chars t ++ ps) := by
  induction t with
  | nil => exact hps
  | cons c t ih =>
    refine .char (fun k => ?_) (ih fun k => (h k).2)
    show k.form.read? (c :: written (chars t ++ ps)) = none
    rw [written_append, written_chars]
    exact (h k).1

/-- At a character at which no marker began, none begins after an edit of what follows. -/
theorem Edit.read?_eq_none {ps qs : List Piece} (h : Edit ps qs) (hcut : Cut ps) {k : Kind}
    {c : Char} (hnone : k.form.read? (c :: written ps) = none) :
    k.form.read? (c :: written qs) = none := by
  by_contra hne
  obtain ⟨⟨name, n⟩, hread⟩ := Option.ne_none_iff_exists'.mp hne
  obtain ⟨raw, rest, heq, -, hspells⟩ := Form.spells_of_read? hread
  obtain ⟨x, w, rfl⟩ := List.exists_cons_of_ne_nil hspells.ne_nil
  rw [List.cons_append] at heq
  obtain ⟨rfl, htail⟩ := List.cons.inj heq
  have hw : ∀ y ∈ w, y ≠ '=' ∧ y ≠ '\x7d' := by
    intro y hy
    have hadm := hspells.admits_or_eq (List.mem_cons_of_mem _ hy)
    constructor
    · rintro rfl
      revert hadm
      cases k <;> decide
    · rintro rfl
      revert hadm
      cases k <;> decide
  have hlast : ∀ y ∈ w.getLast?, y = ':' ∨ y = ';' := by
    intro y hy
    obtain ⟨front, hfront, -⟩ := hspells.eq_append_closer
    have hy' : (c :: w).getLast? = some y := by rw [List.getLast?_cons, hy]; rfl
    rw [hfront, List.getLast?_append] at hy'
    have hcloser : k.form.closer = y := by simpa using hy'
    rw [← hcloser]
    cases k with
    | label => exact Or.inl rfl
    | jump => exact Or.inr rfl
  obtain ⟨rest', hrest'⟩ := h.begins_of_begins hcut htail hw hlast
  have hold := hspells.read?_append k.proper rest'
  rw [List.cons_append, ← hrest', hnone] at hold
  exact absurd hold (by simp)

/-- **An edit keeps the cut.** -/
theorem Edit.cut {ps qs : List Piece} (h : Edit ps qs) (hcut : Cut ps) : Cut qs := by
  induction h with
  | nil => exact .nil
  | keep p hedit ih =>
    cases p with
    | char c =>
      obtain ⟨hnone, hps⟩ := cut_char_iff.mp hcut
      exact .char (fun k => hedit.read?_eq_none hps (hnone k)) (ih hps)
    | marker k name raw =>
      obtain ⟨hspells, hps⟩ := cut_marker_iff.mp hcut
      exact .marker hspells (ih hps)
  | lower k name raw _ ih =>
    obtain ⟨hspells, hps⟩ := cut_marker_iff.mp hcut
    exact cut_chars_append (fun k' => silent_lowered k' k hspells.isWord_name _) (ih hps)
  | close _ ih =>
    refine .char (fun k => Kind.read?_cons_eq_none ?_ _) (ih hcut)
    cases k <;> decide

end LabelLoop.Marker
