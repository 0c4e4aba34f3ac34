import LabelLoop.Literal.Scanner
import LabelLoop.Proofs.Literals

/-!
# Shielding and restoring

Taking the literals of a source out and putting them back gives the source again
(`restore_shield_eq_source`).  The scanner may be any one whose spans are *tidy*: they lie in the
source, one after another and without overlap.  Tidy spans are just those of bits
(`exists_bits_of_tidy`), and both scanners find tidy ones (`tidy_byQuotes`, `tidy_literals`).

That the placeholder does not occur in the source is not enough, since a placeholder could also
begin in the code and end in a placeholder that was written, or begin in one of these and end in
the next.  A placeholder that is *unbordered*, with no beginning that is also an end of it, cannot
(`begins_or_overlaps_of_cover`).
-/

namespace LabelLoop.Literal

open Text

/-! ### Tidy spans -/

/-- The spans are **tidy** in a source: all of them lie in it, and none begins before the ones
before it have ended. -/
structure Tidy (source : Text) (spans : List Span) : Prop where
  bounds : ∀ s ∈ spans, s.start ≤ s.stop ∧ s.stop ≤ source.length
  apart : spans.Pairwise fun a b => a.stop ≤ b.start

/-- The spans of bits lie where the bits do. -/
theorem bounds_of_mem_spansFrom {offset : Nat} {bits : List Bit} {s : Span}
    (h : s ∈ spansFrom offset bits) :
    offset ≤ s.start ∧ s.start ≤ s.stop ∧ s.stop ≤ offset + (source bits).length := by
  obtain ⟨f, hf, rfl⟩ := List.mem_map.mp h
  obtain ⟨hstart, hstop⟩ := Division.bounds_of_mem_foundFrom hf
  exact ⟨hstart, Nat.le_add_right _ _, hstop⟩

theorem pairwise_spansFrom (offset : Nat) (bits : List Bit) :
    (spansFrom offset bits).Pairwise fun a b => a.stop ≤ b.start :=
  List.pairwise_map.mpr (Division.apart_foundFrom offset bits)

/-- The spans of bits are tidy in the source that the bits make up. -/
theorem tidy_spansFrom (bits : List Bit) : Tidy (source bits) (spansFrom 0 bits) where
  bounds s hs := by
    obtain ⟨-, hle, hstop⟩ := bounds_of_mem_spansFrom hs
    exact ⟨hle, by omega⟩
  apart := pairwise_spansFrom 0 bits

theorem spansFrom_bare_append (offset : Nat) (t : Text) (bits : List Bit) :
    spansFrom offset (bare t ++ bits) = spansFrom (offset + t.length) bits := by
  induction t generalizing offset with
  | nil => rfl
  | cons c t ih =>
    show spansFrom (offset + 1) (bare t ++ bits) = _
    rw [ih, List.length_cons]
    congr 1
    omega

/-- **Tidy spans are those of bits.**  The induction is on the spans, and `pos` is a place that all
of them lie behind. -/
theorem exists_bits_of_tidy {s : Text} {spans : List Span} (h : Tidy s spans) {pos : Nat}
    (hpos : ∀ x ∈ spans, pos ≤ x.start) :
    ∃ bits, source bits = s.drop pos ∧ spansFrom pos bits = spans := by
  induction spans generalizing pos with
  | nil =>
    refine ⟨bare (s.drop pos) ++ [], ?_, spansFrom_bare_append _ _ _⟩
    rw [source_bare_append]
    exact List.append_nil _
  | cons x spans ih =>
    obtain ⟨hle, hlen⟩ := h.bounds x List.mem_cons_self
    obtain ⟨hnext, hapart⟩ := List.pairwise_cons.mp h.apart
    have hrest : Tidy s spans := ⟨fun y hy => h.bounds y (List.mem_cons_of_mem _ hy), hapart⟩
    obtain ⟨bits, hbits, hspans⟩ := ih hrest hnext
    have hstart : pos ≤ x.start := hpos x List.mem_cons_self
    have hgap : pos + (slice s pos x.start).length = x.start := by
      rw [slice, List.length_drop, List.length_take]
      omega
    have hliteral : x.start + (slice s x.start x.stop).length = x.stop := by
      rw [slice, List.length_drop, List.length_take]
      omega
    -- the code up to the span, the span, and the bits of what comes after it
    refine ⟨bare (slice s pos x.start) ++ .literal (slice s x.start x.stop) :: bits, ?_, ?_⟩
    · rw [source_bare_append, source_literal, hbits, slice_append_drop hle,
        slice_append_drop hstart]
    · rw [spansFrom_bare_append, spansFrom_literal, hgap, hliteral, hspans]

/-- A scanner whose spans are tidy finds the literals of some bits. -/
theorem exists_bits_of_scan {scan : Scanner} {s : Text} (h : Tidy s (scan s)) :
    ∃ bits, source bits = s ∧ scan (source bits) = spansFrom 0 bits := by
  obtain ⟨bits, hbits, hspans⟩ := exists_bits_of_tidy h fun _ _ => Nat.zero_le _
  rw [List.drop_zero] at hbits
  exact ⟨bits, hbits, by rw [hbits, hspans]⟩

/-- What the scanner by quotes finds is tidy. -/
theorem tidy_byQuotes (s : Text) : Tidy s (byQuotes s) := by
  obtain ⟨bits, hbits, rfl⟩ := exists_scanned s
  rw [byQuotes_source hbits]
  exact tidy_spansFrom bits

end LabelLoop.Literal

namespace LabelLoop.Script

open Text Literal

/-! ### What the lexer finds -/

/-- A string literal takes at least one character, and no more than there are. -/
theorem quotedRest?_bounds {quote : Char} {t : Text} {n : Nat} (h : quotedRest? quote t = some n) :
    1 ≤ n ∧ n ≤ t.length := by
  fun_induction quotedRest? quote t generalizing n with
  | case1 => exact absurd h (by simp)
  | case2 =>
    obtain rfl := Option.some.inj h
    simp
  | case3 => exact absurd h (by simp)
  | case4 _ _ rest ih =>
    obtain ⟨k, hk, rfl⟩ := Option.map_eq_some_iff.mp h
    have := ih hk
    simp only [List.length_cons]
    omega
  | case5 c cs _ _ ih =>
    obtain ⟨k, hk, rfl⟩ := Option.map_eq_some_iff.mp h
    have := ih hk
    simp only [List.length_cons]
    omega

theorem stringLiteral?_bounds {t : Text} {n : Nat} (h : stringLiteral? t = some n) :
    1 ≤ n ∧ n ≤ t.length := by
  cases t with
  | nil => exact absurd h (by simp [stringLiteral?])
  | cons c cs =>
    rw [stringLiteral?] at h
    split at h
    · obtain ⟨k, hk, rfl⟩ := Option.map_eq_some_iff.mp h
      have := quotedRest?_bounds hk
      simp only [List.length_cons]
      omega
    · exact absurd h (by simp)

theorem wordStep?_literal {frames : List Frame} {prev : Option Char} {t : Text} {s : Step}
    (h : wordStep? frames prev t = some s) : s.literal = false := by
  unfold wordStep? at h
  dsimp only at h
  split at h
  · obtain rfl := Option.some.inj h
    rfl
  · split at h
    · obtain rfl := Option.some.inj h
      rfl
    · split at h
      · obtain rfl := Option.some.inj h
        rfl
      · obtain ⟨k, -, rfl⟩ := Option.map_eq_some_iff.mp h
        rfl

theorem templateStep_literal (outer : List Frame) (c : Char) (cs : Text) :
    (templateStep outer c cs).literal = false := by
  unfold templateStep
  dsimp only
  split_ifs <;> rfl

/-- Code has a literal only where a string literal begins. -/
theorem stringLiteral?_of_codeStep {frames : List Frame} {prev : Option Char} {c : Char} {cs : Text}
    {s : Step} (hs : codeStep frames prev c cs = s) (h : s.literal = true) :
    stringLiteral? (c :: cs) = some s.length := by
  unfold codeStep at hs
  dsimp only at hs
  repeat' split at hs
  all_goals subst hs
  -- all branches but two say at once that they are no literal
  any_goals contradiction
  · rename_i hword
    rw [wordStep?_literal hword] at h
    exact absurd h Bool.false_ne_true
  · assumption

theorem stringLiteral?_of_operandStep {frames : List Frame} {prev : Option Char} {c : Char}
    {cs : Text} {s : Step} (hs : operandStep frames prev c cs = s) (h : s.literal = true) :
    stringLiteral? (c :: cs) = some s.length := by
  unfold operandStep at hs
  dsimp only at hs
  repeat' split at hs
  iterate 3
    · subst hs
      exact absurd h Bool.false_ne_true
  exact stringLiteral?_of_codeStep hs h

/-- **A step reads a literal only where a string literal begins.** -/
theorem stringLiteral?_of_step {ctx : Context} {prev : Option Char} {c : Char} {cs : Text}
    {s : Step} (hs : step ctx prev c cs = s) (h : s.literal = true) :
    stringLiteral? (c :: cs) = some s.length := by
  unfold step at hs
  split at hs
  · subst hs
    rw [templateStep_literal] at h
    exact absurd h Bool.false_ne_true
  · subst hs
    exact absurd h Bool.false_ne_true
  · exact stringLiteral?_of_operandStep hs h
  · split at hs
    · subst hs
      exact absurd h Bool.false_ne_true
    · split at hs
      · exact stringLiteral?_of_operandStep hs h
      · exact stringLiteral?_of_codeStep hs h

/-- The literals found from a place on lie behind it and within the script. -/
theorem bounds_of_mem_literalsFrom {offset skip : Nat} {prev : Option Char} {ctx : Context}
    {t : Text} {s : Span} (h : s ∈ literalsFrom offset prev ctx skip t) :
    offset + skip ≤ s.start ∧ s.start ≤ s.stop ∧ s.stop ≤ offset + t.length := by
  induction t generalizing offset prev ctx skip with
  | nil => exact absurd h List.not_mem_nil
  | cons c cs ih =>
    rw [List.length_cons]
    cases skip with
    | succ k =>
      have := ih (show s ∈ literalsFrom (offset + 1) (some c) ctx k cs from h)
      omega
    | zero =>
      rw [literalsFrom] at h
      split at h
      · rename_i hliteral
        obtain ⟨-, hle⟩ := stringLiteral?_bounds (stringLiteral?_of_step rfl hliteral)
        rw [List.length_cons] at hle
        rcases List.mem_cons.mp h with rfl | h
        · dsimp only
          omega
        · have := ih h
          omega
      · have := ih h
        omega

theorem pairwise_literalsFrom (offset skip : Nat) (prev : Option Char) (ctx : Context) (t : Text) :
    (literalsFrom offset prev ctx skip t).Pairwise fun a b => a.stop ≤ b.start := by
  induction t generalizing offset prev ctx skip with
  | nil => exact List.Pairwise.nil
  | cons c cs ih =>
    cases skip with
    | succ k => exact ih _ _ _ _
    | zero =>
      rw [literalsFrom]
      split
      · rename_i hliteral
        obtain ⟨hpos, -⟩ := stringLiteral?_bounds (stringLiteral?_of_step rfl hliteral)
        refine List.pairwise_cons.mpr ⟨fun s hs => ?_, ih _ _ _ _⟩
        -- later literals lie behind what this one makes the lexer pass over
        have := (bounds_of_mem_literalsFrom hs).1
        dsimp only
        omega
      · exact ih _ _ _ _

end LabelLoop.Script

namespace LabelLoop.Literal

open Text

/-- What the scanner by lexemes finds is tidy. -/
theorem tidy_literals (s : Text) : Tidy s (Script.literals s) where
  bounds span hspan := by
    obtain ⟨-, hle, hstop⟩ := Script.bounds_of_mem_literalsFrom hspan
    exact ⟨hle, by omega⟩
  apart := Script.pairwise_literalsFrom 0 0 none .start s

theorem ScannerKind.tidy_scanner (kind : ScannerKind) (s : Text) : Tidy s (kind.scanner s) := by
  cases kind with
  | quotes => exact tidy_byQuotes s
  | lexemes => exact tidy_literals s

/-! ### Placeholders without a border -/

/-- A text is **unbordered** if no part of it is both its beginning and its end. -/
def Unbordered (t : Text) : Prop :=
  ∀ b, b ≠ [] → b ≠ t → b <+: t → ¬b <:+ t

/-- A text whose first character does not come again is unbordered. -/
theorem unbordered_cons {c : Char} {t : Text} (h : c ∉ t) : Unbordered (c :: t) := by
  intro b hb hne hbegin hend
  obtain ⟨x, b, rfl⟩ := List.exists_cons_of_ne_nil hb
  obtain ⟨rfl, -⟩ := List.cons_prefix_cons.mp hbegin
  rcases List.suffix_cons_iff.mp hend with heq | hend
  · exact hne heq
  · exact h (hend.subset List.mem_cons_self)

/-- A number is written with digits and a sign. -/
theorem not_mem_ofInt {c : Char} (hdigit : c.isDigit = false) (hsign : c ≠ '-') (n : Int) :
    c ∉ ofInt n := by
  have hdigits : ∀ k, c ∉ ofNat k := by
    intro k hmem
    have := Nat.isDigit_of_mem_toDigits (by decide) (by decide) hmem
    rw [hdigit] at this
    exact absurd this Bool.false_ne_true
  cases n with
  | ofNat n => exact hdigits n
  | negSucc n =>
    rw [ofInt, List.mem_cons, not_or]
    exact ⟨hsign, hdigits _⟩

/-- Every placeholder that is made from a moment is unbordered. -/
theorem unbordered_placeholderAt (nanoseconds : Int) : Unbordered (placeholderAt nanoseconds) :=
  unbordered_cons (not_mem_ofInt (by decide) (by decide) _)

/-- **What begins a covered source begins the source**, unless it reaches into a placeholder: then
it ends with what the placeholder begins with. -/
theorem begins_or_overlaps_of_cover {placeholder w rest : Text} {bits : List Bit}
    (h : cover placeholder bits = w ++ rest) :
    w <+: source bits ∨ ∃ b, b ≠ [] ∧ b <:+ w ∧ (b <+: placeholder ∨ placeholder <+: b) := by
  induction bits generalizing w with
  | nil =>
    obtain ⟨rfl, -⟩ := List.append_eq_nil_iff.mp h.symm
    exact Or.inl (List.prefix_refl _)
  | cons bit bits ih =>
    cases w with
    | nil => exact Or.inl (List.nil_prefix)
    | cons x w =>
      cases bit with
      | char c =>
        obtain ⟨rfl, htail⟩ := List.cons.inj h
        rcases ih htail with hbegin | ⟨b, hb, hend, hover⟩
        · exact Or.inl (List.cons_prefix_cons.mpr ⟨rfl, hbegin⟩)
        · exact Or.inr ⟨b, hb, hend.trans (List.suffix_cons _ _), hover⟩
      | literal l =>
        -- the placeholder and `x :: w` begin the same text
        refine Or.inr ⟨x :: w, List.cons_ne_nil _ _, List.suffix_refl _, ?_⟩
        have hw : x :: w <+: cover placeholder (.literal l :: bits) := ⟨rest, h.symm⟩
        exact List.prefix_or_prefix_of_prefix hw (List.prefix_append _ _)

/-- At a character of the code, no placeholder begins. -/
theorem beginsWith_cover_eq_false {placeholder : Text} (hborder : Unbordered placeholder) {c : Char}
    {bits : List Bit} (h : ¬placeholder <:+: c :: source bits) :
    ¬beginsWith (c :: cover placeholder bits) placeholder = true := by
  intro hbegin
  obtain ⟨rest, heq⟩ := beginsWith_iff.mp hbegin
  cases placeholder with
  | nil => exact h List.nil_infix
  | cons x w =>
    obtain ⟨rfl, htail⟩ := List.cons.inj heq
    rcases begins_or_overlaps_of_cover htail with hsource | ⟨b, hb, hend, hover⟩
    · exact h (List.cons_prefix_cons.mpr ⟨rfl, hsource⟩).isInfix
    · -- what is found would be a border, since it is shorter than the placeholder
      have hshort : b.length < (c :: w).length := Nat.lt_succ_of_le hend.length_le
      rcases hover with hover | hover
      · refine hborder b hb ?_ hover (hend.trans (List.suffix_cons _ _))
        rintro rfl
        exact Nat.lt_irrefl _ hshort
      · exact Nat.not_lt_of_le hover.length_le hshort

/-- **Restoring a covered source gives it back**, if the placeholder is unbordered and does not
occur in the source. -/
theorem restoreFrom_cover_of_unbordered {p : Char} {ps : Text} (hborder : Unbordered (p :: ps))
    {bits : List Bit} (h : ¬p :: ps <:+: source bits) :
    restoreFrom (p :: ps) (literals bits) 0 (cover (p :: ps) bits) = ⟨source bits, 0, 0⟩ := by
  induction bits with
  | nil => rfl
  | cons bit bits ih =>
    cases bit with
    | char c =>
      have hrest : ¬p :: ps <:+: source bits := fun hin => h (List.infix_cons hin)
      rw [cover_char, restoreFrom, if_neg (beginsWith_cover_eq_false hborder h), literals_char,
        ih hrest]
      rfl
    | literal l =>
      have hrest : ¬p :: ps <:+: source bits :=
        fun hin => h (hin.trans (List.suffix_append _ _).isInfix)
      rw [cover_literal, restoreFrom_placeholder_append, literals_literal, fill, ih hrest]
      rfl

/-- **Shielding and then restoring gives the source back**, with no placeholder left over and no
literal: for every scanner with tidy spans, and every unbordered placeholder that does not occur in
the source.  Both scanners have tidy spans in every source, and every placeholder made from a moment
is unbordered. -/
theorem restore_shield_eq_source :
    (∀ (kind : ScannerKind) (source : Text), Tidy source (kind.scanner source)) ∧
    (∀ nanoseconds, placeholderAt nanoseconds ≠ [] ∧ Unbordered (placeholderAt nanoseconds)) ∧
    ∀ (scan : Scanner) (source placeholder : Text), Tidy source (scan source) →
      placeholder ≠ [] → ¬placeholder <:+: source → Unbordered placeholder →
        restore placeholder (shield scan placeholder source).literals
          (shield scan placeholder source).text = ⟨source, 0, 0⟩ := by
  refine ⟨ScannerKind.tidy_scanner,
    fun _ => ⟨List.cons_ne_nil _ _, unbordered_placeholderAt _⟩, ?_⟩
  intro scan s placeholder htidy hne hfresh hborder
  obtain ⟨p, ps, rfl⟩ := List.exists_cons_of_ne_nil hne
  obtain ⟨bits, rfl, hspans⟩ := exists_bits_of_scan htidy
  rw [shield_of_spans hspans, restore, if_neg hne]
  exact restoreFrom_cover_of_unbordered hborder hfresh

/-- Spans that touch, an empty one among them, and a source that begins like the placeholder where
the last of them ends. -/
theorem restore_shield_of_touching_spans :
    (shield (fun _ => [⟨0, 2⟩, ⟨2, 2⟩, ⟨2, 5⟩]) "_1".toList "''\"a\"_".toList).text =
        "_1_1_1_".toList ∧
      restore "_1".toList
        (shield (fun _ => [⟨0, 2⟩, ⟨2, 2⟩, ⟨2, 5⟩]) "_1".toList "''\"a\"_".toList).literals
        (shield (fun _ => [⟨0, 2⟩, ⟨2, 2⟩, ⟨2, 5⟩]) "_1".toList "''\"a\"_".toList).text =
          ⟨"''\"a\"_".toList, 0, 0⟩ :=
  ⟨by decide, restore_shield_eq_source.2.2 (fun _ => [⟨0, 2⟩, ⟨2, 2⟩, ⟨2, 5⟩]) _ _
    ⟨by decide, by decide⟩ (by decide) (by decide) (unbordered_cons (by decide))⟩

end LabelLoop.Literal
