import LabelLoop.Proofs.Survival
import LabelLoop.Proofs.Totality

/-!
# What stands between quotes does not matter

`refill contents source` is a source with other contents in its literals.  The scanner finds the
same literals in it, at the places that correspond (`refilled_scanned`): a quote in the code that
ended nowhere still ends nowhere, since no quote is brought into its line, and a literal ends at its
own quote.  So shielding gives the same text, and everything that a conversion does with that text
and says about it is the same (`conversion_ignores_contents`).
-/

namespace LabelLoop.Literal

open Text

/-! ### Other contents -/

/-- What may be written between any quotes: it holds no quote, no backslash and no line break. -/
def Harmless (content : Text) : Prop :=
  ∀ c ∈ content, c ≠ '"' ∧ c ≠ '\'' ∧ c ≠ '\\' ∧ c ≠ '\n'

instance (content : Text) : Decidable (Harmless content) :=
  List.decidableBAll _ content

/-- A literal with other contents between its quotes. -/
def requote (content l : Text) : Text :=
  l.take 1 ++ content ++ l.drop (l.length - 1)

/-- Literals with other contents, as far as contents are given for them. -/
def requoteAll : List Text → List Text → List Text
  | content :: contents, l :: ls => requote content l :: requoteAll contents ls
  | _, ls => ls

/-- The source from position `pos` on, with other contents between the quotes of the spans, as far
as contents are given for them. -/
def refillFrom (source : Text) (pos : Nat) : List Text → List Span → Text
  | content :: contents, s :: spans =>
    slice source pos (s.start + 1) ++ content ++ refillFrom source (s.stop - 1) contents spans
  | _, _ => source.drop pos

/-- **A source with other contents** in its literals. -/
def refill (contents : List Text) (source : Text) : Text :=
  refillFrom source 0 contents (byQuotes source)

/-- The bits of a source with other contents in its literals. -/
def refilled : List Text → List Bit → List Bit
  | _, [] => []
  | contents, .char c :: bits => .char c :: refilled contents bits
  | content :: contents, .literal l :: bits =>
    .literal (requote content l) :: refilled contents bits
  | [], .literal l :: bits => .literal l :: refilled [] bits

theorem length_requoteAll (contents ls : List Text) :
    (requoteAll contents ls).length = ls.length := by
  induction contents generalizing ls with
  | nil => rfl
  | cons content contents ih =>
    cases ls with
    | nil => rfl
    | cons l ls => exact congrArg (· + 1) (ih ls)

theorem refilled_nil (bits : List Bit) : refilled [] bits = bits := by
  induction bits with
  | nil => rfl
  | cons b bits ih =>
    cases b with
    | char c => exact congrArg (.char c :: ·) ih
    | literal l => exact congrArg (.literal l :: ·) ih

theorem literals_refilled (contents : List Text) (bits : List Bit) :
    literals (refilled contents bits) = requoteAll contents (literals bits) := by
  induction bits generalizing contents with
  | nil => cases contents <;> rfl
  | cons b bits ih =>
    cases b with
    | char c => exact ih contents
    | literal l =>
      cases contents with
      | nil => rw [refilled_nil]; rfl
      | cons content contents => exact congrArg (_ :: ·) (ih contents)

/-- The covered source is the same. -/
theorem cover_refilled (placeholder : Text) (contents : List Text) (bits : List Bit) :
    cover placeholder (refilled contents bits) = cover placeholder bits := by
  induction bits generalizing contents with
  | nil => rfl
  | cons b bits ih =>
    cases b with
    | char c => exact congrArg (c :: ·) (ih contents)
    | literal l =>
      cases contents with
      | nil => rw [refilled_nil]
      | cons content contents => exact congrArg (placeholder ++ ·) (ih contents)

/-- Between its quotes, a literal has the new contents. -/
theorem requote_eq (content inner : Text) (q q' : Char) :
    requote content (q :: (inner ++ [q'])) = q :: (content ++ [q']) := by
  have hlast : (q :: (inner ++ [q'])).length - 1 = (q :: inner).length := by simp
  have hdrop : (q :: (inner ++ [q'])).drop (q :: inner).length = [q'] :=
    List.drop_left
  rw [requote, hlast, hdrop]
  rfl

/-- Filling the spans of bits fills the bits. -/
theorem refillFrom_spansFrom {s : Text} {bits : List Bit} (hbits : Scanned bits) {pos offset : Nat}
    (hs : s.drop offset = source bits) (hle : pos ≤ offset) (contents : List Text) :
    refillFrom s pos contents (spansFrom offset bits) =
      slice s pos offset ++ source (refilled contents bits) := by
  induction hbits using Scanned.induct generalizing pos offset contents with
  | nil =>
    have hend : refillFrom s pos contents [] = s.drop pos := by cases contents <;> rfl
    rw [spansFrom_nil, hend, ← slice_append_drop hle, hs]
    rfl
  | @char c bits _ _ ih =>
    have hc : slice s offset (offset + 1) = [c] := slice_of_drop_eq (a := [c]) hs
    have hs' : s.drop (offset + 1) = source bits := drop_of_drop_eq (a := [c]) hs
    rw [spansFrom_char, ih hs' (by omega), ← slice_append_slice hle (Nat.le_succ _), hc,
      List.append_assoc]
    rfl
  | @literal q body bits hq hclosing _ ih =>
    cases contents with
    | nil =>
      rw [refilled_nil, ← hs, slice_append_drop hle]
      rfl
    | cons content contents =>
      obtain ⟨inner, rfl, -⟩ := exists_of_closing?_eq_length hq hclosing
      -- the two quotes, and what follows the literal
      have hopen : slice s offset (offset + 1) = [q] := slice_of_drop_eq (a := [q]) hs
      have hinner : s.drop (offset + (q :: inner).length) = [q] ++ source bits := by
        refine drop_of_drop_eq (a := q :: inner) (hs.trans ?_)
        simp
      have hclose : slice s (offset + (q :: inner).length) (offset + (q :: inner).length + 1) =
          [q] := slice_of_drop_eq (a := [q]) hinner
      have hs' : s.drop (offset + (q :: inner).length + 1) = source bits :=
        drop_of_drop_eq (a := [q]) hinner
      have hstop : offset + (q :: (inner ++ [q])).length = offset + (q :: inner).length + 1 := by
        simp [Nat.add_assoc]
      rw [spansFrom_literal, refillFrom, refilled, source_literal, requote_eq, hstop,
        Nat.add_sub_cancel, ih hs' (Nat.le_succ _), hclose,
        ← slice_append_slice hle (Nat.le_succ _), hopen]
      simp only [List.append_assoc, List.cons_append, List.nil_append]

theorem refill_source {bits : List Bit} (h : Scanned bits) (contents : List Text) :
    refill contents (source bits) = source (refilled contents bits) := by
  rw [refill, byQuotes_source h, refillFrom_spansFrom h List.drop_zero (Nat.le_refl 0)]
  rfl

/-! ### The same literals are found -/

/-- A literal with harmless contents ends at its own quote. -/
theorem closing?_of_harmless {q : Char} (hq : IsQuote q) {content : Text} (h : Harmless content)
    (t : Text) : closing? q (content ++ q :: t) = some (content.length + 1) := by
  induction content with
  | nil => exact closing?_quote q t
  | cons c content ih =>
    obtain ⟨hdouble, hsingle, hescape, hline⟩ := h c List.mem_cons_self
    have hrest := ih fun x hx => h x (List.mem_cons_of_mem _ hx)
    rw [List.cons_append, closing?_other (hq.ne ⟨hdouble, hsingle⟩) hline
      (fun hboth => hescape hboth.1), hrest]
    rfl

theorem Harmless.not_mem {q : Char} (hq : IsQuote q) {content : Text} (h : Harmless content) :
    q ∉ content := by
  intro hmem
  obtain ⟨hdouble, hsingle, -⟩ := h q hmem
  exact hq.elim hdouble hsingle

/-- A quote that does not end before or in a literal does not end in it when its contents are
others. -/
theorem closing?_requote {q q' : Char} (hq : IsQuote q) (hq' : IsQuote q') {inner content : Text}
    (hinner : '\n' ∉ inner) (hcontent : Harmless content) {t t' : Text}
    (h : closing? q t = none → closing? q t' = none)
    (hnone : closing? q (q' :: (inner ++ [q']) ++ t) = none) :
    closing? q (q' :: (content ++ [q']) ++ t') = none := by
  have hline : '\n' ∉ q' :: (inner ++ [q']) := by
    have hne : '\n' ≠ q' := hq'.ne (by decide)
    simp [hne, hinner]
  rw [closing?_eq_none_iff hq, firstLine_append hline, List.mem_append, not_or] at hnone
  obtain ⟨hliteral, hrest⟩ := hnone
  -- the quote that ended nowhere is of the other kind than those around the literal
  have hne : q ≠ q' := fun heq => hliteral (by rw [heq]; exact List.mem_cons_self)
  refine closing?_append_of_not_mem hq ?_ (Or.inr (h ((closing?_eq_none_iff hq t).mpr hrest)))
  simp [hne, hcontent.not_mem hq]

/-- **The scanner finds the same literals** when their contents are others.  With the bits goes what
each quote before them sees: if it ended nowhere, it still does. -/
theorem refilled_scanned {bits : List Bit} (h : Scanned bits) {contents : List Text}
    (hcontents : ∀ content ∈ contents, Harmless content) :
    Scanned (refilled contents bits) ∧ ∀ q, IsQuote q → closing? q (source bits) = none →
      closing? q (source (refilled contents bits)) = none := by
  induction h using Scanned.induct generalizing contents with
  | nil => exact ⟨.nil, fun _ _ hnone => hnone⟩
  | @char c bits hread _ ih =>
    obtain ⟨hscanned, hclosing⟩ := ih hcontents
    refine ⟨.char (read?_cons_eq_none (hclosing c) hread) hscanned, fun q hq => ?_⟩
    exact closing?_append_eq_none (a := [c]) hq (hclosing q hq)
  | @literal q body bits hq hend hbits ih =>
    cases contents with
    | nil =>
      rw [refilled_nil]
      exact ⟨.literal hq hend hbits, fun _ _ hnone => hnone⟩
    | cons content contents =>
      obtain ⟨hscanned, hclosing⟩ := ih fun t ht => hcontents t (List.mem_cons_of_mem _ ht)
      have hcontent := hcontents content List.mem_cons_self
      obtain ⟨inner, rfl, hinner⟩ := exists_of_closing?_eq_length hq hend
      rw [refilled, requote_eq]
      -- the literal ends at its own quote, and no quote before it ends in it
      refine ⟨.literal hq ?_ hscanned, fun q' hq' hnone => ?_⟩
      · rw [List.append_assoc, List.length_append]
        exact closing?_of_harmless hq hcontent _
      · exact closing?_requote hq' hq hinner hcontent (hclosing q' hq') hnone

/-- **Shielding a source with other contents** gives the same text, and the literals with these
contents. -/
theorem shield_refill (placeholder s : Text) {contents : List Text}
    (hcontents : ∀ content ∈ contents, Harmless content) :
    shield byQuotes placeholder (refill contents s) =
      ⟨(shield byQuotes placeholder s).text,
        requoteAll contents (shield byQuotes placeholder s).literals, placeholder⟩ := by
  obtain ⟨bits, hbits, rfl⟩ := exists_scanned s
  rw [refill_source hbits, shield_source (refilled_scanned hbits hcontents).1, shield_source hbits,
    cover_refilled, literals_refilled]

end LabelLoop.Literal

namespace LabelLoop.Conversion

open Text Marker Lowering Literal

/-- **What stands between quotes has no influence on a conversion.**  If the contents of the
literals of a source are replaced, then the labels, the names jumped to, the number of literals and
all remarks stay the same, and the code is the same lowered text, restored with the new literals. -/
theorem conversion_ignores_contents {placeholder source : Text} {contents : List Text}
    (hcontents : ∀ content ∈ contents, Harmless content) (hsource : ¬placeholder <:+: source)
    (hrefill : ¬placeholder <:+: refill contents source) :
    ∃ c c' lowered,
      convert { placeholder := placeholder } false source = .ok c ∧
      convert { placeholder := placeholder } false (refill contents source) = .ok c' ∧
      (c'.labels = c.labels ∧ c'.jumpTargets = c.jumpTargets ∧
        c'.literalCount = c.literalCount ∧ c'.diagnostics = c.diagnostics) ∧
      lower Loop.header (shield byQuotes placeholder source).text = .ok lowered ∧
      (shield byQuotes placeholder (refill contents source)).literals =
        requoteAll contents (shield byQuotes placeholder source).literals ∧
      c.code = (restore placeholder (shield byQuotes placeholder source).literals
        lowered.code).text ∧
      c'.code = (restore placeholder (shield byQuotes placeholder (refill contents source)).literals
        lowered.code).text := by
  have hne : placeholder ≠ [] := by
    rintro rfl
    exact hsource List.nil_infix
  obtain ⟨lowered, hlower⟩ := exists_lower (shield byQuotes placeholder source).text
  have hshield := shield_refill placeholder source hcontents
  have hlower' : lower Loop.header (shield byQuotes placeholder (refill contents source)).text =
      .ok lowered := by rw [hshield]; exact hlower
  have hpermissive := permissive_of_lower (o := { placeholder := placeholder }) hlower
  have hpermissive' := permissive_of_lower (o := { placeholder := placeholder }) hlower'
  refine ⟨_, _, lowered, convert_false_of_permissive hpermissive,
    convert_false_of_permissive hpermissive', ⟨rfl, rfl, ?_, ?_⟩, hlower, by rw [hshield], rfl, rfl⟩
  · rw [hshield]
    exact length_requoteAll _ _
  · -- nothing collides, and as many placeholders are left over
    show Diagnostic.ofCollision placeholder (refill contents source) ++ _ ++
      Diagnostic.ofUnresolved _ = Diagnostic.ofCollision placeholder source ++ _ ++
      Diagnostic.ofUnresolved _
    rw [ofCollision_eq_nil_iff.mpr hsource, ofCollision_eq_nil_iff.mpr hrefill]
    dsimp only
    rw [(restore_counts hne _ _).1, (restore_counts hne _ _).1, hshield, length_requoteAll]

/-- A literal that takes on the look of a jump, after a quote that ends nowhere. -/
theorem conversion_ignores_jump_in_literal :
    refill ["goto b;\x7b".toList] "\x7b[lbl] a: ' = \"x\\\"y\"; goto a;\x7d".toList =
        "\x7b[lbl] a: ' = \"goto b;\x7b\"; goto a;\x7d".toList ∧
      ∃ c c',
        convert { placeholder := "_7".toList } false
          "\x7b[lbl] a: ' = \"x\\\"y\"; goto a;\x7d".toList = .ok c ∧
        convert { placeholder := "_7".toList } false
          "\x7b[lbl] a: ' = \"goto b;\x7b\"; goto a;\x7d".toList = .ok c' ∧
        c'.labels = c.labels ∧ c'.jumpTargets = c.jumpTargets ∧
        c'.literalCount = c.literalCount ∧ c'.diagnostics = c.diagnostics := by
  have hrefill : refill ["goto b;\x7b".toList]
      "\x7b[lbl] a: ' = \"x\\\"y\"; goto a;\x7d".toList =
        "\x7b[lbl] a: ' = \"goto b;\x7b\"; goto a;\x7d".toList := rfl
  have hfresh : ¬"_7".toList <:+: "\x7b[lbl] a: ' = \"x\\\"y\"; goto a;\x7d".toList :=
    position?_eq_none_iff_absent.mp (by decide)
  have hfresh' : ¬"_7".toList <:+: refill ["goto b;\x7b".toList]
      "\x7b[lbl] a: ' = \"x\\\"y\"; goto a;\x7d".toList := by
    rw [hrefill]
    exact position?_eq_none_iff_absent.mp (by decide)
  obtain ⟨c, c', lowered, hc, hc', hsame, -⟩ :=
    conversion_ignores_contents (by decide) hfresh hfresh'
  rw [hrefill] at hc'
  exact ⟨hrefill, c, c', hc, hc', hsame⟩

end LabelLoop.Conversion
