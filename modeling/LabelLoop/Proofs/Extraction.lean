import LabelLoop.Proofs.Documents

/-!
# The script elements of a document

The search for script elements goes from left to right, and goes on behind each element that it
finds.  It loses nothing and skips nothing (`elements_lossless_and_complete`).  Each element is
found with its parts as they stand in the document, up to the first closing tag behind its opening
tag (`closeTagAt_written`); and at a place that belongs to no element found, no element begins
(`element?_drop_eq_none`), whatever opening tags there are without an end or in bodies.

A closing tag may still begin inside an opening tag, and end with its `>`.
-/

namespace LabelLoop.Document

open Text

/-- A closing tag **stands** at the place `i`. -/
def CloseTagAt (document : Text) (i : Nat) : Prop :=
  ∃ w, IsCloseTag w ∧ w <+: document.drop i

/-- A complete script element **begins** at the place `i`: a `<script` that no word character
continues, somewhere after it a `>`, and after that a closing tag. -/
def BeginsAt (document : Text) (i : Nat) : Prop :=
  ∃ key rest, document.drop i = key ++ rest ∧ IsOpening key ∧ rest.head?.any isWord = false ∧
    Closable rest

/-! ### Where the elements stand -/

/-- An element found is one of the parts, and stands after those before it. -/
theorem exists_of_mem_foundFrom {offset : Nat} {ps : List Part} {f : Found Element}
    (h : f ∈ foundFrom offset ps) :
    ∃ before key after, ps = before ++ .element key f.item :: after ∧
      f.start = offset + (textOf before).length ∧ f.length = (f.item.written key).length := by
  obtain ⟨before, p, after, e, rfl, hp, rfl⟩ := Division.mem_foundFrom_iff.mp h
  cases p with
  | char c => exact absurd hp (by simp [Part.element?])
  | element key e' =>
    obtain rfl := Option.some.inj hp
    exact ⟨before, key, after, rfl, rfl, rfl⟩

/-- **At a place that belongs to no element, no element can be read.**  The induction is on the
parts; a place behind an element belongs to the parts that follow it. -/
theorem element?_drop_eq_none {ps : List Part} (h : Parsed ps) {offset i : Nat}
    (hi : ∀ f ∈ foundFrom offset ps, offset + i < f.start ∨ f.stop ≤ offset + i) :
    element? ((textOf ps).drop i) = none := by
  induction h using Parsed.induct generalizing offset i with
  | nil =>
    have hnil : (textOf []).drop i = [] := List.drop_nil
    rw [hnil]
    rfl
  | @char c ps hnone _ ih =>
    cases i with
    | zero => exact hnone
    | succ i =>
      refine @ih (offset + 1) i fun f hf => ?_
      have hplace := hi f hf
      omega
  | @element key e ps _ _ _ ih =>
    rw [foundFrom_element] at hi
    have hbehind : (e.written key).length ≤ i := by
      have hplace := hi _ List.mem_cons_self
      simp only [Found.stop] at hplace
      omega
    obtain ⟨j, rfl⟩ := Nat.exists_eq_add_of_le hbehind
    rw [textOf_element, List.drop_length_add_append]
    refine @ih (offset + (e.written key).length) j fun f hf => ?_
    have hplace := hi f (List.mem_cons_of_mem _ hf)
    omega

/-! ### Closing tags -/

/-- **No closing tag begins in the body of an element**: it would end in the body, since only its
first character is a `<`. -/
theorem closeTagAt_written {e : Element} (he : e.Proper) {key pre post : Text} {i : Nat}
    (hi : pre.length ≤ i) (hlt : i + e.closeTag.length < (pre ++ e.written key).length)
    (htag : CloseTagAt (pre ++ (e.written key ++ post)) i) :
    i < pre.length + key.length + e.attributes.length + 1 := by
  by_contra hge
  obtain ⟨j, rfl⟩ : ∃ j, i = (pre ++ (key ++ (e.attributes ++ ['>']))).length + j := by
    refine Nat.exists_eq_add_of_le ?_
    simp only [List.length_append, List.length_singleton]
    omega
  have hj : j < e.body.length := by
    simp only [Element.written, List.length_append, List.length_cons, List.length_nil] at hlt
    omega
  have htext : pre ++ (e.written key ++ post) =
      (pre ++ (key ++ (e.attributes ++ ['>']))) ++ (e.body ++ (e.closeTag ++ post)) := by
    simp [Element.written]
  obtain ⟨w, hw, hprefix⟩ := htag
  rw [htext, List.drop_length_add_append,
    List.drop_append_of_le_length (Nat.le_of_lt hj)] at hprefix
  obtain ⟨v, hv, -⟩ := he.closeTag_closes.eq_cons
  have hbody : w <+: e.body.drop j := by
    refine hw.prefix_of_append (b := e.closeTag ++ post) ?_ ?_ hprefix
    · intro hnil
      rw [List.drop_eq_nil_iff] at hnil
      omega
    · intro c hc
      rw [hv] at hc
      exact (Option.some.inj hc).symm
  exact he.body_untagged w hw (hbody.isInfix.trans (List.drop_suffix j e.body).isInfix)

/-! ### The elements of a document -/

/-- **The script elements of a document, without loss and complete.**  They are in order and do not
overlap.  The text of each is a `<script` in any case, its attributes, a `>`, its body and its
closing tag, where the attributes hold no `>` and do not begin with a word character, and no other
closing tag begins before the last, except inside the opening tag.  No complete element begins at a
place that belongs to none of them. -/
theorem elements_lossless_and_complete (document : Text) :
    ((elements document).Pairwise fun f g => f.stop ≤ g.start) ∧
    (∀ f ∈ elements document, ∃ key, IsOpening key ∧ f.stop ≤ document.length ∧
      slice document f.start f.stop =
        key ++ (f.item.attributes ++ '>' :: (f.item.body ++ f.item.closeTag)) ∧
      '>' ∉ f.item.attributes ∧ f.item.attributes.head?.any isWord = false ∧
      IsCloseTag f.item.closeTag ∧
      ∀ i, f.start ≤ i → i + f.item.closeTag.length < f.stop → CloseTagAt document i →
        i < f.start + key.length + f.item.attributes.length + 1) ∧
    ∀ i, (∀ f ∈ elements document, i < f.start ∨ f.stop ≤ i) → ¬BeginsAt document i := by
  obtain ⟨ps, hps, rfl⟩ := exists_parsed document
  rw [elements_textOf hps]
  refine ⟨Division.apart_foundFrom 0 ps, fun f hf => ?_, fun i hi => ?_⟩
  · obtain ⟨before, key, after, rfl, hstart, hlength⟩ := exists_of_mem_foundFrom hf
    have he : f.item.Proper := hps.proper_of_mem (List.mem_append_right _ List.mem_cons_self)
    have hkey : IsOpening key := hps.fits.1
    have hstop : f.stop = (textOf before ++ f.item.written key).length := by
      rw [Found.stop, hstart, hlength, List.length_append, Nat.zero_add]
    rw [textOf_append, textOf_element]
    rw [Nat.zero_add] at hstart
    refine ⟨key, hkey, ?_, ?_, he.attributes_closed, he.attributes_apart, he.closeTag_closes,
      fun i hi hlt htag => ?_⟩
    · rw [hstop, ← List.append_assoc]
      exact (List.prefix_append _ (textOf after)).length_le
    · rw [hstop, hstart, ← List.append_assoc, slice, List.take_left, List.drop_left]
      rfl
    · rw [hstop] at hlt
      rw [hstart] at hi ⊢
      exact closeTagAt_written he hi hlt htag
  · rintro ⟨key, rest, hdrop, hkey, hword, hclosable⟩
    have hnone := @element?_drop_eq_none ps hps 0 i (by simpa only [Nat.zero_add] using hi)
    exact element?_eq_none_iff.mp hnone key rest hdrop hkey hword hclosable

/-- The closing tag that begins in the first opening tag ends no element, and the first opening tag
of the second element has no end of its own. -/
example :
    (elements "<script </script >a</script><script <script>b</SCRIPT >".toList).map Found.start =
      [0, 28] := by
  decide +kernel

end LabelLoop.Document
