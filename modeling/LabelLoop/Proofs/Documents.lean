import LabelLoop.Proofs.Divisions
import LabelLoop.Proofs.Retagging
import LabelLoop.Proofs.Tags

/-!
# Converted documents

A document is cut into its script elements and the single characters between them (`Parsed`).  When
elements are converted, the search finds the converted elements at their places and no others
(`parsed_map`).  A converted element is found because its body holds no closing tag and its
attributes no `>`.  Nothing new is found between elements: a `<script` there would reach over the
next element, and so would have been found before (`element?_eq_none_iff`).

So a converted document has the same elements, converted or not, and the same text between them, and
converting it again changes nothing (`converted_document_keeps_structure`).
-/

namespace LabelLoop.Document

open Text
open Division (Divided divided_cons_iff exists_divided searchFrom_divided searchFrom_append_of_read)

/-! ### Elements as they are written -/

/-- `key` is the `<script` of an opening tag. -/
def IsOpening (key : Text) : Prop :=
  List.Forall₂ (fun p c => agrees p c = true) "<script".toList key

/-- What is true of every element that is **found in a document**. -/
structure Element.Proper (e : Element) : Prop where
  attributes_closed : '>' ∉ e.attributes
  attributes_apart : e.attributes.head?.any isWord = false
  body_untagged : Untagged e.body
  closeTag_closes : IsCloseTag e.closeTag

/-- The text of an element. -/
def Element.written (key : Text) (e : Element) : Text :=
  key ++ (e.attributes ++ '>' :: (e.body ++ e.closeTag))

theorem IsOpening.eq_cons {key : Text} (h : IsOpening key) :
    ∃ rest, key = '<' :: rest ∧ '<' ∉ rest := by
  have hword : "<script".toList = '<' :: "script".toList := rfl
  rw [IsOpening, hword] at h
  obtain ⟨x, rest, hx, hrest, rfl⟩ := List.forall₂_cons_left_iff.mp h
  obtain rfl := eq_of_agrees (by decide) hx
  refine ⟨rest, rfl, fun hmem => ?_⟩
  have hnone : ∀ p ∈ "script".toList, agrees p '<' = false := forall_mem_of_all (by decide)
  obtain ⟨p, hp, hagrees⟩ := exists_agrees_of_mem hrest hmem
  exact Bool.false_ne_true ((hnone p hp).symm.trans hagrees)

/-- The `>` of a tag is no letter. -/
theorem any_head?_append (a t : Text) :
    (a ++ '>' :: t).head?.any isWord = a.head?.any isWord := by
  cases a with
  | nil =>
    show isWord '>' = false
    decide
  | cons c a => rfl

/-- What stands after the `>` of an opening tag decides about an element. -/
theorem element?_of_opening {key attributes : Text} (hkey : IsOpening key) (h : '>' ∉ attributes)
    (t : Text) :
    element? (key ++ (attributes ++ '>' :: t)) =
      if attributes.head?.any isWord then none
      else
        (first? closeTag? t).map fun f =>
          (⟨attributes, t.take f.start, slice t f.start f.stop⟩,
            7 + attributes.length + 1 + f.stop) := by
  have hafter : afterIgnoringCase? "<script".toList (key ++ (attributes ++ '>' :: t)) =
      some (attributes ++ '>' :: t) :=
    afterIgnoringCase?_eq_some_iff.mpr ⟨key, rfl, hkey⟩
  have htake : (attributes ++ '>' :: t).takeWhile (· ≠ '>') = attributes := by
    refine Marker.takeWhile_append_cons_of_neg (fun c hc => decide_eq_true ?_) (by decide)
    rintro rfl
    exact h hc
  rw [element?, hafter]
  dsimp only
  rw [htake, List.drop_left, any_head?_append]
  rfl

/-- Where an element is found, there is an opening tag. -/
theorem exists_opening_of_element? {t : Text} {r : Element × Nat} (h : element? t = some r) :
    ∃ key attributes after, t = key ++ (attributes ++ '>' :: after) ∧ IsOpening key ∧
      '>' ∉ attributes := by
  rw [element?] at h
  split at h
  · exact absurd h (by simp)
  · rename_i rest hafter
    obtain ⟨key, rfl, hkey⟩ := afterIgnoringCase?_eq_some_iff.mp hafter
    dsimp only at h
    split at h
    · rename_i afterTag hdrop
      have hrest := Marker.takeWhile_append_drop (· ≠ '>') rest
      rw [hdrop] at hrest
      refine ⟨key, rest.takeWhile (· ≠ '>'), afterTag, by rw [hrest], hkey, fun hmem => ?_⟩
      exact absurd (List.mem_takeWhile_imp hmem) (by decide)
    · exact absurd h (by simp)

/-- **An element is found where it is written.** -/
theorem Element.Proper.element?_append {e : Element} (h : e.Proper) {key : Text}
    (hkey : IsOpening key) (rest : Text) :
    element? (e.written key ++ rest) = some (e, (e.written key).length) := by
  have hfirst : first? closeTag? (e.body ++ (e.closeTag ++ rest)) =
      some ⟨0 + e.body.length, e.closeTag.length, ()⟩ :=
    firstFrom?_append h.body_untagged h.closeTag_closes 0 rest
  have htext : e.written key ++ rest =
      key ++ (e.attributes ++ '>' :: (e.body ++ (e.closeTag ++ rest))) := by
    simp [Element.written]
  have hclose : slice (e.body ++ (e.closeTag ++ rest)) e.body.length
      (e.body.length + e.closeTag.length) = e.closeTag :=
    Literal.slice_of_drop_eq List.drop_left
  have hlength : key.length = 7 := hkey.length_eq.symm
  rw [htext, element?_of_opening hkey h.attributes_closed, h.attributes_apart, hfirst]
  simp only [Bool.false_eq_true, if_false, Option.map_some, Found.stop, Nat.zero_add, hclose,
    List.take_left]
  congr 2
  simp only [Element.written, List.length_append, List.length_cons, hlength]
  omega

/-- **What is found is an element as it is written.** -/
theorem exists_of_element? {t : Text} {e : Element} {n : Nat} (h : element? t = some (e, n)) :
    ∃ key rest, t = e.written key ++ rest ∧ IsOpening key ∧ e.Proper := by
  obtain ⟨key, attributes, after, rfl, hkey, hattributes⟩ := exists_opening_of_element? h
  rw [element?_of_opening hkey hattributes] at h
  split at h
  · exact absurd h (by simp)
  · rename_i hword
    obtain ⟨f, hf, heq⟩ := Option.map_eq_some_iff.mp h
    obtain ⟨body, w, rest, rfl, hbody, hw, rfl⟩ := exists_of_firstFrom? hf
    obtain ⟨rfl, -⟩ := Prod.mk.inj heq
    have hclose : slice (body ++ (w ++ rest)) body.length (body.length + w.length) = w :=
      Literal.slice_of_drop_eq List.drop_left
    simp only [Found.stop, Nat.zero_add, hclose, List.take_left]
    refine ⟨key, rest, by simp [Element.written], hkey, hattributes, ?_, hbody, hw⟩
    rwa [Bool.not_eq_true] at hword

/-- A closing tag comes after some `>`. -/
def Closable (t : Text) : Prop :=
  ∃ a b, t = a ++ '>' :: b ∧ ¬Untagged b

theorem Untagged.of_suffix {a t : Text} (h : Untagged t) (hs : a <:+ t) : Untagged a :=
  fun w hw hin => h w hw (hin.trans hs.isInfix)

/-- What closes a tag comes after the first `>`. -/
theorem Closable.exists_first {t : Text} (h : Closable t) :
    ∃ a b, t = a ++ '>' :: b ∧ '>' ∉ a ∧ ¬Untagged b := by
  obtain ⟨a, b, rfl, hb⟩ := h
  obtain ⟨a', b', heq, ha'⟩ := List.eq_append_cons_of_mem
    (List.mem_append_right a (List.mem_cons_self (a := '>') (l := b)))
  refine ⟨a', b', heq, ha', fun hb' => hb (hb'.of_suffix ?_)⟩
  obtain ⟨d, -, hd⟩ := Marker.exists_of_append_eq_append_cons ha' heq.symm
  cases d with
  | nil =>
    obtain ⟨-, rfl⟩ := List.cons.inj hd
    exact List.suffix_refl _
  | cons c d =>
    obtain ⟨-, rfl⟩ := List.cons.inj hd
    exact ⟨d ++ ['>'], by simp⟩

/-- **Where no element begins**: there is no opening tag, or nothing closes it. -/
theorem element?_eq_none_iff {t : Text} :
    element? t = none ↔ ∀ key rest, t = key ++ rest → IsOpening key →
      rest.head?.any isWord = false → ¬Closable rest := by
  constructor
  · rintro hnone key rest rfl hkey hword hclosable
    obtain ⟨a, b, rfl, ha, hb⟩ := hclosable.exists_first
    rw [any_head?_append] at hword
    rw [element?_of_opening hkey ha, hword, if_neg Bool.false_ne_true,
      Option.map_eq_none_iff] at hnone
    exact hb (firstFrom?_eq_none_iff.mp hnone)
  · intro h
    by_contra hne
    obtain ⟨⟨e, n⟩, hread⟩ := Option.ne_none_iff_exists'.mp hne
    obtain ⟨key, rest, rfl, hkey, he⟩ := exists_of_element? hread
    refine h key (e.attributes ++ '>' :: (e.body ++ (e.closeTag ++ rest)))
      (by simp [Element.written]) hkey ?_ ⟨e.attributes, _, rfl, ?_⟩
    · rw [any_head?_append]
      exact he.attributes_apart
    · intro hbody
      exact hbody _ he.closeTag_closes ⟨e.body, rest, by simp⟩

/-! ### Documents cut into parts -/

/-- A **part** of a document: one character, or an element and how its opening tag begins. -/
inductive Part where
  | char (c : Char)
  | element (key : Text) (e : Element)

/-- The text of a part. -/
def Part.text : Part → Text
  | .char c => [c]
  | .element key e => e.written key

/-- The text that parts make up. -/
def textOf (ps : List Part) : Text :=
  ps.flatMap Part.text

theorem textOf_append (ps qs : List Part) : textOf (ps ++ qs) = textOf ps ++ textOf qs :=
  List.flatMap_append

theorem textOf_element (key : Text) (e : Element) (ps : List Part) :
    textOf (.element key e :: ps) = e.written key ++ textOf ps := rfl

theorem textOf_chars (t : Text) : textOf (t.map .char) = t := by
  induction t with
  | nil => rfl
  | cons c t ih => exact congrArg (c :: ·) ih

/-- A part **fits** before the rest of a document: no element begins at the character, or the
element is written as such elements are. -/
def Part.Fits : Part → Text → Prop
  | .char c, rest => element? (c :: rest) = none
  | .element key e, _ => IsOpening key ∧ e.Proper

/-- The parts are those of the document that they make up. -/
abbrev Parsed : List Part → Prop :=
  Divided Part.text Part.Fits

theorem Parsed.char {c : Char} {ps : List Part} (h : element? (c :: textOf ps) = none)
    (hps : Parsed ps) : Parsed (.char c :: ps) :=
  .cons h hps

theorem Parsed.element {key : Text} {e : Element} {ps : List Part} (hkey : IsOpening key)
    (he : e.Proper) (hps : Parsed ps) : Parsed (.element key e :: ps) :=
  .cons ⟨hkey, he⟩ hps

/-- Induction on the parts of a document, with a case for each kind of part. -/
@[elab_as_elim]
theorem Parsed.induct {motive : (ps : List Part) → Parsed ps → Prop} (nil : motive [] .nil)
    (char : ∀ {c : Char} {ps : List Part} (h : element? (c :: textOf ps) = none)
      (hps : Parsed ps), motive ps hps → motive (.char c :: ps) (.char h hps))
    (element : ∀ {key : Text} {e : Element} {ps : List Part} (hkey : IsOpening key)
      (he : e.Proper) (hps : Parsed ps), motive ps hps →
        motive (.element key e :: ps) (.element hkey he hps))
    {ps : List Part} (h : Parsed ps) : motive ps h := by
  induction h with
  | nil => exact nil
  | @cons p ps h hps ih =>
    cases p with
    | char c => exact char h hps ih
    | element key e => exact element h.1 h.2 hps ih

theorem Parsed.proper_of_mem {ps : List Part} (h : Parsed ps) {key : Text} {e : Element}
    (hmem : .element key e ∈ ps) : e.Proper := by
  obtain ⟨before, after, rfl⟩ := List.append_of_mem hmem
  exact h.fits.2

theorem written_ne_nil {key : Text} (h : IsOpening key) (e : Element) : e.written key ≠ [] := by
  obtain ⟨rest, rfl, -⟩ := h.eq_cons
  exact List.cons_ne_nil _ _

theorem Parsed.text_ne_nil {ps : List Part} (h : Parsed ps) : ∀ p ∈ ps, p.text ≠ [] := by
  intro p hp
  obtain ⟨before, after, rfl⟩ := List.append_of_mem hp
  cases p with
  | char c => exact List.cons_ne_nil _ _
  | element key e => exact written_ne_nil h.fits.1 e

/-- **Every document has parts.** -/
theorem exists_parsed (document : Text) : ∃ ps, Parsed ps ∧ textOf ps = document := by
  refine exists_divided (fun c t => ?_) document
  cases hread : element? (c :: t) with
  | none => exact ⟨.char c, t, rfl, List.cons_ne_nil _ _, hread⟩
  | some r =>
    obtain ⟨key, rest, heq, hkey, he⟩ := exists_of_element? hread
    exact ⟨.element key r.1, rest, heq, written_ne_nil hkey _, hkey, he⟩

/-- The element that a part is. -/
def Part.element? : Part → Option Element
  | .char _ => none
  | .element _ e => some e

/-- The elements among parts of which the first stands at `offset`. -/
def foundFrom (offset : Nat) (ps : List Part) : List (Found Element) :=
  Division.foundFrom Part.text Part.element? offset ps

theorem foundFrom_char (offset : Nat) (c : Char) (ps : List Part) :
    foundFrom offset (.char c :: ps) = foundFrom (offset + 1) ps := rfl

theorem foundFrom_element (offset : Nat) (key : Text) (e : Element) (ps : List Part) :
    foundFrom offset (.element key e :: ps) =
      ⟨offset, (e.written key).length, e⟩ :: foundFrom (offset + (e.written key).length) ps := rfl

/-- **The elements of a document are those among its parts.** -/
theorem elements_textOf {ps : List Part} (h : Parsed ps) :
    elements (textOf ps) = foundFrom 0 ps := by
  refine searchFrom_divided (fun p rest offset hfits => ?_) h 0
  cases p with
  | char c =>
    show searchFrom Document.element? offset 0 (c :: rest) = _
    rw [searchFrom, show Document.element? (c :: rest) = none from hfits]
    rfl
  | element key e =>
    obtain ⟨hkey, he⟩ := hfits
    exact searchFrom_append_of_read (written_ne_nil hkey e) (he.element?_append hkey rest) offset

/-- The elements among parts, in order. -/
def items (ps : List Part) : List Element :=
  ps.filterMap Part.element?

theorem items_element (key : Text) (e : Element) (ps : List Part) :
    items (.element key e :: ps) = e :: items ps := rfl

theorem map_item_elements {ps : List Part} (h : Parsed ps) :
    (elements (textOf ps)).map Found.item = items ps := by
  rw [elements_textOf h, foundFrom, Division.map_item_foundFrom, items]

/-! ### Changing elements -/

/-- A part with its element changed; the opening tag of a changed element is written anew. -/
def Part.change (change : Element → Option Element) : Part → Part
  | .char c => .char c
  | .element key e =>
    match change e with
    | none => .element key e
    | some e' => .element "<script".toList e'

theorem isOpening_script : IsOpening "<script".toList := by
  rw [IsOpening]
  decide

section Change

variable {change : Element → Option Element}

theorem items_map (ps : List Part) :
    items (ps.map (Part.change change)) = (items ps).map fun e => (change e).getD e := by
  induction ps with
  | nil => rfl
  | cons p ps ih =>
    cases p with
    | char c => exact ih
    | element key e =>
      rw [List.map_cons, Part.change, items_element, List.map_cons, ← ih]
      cases change e with
      | none => rfl
      | some e' => rfl

/-- An element begins with `<`, changed or not. -/
theorem exists_text_change {key : Text} (hkey : IsOpening key) (e : Element) :
    ∃ rest, (Part.change change (.element key e)).text = '<' :: rest := by
  obtain ⟨key', rfl, -⟩ := hkey.eq_cons
  rw [Part.change]
  cases change e with
  | none => exact ⟨_, rfl⟩
  | some e' => exact ⟨_, rfl⟩

theorem head?_textOf_map {ps : List Part} (h : Parsed ps) :
    (textOf (ps.map (Part.change change))).head? = (textOf ps).head? := by
  cases h using Parsed.induct with
  | nil => rfl
  | char _ _ _ => rfl
  | @element key e ps hkey _ _ _ =>
    obtain ⟨rest, hrest⟩ := @exists_text_change change key hkey e
    obtain ⟨key', rfl, -⟩ := hkey.eq_cons
    show (Part.text _ ++ _).head? = some '<'
    rw [hrest]
    rfl

/-- What changed parts begin with, up to a `<`, are characters that were not changed. -/
theorem exists_chars_append {ps : List Part} (h : Parsed ps) {a b : Text} (ha : '<' ∉ a)
    (heq : textOf (ps.map (Part.change change)) = a ++ b) :
    ∃ qs, ps = a.map .char ++ qs ∧ textOf (qs.map (Part.change change)) = b := by
  induction a generalizing ps with
  | nil => exact ⟨ps, rfl, heq⟩
  | cons x a ih =>
    rw [List.mem_cons, not_or] at ha
    cases h using Parsed.induct with
    | nil => exact absurd heq (by simp [textOf])
    | @char c ps _ hps _ =>
      obtain ⟨rfl, htail⟩ := List.cons.inj heq
      obtain ⟨qs, rfl, hqs⟩ := ih hps ha.2 htail
      exact ⟨qs, rfl, hqs⟩
    | @element key e ps hkey _ _ _ =>
      obtain ⟨rest, hrest⟩ := @exists_text_change change key hkey e
      replace heq : (Part.change change (.element key e)).text ++ _ = _ := heq
      rw [hrest] at heq
      exact absurd (List.cons.inj heq).1 ha.1

/-- Every text with an element in it is closable. -/
theorem closable_of_mem {ps : List Part} {key : Text} {e : Element} (he : e.Proper)
    (hmem : .element key e ∈ ps) : Closable (textOf ps) := by
  obtain ⟨before, after, rfl⟩ := List.append_of_mem hmem
  refine ⟨textOf before ++ (key ++ e.attributes), e.body ++ (e.closeTag ++ textOf after), ?_, ?_⟩
  · simp [textOf_append, textOf_element, Element.written]
  · intro hbody
    exact hbody _ he.closeTag_closes ⟨e.body, textOf after, by simp⟩

/-- What can be closed after a change could be closed before: the change is in an element, and an
element can always be closed. -/
theorem closable_of_map {ps : List Part} (h : Parsed ps)
    (hclosable : Closable (textOf (ps.map (Part.change change)))) : Closable (textOf ps) := by
  by_cases hmem : ∃ key e, .element key e ∈ ps
  · obtain ⟨key, e, hmem⟩ := hmem
    exact closable_of_mem (h.proper_of_mem hmem) hmem
  · have hsame : ps.map (Part.change change) = ps := by
      refine (List.map_congr_left fun p hp => ?_).trans (List.map_id ps)
      cases p with
      | char c => rfl
      | element key e => exact absurd ⟨key, e, hp⟩ hmem
    rwa [hsame] at hclosable

/-- **Changed elements are found where they are written, and no others.** -/
theorem parsed_map (hchange : ∀ e e', e.Proper → change e = some e' → e'.Proper) {ps : List Part}
    (h : Parsed ps) : Parsed (ps.map (Part.change change)) := by
  induction h using Parsed.induct with
  | nil => exact .nil
  | @char c ps hnone hps ih =>
    refine .char (element?_eq_none_iff.mpr fun key rest heq hkey hword hclosable => ?_) ih
    obtain ⟨key', rfl, hkey'⟩ := hkey.eq_cons
    obtain ⟨rfl, htail⟩ := List.cons.inj heq
    -- the opening tag was there before, and something closes it
    obtain ⟨qs, rfl, rfl⟩ := exists_chars_append hps hkey' htail
    have hqs : Parsed qs := hps.of_append
    rw [head?_textOf_map hqs] at hword
    refine element?_eq_none_iff.mp hnone ('<' :: key') (textOf qs) ?_ hkey hword
      (closable_of_map hqs hclosable)
    rw [textOf_append, textOf_chars, List.cons_append]
  | @element key e ps hkey he hps ih =>
    rw [List.map_cons, Part.change]
    cases hsome : change e with
    | none => exact .element hkey he ih
    | some e' => exact .element isOpening_script (hchange e e' he hsome) ih

end Change

/-! ### The text around elements -/

/-- The text before, between and after elements of a document, from position `pos` on. -/
def gapsFrom (document : Text) (pos : Nat) : List (Found Element) → List Text
  | [] => [document.drop pos]
  | f :: fs => slice document pos f.start :: gapsFrom document f.stop fs

/-- **The text around the elements** of a document. -/
def gaps (document : Text) : List Text :=
  gapsFrom document 0 (elements document)

/-- The text around the elements among parts, of which `before` stands in front. -/
def gapsAfter (before : Text) : List Part → List Text
  | [] => [before]
  | .char c :: ps => gapsAfter (before ++ [c]) ps
  | .element _ _ :: ps => before :: gapsAfter [] ps

theorem gapsAfter_map (change : Element → Option Element) (before : Text) (ps : List Part) :
    gapsAfter before (ps.map (Part.change change)) = gapsAfter before ps := by
  induction ps generalizing before with
  | nil => rfl
  | cons p ps ih =>
    cases p with
    | char c => exact ih _
    | element key e =>
      rw [List.map_cons, Part.change]
      cases change e with
      | none => exact congrArg (before :: ·) (ih [])
      | some e' => exact congrArg (before :: ·) (ih [])

theorem slice_self (t : Text) (pos : Nat) : slice t pos pos = [] := by
  rw [slice, List.drop_eq_nil_iff, List.length_take]
  exact Nat.min_le_left _ _

theorem gapsFrom_foundFrom {document : Text} {ps : List Part} {pos offset : Nat}
    (h : document.drop offset = textOf ps) (hle : pos ≤ offset) :
    gapsFrom document pos (foundFrom offset ps) = gapsAfter (slice document pos offset) ps := by
  induction ps generalizing pos offset with
  | nil =>
    show [document.drop pos] = _
    rw [gapsAfter, ← slice_append_drop hle, h]
    exact congrArg (fun t => [t]) (List.append_nil _)
  | cons p ps ih =>
    cases p with
    | char c =>
      have hc : slice document offset (offset + 1) = [c] := Literal.slice_of_drop_eq (a := [c]) h
      have hnext : document.drop (offset + 1) = textOf ps := Literal.drop_of_drop_eq (a := [c]) h
      rw [foundFrom_char, ih hnext (by omega), gapsAfter, ← slice_append_slice hle (Nat.le_succ _),
        hc]
    | element key e =>
      rw [foundFrom_element, gapsFrom, gapsAfter, Found.stop,
        ih (Literal.drop_of_drop_eq (a := e.written key) h) (Nat.le_refl _), slice_self]

theorem gaps_textOf {ps : List Part} (h : Parsed ps) : gaps (textOf ps) = gapsAfter [] ps := by
  rw [gaps, elements_textOf h, gapsFrom_foundFrom List.drop_zero (Nat.le_refl 0), slice_self]

namespace Hooks

variable {α ε : Type} (hooks : Hooks α) (run : α → Text → Except ε Text)

/-! ### Converting documents -/

/-- What a hook makes of an element, if there is one for it. -/
def converted (e : Element) : Option Element :=
  (hooks.hookFor? e.contentType?).bind fun hook =>
    match run hook e.body with
    | .error _ => none
    | .ok body => some ⟨retag e.attributes hooks.outputType, body, e.closeTag⟩

/-- How an element makes its document fail, if its hook fails on it. -/
def failure? (e : Element) : Option (Failure ε) :=
  (hooks.hookFor? e.contentType?).bind fun hook =>
    match run hook e.body with
    | .error cause => some ⟨e.contentType?.getD [], cause⟩
    | .ok _ => none

/-- Hooks that **never fail, write no closing tag and are not called twice**: neither the content
type of converted elements nor the value of an attribute that was begun before it has a hook. -/
structure Safe : Prop where
  total : ∀ hook body, ∃ code, run hook body = .ok code ∧ (Untagged body → Untagged code)
  quotes : ∀ c ∈ hooks.outputType, ¬Literal.IsQuote c
  closed : '>' ∉ hooks.outputType
  output : hooks.hookFor? (some hooks.outputType) = none
  begun : ∀ w, hooks.hookFor? (some (w ++ "type=".toList)) = none

variable {hooks run}

/-- A converted element is found in a document, like any other. -/
theorem Safe.proper_of_converted (h : hooks.Safe run) {e e' : Element} (he : e.Proper)
    (hsome : hooks.converted run e = some e') : e'.Proper := by
  obtain ⟨hook, -, hrun⟩ := Option.bind_eq_some_iff.mp hsome
  obtain ⟨code, hcode, huntagged⟩ := h.total hook e.body
  rw [hcode] at hrun
  obtain rfl := Option.some.inj hrun
  refine ⟨fun hmem => ?_, head?_retag he.attributes_apart _, huntagged he.body_untagged,
    he.closeTag_closes⟩
  rcases mem_or_mem_of_mem_retag hmem with hmem | hmem
  · exact he.attributes_closed hmem
  · rw [← List.append_nil (typed _), typed_append] at hmem
    simp [h.closed] at hmem

/-- No element has a hook after the conversion. -/
theorem Safe.hookFor?_converted (h : hooks.Safe run) (e : Element) :
    hooks.hookFor? ((hooks.converted run e).getD e).contentType? = none := by
  cases hhook : hooks.hookFor? e.contentType? with
  | none =>
    rw [converted, hhook]
    exact hhook
  | some hook =>
    obtain ⟨code, hcode, -⟩ := h.total hook e.body
    have htype : (Document.contentType? e.attributes).isSome = true := by
      cases hnone : Document.contentType? e.attributes with
      | none =>
        rw [Element.contentType?, hnone] at hhook
        exact absurd hhook (by simp [hookFor?])
      | some t => rfl
    obtain ⟨value, hvalue, hcases⟩ := contentType?_retag h.quotes htype
    rw [converted, hhook, Option.bind_some, hcode]
    show hooks.hookFor? (Document.contentType? (retag e.attributes hooks.outputType)) = none
    rw [hvalue]
    rcases hcases with rfl | ⟨w, rfl⟩
    · exact h.output
    · exact h.begun w

theorem render_eq (outputType : Text) (e : Element) (body : Text) :
    render outputType e body =
      Element.written "<script".toList ⟨retag e.attributes outputType, body, e.closeTag⟩ := by
  unfold render Element.written
  generalize "<script".toList = key
  simp only [List.append_assoc, List.cons_append, List.nil_append]

/-- **Splicing converted elements into a document** changes its parts, up to the first element whose
hook fails. -/
theorem spliceFrom_foundFrom {document : Text} {ps : List Part} {pos offset : Nat}
    (hdrop : document.drop offset = textOf ps) (hle : pos ≤ offset) :
    spliceFrom hooks.outputType run document pos ((foundFrom offset ps).filterMap fun f =>
        (hooks.hookFor? f.item.contentType?).map fun hook => (f, hook)) =
      match (items ps).findSome? (hooks.failure? run) with
      | some failure => .error failure
      | none =>
        .ok (slice document pos offset ++ textOf (ps.map (Part.change (hooks.converted run)))) := by
  induction ps generalizing pos offset with
  | nil =>
    show Except.ok (document.drop pos) = _
    rw [← slice_append_drop hle, hdrop]
    rfl
  | cons p ps ih =>
    cases p with
    | char c =>
      -- what has still to be copied grows by the character
      have hc : slice document offset (offset + 1) = [c] :=
        Literal.slice_of_drop_eq (a := [c]) hdrop
      have hnext : document.drop (offset + 1) = textOf ps :=
        Literal.drop_of_drop_eq (a := [c]) hdrop
      rw [foundFrom_char, ih hnext (by omega), ← slice_append_slice hle (Nat.le_succ _), hc,
        List.append_assoc]
      rfl
    | element key e =>
      have hnext := Literal.drop_of_drop_eq (a := e.written key) hdrop
      rw [foundFrom_element, List.filterMap_cons, List.map_cons, Part.change, converted,
        items_element, List.findSome?_cons, failure?]
      dsimp only
      cases hhook : hooks.hookFor? e.contentType? with
      | none =>
        -- and by an element that stays
        have hwritten := Literal.slice_of_drop_eq (a := e.written key) hdrop
        rw [Option.map_none, Option.bind_none, Option.bind_none]
        dsimp only
        rw [ih hnext (by omega), ← slice_append_slice hle (Nat.le_add_right _ _), hwritten,
          List.append_assoc]
        rfl
      | some hook =>
        rw [Option.map_some, Option.bind_some, Option.bind_some]
        dsimp only
        rw [spliceFrom]
        dsimp only
        cases hrun : run hook e.body with
        | error cause => rfl
        | ok code =>
          dsimp only
          rw [Found.stop, ih hnext (Nat.le_refl _)]
          cases (items ps).findSome? (hooks.failure? run) with
          | some failure => rfl
          | none =>
            dsimp only
            rw [slice_self, textOf_element, ← render_eq, ← List.append_assoc]
            rfl

/-- **What becomes of a document.** -/
theorem process_textOf {ps : List Part} (hps : Parsed ps) :
    hooks.process run (textOf ps) =
      match (items ps).findSome? (hooks.failure? run) with
      | some failure => .error failure
      | none => .ok (textOf (ps.map (Part.change (hooks.converted run)))) := by
  rw [process, hooked, elements_textOf hps, spliceFrom_foundFrom List.drop_zero (Nat.le_refl 0),
    slice_self]
  rfl

theorem Safe.process_textOf (h : hooks.Safe run) {ps : List Part} (hps : Parsed ps) :
    hooks.process run (textOf ps) =
      .ok (textOf (ps.map (Part.change (hooks.converted run)))) := by
  have hnone : (items ps).findSome? (hooks.failure? run) = none := by
    rw [List.findSome?_eq_none_iff]
    intro e _
    rw [failure?, Option.bind_eq_none_iff]
    intro hook _
    obtain ⟨code, hcode, -⟩ := h.total hook e.body
    rw [hcode]
  rw [Hooks.process_textOf hps, hnone]

/-- A document whose elements have no hooks stays as it is. -/
theorem process_of_hookFor?_eq_none {ps : List Part} (hps : Parsed ps)
    (h : ∀ e ∈ items ps, hooks.hookFor? e.contentType? = none) :
    hooks.process run (textOf ps) = .ok (textOf ps) := by
  have hnone : hooks.hooked (textOf ps) = [] := by
    rw [hooked, List.filterMap_eq_nil_iff]
    intro f hf
    rw [Option.map_eq_none_iff]
    apply h
    rw [← map_item_elements hps]
    exact List.mem_map_of_mem hf
  rw [process, hnone]
  exact congrArg Except.ok List.drop_zero

end Hooks

end LabelLoop.Document

namespace LabelLoop.Delivery

open Text Document

/-! ### The hooks of the default settings -/

theorem hookFor?_hooksOf (contentType : Option Text) :
    (hooksOf {}).hookFor? contentType =
      if contentType.map normalType = some "text/jsplusgoto".toList then some () else none := by
  have hentries : (hooksOf {}).entries = [("text/jsplusgoto".toList, ())] := by decide +kernel
  rw [Hooks.hookFor?, hentries]
  -- the name itself plays no part, and is best not unfolded
  generalize "text/jsplusgoto".toList = name
  cases contentType with
  | none => rfl
  | some t =>
    rw [Option.bind_some, Option.map_some]
    by_cases heq : normalType t = name
    · simp [heq]
    · rw [List.lookup_cons, beq_false_of_ne heq]
      simp [heq]

/-- **The default hooks are safe.** -/
theorem safe_hooksOf (clock : Int) : (hooksOf {}).Safe fun () => permissiveHook clock where
  total _ body := Conversion.exists_permissiveHook clock body
  quotes := by
    show ∀ c ∈ "text/javascript".toList, ¬(c = '"' ∨ c = '\'')
    exact forall_mem_of_all (by decide)
  closed := by decide +kernel
  output := by
    rw [hookFor?_hooksOf, if_neg (by decide +kernel)]
  begun w := by
    rw [hookFor?_hooksOf]
    refine if_neg fun heq => ?_
    have hsign := sign_mem_normalType w
    rw [Option.some.inj heq] at hsign
    exact absurd hsign (by decide)

/-- **Converting a document keeps the structure of its scripts, and is done once and for all.**
With the default hooks it never fails.  In the result as many elements are found as before, in the
same order: those of the hooked content type with their bodies converted and their content type
replaced, all others as they were; and the text around them is the same.  No conversion brings a
closing tag into a body without one.  Converting the result, at whatever moment, changes nothing. -/
theorem converted_document_keeps_structure (clock clock' : Int) (document : Text) :
    ∃ result,
      (hooksOf {}).process (fun () => permissiveHook clock) document = .ok result ∧
      List.Forall₂
        (fun e e' =>
          if e.contentType?.map normalType = some "text/jsplusgoto".toList then
            ∃ code, permissiveHook clock e.body = .ok code ∧
              e' = ⟨retag e.attributes "text/javascript".toList, code, e.closeTag⟩
          else e' = e)
        ((elements document).map Found.item) ((elements result).map Found.item) ∧
      gaps result = gaps document ∧
      (∀ body code, permissiveHook clock body = .ok code → first? closeTag? body = none →
        first? closeTag? code = none) ∧
      (hooksOf {}).process (fun () => permissiveHook clock') result = .ok result := by
  have hsafe := safe_hooksOf clock
  obtain ⟨ps, hps, rfl⟩ := exists_parsed document
  have hmap := parsed_map (fun _ _ he => hsafe.proper_of_converted he) hps
  refine ⟨_, hsafe.process_textOf hps, ?_, ?_, ?_, ?_⟩
  · rw [map_item_elements hps, map_item_elements hmap, items_map, List.forall₂_map_right_iff,
      List.forall₂_same]
    intro e he
    rw [Hooks.converted, hookFor?_hooksOf]
    split
    · obtain ⟨code, hcode, -⟩ := hsafe.total () e.body
      refine ⟨code, hcode, ?_⟩
      rw [Option.bind_some, hcode]
      rfl
    · rfl
  · rw [gaps_textOf hps, gaps_textOf hmap, gapsAfter_map]
  · intro body code hcode hbody
    obtain ⟨code', hcode', huntagged⟩ := Conversion.exists_permissiveHook clock body
    obtain rfl := Except.ok.inj (hcode.symm.trans hcode')
    exact firstFrom?_eq_none_iff.mpr (huntagged (firstFrom?_eq_none_iff.mp hbody))
  · -- in the result no element has a hook
    apply Hooks.process_of_hookFor?_eq_none hmap
    rw [items_map]
    intro e' he'
    obtain ⟨e, -, rfl⟩ := List.mem_map.mp he'
    exact hsafe.hookFor?_converted e

end LabelLoop.Delivery
