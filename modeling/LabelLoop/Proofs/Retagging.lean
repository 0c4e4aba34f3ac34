import LabelLoop.Document.Hooks
import LabelLoop.Proofs.Literals
import LabelLoop.Proofs.Pieces

/-!
# Content types that are replaced

`retag` writes a content type, in double quotes, in the place of the first type attribute.  What is
read from the new attributes is the new content type, with one exception (`contentType?_retag`).  If
a type attribute was begun before, with a double quote that nothing answered, then the quote written
now answers it, and its value reaches up to there: it ends with `type=`.
-/

namespace LabelLoop.Document

open Text

/-! ### Values -/

/-- A value in quotes ends at the next quote of the same kind. -/
theorem attributeValue?_of_isQuote {q : Char} (hq : Literal.IsQuote q) (t : Text) :
    attributeValue? (q :: t) = (position? [q] t).map fun n => (t.take n, n + 2) := by
  have hc : (decide (q = '"') || decide (q = '\'')) = true := by
    rwa [Bool.or_eq_true, decide_eq_true_eq, decide_eq_true_eq]
  rw [attributeValue?, if_pos hc]

/-- Whether a bare value begins at a character is seen from that character. -/
theorem attributeValue?_eq_none_iff {c : Char} (hc : ¬Literal.IsQuote c) (t : Text) :
    attributeValue? (c :: t) = none ↔ isBlank c = true ∨ c = '>' := by
  obtain ⟨hdouble, hsingle⟩ := not_or.mp hc
  have hquote : ¬(decide (c = '"') || decide (c = '\'')) = true := by
    rwa [Bool.or_eq_true, decide_eq_true_eq, decide_eq_true_eq]
  rw [attributeValue?, if_neg hquote, List.takeWhile_cons]
  by_cases hblank : isBlank c = true
  · simp [hblank]
  · by_cases hend : c = '>'
    · simp [hend]
    · simp [hblank, hend, hdouble, hsingle]

theorem position?_singleton {q : Char} {a : Text} (ha : q ∉ a) (b : Text) :
    position? [q] (a ++ q :: b) = some a.length := by
  induction a with
  | nil => simp [position?]
  | cons c a ih =>
    rw [List.mem_cons, not_or] at ha
    rw [List.cons_append, position?, ih ha.2]
    simp [ha.1]

theorem position?_singleton_eq_none_iff {q : Char} {t : Text} : position? [q] t = none ↔ q ∉ t := by
  rw [Literal.position?_eq_none_iff_absent, not_iff_not]
  constructor
  · intro h
    exact h.subset List.mem_cons_self
  · intro h
    obtain ⟨a, b, rfl⟩ := List.append_of_mem h
    exact ⟨a, b, by simp⟩

/-! ### Attributes -/

/-- `front` is **a type attribute up to its value**. -/
def Announces (front : Text) : Prop :=
  ∃ name pad gap, front = name ++ (pad ++ '=' :: gap) ∧
    List.Forall₂ (fun p c => agrees p c = true) "type".toList name ∧
    (∀ c ∈ pad, isBlank c = true) ∧ ∀ c ∈ gap, isBlank c = true

/-- What follows decides about an attribute that is announced. -/
theorem Announces.typeAttribute?_append {front : Text} (h : Announces front) {t : Text}
    (ht : ∀ c ∈ t.head?, isBlank c = false) :
    typeAttribute? (front ++ t) =
      (attributeValue? t).map fun (value, n) => (value, front.length + n) := by
  obtain ⟨name, pad, gap, rfl, hname, hpad, hgap⟩ := h
  have hafter : afterIgnoringCase? "type".toList (name ++ (pad ++ '=' :: gap) ++ t) =
      some (pad ++ '=' :: (gap ++ t)) :=
    afterIgnoringCase?_eq_some_iff.mpr ⟨name, by simp, hname⟩
  have htakePad : (pad ++ '=' :: (gap ++ t)).takeWhile isBlank = pad :=
    Marker.takeWhile_append_cons_of_neg hpad (by decide)
  have htakeGap : (gap ++ t).takeWhile isBlank = gap := by
    rw [List.takeWhile_append_of_pos hgap]
    cases t with
    | nil => simp
    | cons c t => rw [List.takeWhile_cons_of_neg (by simp [ht c rfl]), List.append_nil]
  have hlength : name.length = 4 := hname.length_eq.symm
  rw [typeAttribute?, hafter]
  dsimp only
  rw [htakePad, List.drop_left]
  show Option.map _ (attributeValue? ((gap ++ t).drop ((gap ++ t).takeWhile isBlank).length)) = _
  rw [htakeGap, List.drop_left]
  congr 1
  funext ⟨value, n⟩
  simp only [List.length_append, List.length_cons, hlength]
  congr 1
  omega

/-- After what is taken stands something that is not taken. -/
theorem head?_drop_takeWhile {p : Char → Bool} {t : Text} {c : Char}
    (h : c ∈ (t.drop (t.takeWhile p).length).head?) : p c = false := by
  induction t with
  | nil => simp at h
  | cons x t ih =>
    by_cases hx : p x = true
    · rw [List.takeWhile_cons_of_pos hx] at h
      exact ih h
    · rw [List.takeWhile_cons_of_neg hx] at h
      obtain rfl := Option.some.inj h
      simpa using hx

/-- An attribute that is found has been announced. -/
theorem exists_announces {t value : Text} {n : Nat} (h : typeAttribute? t = some (value, n)) :
    ∃ front rest m, t = front ++ rest ∧ Announces front ∧
      (∀ c ∈ rest.head?, isBlank c = false) ∧ attributeValue? rest = some (value, m) := by
  rw [typeAttribute?] at h
  split at h
  · exact absurd h (by simp)
  · rename_i afterName hafter
    obtain ⟨name, rfl, hname⟩ := afterIgnoringCase?_eq_some_iff.mp hafter
    dsimp only at h
    split at h
    · rename_i afterSign hsign
      have hpad := Marker.takeWhile_append_drop isBlank afterName
      have hgap := Marker.takeWhile_append_drop isBlank afterSign
      rw [hsign] at hpad
      obtain ⟨⟨v, m⟩, hvalue, heq⟩ := Option.map_eq_some_iff.mp h
      obtain ⟨rfl, -⟩ := Prod.mk.inj heq
      refine ⟨name ++ (afterName.takeWhile isBlank ++ '=' :: afterSign.takeWhile isBlank), _, m, ?_,
        ⟨name, _, _, rfl, hname, fun c hc => List.mem_takeWhile_imp hc,
          fun c hc => List.mem_takeWhile_imp hc⟩, fun c hc => ?_, hvalue⟩
      · rw [List.append_assoc, List.append_assoc, List.cons_append, hgap, hpad]
      · exact head?_drop_takeWhile hc
    · exact absurd h (by simp)

/-! ### What the new attribute changes -/

/-- A type attribute with its value in double quotes. -/
def typed (contentType : Text) : Text :=
  "type=\"".toList ++ (contentType ++ ['"'])

theorem typed_append (contentType t : Text) :
    typed contentType ++ t = "type=".toList ++ '"' :: (contentType ++ '"' :: t) := by
  have hkey : "type=\"".toList = "type=".toList ++ ['"'] := rfl
  -- an equation of the definition would make the text of the name be read again and again
  delta typed
  rw [hkey]
  generalize "type=".toList = key
  simp

/-- The attribute that is written is read. -/
theorem typeAttribute?_typed {contentType : Text} (h : '"' ∉ contentType) (t : Text) :
    ∃ n, typeAttribute? (typed contentType ++ t) = some (contentType, n) := by
  have hannounces : Announces "type=".toList :=
    ⟨"type".toList, [], [], rfl, by decide, by simp, by simp⟩
  have hquote : ∀ c ∈ ('"' :: (contentType ++ '"' :: t)).head?, isBlank c = false := by
    intro c hc
    obtain rfl := Option.some.inj hc
    decide
  rw [typed_append, hannounces.typeAttribute?_append hquote,
    attributeValue?_of_isQuote (Or.inl rfl), position?_singleton h, Option.map_some,
    Option.map_some, List.take_left]
  exact ⟨_, rfl⟩

/-- Where a new attribute is announced in front of the one that is written, it is announced in the
text before: the name of an attribute does not go on in another. -/
theorem exists_announces_append {u contentType t value : Text} {n : Nat} (hu0 : u ≠ [])
    (hu : ∀ c ∈ u.getLast?, continuesName c = false)
    (h : typeAttribute? (u ++ (typed contentType ++ t)) = some (value, n)) :
    ∃ front rest m, u = front ++ rest ∧ Announces front ∧
      (∀ c ∈ rest.head?, isBlank c = false) ∧
      attributeValue? (rest ++ (typed contentType ++ t)) = some (value, m) := by
  obtain ⟨front, s, m, heq, hfront, hs, hvalue⟩ := exists_announces h
  obtain ⟨name, pad, gap, rfl, hname, hpad, hgap⟩ := id hfront
  obtain ⟨z, hz⟩ : ∃ z, typed contentType ++ t = 't' :: z := ⟨_, rfl⟩
  rw [hz, List.append_assoc] at heq
  -- the name stands in the text before, since that does not end with a letter
  obtain ⟨d, rfl, hd⟩ : ∃ d, u = name ++ d ∧ (pad ++ '=' :: gap) ++ s = d ++ 't' :: z := by
    rcases List.append_eq_append_iff.mp heq with ⟨d, rfl, -⟩ | hd
    · obtain ⟨c, hc⟩ := Option.isSome_iff_exists.mp (List.getLast?_isSome.mpr hu0)
      have hword : isWord c = true := by
        have halpha : ∀ p ∈ "type".toList, p.isAlpha = true := forall_mem_of_all (by decide)
        have hmem := List.mem_append_left d (List.mem_of_getLast? hc)
        obtain ⟨p, hp, hagrees⟩ := exists_agrees_of_mem hname hmem
        exact isWord_of_agrees (halpha p hp) hagrees
      have hlast := hu c hc
      rw [continuesName, hword] at hlast
      exact absurd hlast (by simp)
    · exact hd
  -- and white space and the sign do not go on with a letter
  have hsign : 't' ∉ pad ++ '=' :: gap := by
    have hblank : ∀ a : Text, (∀ c ∈ a, isBlank c = true) → 't' ∉ a := by
      intro a ha hmem
      exact absurd (ha _ hmem) (by decide)
    simp [hblank pad hpad, hblank gap hgap]
  obtain ⟨rest, rfl, rfl⟩ := Marker.exists_of_append_eq_append_cons hsign hd
  refine ⟨_, rest, m, (List.append_assoc _ _ _).symm, hfront, fun c hc => ?_, ?_⟩
  · cases rest with
    | nil => exact absurd hc (by simp)
    | cons y rest => exact hs c hc
  · rw [hz]
    exact hvalue

/-- A value that becomes one now ends with the quote that is written: it was begun with another, and
that was not answered. -/
theorem exists_append_of_attributeValue? {s rest t contentType value : Text} {x : Char} {m : Nat}
    (hx : isWord x = true) (ht : ∀ c ∈ t, c ∈ x :: rest)
    (hquotes : ∀ c ∈ contentType, ¬Literal.IsQuote c)
    (hnone : attributeValue? (s ++ x :: rest) = none)
    (hvalue : attributeValue? (s ++ (typed contentType ++ t)) = some (value, m)) :
    ∃ w, value = w ++ "type=".toList := by
  cases s with
  | nil =>
    -- the first letter would have begun a bare value
    have hxquote : ¬Literal.IsQuote x := by
      rintro (rfl | rfl)
      · exact absurd hx (by decide)
      · exact absurd hx (by decide)
    rcases (attributeValue?_eq_none_iff hxquote rest).mp hnone with hblank | rfl
    · exact absurd ((isBlank_eq_false_of_isWord hx).symm.trans hblank) Bool.false_ne_true
    · exact absurd hx (by decide)
  | cons q s =>
    by_cases hq : Literal.IsQuote q
    · rw [List.cons_append, attributeValue?_of_isQuote hq, Option.map_eq_none_iff,
        position?_singleton_eq_none_iff, List.mem_append, not_or] at hnone
      rw [List.cons_append, attributeValue?_of_isQuote hq] at hvalue
      have hqt : q ∉ t := fun hmem => hnone.2 (ht q hmem)
      have hqtype : q ∉ contentType := fun hmem => hquotes q hmem hq
      rcases hq with rfl | rfl
      · -- the quote that is written answers the one that was not answered
        have htext : s ++ (typed contentType ++ t) =
            (s ++ "type=".toList) ++ '"' :: (contentType ++ '"' :: t) := by
          rw [typed_append]
          exact (List.append_assoc s _ _).symm
        have hfirst : '"' ∉ s ++ "type=".toList := by simp [hnone.1]
        rw [htext, position?_singleton hfirst, Option.map_some, List.take_left] at hvalue
        exact ⟨s, (Prod.mk.inj (Option.some.inj hvalue)).1.symm⟩
      · have habsent : '\'' ∉ s ++ (typed contentType ++ t) := by
          rw [typed_append]
          simp [hnone.1, hqtype, hqt]
        rw [position?_singleton_eq_none_iff.mpr habsent] at hvalue
        exact absurd hvalue (by simp)
    · rw [List.cons_append, attributeValue?_eq_none_iff hq] at hnone
      rw [List.cons_append, (attributeValue?_eq_none_iff hq _).mpr hnone] at hvalue
      exact absurd hvalue (by simp)

/-- **What can become an attribute now** that was none before: the text `u` stands before the first
type attribute, of which `x` is the first letter, and it announces a value in double quotes. -/
theorem exists_append_of_typed {u rest t contentType value : Text} {x : Char} {n : Nat}
    (hu0 : u ≠ []) (hu : ∀ c ∈ u.getLast?, continuesName c = false) (hx : isWord x = true)
    (ht : ∀ c ∈ t, c ∈ x :: rest) (hquotes : ∀ c ∈ contentType, ¬Literal.IsQuote c)
    (hnone : typeAttribute? (u ++ x :: rest) = none)
    (hsome : typeAttribute? (u ++ (typed contentType ++ t)) = some (value, n)) :
    ∃ w, value = w ++ "type=".toList := by
  obtain ⟨front, s, m, rfl, hfront, hs, hvalue⟩ := exists_announces_append hu0 hu hsome
  have hhead : ∀ c ∈ (s ++ x :: rest).head?, isBlank c = false := by
    intro c hc
    cases s with
    | nil =>
      obtain rfl := Option.some.inj hc
      exact isBlank_eq_false_of_isWord hx
    | cons y s => exact hs c hc
  rw [List.append_assoc, hfront.typeAttribute?_append hhead, Option.map_eq_none_iff] at hnone
  exact exists_append_of_attributeValue? hx ht hquotes hnone hvalue

/-! ### The first type attribute -/

/-- A type attribute begins with a letter. -/
theorem isWord_of_typeAttribute? {c : Char} {t value : Text} {n : Nat}
    (h : typeAttribute? (c :: t) = some (value, n)) : isWord c = true := by
  obtain ⟨front, rest, m, heq, ⟨name, pad, gap, rfl, hname, -⟩, -⟩ := exists_announces h
  have hword : "type".toList = 't' :: "ype".toList := rfl
  rw [hword] at hname
  obtain ⟨x, name, hx, -, rfl⟩ := List.forall₂_cons_left_iff.mp hname
  rw [(List.cons.inj heq).1]
  exact isWord_of_agrees (by decide) hx

theorem getLast?_toList_append_cons (prev : Option Char) (c : Char) (u : Text) :
    (prev.toList ++ c :: u).getLast? = ((some c).toList ++ u).getLast? :=
  List.getLast?_append_of_ne_nil _ (List.cons_ne_nil c u)

/-- **Where the first type attribute is found**: it begins with a letter, after a character that no
name goes on after. -/
theorem exists_of_findTypeFrom {prev : Option Char} {offset : Nat} {t : Text} {f : Found Text}
    (h : findTypeFrom prev offset t = some f) :
    ∃ u x rest, t = u ++ x :: rest ∧ f.start = offset + u.length ∧ isWord x = true ∧
      ∀ c ∈ (prev.toList ++ u).getLast?, continuesName c = false := by
  induction t generalizing prev offset with
  | nil => exact absurd h (by simp [findTypeFrom])
  | cons c t ih =>
    rw [findTypeFrom] at h
    split at h
    · rename_i value n hread
      split at hread
      · exact absurd hread (by simp)
      · rename_i hprev
        obtain rfl := Option.some.inj h
        refine ⟨[], c, t, rfl, rfl, isWord_of_typeAttribute? hread, ?_⟩
        intro x hx
        cases prev with
        | none => exact absurd hx (by simp)
        | some y =>
          obtain rfl := Option.some.inj hx
          simpa using hprev
    · obtain ⟨u, x, rest, rfl, hstart, hx, hlast⟩ := ih h
      refine ⟨c :: u, x, rest, rfl, ?_, hx, ?_⟩
      · rw [hstart, List.length_cons]
        omega
      · rwa [getLast?_toList_append_cons]

/-- **The first type attribute after another content type is written.**  The induction is on the
text before the place where it is written. -/
theorem exists_findTypeFrom_typed {prev : Option Char} {offset : Nat} {u rest : Text} {x : Char}
    {f : Found Text} (h : findTypeFrom prev offset (u ++ x :: rest) = some f)
    (hstart : f.start = offset + u.length) (hx : isWord x = true)
    (hlast : ∀ c ∈ (prev.toList ++ u).getLast?, continuesName c = false) {t contentType : Text}
    (ht : ∀ c ∈ t, c ∈ x :: rest) (hquotes : ∀ c ∈ contentType, ¬Literal.IsQuote c) :
    ∃ f', findTypeFrom prev offset (u ++ (typed contentType ++ t)) = some f' ∧
      (f'.item = contentType ∨ ∃ w, f'.item = w ++ "type=".toList) := by
  induction u generalizing prev offset with
  | nil =>
    have hprev : ¬prev.any continuesName = true := by
      cases prev with
      | none => simp
      | some y => simp [hlast y rfl]
    obtain ⟨n, hread⟩ :=
      typeAttribute?_typed (fun hmem => hquotes _ hmem (Or.inl rfl)) t
    obtain ⟨z, hz⟩ : ∃ z, typed contentType ++ t = 't' :: z := ⟨_, rfl⟩
    rw [hz] at hread
    refine ⟨⟨offset, n, contentType⟩, ?_, Or.inl rfl⟩
    rw [List.nil_append, hz, findTypeFrom, if_neg hprev, hread]
  | cons c u ih =>
    rw [List.cons_append, findTypeFrom] at h
    split at h
    · -- the attribute would have been found at once
      obtain rfl := Option.some.inj h
      rw [List.length_cons] at hstart
      dsimp only at hstart
      omega
    · rename_i hnone
      rw [getLast?_toList_append_cons] at hlast
      obtain ⟨f', hf', hitem⟩ := ih h (by rw [hstart, List.length_cons]; omega) hlast
      rw [List.cons_append, findTypeFrom]
      split
      · rename_i value n hsome
        split at hsome
        · exact absurd hsome (by simp)
        · rename_i hprev
          rw [if_neg hprev] at hnone
          refine ⟨_, rfl, Or.inr ?_⟩
          exact exists_append_of_typed (List.cons_ne_nil c u) hlast hx ht hquotes hnone hsome
      · exact ⟨f', hf', hitem⟩

/-! ### Attributes with another content type -/

/-- Another content type is written between two parts of the attributes. -/
theorem exists_retag_eq {attributes : Text} {f : Found Text} (h : findType? attributes = some f) :
    ∃ u x rest, attributes = u ++ x :: rest ∧ f.start = u.length ∧ isWord x = true ∧
      (∀ c ∈ u.getLast?, continuesName c = false) ∧
      ∀ contentType, retag attributes contentType =
        u ++ (typed contentType ++ (x :: rest).drop f.length) := by
  obtain ⟨u, x, rest, rfl, hstart, hx, hlast⟩ := exists_of_findTypeFrom h
  rw [Nat.zero_add] at hstart
  refine ⟨u, x, rest, rfl, hstart, hx, hlast, fun contentType => ?_⟩
  have hstop : f.stop = u.length + f.length := by rw [Found.stop, hstart]
  rw [retag, h]
  dsimp only
  rw [hstart, hstop, List.take_left, List.drop_length_add_append]
  delta typed
  generalize "type=\"".toList = key
  simp

/-- **The content type that is read after another has been written** is that one, or the value of
an attribute that was begun before. -/
theorem contentType?_retag {attributes contentType : Text}
    (hquotes : ∀ c ∈ contentType, ¬Literal.IsQuote c)
    (h : (contentType? attributes).isSome = true) :
    ∃ value, contentType? (retag attributes contentType) = some value ∧
      (value = contentType ∨ ∃ w, value = w ++ "type=".toList) := by
  rw [contentType?, Option.isSome_map] at h
  obtain ⟨f, hf⟩ := Option.isSome_iff_exists.mp h
  obtain ⟨u, x, rest, rfl, hstart, hx, hlast, hretag⟩ := exists_retag_eq hf
  obtain ⟨f', hf', hitem⟩ := exists_findTypeFrom_typed hf (by rw [hstart, Nat.zero_add]) hx hlast
    (t := (x :: rest).drop f.length) (fun c hc => List.mem_of_mem_drop hc) hquotes
  refine ⟨f'.item, ?_, hitem⟩
  rw [contentType?, findType?, hretag, hf']
  rfl

theorem mem_dropWhile {p : Char → Bool} {c : Char} (hc : p c = false) {t : Text} (h : c ∈ t) :
    c ∈ t.dropWhile p := by
  rw [← List.takeWhile_append_dropWhile (p := p) (l := t)] at h
  rcases List.mem_append.mp h with h | h
  · exact absurd (hc.symm.trans (List.mem_takeWhile_imp h)) Bool.false_ne_true
  · exact h

theorem mem_strip {c : Char} (hc : isBlank c = false) {t : Text} (h : c ∈ t) : c ∈ strip t := by
  rw [strip, List.mem_reverse]
  refine mem_dropWhile hc ?_
  rw [List.mem_reverse]
  exact mem_dropWhile hc h

/-- A sign has no case. -/
theorem sign_mem_lowerFrom {t : Text} (h : '=' ∈ t) (before : Text) : '=' ∈ lowerFrom before t := by
  induction t generalizing before with
  | nil => exact absurd h List.not_mem_nil
  | cons c t ih =>
    rw [lowerFrom]
    rcases List.mem_cons.mp h with rfl | h
    · have hchar : lowerChar '=' = '=' := by decide +kernel
      rw [if_neg (by decide), if_neg (by decide), hchar]
      exact List.mem_append_left _ List.mem_cons_self
    · exact List.mem_append_right _ (ih h _)

/-- Such a value is still seen to hold a sign when it is compared with content types. -/
theorem sign_mem_normalType (w : Text) : '=' ∈ normalType (w ++ "type=".toList) := by
  apply sign_mem_lowerFrom
  apply mem_strip (by decide)
  exact List.mem_append_right w (by decide)

/-- Nothing is written that stands neither in the attributes nor in the new one. -/
theorem mem_or_mem_of_mem_retag {c : Char} {attributes contentType : Text}
    (h : c ∈ retag attributes contentType) : c ∈ attributes ∨ c ∈ typed contentType := by
  cases hf : findType? attributes with
  | none =>
    rw [retag, hf] at h
    exact Or.inl h
  | some f =>
    obtain ⟨u, x, rest, rfl, -, -, -, hretag⟩ := exists_retag_eq hf
    rw [hretag] at h
    rcases List.mem_append.mp h with h | h
    · exact Or.inl (List.mem_append_left _ h)
    · rcases List.mem_append.mp h with h | h
      · exact Or.inr h
      · exact Or.inl (List.mem_append_right _ (List.mem_of_mem_drop h))

/-- Attributes that do not begin with a letter keep their first character. -/
theorem head?_retag {attributes : Text} (h : attributes.head?.any isWord = false)
    (contentType : Text) : (retag attributes contentType).head?.any isWord = false := by
  cases hf : findType? attributes with
  | none => rwa [retag, hf]
  | some f =>
    obtain ⟨u, x, rest, rfl, -, hx, -, hretag⟩ := exists_retag_eq hf
    rw [hretag]
    cases u with
    | nil => exact absurd (h.symm.trans hx) Bool.false_ne_true
    | cons c u => exact h

end LabelLoop.Document
