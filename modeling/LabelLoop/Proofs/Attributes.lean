import LabelLoop.Proofs.Retagging

/-!
# The type attribute among other attributes

The attributes of an element are a list (`Attributes`): names with bare values, values in quotes or
no value, and white space between them.  The search for the type attribute knows nothing of that
list.  It goes through the text, and may stop at any place where no name goes on.  In gaps, in names
and in bare values it never stops at a wrong place, but in a value in quotes it stops at what looks
like a type attribute (`Attribute.readsIn_written_iff`).

So the type attribute is read and replaced as an attribute exactly if no value before it misleads
the search (`type_attribute_read_unless_misled`).
-/

namespace LabelLoop.Document

open Text

/-! ### Lists of attributes -/

/-- The characters of the name of an attribute. -/
def nameChar (c : Char) : Bool :=
  c.isAlphanum || c = '-'

/-- The **value** of an attribute, as it is written. -/
inductive Attribute.Value where
  | absent
  | bare (text : Text) (ne_nil : text ≠ [])
      (plain : ∀ c ∈ text, isBlank c = false ∧ c ≠ '=' ∧ c ≠ '>' ∧ ¬Literal.IsQuote c)
  | quoted (quote : Char) (text : Text) (isQuote : Literal.IsQuote quote)
      (plain : ∀ c ∈ text, c ≠ '>' ∧ ¬Literal.IsQuote c)

/-- An **attribute** with the white space in front of it. -/
structure Attribute where
  gap : Text
  name : Text
  value : Attribute.Value
  gap_blank : ∀ c ∈ gap, isBlank c = true
  name_ne_nil : name ≠ []
  nameChar_name : ∀ c ∈ name, nameChar c = true

namespace Attribute

/-- The text of a value, if there is one. -/
def Value.text? : Value → Option Text
  | absent => none
  | bare v _ _ => some v
  | quoted _ v _ _ => some v

/-- A value with its sign and its quotes. -/
def Value.written : Value → Text
  | absent => []
  | bare v _ _ => '=' :: v
  | quoted q v _ _ => '=' :: q :: (v ++ [q])

/-- The name without regard to case. -/
def key (a : Attribute) : Text :=
  a.name.map Char.toLower

/-- The value of an attribute that is called `type`. -/
def typeValue? (a : Attribute) : Option Text :=
  if a.key = "type".toList then a.value.text? else none

/-- An attribute without the white space in front of it. -/
def core (a : Attribute) : Text :=
  a.name ++ a.value.written

/-- The text of an attribute. -/
def written (a : Attribute) : Text :=
  a.gap ++ a.core

/-- The text of an attribute, where the type attribute is written anew. -/
def retagged (contentType : Text) (a : Attribute) : Text :=
  a.gap ++ if a.typeValue?.isSome then typed contentType else a.core

/-- A value in quotes **misleads** the search for the type attribute.  Where no name goes on, it
holds the name, the sign and then something that is no white space; or else nothing, and then the
quote that ends the value begins another, which has to end in the text `rest` after it. -/
def Value.Misleads (rest : Text) : Value → Prop
  | quoted q v _ _ =>
    ∃ a front b, v = a ++ (front ++ b) ∧ Announces front ∧
      (∀ c ∈ a.getLast?, continuesName c = false) ∧ (∀ c ∈ b.head?, isBlank c = false) ∧
      (b = [] → q ∈ rest)
  | _ => False

end Attribute

/-- The text of some attributes and the white space behind them. -/
def attributesText (trail : Text) (as : List Attribute) : Text :=
  as.flatMap Attribute.written ++ trail

/-- Where the type attribute stands among attributes, if it has a value. -/
def typePlaceFrom (offset : Nat) : List Attribute → Option (Found Text)
  | [] => none
  | a :: as =>
    match a.typeValue? with
    | some v => some ⟨offset + a.gap.length, a.core.length, v⟩
    | none => typePlaceFrom (offset + a.written.length) as

/-- A value in front of the type attribute misleads the search. -/
def MisledIn (trail : Text) : List Attribute → Prop
  | [] => False
  | a :: as =>
    a.typeValue? = none ∧ (a.value.Misleads (attributesText trail as) ∨ MisledIn trail as)

/-- **Attributes** as they may stand in a tag: there is white space between them, and no two have
the same name. -/
structure Attributes where
  list : List Attribute
  trail : Text
  separated : ∀ a ∈ list.tail, a.gap ≠ []
  trail_blank : ∀ c ∈ trail, isBlank c = true
  distinct : (list.map Attribute.key).Nodup

namespace Attributes

variable (as : Attributes)

def text : Text :=
  attributesText as.trail as.list

/-- Where the type attribute stands, if it has a value. -/
def typePlace? : Option (Found Text) :=
  typePlaceFrom 0 as.list

/-- The value of the type attribute. -/
def typeValue? : Option Text :=
  as.list.findSome? Attribute.typeValue?

/-- The text with another type attribute in the place of the one there is. -/
def retagged (contentType : Text) : Text :=
  as.list.flatMap (Attribute.retagged contentType) ++ as.trail

/-- The search for the type attribute is misled. -/
def Misled : Prop :=
  MisledIn as.trail as.list

end Attributes

/-! ### Characters -/

theorem isWord_of_isDigit {c : Char} (h : c.isDigit = true) : isWord c = true := by
  have hrange : 48 ≤ c.toNat ∧ c.toNat ≤ 57 := by
    simp only [Char.isDigit, Bool.and_eq_true, decide_eq_true_eq] at h
    exact h
  exact isWord_of_range (0x30, 0x3A) hrange.1 (Nat.lt_succ_of_le hrange.2) (by decide +kernel)
    (by decide)

theorem continuesName_of_nameChar {c : Char} (h : nameChar c = true) : continuesName c = true := by
  rw [nameChar, Char.isAlphanum, Bool.or_eq_true, Bool.or_eq_true] at h
  rw [continuesName, Bool.or_eq_true]
  rcases h with (h | h) | h
  · exact Or.inl (isWord_of_isAlpha h)
  · exact Or.inl (isWord_of_isDigit h)
  · exact Or.inr h

/-- A name goes on after no white space. -/
theorem continuesName_of_isBlank {c : Char} (h : isBlank c = true) : continuesName c = false := by
  have hne : c ≠ '-' := by
    rintro rfl
    exact absurd h (by decide)
  simp [continuesName, isWord_eq_false_of_isBlank h, hne]

theorem isBlank_eq_false_of_nameChar {c : Char} (h : nameChar c = true) : isBlank c = false := by
  by_contra hblank
  have hcontinues := continuesName_of_nameChar h
  rw [continuesName_of_isBlank (Bool.not_eq_false _ ▸ hblank)] at hcontinues
  exact Bool.false_ne_true hcontinues

theorem ne_sign_of_nameChar {c : Char} (h : nameChar c = true) : c ≠ '=' := by
  rintro rfl
  exact absurd h (by decide)

theorem isWord_eq_false_of_isQuote {q : Char} (h : Literal.IsQuote q) : isWord q = false := by
  rcases h with rfl | rfl
  · decide
  · decide

theorem continuesName_of_isQuote {q : Char} (h : Literal.IsQuote q) : continuesName q = false := by
  rcases h with rfl | rfl
  · decide
  · decide

theorem isBlank_eq_false_of_isQuote {q : Char} (h : Literal.IsQuote q) : isBlank q = false := by
  rcases h with rfl | rfl
  · decide
  · decide

/-- The name `type` in any case, for names of attributes. -/
theorem forall₂_agrees_type_iff (name : Text) :
    List.Forall₂ (fun p c => agrees p c = true) "type".toList name ↔
      name.map Char.toLower = "type".toList :=
  forall₂_agrees_iff (forall_mem_of_all (by decide)) name

/-- The name is written with letters. -/
theorem isWord_of_mem_type {name : Text}
    (h : List.Forall₂ (fun p c => agrees p c = true) "type".toList name) {c : Char}
    (hc : c ∈ name) : isWord c = true := by
  have halpha : ∀ p ∈ "type".toList, p.isAlpha = true := forall_mem_of_all (by decide)
  obtain ⟨p, hp, hagrees⟩ := exists_agrees_of_mem h hc
  exact isWord_of_agrees (halpha p hp) hagrees

/-! ### Places at which the search stops -/

/-- The search **stops** at a place in `u`, which stands after the character `prev` and before
`rest`. -/
def ReadsIn (prev : Option Char) (rest u : Text) : Prop :=
  ∃ a b, u = a ++ b ∧ b ≠ [] ∧ (∀ c ∈ (prev.toList ++ a).getLast?, continuesName c = false) ∧
    typeAttribute? (b ++ rest) ≠ none

theorem not_readsIn_nil (prev : Option Char) (rest : Text) : ¬ReadsIn prev rest [] := by
  rintro ⟨a, b, heq, hb, -⟩
  exact hb (List.append_eq_nil_iff.mp heq.symm).2

theorem readsIn_cons {prev : Option Char} {rest u : Text} {c : Char} :
    ReadsIn prev rest (c :: u) ↔
      prev.any continuesName = false ∧ typeAttribute? (c :: (u ++ rest)) ≠ none ∨
        ReadsIn (some c) rest u := by
  constructor
  · rintro ⟨a, b, heq, hb, hlast, hread⟩
    cases a with
    | nil =>
      obtain rfl : c :: u = b := heq
      refine Or.inl ⟨?_, hread⟩
      cases prev with
      | none => rfl
      | some y => exact hlast y rfl
    | cons x a =>
      obtain ⟨rfl, rfl⟩ := List.cons.inj heq
      rw [getLast?_toList_append_cons] at hlast
      exact Or.inr ⟨a, b, rfl, hb, hlast, hread⟩
  · rintro (⟨hprev, hread⟩ | ⟨a, b, rfl, hb, hlast, hread⟩)
    · refine ⟨[], c :: u, rfl, List.cons_ne_nil c u, fun y hy => ?_, hread⟩
      cases prev with
      | none => exact absurd hy (by simp)
      | some x =>
        obtain rfl := Option.some.inj hy
        exact hprev
    · refine ⟨c :: a, b, rfl, hb, ?_, hread⟩
      rwa [getLast?_toList_append_cons]

theorem readsIn_append {prev : Option Char} {rest u v : Text} :
    ReadsIn prev rest (u ++ v) ↔
      ReadsIn prev (v ++ rest) u ∨ ReadsIn (prev.toList ++ u).getLast? rest v := by
  induction u generalizing prev with
  | nil =>
    have hlast : (prev.toList ++ []).getLast? = prev := by cases prev <;> rfl
    rw [hlast, List.nil_append]
    exact ⟨Or.inr, fun h => h.resolve_left (not_readsIn_nil _ _)⟩
  | cons c u ih =>
    rw [List.cons_append, readsIn_cons, readsIn_cons, ih, getLast?_toList_append_cons, or_assoc,
      List.append_assoc]

/-- The search goes on behind a text in which it does not stop. -/
theorem findTypeFrom_append {prev : Option Char} {rest u : Text} (h : ¬ReadsIn prev rest u)
    (offset : Nat) :
    findTypeFrom prev offset (u ++ rest) =
      findTypeFrom (prev.toList ++ u).getLast? (offset + u.length) rest := by
  induction u generalizing prev offset with
  | nil => cases prev <;> rfl
  | cons c u ih =>
    rw [readsIn_cons, not_or, not_and, not_not] at h
    have hnone : (if prev.any continuesName then none else typeAttribute? (c :: (u ++ rest))) =
        none := by
      split
      · rfl
      · rename_i hprev
        exact h.1 (Bool.not_eq_true _ ▸ hprev)
    rw [List.cons_append, findTypeFrom, hnone]
    dsimp only
    rw [ih h.2, getLast?_toList_append_cons, List.length_cons, Nat.add_assoc, Nat.add_comm 1]

/-- If the search can stop in a text, then it does not come to the end of it. -/
theorem exists_findTypeFrom_append {prev : Option Char} {rest u : Text} (h : ReadsIn prev rest u)
    (offset : Nat) :
    ∃ f, findTypeFrom prev offset (u ++ rest) = some f ∧ f.start < offset + u.length := by
  induction u generalizing prev offset with
  | nil => exact absurd h (not_readsIn_nil _ _)
  | cons c u ih =>
    rw [List.cons_append, findTypeFrom, List.length_cons]
    split
    · exact ⟨_, rfl, Nat.lt_add_of_pos_right (Nat.succ_pos _)⟩
    · rename_i hnone
      rcases readsIn_cons.mp h with ⟨hprev, hread⟩ | h
      · rw [if_neg (by rw [hprev]; exact Bool.false_ne_true)] at hnone
        exact absurd hnone hread
      · obtain ⟨f, hf, hlt⟩ := ih h (offset + 1)
        exact ⟨f, hf, by omega⟩

/-! ### Gaps and names -/

/-- A type attribute begins with a word character. -/
theorem not_readsIn_of_not_isWord {u : Text} (h : ∀ c ∈ u, isWord c = false)
    (prev : Option Char) (rest : Text) : ¬ReadsIn prev rest u := by
  rintro ⟨a, b, rfl, hb, -, hread⟩
  obtain ⟨c, b, rfl⟩ := List.exists_cons_of_ne_nil hb
  obtain ⟨⟨value, n⟩, hsome⟩ := Option.ne_none_iff_exists'.mp hread
  have hword := isWord_of_typeAttribute? hsome
  rw [h c (by simp)] at hword
  exact Bool.false_ne_true hword

/-- The search can stop only at the first character of a name. -/
theorem typeAttribute?_of_readsIn_name {name : Text} (h : ∀ c ∈ name, nameChar c = true)
    {prev : Option Char} {rest : Text} (hreads : ReadsIn prev rest name) :
    typeAttribute? (name ++ rest) ≠ none := by
  obtain ⟨a, b, rfl, -, hlast, hread⟩ := hreads
  cases hlast' : a.getLast? with
  | none =>
    obtain rfl := List.getLast?_eq_none_iff.mp hlast'
    exact hread
  | some c =>
    have hc : c ∈ (prev.toList ++ a).getLast? := by
      rw [List.getLast?_append, hlast']
      rfl
    have hname := continuesName_of_nameChar (h c (by simp [List.mem_of_getLast? hlast']))
    rw [hlast c hc] at hname
    exact absurd hname Bool.false_ne_true

/-- A text that **parts** what stands before it from a sign: it begins with white space, and the
first character after that is no sign. -/
def Parts (rest : Text) : Prop :=
  (∀ c ∈ rest.head?, isBlank c = true) ∧
    ∀ d s, rest = d ++ '=' :: s → ∃ c ∈ d, isBlank c = false

/-- **No type attribute begins in a word without a sign**, if what follows parts it from the next
sign. -/
theorem typeAttribute?_eq_none_of_parts {word rest : Text} (hrest : Parts rest)
    (hword : ∀ c ∈ word, isBlank c = false ∧ c ≠ '=') :
    typeAttribute? (word ++ rest) = none := by
  by_contra hread
  obtain ⟨⟨value, n⟩, hsome⟩ := Option.ne_none_iff_exists'.mp hread
  obtain ⟨front, s, m, heq, ⟨name, pad, gap, rfl, hname, hpad, -⟩, -, -⟩ := exists_announces hsome
  have hsign : '=' ∉ word := fun hmem => (hword _ hmem).2 rfl
  have hsplit : word ++ rest = (name ++ pad) ++ '=' :: (gap ++ s) := by
    rw [heq]
    simp
  obtain ⟨d, hd, hrest'⟩ := Marker.exists_of_append_eq_append_cons hsign hsplit
  -- what is left of the name and the white space stands in the rest, and has to begin there
  cases d with
  | nil =>
    rw [hrest'] at hrest
    exact absurd (hrest.1 '=' rfl) (by decide)
  | cons x d =>
    have hx : isBlank x = true := hrest.1 x (by rw [hrest']; rfl)
    have hxname : x ∉ name := by
      intro hmem
      have hblank := isBlank_eq_false_of_isWord (isWord_of_mem_type hname hmem)
      exact Bool.false_ne_true (hblank.symm.trans hx)
    -- so it is white space alone, and the sign comes first after it
    have hblank : ∀ c ∈ x :: d, isBlank c = true := by
      rcases List.append_eq_append_iff.mp hd with ⟨e, -, he⟩ | ⟨e, he, hpad'⟩
      · intro c hc
        exact hpad c (by rw [he]; exact List.mem_append_right _ hc)
      · cases e with
        | nil =>
          have hpad'' : x :: d = pad := hpad'
          rwa [hpad'']
        | cons y e =>
          obtain rfl := (List.cons.inj hpad').1
          exact absurd (by rw [he]; simp) hxname
    obtain ⟨c, hc, hfalse⟩ := hrest.2 _ _ hrest'
    exact Bool.false_ne_true (hfalse.symm.trans (hblank c hc))

theorem not_readsIn_of_parts {word rest : Text} (hrest : Parts rest)
    (hword : ∀ c ∈ word, isBlank c = false ∧ c ≠ '=') (prev : Option Char) :
    ¬ReadsIn prev rest word := by
  rintro ⟨a, b, rfl, -, -, hread⟩
  apply hread
  apply typeAttribute?_eq_none_of_parts hrest
  intro c hc
  exact hword c (List.mem_append_right a hc)

/-- A name with a sign right after it is read only if it is `type`. -/
theorem map_toLower_of_typeAttribute? {name rest : Text} (hname : ∀ c ∈ name, nameChar c = true)
    (h : typeAttribute? (name ++ '=' :: rest) ≠ none) : name.map Char.toLower = "type".toList := by
  obtain ⟨⟨value, n⟩, hsome⟩ := Option.ne_none_iff_exists'.mp h
  obtain ⟨front, s, m, heq, ⟨word, pad, gap, rfl, hword, hpad, -⟩, -, -⟩ := exists_announces hsome
  have hsplit : name ++ '=' :: rest = (word ++ pad) ++ '=' :: (gap ++ s) := by
    rw [heq]
    simp
  have hsign : '=' ∉ name := fun hmem => ne_sign_of_nameChar (hname _ hmem) rfl
  obtain ⟨d, hd, hrest⟩ := Marker.exists_of_append_eq_append_cons hsign hsplit
  -- neither the letters nor the white space hold a sign
  have hd' : d = [] := by
    cases d with
    | nil => rfl
    | cons x d =>
      obtain rfl := (List.cons.inj hrest).1
      have hmem : '=' ∈ word ++ pad := by
        rw [hd]
        simp
      rcases List.mem_append.mp hmem with hmem | hmem
      · exact absurd (isWord_of_mem_type hword hmem) (by decide)
      · exact absurd (hpad _ hmem) (by decide)
  rw [hd', List.append_nil] at hd
  have hpad' : pad = [] := by
    refine List.eq_nil_iff_forall_not_mem.mpr fun c hc => ?_
    have hmem : c ∈ name := by
      rw [← hd]
      exact List.mem_append_right _ hc
    have hblank := isBlank_eq_false_of_nameChar (hname c hmem)
    exact Bool.false_ne_true (hblank.symm.trans (hpad c hc))
  rw [hpad', List.append_nil] at hd
  rw [← hd]
  exact (forall₂_agrees_type_iff word).mp hword

/-- No quote stands in an announcement. -/
theorem Announces.not_mem {front : Text} (h : Announces front) {q : Char} (hq : Literal.IsQuote q) :
    q ∉ front := by
  obtain ⟨name, pad, gap, rfl, hname, hpad, hgap⟩ := h
  have hblank : ∀ a : Text, (∀ c ∈ a, isBlank c = true) → q ∉ a := by
    intro a ha hmem
    exact Bool.false_ne_true ((isBlank_eq_false_of_isQuote hq).symm.trans (ha q hmem))
  have hletters : q ∉ name := by
    intro hmem
    have hword := isWord_of_mem_type hname hmem
    exact Bool.false_ne_true ((isWord_eq_false_of_isQuote hq).symm.trans hword)
  have hsign : q ≠ '=' := by
    rintro rfl
    exact absurd hq (by decide)
  simp [hletters, hblank pad hpad, hblank gap hgap, hsign]

/-! ### Values -/

/-- **What can be read inside of quotes**: something that is announced there, with a bare value
there, or with the quote as the first of a value that ends later. -/
theorem typeAttribute?_quoted_iff {q : Char} (hq : Literal.IsQuote q) {b : Text}
    (hb : ∀ c ∈ b, c ≠ '>' ∧ ¬Literal.IsQuote c) (rest : Text) :
    typeAttribute? (b ++ q :: rest) ≠ none ↔
      ∃ front d, b = front ++ d ∧ Announces front ∧ (∀ c ∈ d.head?, isBlank c = false) ∧
        (d = [] → q ∈ rest) := by
  constructor
  · intro h
    obtain ⟨⟨value, n⟩, hsome⟩ := Option.ne_none_iff_exists'.mp h
    obtain ⟨front, s, m, heq, hfront, hs, hvalue⟩ := exists_announces hsome
    obtain ⟨d, rfl, rfl⟩ := Marker.exists_of_append_eq_append_cons (hfront.not_mem hq) heq.symm
    refine ⟨front, d, rfl, hfront, fun c hc => ?_, ?_⟩
    · cases d with
      | nil => exact absurd hc (by simp)
      | cons x d => exact hs c hc
    · rintro rfl
      rw [List.nil_append, attributeValue?_of_isQuote hq] at hvalue
      by_contra hmem
      rw [position?_singleton_eq_none_iff.mpr hmem] at hvalue
      exact absurd hvalue (by simp)
  · rintro ⟨front, d, rfl, hfront, hd, hnil⟩
    have hhead : ∀ c ∈ (d ++ q :: rest).head?, isBlank c = false := by
      intro c hc
      cases d with
      | nil =>
        obtain rfl := Option.some.inj hc
        exact isBlank_eq_false_of_isQuote hq
      | cons x d => exact hd c hc
    rw [List.append_assoc, hfront.typeAttribute?_append hhead, Ne, Option.map_eq_none_iff]
    cases d with
    | nil =>
      rw [List.nil_append, attributeValue?_of_isQuote hq, Option.map_eq_none_iff,
        position?_singleton_eq_none_iff, not_not]
      exact hnil rfl
    | cons x d =>
      obtain ⟨hend, hquote⟩ := hb x (by simp)
      rw [List.cons_append, attributeValue?_eq_none_iff hquote, hd x rfl]
      simp [hend]

/-- **The search stops in a value exactly if that misleads it.** -/
theorem Attribute.Value.readsIn_iff (value : Attribute.Value) {rest : Text} (hrest : Parts rest)
    (prev : Option Char) : ReadsIn prev rest value.written ↔ value.Misleads rest := by
  cases value with
  | absent => exact iff_of_false (not_readsIn_nil _ _) id
  | bare v hne hplain =>
    have hsplit : (Value.bare v hne hplain).written = ['='] ++ v := rfl
    rw [hsplit, readsIn_append]
    refine iff_of_false ?_ id
    rintro (hreads | hreads)
    · exact not_readsIn_of_not_isWord (forall_mem_of_all (by decide)) _ _ hreads
    · exact not_readsIn_of_parts hrest (fun c hc => ⟨(hplain c hc).1, (hplain c hc).2.1⟩) _ hreads
  | quoted q v hq hplain =>
    have hsplit : (Value.quoted q v hq hplain).written = ['=', q] ++ (v ++ [q]) := rfl
    have hsign : ¬ReadsIn prev (v ++ [q] ++ rest) ['=', q] := by
      refine not_readsIn_of_not_isWord (fun c hc => ?_) _ _
      rcases List.mem_cons.mp hc with rfl | hc
      · decide
      · rw [List.mem_singleton.mp hc]
        exact isWord_eq_false_of_isQuote hq
    have hend : ∀ prev, ¬ReadsIn prev rest [q] := by
      refine fun prev => not_readsIn_of_not_isWord (fun c hc => ?_) _ _
      rw [List.mem_singleton.mp hc]
      exact isWord_eq_false_of_isQuote hq
    have hlast : (prev.toList ++ ['=', q]).getLast? = some q := by simp
    rw [hsplit, readsIn_append, or_iff_right hsign, readsIn_append, or_iff_left (hend _), hlast]
    -- what can be read from a place in the value on
    have hread_iff : ∀ {a b : Text}, v = a ++ b → (typeAttribute? (b ++ ([q] ++ rest)) ≠ none ↔
        ∃ front d, b = front ++ d ∧ Announces front ∧ (∀ c ∈ d.head?, isBlank c = false) ∧
          (d = [] → q ∈ rest)) := by
      intro a b hv
      refine typeAttribute?_quoted_iff hq (fun c hc => hplain c ?_) rest
      rw [hv]
      exact List.mem_append_right a hc
    constructor
    · rintro ⟨a, b, hv, -, hbefore, hread⟩
      obtain ⟨front, d, rfl, hfront, hd, hnil⟩ := (hread_iff hv).mp hread
      refine ⟨a, front, d, hv, hfront, fun c hc => hbefore c ?_, hd, hnil⟩
      rw [List.getLast?_append, hc]
      rfl
    · rintro ⟨a, front, d, hv, hfront, hbefore, hd, hnil⟩
      have hread := (hread_iff hv).mpr ⟨front, d, rfl, hfront, hd, hnil⟩
      refine ⟨a, front ++ d, hv, ?_, fun c hc => ?_, hread⟩
      · obtain ⟨name, pad, gap, rfl, -⟩ := hfront
        simp
      · rw [List.getLast?_append] at hc
        cases ha : a.getLast? with
        | none =>
          rw [ha] at hc
          obtain rfl := Option.some.inj hc
          exact continuesName_of_isQuote hq
        | some x =>
          rw [ha] at hc
          obtain rfl := Option.some.inj hc
          exact hbefore x ha

/-! ### One attribute -/

/-- Another attribute is not read. -/
theorem Attribute.typeAttribute?_core_eq_none {a : Attribute} (h : a.typeValue? = none)
    {rest : Text} (hrest : Parts rest) : typeAttribute? (a.core ++ rest) = none := by
  -- an attribute with a value has another name
  have hother : ∀ v s, a.value.text? = some v → typeAttribute? (a.name ++ '=' :: s) = none := by
    intro v s hv
    by_contra hread
    have hkey : a.key = "type".toList := map_toLower_of_typeAttribute? a.nameChar_name hread
    rw [typeValue?, if_pos hkey, hv] at h
    exact absurd h (by simp)
  rw [core, List.append_assoc]
  cases hvalue : a.value with
  | absent =>
    refine typeAttribute?_eq_none_of_parts hrest fun c hc => ?_
    have hc := a.nameChar_name c hc
    exact ⟨isBlank_eq_false_of_nameChar hc, ne_sign_of_nameChar hc⟩
  | bare v hne hplain => exact hother v _ (by rw [hvalue]; rfl)
  | quoted q v hq hplain => exact hother v _ (by rw [hvalue]; rfl)

/-- **In any other attribute the search stops exactly if it is misled.** -/
theorem Attribute.readsIn_written_iff {a : Attribute} (h : a.typeValue? = none) {rest : Text}
    (hrest : Parts rest) (prev : Option Char) :
    ReadsIn prev rest a.written ↔ a.value.Misleads rest := by
  have hgap : ¬ReadsIn prev (a.core ++ rest) a.gap :=
    not_readsIn_of_not_isWord (fun c hc => isWord_eq_false_of_isBlank (a.gap_blank c hc)) _ _
  have hname : ∀ prev, ¬ReadsIn prev (a.value.written ++ rest) a.name := by
    intro prev hreads
    have hread := typeAttribute?_of_readsIn_name a.nameChar_name hreads
    rw [← List.append_assoc] at hread
    exact hread (typeAttribute?_core_eq_none h hrest)
  rw [written, readsIn_append, or_iff_right hgap, core, readsIn_append, or_iff_right (hname _),
    a.value.readsIn_iff hrest]

/-- The value of an attribute is read up to its end. -/
theorem Attribute.Value.exists_written_eq {value : Attribute.Value} {v : Text}
    (h : value.text? = some v) :
    ∃ raw, value.written = '=' :: raw ∧ (∀ c ∈ raw.head?, isBlank c = false) ∧ raw ≠ [] ∧
      ∀ rest, Parts rest → attributeValue? (raw ++ rest) = some (v, raw.length) := by
  cases value with
  | absent => exact absurd h (by simp [text?])
  | bare v' hne hplain =>
    obtain rfl : v' = v := Option.some.inj h
    obtain ⟨c, w, rfl⟩ := List.exists_cons_of_ne_nil hne
    refine ⟨c :: w, rfl, ?_, hne, fun rest hrest => ?_⟩
    · intro x hx
      obtain rfl := Option.some.inj hx
      exact (hplain c List.mem_cons_self).1
    · obtain ⟨-, -, -, hquote⟩ := hplain c List.mem_cons_self
      obtain ⟨hdouble, hsingle⟩ := not_or.mp hquote
      have hbare : ∀ d ∈ c :: w, (!isBlank d && d ≠ '>' && d ≠ '"' && d ≠ '\'') = true := by
        intro d hd
        obtain ⟨hblank, -, hend, hd⟩ := hplain d hd
        simp [hblank, hend, not_or.mp hd]
      have htake : (c :: w ++ rest).takeWhile
          (fun d => !isBlank d && d ≠ '>' && d ≠ '"' && d ≠ '\'') = c :: w := by
        rw [List.takeWhile_append_of_pos hbare]
        cases rest with
        | nil => simp
        | cons x rest =>
          rw [List.takeWhile_cons_of_neg (by simp [hrest.1 x rfl]), List.append_nil]
      rw [List.cons_append] at htake ⊢
      rw [attributeValue?, if_neg (by simp [hdouble, hsingle]), htake]
      rfl
  | quoted q v' hq hplain =>
    obtain rfl : v' = v := Option.some.inj h
    refine ⟨q :: (v' ++ [q]), rfl, ?_, List.cons_ne_nil _ _, fun rest _ => ?_⟩
    · intro x hx
      obtain rfl := Option.some.inj hx
      exact isBlank_eq_false_of_isQuote hq
    · have habsent : q ∉ v' := fun hmem => (hplain q hmem).2 hq
      rw [List.cons_append, List.append_assoc, List.singleton_append, attributeValue?_of_isQuote hq,
        position?_singleton habsent, Option.map_some, List.take_left]
      simp

/-- The type attribute is read as such. -/
theorem Attribute.typeAttribute?_core {a : Attribute} {v : Text} (h : a.typeValue? = some v)
    {rest : Text} (hrest : Parts rest) :
    typeAttribute? (a.core ++ rest) = some (v, a.core.length) := by
  rw [typeValue?] at h
  split at h
  · rename_i hkey
    obtain ⟨raw, hraw, hhead, hne, hread⟩ := Value.exists_written_eq h
    have hfront : Announces (a.name ++ ['=']) :=
      ⟨a.name, [], [], rfl, (forall₂_agrees_type_iff a.name).mpr hkey, by simp, by simp⟩
    have hcore : a.core = (a.name ++ ['=']) ++ raw := by
      rw [core, hraw, List.append_assoc, List.singleton_append]
    have hhead' : ∀ c ∈ (raw ++ rest).head?, isBlank c = false := by
      obtain ⟨x, raw, rfl⟩ := List.exists_cons_of_ne_nil hne
      exact hhead
    rw [hcore, List.append_assoc, hfront.typeAttribute?_append hhead', hread rest hrest]
    simp only [Option.map_some, List.length_append]
  · exact absurd h (by simp)

/-- **The search stops at the type attribute**, which begins after white space or at the front. -/
theorem Attribute.findTypeFrom_written {a : Attribute} {v : Text} (h : a.typeValue? = some v)
    {rest : Text} (hrest : Parts rest) {prev : Option Char} (hprev : prev = none ∨ a.gap ≠ [])
    (offset : Nat) :
    findTypeFrom prev offset (a.written ++ rest) =
      some ⟨offset + a.gap.length, a.core.length, v⟩ := by
  have hgap : ¬ReadsIn prev (a.core ++ rest) a.gap :=
    not_readsIn_of_not_isWord (fun c hc => isWord_eq_false_of_isBlank (a.gap_blank c hc)) _ _
  have hlast : ¬(prev.toList ++ a.gap).getLast?.any continuesName = true := by
    cases hgap' : a.gap.getLast? with
    | some c =>
      have hblank := a.gap_blank c (List.mem_of_getLast? hgap')
      simp [List.getLast?_append, hgap', continuesName_of_isBlank hblank]
    | none =>
      have hnil := List.getLast?_eq_none_iff.mp hgap'
      have hnone := hprev.resolve_right (not_not.mpr hnil)
      simp [hnil, hnone]
  have hread := typeAttribute?_core h hrest
  obtain ⟨c, t, ht⟩ : ∃ c t, a.core ++ rest = c :: t := by
    obtain ⟨c, name, hname⟩ := List.exists_cons_of_ne_nil a.name_ne_nil
    exact ⟨c, name ++ (a.value.written ++ rest), by rw [core, hname]; simp⟩
  rw [written, List.append_assoc, findTypeFrom_append hgap]
  rw [ht] at hread ⊢
  rw [findTypeFrom, if_neg hlast, hread]

/-! ### All attributes -/

theorem attributesText_cons (trail : Text) (a : Attribute) (as : List Attribute) :
    attributesText trail (a :: as) = a.written ++ attributesText trail as := by
  rw [attributesText, List.flatMap_cons, List.append_assoc]
  rfl

/-- Attributes with white space before them part what stands before from their signs. -/
theorem parts_attributesText {trail : Text} (htrail : ∀ c ∈ trail, isBlank c = true)
    {as : List Attribute} (h : ∀ a ∈ as, a.gap ≠ []) : Parts (attributesText trail as) := by
  cases as with
  | nil =>
    refine ⟨fun c hc => htrail c (List.mem_of_mem_head? hc), fun d s heq => ?_⟩
    have hmem : '=' ∈ trail := by
      rw [show trail = d ++ '=' :: s from heq]
      simp
    exact absurd (htrail _ hmem) (by decide)
  | cons a as =>
    obtain ⟨x, gap, hgap⟩ := List.exists_cons_of_ne_nil (h a List.mem_cons_self)
    obtain ⟨c, name, hname⟩ := List.exists_cons_of_ne_nil a.name_ne_nil
    have htext : attributesText trail (a :: as) =
        (a.gap ++ a.name) ++ (a.value.written ++ attributesText trail as) := by
      rw [attributesText_cons, Attribute.written, Attribute.core]
      simp
    rw [htext]
    refine ⟨fun y hy => ?_, fun d s heq => ?_⟩
    · rw [hgap] at hy
      obtain rfl := Option.some.inj hy
      exact a.gap_blank x (by rw [hgap]; exact List.mem_cons_self)
    · -- the first character of the name comes before any sign
      have hsign : '=' ∉ a.gap ++ a.name := by
        intro hmem
        rcases List.mem_append.mp hmem with hmem | hmem
        · exact absurd (a.gap_blank _ hmem) (by decide)
        · exact ne_sign_of_nameChar (a.nameChar_name _ hmem) rfl
      obtain ⟨d', rfl, -⟩ := Marker.exists_of_append_eq_append_cons hsign heq
      have hc : c ∈ a.name := by rw [hname]; exact List.mem_cons_self
      exact ⟨c, by simp [hc], isBlank_eq_false_of_nameChar (a.nameChar_name c hc)⟩

theorem le_start_of_typePlaceFrom {offset : Nat} {as : List Attribute} {f : Found Text}
    (h : typePlaceFrom offset as = some f) : offset ≤ f.start := by
  induction as generalizing offset with
  | nil => exact absurd h (by simp [typePlaceFrom])
  | cons a as ih =>
    rw [typePlaceFrom] at h
    split at h
    · obtain rfl := Option.some.inj h
      exact Nat.le_add_right _ _
    · have hle := ih h
      omega

/-- **The search finds the type attribute, or it is misled** and finds something before it.  The
induction is on the attributes: the search finds the first, is misled in it, or goes on behind
it. -/
theorem findTypeFrom_attributesText {trail : Text} (htrail : ∀ c ∈ trail, isBlank c = true)
    {as : List Attribute} (hseparated : ∀ a ∈ as.tail, a.gap ≠ []) {prev : Option Char}
    (hprev : prev = none ∨ ∀ a ∈ as, a.gap ≠ []) (offset : Nat) :
    (¬MisledIn trail as →
      findTypeFrom prev offset (attributesText trail as) = typePlaceFrom offset as) ∧
    (MisledIn trail as → ∃ f, findTypeFrom prev offset (attributesText trail as) = some f ∧
      ∀ g ∈ typePlaceFrom offset as, f.start < g.start) := by
  induction as generalizing prev offset with
  | nil =>
    refine ⟨fun _ => ?_, False.elim⟩
    have hreads : ¬ReadsIn prev [] trail :=
      not_readsIn_of_not_isWord (fun c hc => isWord_eq_false_of_isBlank (htrail c hc)) _ _
    have hnone := findTypeFrom_append hreads offset
    rw [List.append_nil] at hnone
    exact hnone
  | cons a as ih =>
    replace hseparated : ∀ b ∈ as, b.gap ≠ [] := hseparated
    have hrest := parts_attributesText htrail hseparated
    rw [attributesText_cons, typePlaceFrom, MisledIn]
    cases hvalue : a.typeValue? with
    | some v =>
      have hgap : prev = none ∨ a.gap ≠ [] := hprev.imp_right fun h => h a List.mem_cons_self
      exact ⟨fun _ => a.findTypeFrom_written hvalue hrest hgap offset, by simp⟩
    | none =>
      have hreads := Attribute.readsIn_written_iff hvalue hrest prev
      dsimp only
      by_cases hmisleads : a.value.Misleads (attributesText trail as)
      · refine ⟨fun hnot => absurd ⟨rfl, Or.inl hmisleads⟩ hnot, fun _ => ?_⟩
        obtain ⟨f, hf, hlt⟩ := exists_findTypeFrom_append (hreads.mpr hmisleads) offset
        refine ⟨f, hf, fun g hg => ?_⟩
        have hle := le_start_of_typePlaceFrom hg
        omega
      · rw [findTypeFrom_append (hreads.not.mpr hmisleads), or_iff_right hmisleads,
          and_iff_right rfl]
        exact ih (fun b hb => hseparated b (List.mem_of_mem_tail hb)) (Or.inr hseparated) _

/-- A value that misleads the search holds a sign. -/
theorem exists_sign_of_misledIn {trail : Text} {as : List Attribute} (h : MisledIn trail as) :
    ∃ a ∈ as, ∃ v ∈ a.value.text?, '=' ∈ v := by
  induction as with
  | nil => exact h.elim
  | cons a as ih =>
    rcases h.2 with hmisleads | h
    · refine ⟨a, List.mem_cons_self, ?_⟩
      cases hvalue : a.value with
      | absent => exact absurd hmisleads (by rw [hvalue]; exact id)
      | bare v hne hplain => exact absurd hmisleads (by rw [hvalue]; exact id)
      | quoted q v hq hplain =>
        rw [hvalue] at hmisleads
        obtain ⟨_, front, _, rfl, ⟨name, pad, gap, rfl, -⟩, -⟩ := hmisleads
        exact ⟨_, rfl, by simp⟩
    · obtain ⟨b, hb, hsign⟩ := ih h
      exact ⟨b, List.mem_cons_of_mem a hb, hsign⟩

/-! ### What is read and what is replaced -/

/-- The place of the type attribute among the others. -/
theorem exists_of_typePlaceFrom {offset : Nat} {as : List Attribute} {f : Found Text}
    (h : typePlaceFrom offset as = some f) :
    ∃ before a after, as = before ++ a :: after ∧ (∀ b ∈ before, b.typeValue? = none) ∧
      a.typeValue? = some f.item ∧ f.length = a.core.length ∧
      f.start = offset + (before.flatMap Attribute.written ++ a.gap).length := by
  induction as generalizing offset with
  | nil => exact absurd h (by simp [typePlaceFrom])
  | cons a as ih =>
    rw [typePlaceFrom] at h
    split at h
    · rename_i v hvalue
      obtain rfl := Option.some.inj h
      exact ⟨[], a, as, rfl, by simp, hvalue, rfl, rfl⟩
    · rename_i hvalue
      obtain ⟨before, a', after, rfl, hbefore, ha', hlength, hstart⟩ := ih h
      refine ⟨a :: before, a', after, rfl, ?_, ha', hlength, ?_⟩
      · intro b hb
        rcases List.mem_cons.mp hb with rfl | hb
        · exact hvalue
        · exact hbefore b hb
      · simp only [hstart, List.flatMap_cons, List.length_append]
        omega

theorem typePlaceFrom_eq_none_iff {offset : Nat} {as : List Attribute} :
    typePlaceFrom offset as = none ↔ ∀ a ∈ as, a.typeValue? = none := by
  induction as generalizing offset with
  | nil => simp [typePlaceFrom]
  | cons a as ih =>
    rw [typePlaceFrom, List.forall_mem_cons]
    split
    · rename_i v hvalue
      simp [hvalue]
    · rename_i hvalue
      rw [ih]
      simp [hvalue]

/-- Only the type attribute is written anew. -/
theorem flatMap_retagged_of_none (contentType : Text) {as : List Attribute}
    (h : ∀ a ∈ as, a.typeValue? = none) :
    as.flatMap (Attribute.retagged contentType) = as.flatMap Attribute.written := by
  refine List.flatMap_congr fun a ha => ?_
  rw [Attribute.retagged, h a ha]
  rfl

namespace Attributes

variable {as : Attributes}

/-- No two attributes are called `type`. -/
theorem typeValue?_eq_none_of_mem {before after : List Attribute} {a : Attribute} {v : Text}
    (hlist : as.list = before ++ a :: after) (ha : a.typeValue? = some v) :
    ∀ b ∈ after, b.typeValue? = none := by
  have hkey : ∀ {b : Attribute}, b.typeValue? ≠ none → b.key = "type".toList := by
    intro b hb
    by_contra hne
    exact hb (if_neg hne)
  intro b hb
  by_contra hne
  have hdistinct := as.distinct
  rw [hlist, List.map_append, List.map_cons, List.nodup_append] at hdistinct
  apply (List.nodup_cons.mp hdistinct.2.1).1
  rw [hkey (by rw [ha]; simp), ← hkey hne]
  exact List.mem_map_of_mem hb

theorem map_item_typePlace? : as.typePlace?.map Found.item = as.typeValue? := by
  rw [typePlace?, typeValue?]
  generalize 0 = offset
  induction as.list generalizing offset with
  | nil => rfl
  | cons a as ih =>
    rw [typePlaceFrom, List.findSome?_cons]
    split
    · rename_i v hvalue
      rw [hvalue]
      rfl
    · rename_i hvalue
      rw [hvalue, ih]

/-- Where the type attribute is found at its place, it alone is replaced. -/
theorem retag_text (h : findType? as.text = as.typePlace?) (contentType : Text) :
    retag as.text contentType = as.retagged contentType := by
  cases hplace : as.typePlace? with
  | none =>
    have hnone := flatMap_retagged_of_none contentType (typePlaceFrom_eq_none_iff.mp hplace)
    rw [retag, h, hplace, retagged, hnone]
    rfl
  | some f =>
    obtain ⟨before, a, after, hlist, hbefore, ha, hlength, hstart⟩ := exists_of_typePlaceFrom hplace
    have hafter := typeValue?_eq_none_of_mem hlist ha
    have htext : as.text = (before.flatMap Attribute.written ++ a.gap) ++
        (a.core ++ attributesText as.trail after) := by
      rw [text, attributesText, hlist, List.flatMap_append, List.flatMap_cons, Attribute.written,
        attributesText]
      simp only [List.append_assoc]
    have hretagged : as.retagged contentType = (before.flatMap Attribute.written ++ a.gap) ++
        (typed contentType ++ attributesText as.trail after) := by
      rw [retagged, hlist, List.flatMap_append, List.flatMap_cons, Attribute.retagged, ha,
        flatMap_retagged_of_none contentType hbefore, flatMap_retagged_of_none contentType hafter,
        attributesText]
      simp only [List.append_assoc, Option.isSome_some, if_true]
    obtain ⟨u, x, rest, heq, hu, -, -, hretag⟩ := exists_retag_eq (h.trans hplace)
    have hlengths := hstart.symm.trans hu
    rw [Nat.zero_add] at hlengths
    obtain ⟨rfl, hrest⟩ := List.append_inj (htext.symm.trans heq) hlengths
    rw [hretag, hretagged, ← hrest, hlength, List.drop_left]

/-- **The type attribute is read and replaced as an attribute, unless a value misleads the search.**
If none does, then it is found where it stands, its value is the content type, and if another is
written, then only this attribute changes.  If one does, then something before it is found, even if
there is no type attribute; and some value in quotes holds a sign. -/
theorem type_attribute_read_unless_misled (as : Attributes) :
    (¬as.Misled → findType? as.text = as.typePlace? ∧ contentType? as.text = as.typeValue? ∧
      ∀ contentType, retag as.text contentType = as.retagged contentType) ∧
    (as.Misled →
      (∃ f, findType? as.text = some f ∧ ∀ g ∈ as.typePlace?, f.start < g.start) ∧
      ∃ a ∈ as.list, ∃ v ∈ a.value.text?, '=' ∈ v) := by
  obtain ⟨hplace, hwrong⟩ :=
    findTypeFrom_attributesText as.trail_blank as.separated (Or.inl rfl) 0
  refine ⟨fun hnot => ?_, fun hmisled => ⟨hwrong hmisled, exists_sign_of_misledIn hmisled⟩⟩
  have hfind : findType? as.text = as.typePlace? := hplace hnot
  refine ⟨hfind, ?_, retag_text hfind⟩
  rw [contentType?, hfind, map_item_typePlace?]

/-- Neither other names nor bare values mislead the search. -/
example : contentType? " data-type=a x=type TYPE='b'".toList = some "b".toList := by
  decide +kernel

/-- The attribute `data-x="a type=b"`. -/
def misleadingAttribute : Attribute where
  gap := " ".toList
  name := "data-x".toList
  value := .quoted '"' "a type=b".toList (Or.inl rfl) (forall_mem_of_all (by decide))
  gap_blank := forall_mem_of_all (by decide)
  name_ne_nil := by decide
  nameChar_name := forall_mem_of_all (by decide)

/-- The attribute `type="c"`. -/
def plainTypeAttribute : Attribute where
  gap := " ".toList
  name := "type".toList
  value := .quoted '"' "c".toList (Or.inl rfl) (forall_mem_of_all (by decide))
  gap_blank := forall_mem_of_all (by decide)
  name_ne_nil := by decide
  nameChar_name := forall_mem_of_all (by decide)

/-- The misleading attribute alone. -/
def misleadingOnly : Attributes where
  list := [misleadingAttribute]
  trail := []
  separated := by simp
  trail_blank := by simp
  distinct := by simp

/-- The misleading attribute in front of the type attribute. -/
def misleadingFirst : Attributes where
  list := [misleadingAttribute, plainTypeAttribute]
  trail := []
  separated := List.forall_mem_singleton.mpr (by decide)
  trail_blank := by simp
  distinct := by decide

/-- The misleading attribute behind the type attribute. -/
def misleadingLast : Attributes where
  list := [plainTypeAttribute, misleadingAttribute]
  trail := []
  separated := List.forall_mem_singleton.mpr (by decide)
  trail_blank := by simp
  distinct := by decide

/-- A value behind the type attribute misleads nothing. -/
theorem type_attribute_read_before_misleading_value :
    misleadingLast.text = " type=\"c\" data-x=\"a type=b\"".toList ∧ ¬misleadingLast.Misled ∧
      contentType? misleadingLast.text = some "c".toList ∧
      retag misleadingLast.text "t".toList = " type=\"t\" data-x=\"a type=b\"".toList := by
  have hnot : ¬misleadingLast.Misled := by
    rintro ⟨hnone, -⟩
    exact absurd hnone (by decide)
  obtain ⟨-, hread, hretag⟩ := (type_attribute_read_unless_misled misleadingLast).1 hnot
  refine ⟨by decide, hnot, ?_, ?_⟩
  · rw [hread]
    decide
  · rw [hretag]
    decide

/-- What looks like a type attribute in a value is read as one, whether there is another or not,
and is replaced in the place of that. -/
theorem type_attribute_misread_in_value :
    (misleadingOnly.text = " data-x=\"a type=b\"".toList ∧ misleadingOnly.typeValue? = none ∧
      contentType? misleadingOnly.text = some "b".toList) ∧
    misleadingFirst.text = " data-x=\"a type=b\" type=\"c\"".toList ∧
      misleadingFirst.typeValue? = some "c".toList ∧
      contentType? misleadingFirst.text = some "b".toList ∧
      misleadingFirst.retagged "t".toList = " data-x=\"a type=b\" type=\"t\"".toList ∧
      retag misleadingFirst.text "t".toList = " data-x=\"a type=\"t\"\" type=\"c\"".toList := by
  refine ⟨⟨by decide, by decide, ?_⟩, by decide, by decide, ?_, by decide, ?_⟩
  · decide +kernel
  · decide +kernel
  · decide +kernel

end Attributes

end LabelLoop.Document
