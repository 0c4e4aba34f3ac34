import LabelLoop.Files.Delivery
import LabelLoop.Proofs.RoundTrip
import LabelLoop.Proofs.Survival

/-!
# Closing tags and conversions

The body of a script element ends at the first closing tag after its opening tag, also if that tag
stands between quotes.  So a converted body must not hold a closing tag that the body did not hold
(`exists_permissiveHook`).

A closing tag begins with `<`, which no header, no lowered jump and no placeholder holds.  After the
`<` come only letters of `script` and white space (`tagChar`).  A quote, a low line, a closing brace
or the first letter of what is written for a marker ends it, so whatever stands between two places
where something is written stood there before.
-/

namespace LabelLoop.Document

open Text

/-! ### Closing tags -/

/-- `w` is a **closing tag**. -/
def IsCloseTag (w : Text) : Prop :=
  ∃ key pad, w = key ++ (pad ++ ['>']) ∧
    List.Forall₂ (fun p c => agrees p c = true) "</script".toList key ∧ ∀ c ∈ pad, isBlank c = true

/-- A text **without closing tags**. -/
def Untagged (t : Text) : Prop :=
  ∀ w, IsCloseTag w → ¬w <:+: t

/-- The characters that may come after the first of a closing tag. -/
def tagChar (c : Char) : Bool :=
  "/script".toList.any (agrees · c) || isBlank c || c = '>'

theorem IsCloseTag.eq_cons {w : Text} (h : IsCloseTag w) :
    ∃ v, w = '<' :: v ∧ ∀ c ∈ v, tagChar c = true := by
  obtain ⟨key, pad, rfl, hkey, hpad⟩ := h
  have hword : "</script".toList = '<' :: "/script".toList := rfl
  rw [hword] at hkey
  obtain ⟨x, key, hx, hscript, rfl⟩ := List.forall₂_cons_left_iff.mp hkey
  obtain rfl := eq_of_agrees (by decide) hx
  refine ⟨key ++ (pad ++ ['>']), rfl, fun c hc => ?_⟩
  rw [tagChar, Bool.or_eq_true, Bool.or_eq_true]
  rcases List.mem_append.mp hc with hc | hc
  · exact Or.inl (Or.inl (List.any_eq_true.mpr (exists_agrees_of_mem hscript hc)))
  · rcases List.mem_append.mp hc with hc | hc
    · exact Or.inl (Or.inr (hpad c hc))
    · exact Or.inr (decide_eq_true (List.mem_singleton.mp hc))

/-- What is read is a closing tag. -/
theorem isCloseTag_of_closeTag? {t : Text} {a : Unit} {n : Nat} (h : closeTag? t = some (a, n)) :
    ∃ w rest, t = w ++ rest ∧ w.length = n ∧ IsCloseTag w := by
  rw [closeTag?] at h
  split at h
  · exact absurd h (by simp)
  · rename_i rest hafter
    obtain ⟨key, rfl, hkey⟩ := afterIgnoringCase?_eq_some_iff.mp hafter
    dsimp only at h
    split at h
    · rename_i rest' hdrop
      have hrest := Marker.takeWhile_append_drop isBlank rest
      rw [hdrop] at hrest
      refine ⟨key ++ (rest.takeWhile isBlank ++ ['>']), rest', ?_, ?_,
        key, _, rfl, hkey, fun c hc => List.mem_takeWhile_imp hc⟩
      · rw [List.append_assoc, List.append_assoc, List.singleton_append, hrest]
      · have hlen : key.length = 8 := hkey.length_eq.symm
        have hn := (Prod.mk.inj (Option.some.inj h)).2
        rw [List.length_append, List.length_append, hlen, ← hn]
        rfl
    · exact absurd h (by simp)

/-- A closing tag is read, whatever follows it. -/
theorem IsCloseTag.closeTag?_append {w : Text} (h : IsCloseTag w) (rest : Text) :
    closeTag? (w ++ rest) = some ((), w.length) := by
  obtain ⟨key, pad, rfl, hkey, hpad⟩ := h
  have hafter : afterIgnoringCase? "</script".toList (key ++ (pad ++ ['>']) ++ rest) =
      some (pad ++ '>' :: rest) :=
    afterIgnoringCase?_eq_some_iff.mpr ⟨key, by simp, hkey⟩
  have htake : (pad ++ '>' :: rest).takeWhile isBlank = pad :=
    Marker.takeWhile_append_cons_of_neg hpad (by decide)
  have hlen : key.length = 8 := hkey.length_eq.symm
  rw [closeTag?, hafter]
  dsimp only
  rw [htake, List.drop_left]
  simp [hlen, Nat.add_assoc]

/-! ### The first closing tag -/

/-- A closing tag that begins in the first of two texts does not reach into the second, if that
begins with `<`. -/
theorem IsCloseTag.prefix_of_append {w : Text} (h : IsCloseTag w) {a b : Text} (ha : a ≠ [])
    (hb : ∀ c ∈ b.head?, c = '<') (hw : w <+: a ++ b) : w <+: a := by
  obtain ⟨v, rfl, hv⟩ := h.eq_cons
  obtain ⟨x, a, rfl⟩ := List.exists_cons_of_ne_nil ha
  obtain ⟨rfl, rest, heq⟩ := List.cons_prefix_cons.mp hw
  refine List.cons_prefix_cons.mpr ⟨rfl, ?_⟩
  rcases List.append_eq_append_iff.mp heq with ⟨d, rfl, -⟩ | ⟨d, rfl, hd⟩
  · exact List.prefix_append _ _
  · cases d with
    | nil => simp
    | cons c d =>
      rw [hd] at hb
      have hc := hv c (by simp)
      rw [hb c rfl] at hc
      exact absurd hc (by decide +kernel)

theorem untagged_nil : Untagged [] := by
  intro w hw hin
  obtain ⟨v, rfl, -⟩ := hw.eq_cons
  exact absurd (List.eq_nil_of_infix_nil hin) (List.cons_ne_nil _ _)

/-- A character at which no closing tag begins. -/
theorem untagged_cons {c : Char} {a b : Text} (hnone : closeTag? (c :: (a ++ b)) = none)
    (ha : Untagged a) : Untagged (c :: a) := by
  intro w hw hin
  rcases List.infix_cons_iff.mp hin with hbegin | hin
  · obtain ⟨rest, heq⟩ := hbegin
    rw [← List.cons_append, ← heq, List.append_assoc, hw.closeTag?_append] at hnone
    exact absurd hnone (by simp)
  · exact ha w hw hin

/-- **Where the first closing tag is found**: what stands before it is without closing tags. -/
theorem exists_of_firstFrom? {t : Text} {offset : Nat} {f : Found Unit}
    (h : firstFrom? closeTag? offset t = some f) :
    ∃ body w rest, t = body ++ (w ++ rest) ∧ Untagged body ∧ IsCloseTag w ∧
      f = ⟨offset + body.length, w.length, ()⟩ := by
  induction t generalizing offset with
  | nil => exact absurd h (by simp [firstFrom?])
  | cons c t ih =>
    rw [firstFrom?] at h
    split at h
    · rename_i hnone
      obtain ⟨body, w, rest, rfl, hbody, hw, rfl⟩ := ih h
      refine ⟨c :: body, w, rest, rfl, untagged_cons hnone hbody, hw, ?_⟩
      rw [List.length_cons, Nat.add_assoc, Nat.add_comm 1]
    · rename_i a n hread
      obtain ⟨w, rest, heq, rfl, hw⟩ := isCloseTag_of_closeTag? hread
      exact ⟨[], w, rest, heq, untagged_nil, hw, (Option.some.inj h).symm⟩

/-- **The first closing tag is found** after a text without closing tags. -/
theorem firstFrom?_append {body w : Text} (hbody : Untagged body) (hw : IsCloseTag w) (offset : Nat)
    (rest : Text) :
    firstFrom? closeTag? offset (body ++ (w ++ rest)) =
      some ⟨offset + body.length, w.length, ()⟩ := by
  obtain ⟨v, hv, -⟩ := hw.eq_cons
  induction body generalizing offset with
  | nil =>
    have hread := hw.closeTag?_append rest
    rw [hv, List.cons_append] at hread
    rw [List.nil_append, hv, List.cons_append, firstFrom?, hread]
    rfl
  | cons c body ih =>
    -- a tag that begins here would end before `w`, since only the first character of a tag is `<`
    have hnone : closeTag? (c :: (body ++ (w ++ rest))) = none := by
      by_contra hne
      obtain ⟨⟨a, n⟩, hread⟩ := Option.ne_none_iff_exists'.mp hne
      obtain ⟨w', rest', heq, -, hw'⟩ := isCloseTag_of_closeTag? hread
      refine hbody w' hw' (hw'.prefix_of_append (b := w ++ rest) (List.cons_ne_nil c body) ?_
        ⟨rest', heq.symm⟩).isInfix
      rw [hv]
      intro x hx
      exact (Option.some.inj hx).symm
    rw [List.cons_append, firstFrom?, hnone]
    dsimp only
    rw [ih (fun w' hw' hin => hbody w' hw' (List.infix_cons hin)), List.length_cons,
      Nat.add_assoc, Nat.add_comm 1]

/-- There is no closing tag to be found exactly in a text without closing tags. -/
theorem firstFrom?_eq_none_iff {t : Text} {offset : Nat} :
    firstFrom? closeTag? offset t = none ↔ Untagged t := by
  constructor
  · intro h
    induction t generalizing offset with
    | nil => exact untagged_nil
    | cons c t ih =>
      rw [firstFrom?] at h
      split at h
      · rename_i hnone
        exact untagged_cons (b := []) (by rwa [List.append_nil]) (ih h)
      · exact absurd h (by simp)
  · intro h
    by_contra hne
    obtain ⟨f, hf⟩ := Option.ne_none_iff_exists'.mp hne
    obtain ⟨body, w, rest, rfl, -, hw, -⟩ := exists_of_firstFrom? hf
    exact h w hw ⟨body, rest, by rw [List.append_assoc]⟩

end LabelLoop.Document

namespace LabelLoop.Conversion

open Text Marker Lowering Literal Document

/-! ### Texts that are written -/

/-- What begins with a character that is not in the first of two texts stands in the second. -/
theorem infix_of_infix_append {c : Char} {v a b : Text} (hc : c ∉ a) (h : c :: v <:+: a ++ b) :
    c :: v <:+: b := by
  obtain ⟨front, back, heq⟩ := h
  rw [List.append_assoc, List.cons_append] at heq
  obtain ⟨d, -, rfl⟩ := exists_of_append_eq_append_cons hc heq.symm
  exact ⟨d, back, by rw [List.append_assoc, List.cons_append]⟩

/-- What does not hold a character stands on one side of it. -/
theorem infix_or_infix_of_not_mem {c : Char} {w a b : Text} (hc : c ∉ w) (h : w <:+: a ++ c :: b) :
    w <:+: a ∨ w <:+: b := by
  obtain ⟨front, back, heq⟩ := h
  rcases List.append_eq_append_iff.mp heq with ⟨d, rfl, -⟩ | ⟨d, hd, hrest⟩
  · exact Or.inl ⟨front, d, rfl⟩
  · cases d with
    | nil =>
      rw [List.append_nil] at hd
      exact Or.inl ⟨front, [], by rw [List.append_nil, hd]⟩
    | cons y d =>
      obtain ⟨rfl, rfl⟩ := List.cons.inj hrest
      -- the text ends after the character, so it begins after it
      rcases List.append_eq_append_iff.mp hd with ⟨e, -, hw⟩ | ⟨e, -, hw⟩
      · exact absurd (by rw [hw]; simp) hc
      · cases e with
        | nil =>
          rw [List.nil_append] at hw
          exact absurd (by rw [← hw]; exact List.mem_cons_self) hc
        | cons z e =>
          obtain ⟨-, rfl⟩ := List.cons.inj hw
          exact Or.inr ⟨e, back, rfl⟩

/-- What is written for a marker begins with a letter that no tag has. -/
theorem exists_lowered_eq_cons (k : Kind) (name : Text) :
    ∃ x rest, k.lowered name = x :: rest ∧ tagChar x = false := by
  cases k with
  | label => exact ⟨'v', _, rfl, by decide +kernel⟩
  | jump => exact ⟨'g', _, rfl, by decide +kernel⟩

theorem tagChar_of_isQuote {q : Char} (h : IsQuote q) : tagChar q = false := by
  rcases h with rfl | rfl
  · decide +kernel
  · decide +kernel

/-- Without literals, restoring changes nothing. -/
theorem restoreFrom_nil (x : Char) (xs : Text) (skip : Nat) (t : Text) :
    (restoreFrom (x :: xs) [] skip t).text = t.drop skip := by
  induction t generalizing skip with
  | nil => simp [restoreFrom]
  | cons c t ih =>
    cases skip with
    | succ k => exact ih k
    | zero =>
      rw [restoreFrom]
      split
      · rename_i hbegin
        obtain ⟨rest, heq⟩ := beginsWith_iff.mp hbegin
        obtain ⟨rfl, htail⟩ := List.cons.inj heq
        show c :: xs ++ (restoreFrom (c :: xs) [] xs.length t).text = _
        have hrest : t.drop xs.length = rest := by
          rw [htail]
          exact List.drop_left
        rw [ih, hrest]
        exact heq.symm
      · exact congrArg (c :: ·) (ih 0)

section Tag

variable {v : Text} (hv : ∀ c ∈ v, tagChar c = true)

include hv

/-- A text of characters of tags does not begin with any other character, so it is empty. -/
theorem prefix_of_prefix_cons {c : Char} (hc : tagChar c = false) {t : Text} (h : v <+: c :: t)
    (t' : Text) : v <+: t' := by
  cases v with
  | nil => exact List.nil_prefix
  | cons x v =>
    obtain ⟨rfl, -⟩ := List.cons_prefix_cons.mp h
    have hx := hv x List.mem_cons_self
    rw [hc] at hx
    exact absurd hx Bool.false_ne_true

/-- A tag holds no quote. -/
theorem not_mem_of_isQuote {q : Char} (hq : IsQuote q) : q ∉ '<' :: v := by
  intro hmem
  rcases List.mem_cons.mp hmem with heq | hmem
  · exact hq.ne (by decide) heq.symm
  · exact absurd ((tagChar_of_isQuote hq).symm.trans (hv q hmem)) Bool.false_ne_true

/-- A character that was not written anew. -/
theorem prefix_cons_of_prefix_cons {c : Char} {t t' : Text}
    (ht : ∀ {u : Text}, (∀ c ∈ u, tagChar c = true) → u <+: t → u <+: t') (h : v <+: c :: t) :
    v <+: c :: t' := by
  cases v with
  | nil => exact List.nil_prefix
  | cons x v =>
    obtain ⟨rfl, htail⟩ := List.cons_prefix_cons.mp h
    have hrest := ht (fun c hc => hv c (List.mem_cons_of_mem _ hc)) htail
    exact List.cons_prefix_cons.mpr ⟨rfl, hrest⟩

/-- What the sweep begins with, the text begins with. -/
theorem prefix_of_prefix_sweep {ps : List Piece} {pending : List Nat}
    (h : v <+: sweep pending ps) : v <+: written ps := by
  have hbrace : tagChar '\x7d' = false := by decide +kernel
  induction ps generalizing v pending with
  | nil =>
    rw [sweep] at h
    cases hsum : pending.sum with
    | zero => rwa [hsum] at h
    | succ n =>
      rw [hsum, List.replicate_succ] at h
      exact prefix_of_prefix_cons hv hbrace h _
  | cons p ps ih =>
    cases p with
    | char c =>
      rw [sweep] at h
      cases hdue : dueBefore pending c with
      | zero =>
        rw [hdue] at h
        exact prefix_cons_of_prefix_cons hv (fun hu htail => ih hu htail) h
      | succ n =>
        rw [hdue, List.replicate_succ, List.cons_append] at h
        exact prefix_of_prefix_cons hv hbrace h _
    | marker k name raw =>
      obtain ⟨x, rest, heq, hx⟩ := exists_lowered_eq_cons k name
      rw [sweep, heq, List.cons_append] at h
      exact prefix_of_prefix_cons hv hx h _

/-- **The sweep writes no tag.** -/
theorem infix_of_infix_sweep {ps : List Piece}
    (hspells : ∀ k name raw, .marker k name raw ∈ ps → k.form.Spells name raw) {pending : List Nat}
    (h : '<' :: v <:+: sweep pending ps) : '<' :: v <:+: written ps := by
  have hbraces : ∀ n, '<' ∉ List.replicate n '\x7d' := by
    intro n hmem
    exact absurd (List.eq_of_mem_replicate hmem) (by decide)
  induction ps generalizing pending with
  | nil => exact absurd (h.subset List.mem_cons_self) (hbraces _)
  | cons p ps ih =>
    have ih := @ih fun k name raw hmem => hspells k name raw (List.mem_cons_of_mem _ hmem)
    cases p with
    | char c =>
      rw [sweep] at h
      -- behind the braces that are due, the tag begins at the character or later
      rcases List.infix_cons_iff.mp (infix_of_infix_append (hbraces _) h) with hbegin | h
      · obtain ⟨rfl, htail⟩ := List.cons_prefix_cons.mp hbegin
        exact (List.cons_prefix_cons.mpr ⟨rfl, prefix_of_prefix_sweep hv htail⟩).isInfix
      · exact List.infix_cons (ih h)
    | marker k name raw =>
      have hname := (hspells k name raw List.mem_cons_self).isWord_name
      have hlowered : '<' ∉ k.lowered name := by
        intro hmem
        rcases mem_lowered hmem with hmem | hmem
        · exact absurd (hname _ hmem) (by decide +kernel)
        · exact absurd hmem (by decide)
      rw [sweep] at h
      exact (ih (infix_of_infix_append hlowered h)).trans (List.suffix_append _ _).isInfix

/-- What a covered source begins with, the source begins with. -/
theorem prefix_of_prefix_cover {digits : Text} {bits : List Bit}
    (h : v <+: cover ('_' :: digits) bits) : v <+: source bits := by
  induction bits generalizing v with
  | nil => exact h
  | cons b bits ih =>
    cases b with
    | char c => exact prefix_cons_of_prefix_cons hv (fun hu htail => ih hu htail) h
    | literal l => exact prefix_of_prefix_cons hv (by decide +kernel) h _

/-- **Covering literals makes no tag.** -/
theorem infix_of_infix_cover {digits : Text} (hdigits : '<' ∉ digits) {bits : List Bit}
    (h : '<' :: v <:+: cover ('_' :: digits) bits) : '<' :: v <:+: source bits := by
  induction bits with
  | nil => exact h
  | cons b bits ih =>
    cases b with
    | char c =>
      rcases List.infix_cons_iff.mp h with hbegin | h
      · obtain ⟨rfl, htail⟩ := List.cons_prefix_cons.mp hbegin
        exact (List.cons_prefix_cons.mpr ⟨rfl, prefix_of_prefix_cover hv htail⟩).isInfix
      · exact List.infix_cons (ih h)
    | literal l =>
      have hplaceholder : '<' ∉ '_' :: digits := by
        rw [List.mem_cons, not_or]
        exact ⟨by decide, hdigits⟩
      exact (ih (infix_of_infix_append hplaceholder h)).trans (List.suffix_append _ _).isInfix

section Restore

variable {x : Char} {xs : Text}

/-- What a restored text begins with, the text begins with: a literal begins with a quote. -/
theorem prefix_of_prefix_restoreFrom {literals : List Text}
    (hliterals : ∀ l ∈ literals, ∃ q rest, l = q :: rest ∧ IsQuote q) {skip : Nat} {t : Text}
    (h : v <+: (restoreFrom (x :: xs) literals skip t).text) : v <+: t.drop skip := by
  induction t generalizing v skip with
  | nil => rwa [List.drop_nil]
  | cons c t ih =>
    cases skip with
    | succ k => exact ih hv h
    | zero =>
      cases literals with
      | nil => rwa [restoreFrom_nil] at h
      | cons l literals =>
        rw [restoreFrom] at h
        split at h
        · obtain ⟨q, rest, rfl, hq⟩ := hliterals l List.mem_cons_self
          exact prefix_of_prefix_cons hv (tagChar_of_isQuote hq) h _
        · exact prefix_cons_of_prefix_cons hv (fun hu htail => @ih _ hu 0 htail) h

/-- **Restoring makes no tag**: it stands in the text, or between the quotes of a literal. -/
theorem infix_of_infix_restoreFrom {literals : List Text}
    (hliterals : ∀ l ∈ literals, ∃ q inner, l = q :: (inner ++ [q]) ∧ IsQuote q) {skip : Nat}
    {t : Text} (h : '<' :: v <:+: (restoreFrom (x :: xs) literals skip t).text) :
    '<' :: v <:+: t.drop skip ∨ ∃ l ∈ literals, '<' :: v <:+: l := by
  induction t generalizing literals skip with
  | nil =>
    rw [List.drop_nil]
    exact Or.inl h
  | cons c t ih =>
    cases skip with
    | succ k => exact ih hliterals h
    | zero =>
      cases literals with
      | nil =>
        rw [restoreFrom_nil] at h
        exact Or.inl h
      | cons l literals =>
        rw [restoreFrom] at h
        split at h
        · -- the literal has a quote at its end, and the tag holds none
          obtain ⟨q, inner, rfl, hq⟩ := hliterals l List.mem_cons_self
          replace h : '<' :: v <:+: q :: (inner ++ [q]) ++
              (restoreFrom (x :: xs) literals ((x :: xs).length - 1) t).text := h
          have hassoc : ∀ u : Text, q :: (inner ++ [q]) ++ u = (q :: inner) ++ q :: u := by
            intro u
            simp
          rw [hassoc] at h
          rcases infix_or_infix_of_not_mem (not_mem_of_isQuote hv hq) h with h | h
          · exact Or.inr ⟨_, List.mem_cons_self, h.trans ⟨[], [q], rfl⟩⟩
          · rcases ih (fun l hl => hliterals l (List.mem_cons_of_mem _ hl)) h with h | ⟨l, hl, h⟩
            · exact Or.inl (h.trans (List.drop_suffix _ _ |>.trans (List.suffix_cons _ _)).isInfix)
            · exact Or.inr ⟨l, List.mem_cons_of_mem _ hl, h⟩
        · rcases List.infix_cons_iff.mp h with hbegin | h
          · obtain ⟨rfl, htail⟩ := List.cons_prefix_cons.mp hbegin
            have hrest := prefix_of_prefix_restoreFrom hv (fun l hl => ?_) htail
            · exact Or.inl (List.cons_prefix_cons.mpr ⟨rfl, hrest⟩).isInfix
            · obtain ⟨q, inner, heq, hq⟩ := hliterals l hl
              exact ⟨q, _, heq, hq⟩
          · rcases ih hliterals h with h | h
            · exact Or.inl (List.infix_cons h)
            · exact Or.inr h

end Restore

end Tag

/-! ### Conversions -/

/-- A literal stands between its quotes. -/
theorem exists_quotes_of_mem_literals {bits : List Bit} (hbits : Scanned bits) {l : Text}
    (h : l ∈ literals bits) : ∃ q inner, l = q :: (inner ++ [q]) ∧ IsQuote q := by
  induction hbits using Scanned.induct with
  | nil => exact absurd h List.not_mem_nil
  | char _ _ ih => exact ih h
  | @literal q body bits hq hend _ ih =>
    rcases List.mem_cons.mp h with rfl | h
    · obtain ⟨inner, rfl, -⟩ := exists_of_closing?_eq_length hq hend
      exact ⟨q, inner, rfl, hq⟩
    · exact ih h

theorem infix_source_of_mem_literals {bits : List Bit} {l : Text} (h : l ∈ literals bits) :
    l <:+: source bits := by
  induction bits with
  | nil => exact absurd h List.not_mem_nil
  | cons b bits ih =>
    cases b with
    | char c => exact List.infix_cons (ih h)
    | literal l' =>
      rcases List.mem_cons.mp h with rfl | h
      · exact (List.prefix_append _ _).isInfix
      · exact (ih h).trans (List.suffix_append _ _).isInfix

/-- A tag in the restored text has stood in the source. -/
theorem untagged_restore_sweep {bits : List Bit} (hbits : Scanned bits) {ps : List Piece}
    (hcut : Cut ps) {digits : Text} (hdigits : '<' ∉ digits)
    (hps : written ps = cover ('_' :: digits) bits) (h : Untagged (source bits)) :
    Untagged (restore ('_' :: digits) (literals bits) (sweep [] ps)).text := by
  intro w hw hin
  obtain ⟨v, rfl, hv⟩ := hw.eq_cons
  rw [restore, if_neg (List.cons_ne_nil _ _)] at hin
  have hquotes : ∀ l ∈ literals bits, ∃ q inner, l = q :: (inner ++ [q]) ∧ IsQuote q :=
    fun l hl => exists_quotes_of_mem_literals hbits hl
  -- from the code back to the source, through the sweep and the cover; or from a literal
  rcases infix_of_infix_restoreFrom hv hquotes hin with hin | ⟨l, hl, hin⟩
  · have hwritten := infix_of_infix_sweep hv (fun _ _ _ => hcut.spells_of_mem) hin
    rw [hps] at hwritten
    exact h _ hw (infix_of_infix_cover hv hdigits hwritten)
  · exact h _ hw (hin.trans (infix_source_of_mem_literals hl))

/-- **A conversion writes no closing tag**: it always has a result, and this is without closing tags
if the source is. -/
theorem exists_permissiveHook (clock : Int) (body : Text) :
    ∃ code, Delivery.permissiveHook clock body = .ok code ∧ (Untagged body → Untagged code) := by
  obtain ⟨bits, hbits, rfl⟩ := exists_scanned body
  obtain ⟨ps, hcut, hps⟩ := exists_cut (cover (placeholderAt clock) bits)
  have hshield := shield_source hbits (placeholderAt clock)
  have hlower := lower_written hcut
  have htext : (shield byQuotes (placeholderAt clock) (source bits)).text = written ps := by
    rw [hshield, hps]
  rw [← htext] at hlower
  have hpermissive := permissive_of_lower (o := { placeholder := placeholderAt clock }) hlower
  refine ⟨_, by rw [Delivery.permissiveHook, convert_false_of_permissive hpermissive]; rfl, ?_⟩
  intro hbody
  show Untagged (restore _ (shield byQuotes (placeholderAt clock) (source bits)).literals _).text
  rw [hshield]
  exact untagged_restore_sweep hbits hcut (not_mem_ofInt (by decide) (by decide) _) hps hbody

end LabelLoop.Conversion
