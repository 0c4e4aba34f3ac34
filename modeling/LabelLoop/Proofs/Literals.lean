import LabelLoop.Literal.Quotes
import LabelLoop.Proofs.Divisions
import LabelLoop.Proofs.Occurrences

/-!
# Sources in bits

A source is cut into bits: its literals, as the scanner by quotes finds them, and the characters
between them.  `source` puts the bits back together, and `cover` writes a placeholder for every
literal.

Whether a quote begins a literal, and where that literal ends, depends on the rest of its line alone
(`closing?_eq_none_iff`), and on that only in one respect: whether there is one more such quote in
the line (`closing?_append`).
-/

namespace LabelLoop.Literal

open Text
open Division (Divided divided_cons_iff exists_divided searchFrom_divided searchFrom_append_of_read)

/-! ### The end of a literal -/

/-- The text up to the first line break. -/
def firstLine (t : Text) : Text :=
  t.takeWhile (· ≠ '\n')

theorem firstLine_append {a : Text} (h : '\n' ∉ a) (b : Text) :
    firstLine (a ++ b) = a ++ firstLine b :=
  List.takeWhile_append_of_pos fun _ hc => decide_eq_true fun heq => h (heq ▸ hc)

theorem firstLine_cons {c : Char} (h : c ≠ '\n') (t : Text) :
    firstLine (c :: t) = c :: firstLine t :=
  firstLine_append (a := [c]) (by simpa using h.symm) t

theorem firstLine_newline (b : Text) : firstLine ('\n' :: b) = [] :=
  rfl

/-- The characters that begin a literal. -/
def IsQuote (c : Char) : Prop :=
  c = '"' ∨ c = '\''

instance (c : Char) : Decidable (IsQuote c) :=
  inferInstanceAs (Decidable (_ ∨ _))

theorem closing?_quote (q : Char) (t : Text) : closing? q (q :: t) = some 1 := by
  cases t <;> rw [closing?, if_pos rfl]

theorem IsQuote.ne {q c : Char} (hq : IsQuote q) (hc : c ≠ '"' ∧ c ≠ '\'') : c ≠ q := by
  rintro rfl
  exact hq.elim hc.1 hc.2

theorem closing?_newline {q : Char} (hq : IsQuote q) (t : Text) :
    closing? q ('\n' :: t) = none := by
  have hne : '\n' ≠ q := hq.ne (by decide)
  cases t with
  | nil => rw [closing?, if_neg hne]
  | cons d t => rw [closing?, if_neg hne, if_pos rfl]

/-- A quote after a backslash is passed over if another one can end the literal. -/
theorem closing?_escaped {q : Char} (hq : IsQuote q) (t : Text) :
    closing? q ('\\' :: q :: t) = some ((closing? q t).getD 0 + 2) := by
  rw [closing?, if_neg (hq.ne (by decide)), if_neg (by decide), if_pos ⟨rfl, rfl⟩]

/-- Any other character is passed over. -/
theorem closing?_other {q c : Char} {t : Text} (hq : c ≠ q) (hline : c ≠ '\n')
    (hescaped : ¬(c = '\\' ∧ t.head? = some q)) :
    closing? q (c :: t) = (closing? q t).map (· + 1) := by
  cases t with
  | nil => exact if_neg hq
  | cons d t =>
    have hescaped' : ¬(c = '\\' ∧ d = q) := fun ⟨hc, hd⟩ => hescaped ⟨hc, congrArg some hd⟩
    rw [closing?, if_neg hq, if_neg hline, if_neg hescaped']

/-- **A literal ends nowhere exactly if its quote does not come again in the line.** -/
theorem closing?_eq_none_iff {q : Char} (hq : IsQuote q) (t : Text) :
    closing? q t = none ↔ q ∉ firstLine t := by
  have hline : q ≠ '\n' := Ne.symm (hq.ne (by decide))
  fun_induction closing? q t with
  | case1 => simp [firstLine]
  | case2 => simp [firstLine_cons hline]
  | case3 c hc =>
    refine iff_of_true rfl fun hmem => ?_
    exact hc (List.mem_singleton.mp (List.takeWhile_subset _ hmem)).symm
  | case4 => simp [firstLine_cons hline]
  | case5 => simp [firstLine_newline]
  | case6 c d rest _ _ hescaped =>
    obtain ⟨rfl, rfl⟩ := hescaped
    simp [firstLine_cons hline, firstLine_cons (show '\\' ≠ '\n' by decide)]
  | case7 c d rest hc hnl _ ih =>
    rw [firstLine_cons hnl, List.mem_cons, not_or, Option.map_eq_none_iff]
    exact ih.trans (and_iff_right (Ne.symm hc)).symm

theorem closing?_cons_eq_none_iff {q c : Char} (hq : IsQuote q) (t : Text) :
    closing? q (c :: t) = none ↔ c ≠ q ∧ (c = '\n' ∨ closing? q t = none) := by
  rw [closing?_eq_none_iff hq, closing?_eq_none_iff hq]
  by_cases hline : c = '\n'
  · subst hline
    simp [firstLine_newline, hq.ne (show '\n' ≠ '"' ∧ '\n' ≠ '\'' by decide)]
  · rw [firstLine_cons hline, List.mem_cons, not_or]
    simp only [hline, false_or, ne_comm]

/-- A quote that ends nowhere still ends nowhere if what follows a text changes, and no quote comes
into the line by that. -/
theorem closing?_append_eq_none {q : Char} (hq : IsQuote q) {t t' : Text}
    (h : closing? q t = none → closing? q t' = none) {a : Text}
    (ha : closing? q (a ++ t) = none) : closing? q (a ++ t') = none := by
  induction a with
  | nil => exact h ha
  | cons c a ih =>
    rw [List.cons_append, closing?_cons_eq_none_iff hq] at ha ⊢
    exact ⟨ha.1, ha.2.imp_right ih⟩

/-- Nothing ends in a text without the quote. -/
theorem closing?_append_of_not_mem {q : Char} (hq : IsQuote q) {a : Text} (ha : q ∉ a) {t : Text}
    (h : '\n' ∈ a ∨ closing? q t = none) : closing? q (a ++ t) = none := by
  induction a with
  | nil => exact h.resolve_left List.not_mem_nil
  | cons c a ih =>
    rw [List.mem_cons, not_or] at ha
    rw [List.cons_append, closing?_cons_eq_none_iff hq]
    refine ⟨Ne.symm ha.1, ?_⟩
    by_cases hline : c = '\n'
    · exact Or.inl hline
    · refine Or.inr (ih ha.2 (h.imp_left fun hmem => ?_))
      exact (List.mem_cons.mp hmem).resolve_left (Ne.symm hline)

/-- A literal ends with its quote, and has no line break in it. -/
theorem exists_of_closing? {q : Char} (hq : IsQuote q) {t : Text} {n : Nat}
    (h : closing? q t = some n) :
    ∃ body rest, t = body ++ q :: rest ∧ n = body.length + 1 ∧ '\n' ∉ body := by
  have hline : q ≠ '\n' := Ne.symm (hq.ne (by decide))
  fun_induction closing? q t generalizing n with
  | case1 => exact absurd h (by simp)
  | case2 => exact ⟨[], [], rfl, (Option.some.inj h).symm, List.not_mem_nil⟩
  | case3 => exact absurd h (by simp)
  | case4 => exact ⟨[], _, rfl, (Option.some.inj h).symm, List.not_mem_nil⟩
  | case5 => exact absurd h (by simp)
  | case6 c d rest _ hnl hescaped ih =>
    obtain ⟨rfl, rfl⟩ := hescaped
    obtain rfl := Option.some.inj h
    cases hclosing : closing? d rest with
    | none => exact ⟨['\\'], rest, rfl, rfl, by decide⟩
    | some n =>
      -- the quote after the backslash is part of the literal
      obtain ⟨body, rest', rfl, rfl, hbody⟩ := ih hclosing
      refine ⟨'\\' :: d :: body, rest', rfl, rfl, ?_⟩
      simp only [List.mem_cons, not_or]
      exact ⟨by decide, Ne.symm hline, hbody⟩
  | case7 c d rest hc hnl _ ih =>
    obtain ⟨k, hk, rfl⟩ := Option.map_eq_some_iff.mp h
    obtain ⟨body, rest', heq, rfl, hbody⟩ := ih hk
    refine ⟨c :: body, rest', by rw [heq]; rfl, rfl, ?_⟩
    rw [List.mem_cons, not_or]
    exact ⟨Ne.symm hnl, hbody⟩

/-- **What follows a literal matters only by the quotes in its line.**  The literal ends at the same
place before any other text, as long as that text does not bring in a quote where there was none. -/
theorem closing?_append {q : Char} (hq : IsQuote q) {body rest rest' : Text}
    (hrest : closing? q rest = none → closing? q rest' = none)
    (h : closing? q (body ++ rest) = some body.length) :
    closing? q (body ++ rest') = some body.length := by
  induction body using closing?.induct q with
  | case1 =>
    -- a literal has at least its last quote
    obtain ⟨_, _, _, hlen, _⟩ := exists_of_closing? hq h
    exact absurd hlen.symm (Nat.succ_ne_zero _)
  | case2 => exact closing?_quote _ _
  | case3 c hc =>
    obtain ⟨body, _, heq, hlen, _⟩ := exists_of_closing? hq h
    obtain rfl := List.eq_nil_of_length_eq_zero (Nat.succ.inj hlen).symm
    exact absurd (List.cons.inj heq).1 hc
  | case4 d t =>
    rw [List.cons_append, closing?_quote] at h
    exact absurd h (by simp)
  | case5 d t _ =>
    rw [List.cons_append, closing?_newline hq] at h
    exact absurd h (by simp)
  | case6 c d t _ _ hescaped ih =>
    obtain ⟨rfl, rfl⟩ := hescaped
    simp only [List.cons_append, closing?_escaped hq, List.length_cons, Option.some.injEq,
      Nat.add_right_cancel_iff] at h ⊢
    cases hclosing : closing? d (t ++ rest) with
    | none =>
      -- the quote after the backslash is the last of the line
      rw [hclosing] at h
      obtain rfl := List.eq_nil_of_length_eq_zero h.symm
      rw [List.nil_append] at hclosing ⊢
      rw [hrest hclosing]
      rfl
    | some n =>
      rw [hclosing] at h
      rw [ih (hclosing.trans (congrArg some h))]
      rfl
  | case7 c d t hc hnl hescaped ih =>
    have hescaped' : ∀ u : Text, ¬(c = '\\' ∧ (d :: t ++ u).head? = some q) :=
      fun u hboth => hescaped ⟨hboth.1, Option.some.inj hboth.2⟩
    rw [List.cons_append, closing?_other hc hnl (hescaped' _)] at h ⊢
    obtain ⟨n, hn, hlen⟩ := Option.map_eq_some_iff.mp h
    rw [ih (hn.trans (congrArg some (Nat.succ.inj hlen)))]
    rfl

/-! ### Bits -/

/-- A **bit** of a source: a literal, or a character outside of all literals. -/
inductive Bit where
  | char (c : Char)
  | literal (l : Text)
  deriving DecidableEq, Repr

/-- The text of a bit. -/
def Bit.text : Bit → Text
  | .char c => [c]
  | .literal l => l

/-- What stands for a bit in the source with a placeholder for every literal. -/
def Bit.covered (placeholder : Text) : Bit → Text
  | .char c => [c]
  | .literal _ => placeholder

/-- The literal that a bit is. -/
def Bit.literal? : Bit → Option Text
  | .char _ => none
  | .literal l => some l

/-- The source that bits make up. -/
def source (bits : List Bit) : Text :=
  bits.flatMap Bit.text

/-- The source with a placeholder for every literal. -/
def cover (placeholder : Text) (bits : List Bit) : Text :=
  bits.flatMap (Bit.covered placeholder)

/-- The literals among the bits. -/
def literals (bits : List Bit) : List Text :=
  bits.filterMap Bit.literal?

section Equations

variable (placeholder l : Text) (c : Char) (as bs bits : List Bit)

@[simp] theorem source_nil : source [] = [] := rfl

@[simp] theorem source_char : source (.char c :: bits) = c :: source bits := rfl

@[simp] theorem source_literal : source (.literal l :: bits) = l ++ source bits := rfl

theorem source_append : source (as ++ bs) = source as ++ source bs :=
  List.flatMap_append

@[simp] theorem cover_nil : cover placeholder [] = [] := rfl

@[simp] theorem cover_char :
    cover placeholder (.char c :: bits) = c :: cover placeholder bits := rfl

@[simp] theorem cover_literal :
    cover placeholder (.literal l :: bits) = placeholder ++ cover placeholder bits := rfl

theorem cover_append :
    cover placeholder (as ++ bs) = cover placeholder as ++ cover placeholder bs :=
  List.flatMap_append

@[simp] theorem literals_nil : literals [] = [] := rfl

@[simp] theorem literals_char : literals (.char c :: bits) = literals bits := rfl

@[simp] theorem literals_literal : literals (.literal l :: bits) = l :: literals bits := rfl

theorem literals_append : literals (as ++ bs) = literals as ++ literals bs :=
  List.filterMap_append

end Equations

/-- A text without literals. -/
def bare (t : Text) : List Bit :=
  t.map .char

theorem source_bare_append (t : Text) (bits : List Bit) :
    source (bare t ++ bits) = t ++ source bits := by
  induction t with
  | nil => rfl
  | cons c t ih => exact congrArg (c :: ·) ih

theorem cover_bare_append (placeholder t : Text) (bits : List Bit) :
    cover placeholder (bare t ++ bits) = t ++ cover placeholder bits := by
  induction t with
  | nil => rfl
  | cons c t ih => exact congrArg (c :: ·) ih

theorem literals_bare_append (t : Text) (bits : List Bit) :
    literals (bare t ++ bits) = literals bits := by
  induction t with
  | nil => rfl
  | cons c t ih => exact ih

/-- Bits without literals are characters. -/
theorem eq_bare_of_literals_eq_nil {bits : List Bit} (h : literals bits = []) (placeholder : Text) :
    bits = bare (cover placeholder bits) := by
  induction bits with
  | nil => rfl
  | cons b bits ih =>
    cases b with
    | char c => exact congrArg (.char c :: ·) (ih h)
    | literal l => exact absurd h (by simp)

/-! ### What the scanner finds -/

/-- No literal begins but at a quote. -/
theorem read?_eq_none_of_not_isQuote {c : Char} (h : ¬IsQuote c) (t : Text) :
    read? (c :: t) = none := by
  have hc : ¬(decide (c = '"') || decide (c = '\'')) = true := by
    rwa [Bool.or_eq_true, decide_eq_true_eq, decide_eq_true_eq]
  rw [read?, if_neg hc]

theorem read?_of_isQuote {q : Char} (hq : IsQuote q) (t : Text) :
    read? (q :: t) = (closing? q t).map fun n => ((), n + 1) := by
  have hc : (decide (q = '"') || decide (q = '\'')) = true := by
    rwa [Bool.or_eq_true, decide_eq_true_eq, decide_eq_true_eq]
  rw [read?, if_pos hc]

/-- A bit **fits** before the rest of a source: no literal begins at the character, or the literal
is a quote with the characters up to the one that ends it. -/
def Bit.Fits : Bit → Text → Prop
  | .char c, rest => read? (c :: rest) = none
  | .literal l, rest =>
    ∃ q body, l = q :: body ∧ IsQuote q ∧ closing? q (body ++ rest) = some body.length

/-- The bits are those that the **scanner by quotes** finds in their source. -/
abbrev Scanned : List Bit → Prop :=
  Divided Bit.text Bit.Fits

theorem scanned_char_iff {c : Char} {bits : List Bit} :
    Scanned (.char c :: bits) ↔ read? (c :: source bits) = none ∧ Scanned bits :=
  divided_cons_iff

theorem Scanned.char {c : Char} {bits : List Bit} (h : read? (c :: source bits) = none)
    (hbits : Scanned bits) : Scanned (.char c :: bits) :=
  .cons h hbits

theorem Scanned.literal {q : Char} {body : Text} {bits : List Bit} (hq : IsQuote q)
    (h : closing? q (body ++ source bits) = some body.length) (hbits : Scanned bits) :
    Scanned (.literal (q :: body) :: bits) :=
  .cons ⟨q, body, rfl, hq, h⟩ hbits

/-- Induction on what is scanned, with a case for each kind of bit. -/
@[elab_as_elim]
theorem Scanned.induct {motive : (bits : List Bit) → Scanned bits → Prop} (nil : motive [] .nil)
    (char : ∀ {c : Char} {bits : List Bit} (h : read? (c :: source bits) = none)
      (hbits : Scanned bits), motive bits hbits → motive (.char c :: bits) (.char h hbits))
    (literal : ∀ {q : Char} {body : Text} {bits : List Bit} (hq : IsQuote q)
      (h : closing? q (body ++ source bits) = some body.length) (hbits : Scanned bits),
      motive bits hbits → motive (.literal (q :: body) :: bits) (.literal hq h hbits))
    {bits : List Bit} (h : Scanned bits) : motive bits h := by
  induction h with
  | nil => exact nil
  | @cons b bits h hbits ih =>
    cases b with
    | char c => exact char h hbits ih
    | literal l =>
      obtain ⟨q, body, rfl, hq, hclosing⟩ := h
      exact literal hq hclosing hbits ih

/-- Text without quotes may stand in front of any bits. -/
theorem Scanned.bare_append {a : Text} (ha : ∀ c ∈ a, ¬IsQuote c) {bits : List Bit}
    (h : Scanned bits) : Scanned (bare a ++ bits) := by
  induction a with
  | nil => exact h
  | cons c a ih =>
    exact .char (read?_eq_none_of_not_isQuote (ha c List.mem_cons_self) _)
      (ih fun x hx => ha x (List.mem_cons_of_mem _ hx))

/-- **Every source has bits.** -/
theorem exists_scanned (s : Text) : ∃ bits, Scanned bits ∧ source bits = s := by
  refine exists_divided (fun c t => ?_) s
  cases hread : read? (c :: t) with
  | none => exact ⟨.char c, t, rfl, List.cons_ne_nil _ _, hread⟩
  | some found =>
    have hq : IsQuote c := by
      by_contra hc
      rw [read?_eq_none_of_not_isQuote hc] at hread
      exact absurd hread (by simp)
    rw [read?_of_isQuote hq] at hread
    obtain ⟨k, hk, -⟩ := Option.map_eq_some_iff.mp hread
    obtain ⟨body, rest, rfl, rfl, -⟩ := exists_of_closing? hq hk
    refine ⟨.literal (c :: (body ++ [c])), rest, by simp [Bit.text], List.cons_ne_nil _ _, c, _,
      rfl, hq, ?_⟩
    rw [List.append_assoc, List.length_append]
    exact hk

/-- A literal ends with its quote, and stands in one line. -/
theorem exists_of_closing?_eq_length {q : Char} (hq : IsQuote q) {body rest : Text}
    (h : closing? q (body ++ rest) = some body.length) :
    ∃ inner, body = inner ++ [q] ∧ '\n' ∉ inner := by
  obtain ⟨inner, rest', heq, hlen, hinner⟩ := exists_of_closing? hq h
  refine ⟨inner, ?_, hinner⟩
  have hassoc : inner ++ q :: rest' = (inner ++ [q]) ++ rest' := by simp
  rw [hassoc] at heq
  exact (List.append_inj heq (by rw [hlen, List.length_append]; rfl)).1

/-- A character at which no literal begins stays one, if what follows it changes and no quote that
ended nowhere can end now. -/
theorem read?_cons_eq_none {c : Char} {t t' : Text}
    (h : IsQuote c → closing? c t = none → closing? c t' = none) (hread : read? (c :: t) = none) :
    read? (c :: t') = none := by
  by_cases hq : IsQuote c
  · rw [read?_of_isQuote hq, Option.map_eq_none_iff] at hread ⊢
    exact h hq hread
  · exact read?_eq_none_of_not_isQuote hq _

/-! ### Edits that keep literals -/

/-- The bits `bits'` come from `bits` by an edit that **keeps all literals**: no quote that ended
nowhere can end now, and so the scanner finds again what it has found. -/
structure Kept (bits bits' : List Bit) : Prop where
  literals_eq : literals bits' = literals bits
  closing : ∀ q, IsQuote q → closing? q (source bits) = none → closing? q (source bits') = none
  scanned : Scanned bits → Scanned bits'

namespace Kept

variable {bits bits' : List Bit}

theorem nil : Kept [] [] :=
  ⟨rfl, fun _ _ h => h, fun h => h⟩

theorem char (c : Char) (h : Kept bits bits') : Kept (.char c :: bits) (.char c :: bits') where
  literals_eq := h.literals_eq
  closing q hq := closing?_append_eq_none (a := [c]) hq (h.closing q hq)
  scanned hbits := by
    obtain ⟨hread, hbits⟩ := scanned_char_iff.mp hbits
    exact .char (read?_cons_eq_none (h.closing c) hread) (h.scanned hbits)

theorem literal (l : Text) (h : Kept bits bits') :
    Kept (.literal l :: bits) (.literal l :: bits') where
  literals_eq := congrArg (l :: ·) h.literals_eq
  closing q hq := closing?_append_eq_none hq (h.closing q hq)
  scanned hbits := by
    obtain ⟨⟨q, body, rfl, hq, hclosing⟩, hrest⟩ := divided_cons_iff.mp hbits
    exact .literal hq (closing?_append hq (h.closing _ hq) hclosing) (h.scanned hrest)

/-- Text without quotes is written in between. -/
theorem bare_append {a : Text} (ha : ∀ c ∈ a, ¬IsQuote c) (h : Kept bits bits') :
    Kept bits (bare a ++ bits') where
  literals_eq := (literals_bare_append a bits').trans h.literals_eq
  closing q hq hnone := by
    rw [source_bare_append]
    exact closing?_append_of_not_mem hq (fun hmem => ha q hmem hq) (Or.inr (h.closing q hq hnone))
  scanned hbits := (h.scanned hbits).bare_append ha

/-- Any text is replaced by one without quotes that breaks the line. -/
theorem replace {a : Text} (ha : ∀ c ∈ a, ¬IsQuote c) (hline : '\n' ∈ a) (raw : Text)
    (h : Kept bits bits') : Kept (bare raw ++ bits) (bare a ++ bits') where
  literals_eq := by rw [literals_bare_append, literals_bare_append, h.literals_eq]
  closing q hq _ := by
    rw [source_bare_append]
    exact closing?_append_of_not_mem hq (fun hmem => ha q hmem hq) (Or.inl hline)
  scanned hbits := (h.scanned hbits.of_append).bare_append ha

end Kept

/-! ### Where the literals stand -/

/-- What the scanner sees of a bit: whether it is a literal. -/
def Bit.seen? : Bit → Option Unit
  | .char _ => none
  | .literal _ => some ()

/-- The spans of the literals among bits of which the first stands at `offset`. -/
def spansFrom (offset : Nat) (bits : List Bit) : List Span :=
  (Division.foundFrom Bit.text Bit.seen? offset bits).map fun f => ⟨f.start, f.stop⟩

@[simp] theorem spansFrom_nil (offset : Nat) : spansFrom offset [] = [] := rfl

@[simp] theorem spansFrom_char (offset : Nat) (c : Char) (bits : List Bit) :
    spansFrom offset (.char c :: bits) = spansFrom (offset + 1) bits := rfl

@[simp] theorem spansFrom_literal (offset : Nat) (l : Text) (bits : List Bit) :
    spansFrom offset (.literal l :: bits) =
      ⟨offset, offset + l.length⟩ :: spansFrom (offset + l.length) bits := rfl

theorem spansFrom_append (offset : Nat) (as bs : List Bit) :
    spansFrom offset (as ++ bs) =
      spansFrom offset as ++ spansFrom (offset + (source as).length) bs := by
  rw [spansFrom, Division.foundFrom_append, List.map_append]
  rfl

/-- A span is that of a literal, and stands behind the bits before it. -/
theorem exists_literal_of_mem_spansFrom {offset : Nat} {bits : List Bit} {span : Span}
    (h : span ∈ spansFrom offset bits) :
    ∃ before l after, bits = before ++ .literal l :: after ∧
      span = ⟨offset + (source before).length, offset + (source before).length + l.length⟩ := by
  obtain ⟨f, hf, rfl⟩ := List.mem_map.mp h
  obtain ⟨before, b, after, _, rfl, hseen, rfl⟩ := Division.mem_foundFrom_iff.mp hf
  cases b with
  | char c => exact absurd hseen (by simp [Bit.seen?])
  | literal l => exact ⟨before, l, after, rfl, rfl⟩

/-- **The scanner finds the literals of the bits.** -/
theorem byQuotes_source {bits : List Bit} (h : Scanned bits) :
    byQuotes (source bits) = spansFrom 0 bits := by
  refine congrArg (List.map _) (searchFrom_divided (fun b rest offset hfits => ?_) h 0)
  cases b with
  | char c =>
    show searchFrom read? offset 0 (c :: rest) = _
    rw [searchFrom, show read? (c :: rest) = none from hfits]
    rfl
  | literal l =>
    obtain ⟨q, body, rfl, hq, hclosing⟩ := hfits
    refine searchFrom_append_of_read (List.cons_ne_nil _ _) ?_ offset
    rw [List.cons_append, read?_of_isQuote hq, hclosing]
    rfl

/-! ### Shielding and restoring -/

/-- The text of a bit is cut out of the source where the bit stands. -/
theorem slice_of_drop_eq {s a b : Text} {offset : Nat} (h : s.drop offset = a ++ b) :
    slice s offset (offset + a.length) = a := by
  rw [slice, ← List.take_drop, h, List.take_left]

theorem drop_of_drop_eq {s a b : Text} {offset : Nat} (h : s.drop offset = a ++ b) :
    s.drop (offset + a.length) = b := by
  rw [← List.drop_drop, h, List.drop_left]

theorem getElem?_of_drop_eq {s t : Text} {c : Char} {offset : Nat} (h : s.drop offset = c :: t) :
    s[offset]? = some c := by
  rw [← List.head?_drop, h]
  rfl

/-- Covering the literals of a source from a place before some bits: what stands in between is
kept. -/
theorem coverFrom_spansFrom (placeholder : Text) {s : Text} {bits : List Bit} {pos offset : Nat}
    (hs : s.drop offset = source bits) (hle : pos ≤ offset) :
    coverFrom placeholder s pos (spansFrom offset bits) =
      slice s pos offset ++ cover placeholder bits := by
  induction bits generalizing pos offset with
  | nil =>
    show s.drop pos = slice s pos offset ++ []
    rw [← slice_append_drop hle, hs]
    rfl
  | cons b bits ih =>
    cases b with
    | char c =>
      have hs' : s.drop (offset + 1) = source bits := drop_of_drop_eq (a := [c]) hs
      have hslice : slice s pos (offset + 1) = slice s pos offset ++ [c] := by
        have hc : s[offset]? = some c := getElem?_of_drop_eq hs
        have hlt := (List.getElem?_eq_some_iff.mp hc).1
        rw [slice, slice, List.take_add_one, hc,
          List.drop_append_of_le_length (by rw [List.length_take]; omega)]
        rfl
      show coverFrom placeholder s pos (spansFrom (offset + 1) bits) = _
      rw [ih hs' (by omega), hslice, List.append_assoc]
      rfl
    | literal l =>
      have hs' : s.drop (offset + l.length) = source bits := drop_of_drop_eq hs
      have hslice : slice s (offset + l.length) (offset + l.length) = [] := by
        rw [slice]
        exact List.drop_eq_nil_of_le (List.length_take_le _ _)
      rw [spansFrom_literal, coverFrom, ih hs' (Nat.le_refl _), hslice, cover_literal,
        List.append_assoc]
      rfl

theorem map_slice_spansFrom {s : Text} {bits : List Bit} {offset : Nat}
    (hs : s.drop offset = source bits) :
    (spansFrom offset bits).map (fun span => slice s span.start span.stop) = literals bits := by
  induction bits generalizing offset with
  | nil => rfl
  | cons b bits ih =>
    cases b with
    | char c => exact ih (drop_of_drop_eq (a := [c]) hs)
    | literal l =>
      rw [source_literal] at hs
      rw [spansFrom_literal, List.map_cons, ih (drop_of_drop_eq hs), literals_literal]
      exact congrArg (· :: _) (slice_of_drop_eq hs)

/-- **Shielding a source covers its literals.** -/
theorem shield_of_spans {scan : Scanner} {bits : List Bit}
    (h : scan (source bits) = spansFrom 0 bits) (placeholder : Text) :
    shield scan placeholder (source bits) =
      ⟨cover placeholder bits, literals bits, placeholder⟩ := by
  rw [shield, h, coverFrom_spansFrom placeholder (List.drop_zero) (Nat.le_refl 0),
    map_slice_spansFrom (List.drop_zero)]
  rfl

theorem shield_source {bits : List Bit} (h : Scanned bits) (placeholder : Text) :
    shield byQuotes placeholder (source bits) =
      ⟨cover placeholder bits, literals bits, placeholder⟩ :=
  shield_of_spans (byQuotes_source h) placeholder

/-- Characters of a source that are no quotes at its front are bits of their own. -/
theorem exists_bare_append {bits : List Bit} (hbits : Scanned bits) {a b : Text}
    (ha : ∀ c ∈ a, ¬IsQuote c) (h : source bits = a ++ b) : ∃ bits', bits = bare a ++ bits' := by
  induction a generalizing bits with
  | nil => exact ⟨bits, rfl⟩
  | cons c a ih =>
    cases hbits using Scanned.induct with
    | nil => exact absurd h (by simp)
    | char _ hbits _ =>
      obtain ⟨rfl, htail⟩ := List.cons.inj h
      obtain ⟨bits', rfl⟩ := ih hbits (fun x hx => ha x (List.mem_cons_of_mem _ hx)) htail
      exact ⟨bits', rfl⟩
    | literal hq _ _ _ =>
      obtain ⟨rfl, -⟩ := List.cons.inj h
      exact absurd hq (ha _ List.mem_cons_self)

/-- What occurs in a literal occurs in the source. -/
theorem occurrences_literal_le {bits : List Bit} {l : Text} (h : l ∈ literals bits)
    (needle : Text) : occurrences needle l ≤ occurrences needle (source bits) := by
  induction bits with
  | nil => exact absurd h List.not_mem_nil
  | cons b bits ih =>
    cases b with
    | char c => exact Nat.le_trans (ih h) (Nat.le_add_left _ _)
    | literal l' =>
      rcases List.mem_cons.mp h with rfl | h
      · exact occurrences_le_append_left _ _ _
      · exact Nat.le_trans (ih h) (occurrences_le_append_right _ _ _)

section Placeholder

variable {digits : Text} (hdigits : '_' ∉ digits)

include hdigits

/-- There is a placeholder for every literal. -/
theorem length_literals_le (bits : List Bit) :
    (literals bits).length ≤ occurrences ('_' :: digits) (cover ('_' :: digits) bits) := by
  induction bits with
  | nil => exact Nat.le_refl 0
  | cons b bits ih =>
    cases b with
    | char c => exact Nat.le_trans ih (Nat.le_add_left _ _)
    | literal l =>
      rw [cover_literal, occurrences_placeholder_append hdigits, literals_literal,
        List.length_cons]
      omega

/-- **Restoring a covered source gives it back**, if there are no other placeholders in it. -/
theorem restoreFrom_cover {bits : List Bit}
    (h : occurrences ('_' :: digits) (cover ('_' :: digits) bits) ≤ (literals bits).length) :
    restoreFrom ('_' :: digits) (literals bits) 0 (cover ('_' :: digits) bits) =
      ⟨source bits, 0, 0⟩ := by
  induction bits with
  | nil => rfl
  | cons b bits ih =>
    have hle := length_literals_le hdigits bits
    cases b with
    | char c =>
      rw [cover_char, occurrences, literals_char] at h
      by_cases hbegin : beginsWith (c :: cover ('_' :: digits) bits) ('_' :: digits) = true
      · rw [if_pos hbegin] at h
        omega
      · rw [if_neg hbegin, Nat.zero_add] at h
        rw [cover_char, restoreFrom, if_neg hbegin, literals_char, ih h]
        rfl
    | literal l =>
      rw [cover_literal, occurrences_placeholder_append hdigits, literals_literal,
        List.length_cons] at h
      rw [cover_literal, restoreFrom_placeholder_append, literals_literal, fill, ih (by omega)]
      rfl

/-- **A source without a placeholder in its literals has none at all**, if it has none when the
literals are covered: no placeholder reaches over a quote. -/
theorem occurrences_source_eq_zero {bits : List Bit} (hbits : Scanned bits)
    (hquotes : ∀ c ∈ '_' :: digits, ¬IsQuote c)
    (h : occurrences ('_' :: digits) (cover ('_' :: digits) bits) ≤ (literals bits).length)
    (hliterals : ∀ l ∈ literals bits, occurrences ('_' :: digits) l = 0) :
    occurrences ('_' :: digits) (source bits) = 0 := by
  induction hbits using Scanned.induct with
  | nil => rfl
  | @char c bits _ hbits ih =>
    have hle := length_literals_le hdigits bits
    rw [cover_char, occurrences, literals_char] at h
    have hnot : ¬beginsWith (c :: source bits) ('_' :: digits) = true := by
      intro hbegin
      obtain ⟨rest, heq⟩ := beginsWith_iff.mp hbegin
      obtain ⟨rfl, hsource⟩ := List.cons.inj heq
      -- the digits are no part of a literal, so they are there in the covered text
      obtain ⟨bits', rfl⟩ := exists_bare_append hbits
        (fun d hd => hquotes d (List.mem_cons_of_mem _ hd)) hsource
      have hcover : beginsWith ('_' :: cover ('_' :: digits) (bare digits ++ bits'))
          ('_' :: digits) = true := by
        rw [cover_bare_append]
        exact beginsWith_iff.mpr ⟨_, rfl⟩
      rw [if_pos hcover] at h
      omega
    rw [source_char, occurrences, if_neg hnot, Nat.zero_add]
    exact ih (by omega) hliterals
  | @literal q body bits hq hclosing _ ih =>
    rw [cover_literal, occurrences_placeholder_append hdigits, literals_literal,
      List.length_cons] at h
    have hrest := ih (by omega) fun l hl => hliterals l (List.mem_cons_of_mem _ hl)
    have hl := hliterals _ List.mem_cons_self
    obtain ⟨inner, rfl, -⟩ := exists_of_closing?_eq_length hq hclosing
    have hquote : ∀ c ∈ [q], c ∉ '_' :: digits := by
      intro c hc hmem
      rw [List.mem_singleton.mp hc] at hmem
      exact hquotes q hmem hq
    have hinner : occurrences ('_' :: digits) (q :: inner) = 0 := by
      have hle := occurrences_le_append_left ('_' :: digits) (q :: inner) [q]
      rw [List.cons_append, hl] at hle
      omega
    have hassoc : source (.literal (q :: (inner ++ [q])) :: bits) =
        (q :: inner) ++ ([q] ++ source bits) := by simp
    rw [hassoc, occurrences_append_append (List.cons_ne_nil _ _) hquote, hinner, hrest]

end Placeholder

end LabelLoop.Literal
