import LabelLoop.Conversion.Basic
import LabelLoop.Proofs.Lexemes
import LabelLoop.Proofs.RoundTrip

/-!
# The two scanners on plain code

One scanner looks at quotes alone, the other reads lexeme by lexeme and keeps track of what a slash
would mean.  On plain code, in which no slash, backslash or backtick stands and every quote belongs
to a literal that the first scanner finds, they find the same literals (`literalsFrom_source`), so
that a conversion does not depend on the scanner.

Without these characters the lexer comes into two of its contexts only (`Context.Plain`), a lexeme
that is no string literal takes no quote (`bare_step`), and a string literal ends at the next
quote of its kind, for both scanners.
-/

namespace LabelLoop.Script

open Text Literal

/-! ### Plain code -/

/-- A text without slashes, backslashes and backticks. -/
structure PlainText (t : Text) : Prop where
  slash : '/' ∉ t
  backslash : '\\' ∉ t
  backtick : '`' ∉ t

/-- The contexts that plain code leads to: not inside a template, and not behind a stray slash. -/
structure Context.Plain (ctx : Context) : Prop where
  frames : ctx.frames = []
  slash : ctx.slash ≠ .passed

theorem PlainText.of_append {a b : Text} (h : PlainText (a ++ b)) : PlainText b :=
  ⟨fun hmem => h.slash (List.mem_append_right _ hmem),
    fun hmem => h.backslash (List.mem_append_right _ hmem),
    fun hmem => h.backtick (List.mem_append_right _ hmem)⟩

/-! ### At a quote -/

/-- At a quote nothing begins but a string literal. -/
theorem codeStep_of_isQuote {q : Char} (hq : IsQuote q) {t : Text} {n : Nat}
    (h : stringLiteral? (q :: t) = some n) (frames : List Frame) (prev : Option Char) :
    codeStep frames prev q t = ⟨n, ⟨frames, .divides⟩, true⟩ := by
  have htrivia : trivia? (q :: t) = none := by rcases hq with rfl | rfl <;> rfl
  have hnumber : number? (q :: t) = none := by rcases hq with rfl | rfl <;> rfl
  have hjoiner : joiner? (q :: t) = none := by rcases hq with rfl | rfl <;> rfl
  have hoperator : operator? (q :: t) = none := by rcases hq with rfl | rfl <;> rfl
  have hword : wordStep? frames prev (q :: t) = none := by rcases hq with rfl | rfl <;> rfl
  unfold codeStep
  rcases hq with rfl | rfl
  · simp [htrivia, hnumber, hjoiner, hoperator, hword, h]
  · simp [htrivia, hnumber, hjoiner, hoperator, hword, h]

/-! ### One step -/

/-- A step over plain code that reads **no literal**: it takes no quote, and the context stays a
plain one. -/
structure Step.Bare (s : Step) (t : Text) : Prop where
  literal : s.literal = false
  context : s.context.Plain
  quoteless : Quoteless s.length t

variable {c : Char} {t : Text}

/-- A lexeme that leaves a plain context. -/
theorem Step.Bare.of_quoteless {n : Nat} {slash : Slash} (hslash : slash ≠ .passed)
    (h : Quoteless n t) : Step.Bare ⟨n, ⟨[], slash⟩, false⟩ t :=
  ⟨rfl, ⟨rfl, hslash⟩, h⟩

theorem context_of_wordStep? {prev : Option Char} {s : Step} (h : wordStep? [] prev t = some s) :
    s.context.Plain := by
  unfold wordStep? at h
  dsimp only at h
  split_ifs at h
  · obtain rfl := Option.some.inj h
    exact ⟨rfl, by simp⟩
  · obtain rfl := Option.some.inj h
    exact ⟨rfl, by simp⟩
  · split at h
    · obtain rfl := Option.some.inj h
      exact ⟨rfl, by simp⟩
    · obtain ⟨k, -, rfl⟩ := Option.map_eq_some_iff.mp h
      exact ⟨rfl, by simp⟩

theorem stringLiteral?_of_not_isQuote (hc : ¬IsQuote c) (t : Text) :
    stringLiteral? (c :: t) = none := by
  have hnone : ¬(decide (c = '"') || decide (c = '\'')) = true := by
    rwa [Bool.or_eq_true, decide_eq_true_eq, decide_eq_true_eq]
  rw [stringLiteral?, if_neg hnone]

/-- Where no quote stands, code is read without literals. -/
theorem bare_codeStep (hplain : PlainText (c :: t)) (hc : ¬IsQuote c) (prev : Option Char) :
    (codeStep [] prev c t).Bare (c :: t) := by
  have hone : Quoteless 1 (c :: t) := quoteless_one hc t
  unfold codeStep
  extract_lets u after
  split
  · rename_i hhole
    simp at hhole
  split
  · rename_i htrivia
    exact .of_quoteless (by decide) (quoteless_trivia? hplain.slash htrivia)
  split
  · rename_i hnumber
    exact .of_quoteless (by decide) (quoteless_number? hnumber)
  split
  · rename_i hjoiner
    exact .of_quoteless (by decide) (quoteless_joiner? hjoiner)
  split
  · rename_i hoperator
    exact .of_quoteless (by decide) (quoteless_operator? hplain.backslash hoperator)
  split
  · exact .of_quoteless (by decide) hone
  split
  · exact .of_quoteless (by decide) hone
  split
  · rename_i s hword
    exact ⟨wordStep?_literal hword, context_of_wordStep? hword,
      quoteless_wordStep? hplain.backslash hword⟩
  split
  · rename_i hliteral
    rw [stringLiteral?_of_not_isQuote hc] at hliteral
    exact absurd hliteral (by simp)
  split
  · rename_i hbacktick
    exact absurd (hbacktick ▸ List.mem_cons_self) hplain.backtick
  split
  · rename_i hname
    exact .of_quoteless (by decide) (quoteless_privateName? hname)
  · exact .of_quoteless (by decide) hone

/-- Where an operand is expected, plain code is read as elsewhere, but for white space. -/
theorem operandStep_of_ne (hc : c ≠ '/') (frames : List Frame) (prev : Option Char) (t : Text) :
    operandStep frames prev c t =
      match trivia? (c :: t) with
      | some n => ⟨n, ⟨frames, .opens⟩, false⟩
      | none => codeStep frames prev c t := by
  have hpattern : patternLiteral? (c :: t) = none := by
    unfold patternLiteral?
    split
    · rename_i heq
      exact absurd (List.cons.inj heq).1 hc
    · rfl
  unfold operandStep
  simp only [hpattern, if_neg hc]
  cases trivia? (c :: t) <;> rfl

/-- Plain code holds no line that names an interpreter. -/
theorem interpreterLine?_eq_none (h : PlainText t) : interpreterLine? t = none := by
  unfold interpreterLine?
  rw [beginsWith_eq_false_of_mem (c := '/') (by decide) h.slash,
    beginsWith_eq_false_of_mem (c := '/') (by decide) h.slash]
  rfl

/-- In a plain context a step reads code, or code where an operand is expected. -/
theorem step_cases {ctx : Context} (hctx : ctx.Plain) (hplain : PlainText (c :: t))
    (prev : Option Char) :
    step ctx prev c t = operandStep [] prev c t ∨ step ctx prev c t = codeStep [] prev c t := by
  obtain ⟨frames, slash⟩ := ctx
  obtain ⟨rfl, hslash⟩ := hctx
  cases slash with
  | passed => exact absurd rfl hslash
  | opens => exact Or.inl rfl
  | divides =>
    unfold step
    simp only [interpreterLine?_eq_none hplain, ite_self]
    split
    · exact Or.inl rfl
    · exact Or.inr rfl

/-- **Where no quote stands**, a step takes no quote. -/
theorem bare_step {ctx : Context} (hctx : ctx.Plain) (hplain : PlainText (c :: t))
    (hc : ¬IsQuote c) (prev : Option Char) : (step ctx prev c t).Bare (c :: t) := by
  have hcode := bare_codeStep hplain hc prev
  rcases step_cases hctx hplain prev with hstep | hstep
  · rw [hstep, operandStep_of_ne fun heq => hplain.slash (heq ▸ List.mem_cons_self)]
    split
    · rename_i htrivia
      exact .of_quoteless (by decide) (quoteless_trivia? hplain.slash htrivia)
    · exact hcode
  · rw [hstep]
    exact hcode

/-- **At a quote** a step reads the string literal that begins there. -/
theorem step_of_isQuote {ctx : Context} (hctx : ctx.Plain) {q : Char} (hq : IsQuote q)
    (hplain : PlainText (q :: t)) {n : Nat} (h : stringLiteral? (q :: t) = some n)
    (prev : Option Char) : step ctx prev q t = ⟨n, ⟨[], .divides⟩, true⟩ := by
  have hcode := codeStep_of_isQuote hq h [] prev
  rcases step_cases hctx hplain prev with hstep | hstep
  · have htrivia : trivia? (q :: t) = none := by rcases hq with rfl | rfl <;> rfl
    rw [hstep, operandStep_of_ne fun heq => hplain.slash (heq ▸ List.mem_cons_self), htrivia]
    exact hcode
  · rw [hstep]
    exact hcode

/-! ### The scan -/

/-- Passing over characters is the same as dropping them; the character before what follows is then
another. -/
theorem literalsFrom_skip (offset : Nat) (prev : Option Char) (ctx : Context) (skip : Nat)
    (t : Text) : ∃ prev', literalsFrom offset prev ctx skip t =
      literalsFrom (offset + skip) prev' ctx 0 (t.drop skip) := by
  induction t generalizing offset prev skip with
  | nil => exact ⟨none, by simp [literalsFrom]⟩
  | cons c t ih =>
    cases skip with
    | zero => exact ⟨prev, rfl⟩
    | succ k =>
      obtain ⟨prev', hskip⟩ := ih (offset + 1) (some c) k
      refine ⟨prev', ?_⟩
      rw [literalsFrom, hskip, List.drop_succ_cons]
      congr 1
      omega

/-- Without a backslash a literal that ends in its line ends at the same quote for both. -/
theorem quotedRest?_of_closing? {q : Char} (hq : IsQuote q) {t : Text} (hbackslash : '\\' ∉ t)
    {n : Nat} (h : closing? q t = some n) : quotedRest? q t = some n := by
  induction t generalizing n with
  | nil => exact absurd h (by simp [closing?])
  | cons c t ih =>
    rw [List.mem_cons, not_or] at hbackslash
    unfold quotedRest?
    split
    · rename_i heq
      rwa [heq, closing?_quote] at h
    · rename_i hne
      rw [if_neg (Ne.symm hbackslash.1)]
      by_cases hline : c = '\n'
      · rw [hline, closing?_newline hq] at h
        exact absurd h (by simp)
      · rw [closing?_other hne hline fun hboth => hbackslash.1 hboth.1.symm] at h
        obtain ⟨k, hk, rfl⟩ := Option.map_eq_some_iff.mp h
        rw [ih hbackslash.2 hk]
        rfl

/-- Bits of **plain code**: found by the scanner by quotes, with no quote outside of literals. -/
structure PlainCode (bits : List Bit) : Prop where
  scanned : Scanned bits
  guarded : ∀ c, Bit.char c ∈ bits → ¬IsQuote c
  plain : PlainText (source bits)

variable {bits : List Bit}

theorem PlainCode.of_append {a : List Bit} (h : PlainCode (a ++ bits)) (hbits : Scanned bits) :
    PlainCode bits where
  scanned := hbits
  guarded c hc := h.guarded c (List.mem_append_right _ hc)
  plain := (source_append a bits ▸ h.plain).of_append

/-- A stretch without quotes reaches over characters alone. -/
theorem exists_bare_of_quoteless (hbits : Scanned bits) {n : Nat}
    (h : Quoteless n (source bits)) :
    ∃ rest, bits = bare ((source bits).take n) ++ rest ∧ source rest = (source bits).drop n := by
  induction n generalizing bits with
  | zero => exact ⟨bits, by simp [bare], by simp⟩
  | succ n ih =>
    cases hbits using Scanned.induct with
    | nil => exact ⟨[], rfl, rfl⟩
    | @char c bits _ hbits _ =>
      obtain ⟨rest, hrest, hsource⟩ := ih hbits (quoteless_succ_cons.mp h).2
      exact ⟨rest, congrArg (Bit.char c :: ·) hrest, hsource⟩
    | literal hq _ _ _ => exact absurd hq (quoteless_succ_cons.mp h).1

/-- There is no empty literal. -/
theorem eq_nil_of_source_eq_nil (hbits : Scanned bits) (h : source bits = []) : bits = [] := by
  cases hbits using Scanned.induct with
  | nil => rfl
  | char => exact absurd h (List.cons_ne_nil _ _)
  | literal => exact absurd h (List.cons_ne_nil _ _)

/-- **Over a character** the lexer comes to bits that are left, and there is no literal among those
that it passed. -/
theorem exists_rest_of_char {ctx : Context} (hctx : ctx.Plain) (h : PlainCode (.char c :: bits))
    (offset : Nat) (prev : Option Char) :
    ∃ rest offset' prev' ctx', PlainCode rest ∧ Context.Plain ctx' ∧
      (source rest).length ≤ (source bits).length ∧
      literalsFrom offset prev ctx 0 (c :: source bits) =
        literalsFrom offset' prev' ctx' 0 (source rest) ∧
      spansFrom offset (.char c :: bits) = spansFrom offset' rest := by
  have hbits : Scanned bits := (scanned_char_iff.mp h.scanned).2
  have hplain : PlainText (c :: source bits) := h.plain
  have hbare := bare_step hctx hplain (h.guarded c List.mem_cons_self) prev
  generalize hstep : step ctx prev c (source bits) = s at hbare
  -- what the step takes after the first character
  generalize hskip : s.length - 1 = skip
  have hquoteless : Quoteless skip (source bits) := by
    have hall := hbare.quoteless
    cases hs : s.length with
    | zero => exact (show skip = 0 by omega) ▸ quoteless_zero _
    | succ k =>
      rw [hs] at hall
      exact (show skip = k by omega) ▸ (quoteless_succ_cons.mp hall).2
  obtain ⟨rest, hrest, hsource⟩ := exists_bare_of_quoteless hbits hquoteless
  obtain ⟨prev', hliterals⟩ := literalsFrom_skip (offset + 1) (some c) s.context skip (source bits)
  have hscanned : Scanned rest := (hrest ▸ hbits).of_append
  refine ⟨rest, offset + 1 + skip, prev', s.context, ?_, hbare.context, ?_, ?_, ?_⟩
  · have hcode : PlainCode ((.char c :: bare ((source bits).take skip)) ++ rest) := by
      rw [List.cons_append, ← hrest]
      exact h
    exact hcode.of_append hscanned
  · rw [hsource, List.length_drop]
    exact Nat.sub_le _ _
  · rw [literalsFrom, hstep]
    simp only [hbare.literal, Bool.false_eq_true, if_false]
    rw [hskip, hliterals, hsource]
  · show spansFrom (offset + 1) bits = _
    by_cases hle : skip ≤ (source bits).length
    · conv_lhs => rw [hrest]
      rw [spansFrom_bare_append, List.length_take, Nat.min_eq_left hle]
    · rw [List.drop_eq_nil_of_le (by omega)] at hsource
      rw [hrest, eq_nil_of_source_eq_nil hscanned hsource, spansFrom_bare_append]
      rfl

/-- **Over a literal** the lexer reads just that literal. -/
theorem exists_literalsFrom_of_literal {ctx : Context} (hctx : ctx.Plain) {q : Char} {body : Text}
    (h : PlainCode (.literal (q :: body) :: bits)) (hq : IsQuote q)
    (hclosing : closing? q (body ++ source bits) = some body.length) (offset : Nat)
    (prev : Option Char) :
    ∃ prev', literalsFrom offset prev ctx 0 (q :: (body ++ source bits)) =
      ⟨offset, offset + (q :: body).length⟩ ::
        literalsFrom (offset + (q :: body).length) prev' ⟨[], .divides⟩ 0 (source bits) := by
  have hplain : PlainText (q :: (body ++ source bits)) := h.plain
  have hliteral : stringLiteral? (q :: (body ++ source bits)) = some (body.length + 1) := by
    have hbackslash : '\\' ∉ body ++ source bits :=
      fun hmem => hplain.backslash (List.mem_cons_of_mem _ hmem)
    have hmark : (decide (q = '"') || decide (q = '\'')) = true := by
      rwa [Bool.or_eq_true, decide_eq_true_eq, decide_eq_true_eq]
    rw [stringLiteral?, if_pos hmark, quotedRest?_of_closing? hq hbackslash hclosing]
    rfl
  obtain ⟨prev', hskip⟩ := literalsFrom_skip (offset + 1) (some q) ⟨[], .divides⟩ body.length
    (body ++ source bits)
  refine ⟨prev', ?_⟩
  rw [literalsFrom, step_of_isQuote hctx hq hplain hliteral prev]
  simp only [if_true, Nat.add_sub_cancel]
  rw [hskip, List.drop_left, List.length_cons, Nat.add_assoc offset 1, Nat.add_comm 1]

/-- **The lexer finds the literals of plain code**, from any plain context.  A lexeme may take many
bits at once, so the induction is on the length of the code. -/
theorem literalsFrom_source (h : PlainCode bits) (offset : Nat) (prev : Option Char) {ctx : Context}
    (hctx : ctx.Plain) : literalsFrom offset prev ctx 0 (source bits) = spansFrom offset bits := by
  induction hlength : (source bits).length using Nat.strongRecOn
    generalizing bits offset prev ctx with
  | _ length ih =>
    cases hscanned : h.scanned using Scanned.induct with
    | nil => rfl
    | @char c bits =>
      obtain ⟨rest, offset', prev', ctx', hrest, hctx', hle, hliterals, hspans⟩ :=
        exists_rest_of_char hctx h offset prev
      rw [source_char, hliterals, hspans]
      refine ih _ ?_ hrest offset' prev' hctx' rfl
      rw [← hlength, source_char, List.length_cons]
      omega
    | @literal q body bits hq hclosing hbits _ =>
      obtain ⟨prev', hliterals⟩ := exists_literalsFrom_of_literal hctx h hq hclosing offset prev
      rw [source_literal, List.cons_append, hliterals, spansFrom_literal]
      congr 1
      refine ih _ ?_ (h.of_append (a := [_]) hbits) _ prev' ⟨rfl, by simp⟩ rfl
      rw [← hlength, source_literal, List.length_append, List.length_cons]
      omega

/-- The characters between literals are no quotes if the spans of the literals cover every quote. -/
theorem not_isQuote_of_covered {s : Text} {offset : Nat} (hs : s.drop offset = source bits)
    (h : ∀ p q, offset ≤ p → s[p]? = some q → IsQuote q →
      ∃ span ∈ spansFrom offset bits, span.start ≤ p ∧ p < span.stop)
    {c : Char} (hc : Bit.char c ∈ bits) : ¬IsQuote c := by
  induction bits generalizing offset with
  | nil => exact absurd hc List.not_mem_nil
  | cons b bits ih =>
    cases b with
    | char d =>
      rcases List.mem_cons.mp hc with heq | hc
      · -- the spans of the later bits begin behind this character
        obtain rfl : c = d := Bit.char.inj heq
        intro hq
        obtain ⟨span, hspan, hstart, -⟩ :=
          h offset c (Nat.le_refl _) (getElem?_of_drop_eq hs) hq
        have := (bounds_of_mem_spansFrom (show span ∈ spansFrom (offset + 1) bits from hspan)).1
        omega
      · refine ih (drop_of_drop_eq (a := [d]) hs) (fun p q hp => ?_) hc
        exact h p q (Nat.le_of_succ_le hp)
    | literal l =>
      refine ih (drop_of_drop_eq hs) (fun p q hp hpq hq => ?_)
        ((List.mem_cons.mp hc).resolve_left Bit.noConfusion)
      obtain ⟨span, hspan, hstart, hstop⟩ := h p q (Nat.le_of_add_right_le hp) hpq hq
      rcases List.mem_cons.mp hspan with rfl | hspan
      · exact absurd hstop (Nat.not_lt_of_le hp)
      · exact ⟨span, hspan, hstart, hstop⟩

end LabelLoop.Script

namespace LabelLoop.Conversion

open Text Literal

/-- **The two scanners agree on plain code.**  If a source holds no slash, backslash or backtick,
and every quote of it lies in a literal that is found by its quotes, then reading lexemes finds just
these literals, and every conversion has the same result with either scanner. -/
theorem scanners_agree_on_plain_code (source : Text) (hslash : '/' ∉ source)
    (hbackslash : '\\' ∉ source) (hbacktick : '`' ∉ source)
    (hcovered : ∀ p q, source[p]? = some q → IsQuote q →
      ∃ span ∈ ScannerKind.quotes.scanner source, span.start ≤ p ∧ p < span.stop) :
    ScannerKind.lexemes.scanner source = ScannerKind.quotes.scanner source ∧
    ∀ placeholder header strict,
      convert ⟨placeholder, ScannerKind.lexemes.scanner, header⟩ strict source =
        convert ⟨placeholder, ScannerKind.quotes.scanner, header⟩ strict source := by
  obtain ⟨bits, hbits, rfl⟩ := exists_scanned source
  have hquotes : ScannerKind.quotes.scanner (Literal.source bits) = spansFrom 0 bits :=
    byQuotes_source hbits
  rw [hquotes] at hcovered
  have hcode : Script.PlainCode bits := by
    refine ⟨hbits, fun c hc => ?_, ⟨hslash, hbackslash, hbacktick⟩⟩
    exact Script.not_isQuote_of_covered List.drop_zero (fun p q _ => hcovered p q) hc
  have hagree : ScannerKind.lexemes.scanner (Literal.source bits) =
      ScannerKind.quotes.scanner (Literal.source bits) := by
    rw [hquotes]
    exact Script.literalsFrom_source hcode 0 none ⟨rfl, by decide⟩
  refine ⟨hagree, fun placeholder header strict => ?_⟩
  unfold convert permissive shield
  dsimp only
  rw [hagree]

/-- A line of plain code, in which a literal of one kind holds a quote of the other kind. -/
def plainLine : Text :=
  "a = \"x'y\"; b('z')".toList

/-- Every quote of `plainLine` lies in one of its two literals. -/
theorem plainLine_covered : ∀ p q, plainLine[p]? = some q → IsQuote q →
    ∃ span ∈ ScannerKind.quotes.scanner plainLine, span.start ≤ p ∧ p < span.stop := by
  have hspans : ScannerKind.quotes.scanner plainLine = [⟨4, 9⟩, ⟨13, 16⟩] := rfl
  have hall : ∀ p : Fin plainLine.length, IsQuote (plainLine.get p) →
      ∃ span ∈ [(⟨4, 9⟩ : Span), ⟨13, 16⟩], span.start ≤ p ∧ p < span.stop := by
    decide
  intro p q hp hq
  obtain ⟨hlt, rfl⟩ := List.getElem?_eq_some_iff.mp hp
  rw [hspans]
  exact hall ⟨p, hlt⟩ hq

/-- Both scanners find two literals in `plainLine`. -/
theorem scanners_agree_on_plainLine :
    ScannerKind.lexemes.scanner plainLine = [⟨4, 9⟩, ⟨13, 16⟩] ∧
    ∀ placeholder header strict,
      convert ⟨placeholder, ScannerKind.lexemes.scanner, header⟩ strict plainLine =
        convert ⟨placeholder, ScannerKind.quotes.scanner, header⟩ strict plainLine := by
  have h := scanners_agree_on_plain_code plainLine (by decide) (by decide) (by decide)
    plainLine_covered
  exact ⟨h.1, h.2⟩

end LabelLoop.Conversion
