import LabelLoop.Proofs.Numerals

/-!
# JSON text is cut into tokens

A word or a number ends where a character stands that cannot belong to it, so a token is only known
to be complete when the next character comes, or the text ends.  `Reads t tokens` takes this into
account: after `t` has been read the tokens are there, the last of them perhaps as a word that can
still be finished.  Such texts can be put together wherever the second begins with a character that
ends a word (`Reads.append_cons`).

A text between quotes is read as the code units that it is written with (`foldlM_jsonChar`), and
these stand for its characters again (`charsOf?_units`): no character of a text is a surrogate, so
only the two halves of one character are taken together.
-/

namespace LabelLoop.Datum

open Text

/-! ### Code units -/

/-- The code units of a character, of sixteen bits each. -/
def unitsOf (c : Char) : List Nat :=
  if c.toNat < 0x10000 then [c.toNat]
  else [0xd800 + (c.toNat - 0x10000) / 0x400, 0xdc00 + (c.toNat - 0x10000) % 0x400]

theorem unitsOf_of_lt {c : Char} (h : c.toNat < 0x10000) : unitsOf c = [c.toNat] :=
  if_pos h

theorem isValidChar_toNat (c : Char) : c.toNat.isValidChar :=
  c.valid

theorem charOf?_toNat (c : Char) : charOf? c.toNat = some c := by
  unfold charOf?
  rw [if_pos (isValidChar_toNat c), Char.ofNat_toNat]

/-- The code units of a character stand for it. -/
theorem charsOf?_unitsOf (after : Text) (c : Char) (units : List Nat) :
    charsOf? after ((unitsOf c).reverse ++ units) = charsOf? (c :: after) units := by
  have hvalid : c.toNat < 0xd800 ∨ 0xdfff < c.toNat ∧ c.toNat < 0x110000 := isValidChar_toNat c
  have hchar := charOf?_toNat c
  unfold unitsOf
  split
  · -- a unit that is no surrogate is not taken together with the one before it
    show charsOf? after (c.toNat :: units) = _
    cases units with
    | nil => exact congrArg (Option.map (· :: after)) hchar
    | cons high units =>
      rw [charsOf?, if_neg (by simp; omega), hchar]
      rfl
  · have hpair : 0x10000 + (0xd800 + (c.toNat - 0x10000) / 0x400 - 0xd800) * 0x400 +
        (0xdc00 + (c.toNat - 0x10000) % 0x400 - 0xdc00) = c.toNat := by omega
    show charsOf? after (_ :: _ :: units) = _
    rw [charsOf?, if_pos (by simp; omega), hpair, hchar]
    rfl

/-- **The code units of a text stand for the text.** -/
theorem charsOf?_units (t after : Text) (units : List Nat) :
    charsOf? after ((t.flatMap unitsOf).reverse ++ units) = charsOf? (t ++ after) units := by
  induction t generalizing units with
  | nil => rfl
  | cons c t ih =>
    rw [List.flatMap_cons, List.reverse_append, List.append_assoc, ih, charsOf?_unitsOf]
    rfl

/-! ### Escapes -/

theorem hexDigit?_digitChar : ∀ n < 16, hexDigit? n.digitChar = some n := by
  decide

/-- One more hexadecimal digit. -/
theorem hex_succ (w n : Nat) : hex (w + 2) n = hex (w + 1) (n / 16) ++ [(n % 16).digitChar] := by
  unfold hex
  dsimp only
  by_cases h : n < 16
  · rw [Nat.toDigits_of_lt_base h, Nat.div_eq_of_lt h, Nat.mod_eq_of_lt h, Nat.toDigits_zero]
    show List.replicate (w + 1) '0' ++ _ = List.replicate w '0' ++ ['0'] ++ _
    rw [List.replicate_succ']
  · have hpad (k : Nat) : w + 2 - (k + 1) = w + 1 - k := by omega
    rw [Nat.toDigits_of_base_le (by decide) (Nat.le_of_not_lt h), List.length_append,
      List.length_singleton, hpad, List.append_assoc]

/-- A code unit in four hexadecimal digits. -/
theorem hex_four {n : Nat} (h : n < 0x10000) :
    hex 4 n = [(n / 4096).digitChar, (n / 256 % 16).digitChar, (n / 16 % 16).digitChar,
      (n % 16).digitChar] := by
  have hone : hex 1 (n / 4096) = [(n / 4096).digitChar] := by
    rw [hex, Nat.toDigits_of_lt_base (by omega)]
    rfl
  have h₂ : n / 16 / 16 = n / 256 := by omega
  have h₃ : n / 256 / 16 = n / 4096 := by omega
  rw [hex_succ 2, hex_succ 1, hex_succ 0, h₂, h₃, hone]
  rfl

/-- A digit of an escape that is not the last one. -/
theorem step_digits {c : Char} {d : Nat} (h : hexDigit? c = some d) (tokens : List Token)
    (units : List Nat) (value missing : Nat) :
    Lexing.step ⟨tokens, .digits units value (missing + 2)⟩ c =
      some ⟨tokens, .digits units (value * 16 + d) (missing + 1)⟩ := by
  simp [Lexing.step, h]

/-- The last digit of an escape. -/
theorem step_lastDigit {c : Char} {d : Nat} (h : hexDigit? c = some d) (tokens : List Token)
    (units : List Nat) (value : Nat) :
    Lexing.step ⟨tokens, .digits units value 1⟩ c =
      some ⟨tokens, .text ((value * 16 + d) :: units)⟩ := by
  simp [Lexing.step, h]

/-- An escaped code unit is read as that unit. -/
theorem foldlM_escapedUnit {n : Nat} (h : n < 0x10000) (tokens : List Token) (units : List Nat) :
    (escapedUnit n).foldlM Lexing.step ⟨tokens, .text units⟩ =
      some ⟨tokens, .text (n :: units)⟩ := by
  have hvalue :
      (((0 * 16 + n / 4096) * 16 + n / 256 % 16) * 16 + n / 16 % 16) * 16 + n % 16 = n := by
    omega
  have hbegin : Lexing.step ⟨tokens, .text units⟩ '\\' = some ⟨tokens, .escape units⟩ := rfl
  have hmark : Lexing.step ⟨tokens, .escape units⟩ 'u' = some ⟨tokens, .digits units 0 4⟩ := rfl
  rw [escapedUnit, hex_four h]
  simp only [List.foldlM_cons, List.foldlM_nil, Option.bind_eq_bind, Option.bind_some, hbegin,
    hmark, step_digits (hexDigit?_digitChar (n / 4096) (by omega)),
    step_digits (hexDigit?_digitChar (n / 256 % 16) (by omega)),
    step_digits (hexDigit?_digitChar (n / 16 % 16) (by omega)),
    step_lastDigit (hexDigit?_digitChar (n % 16) (by omega)), hvalue]
  rfl

theorem foldlM_escapedUnits {high low : Nat} (hhigh : high < 0x10000) (hlow : low < 0x10000)
    (tokens : List Token) (units : List Nat) :
    (escapedUnit high ++ escapedUnit low).foldlM Lexing.step ⟨tokens, .text units⟩ =
      some ⟨tokens, .text ([high, low].reverse ++ units)⟩ := by
  rw [List.foldlM_append, foldlM_escapedUnit hhigh]
  exact foldlM_escapedUnit hlow tokens _

/-- A character that is escaped by a letter is read as its code. -/
theorem foldlM_letter {letter : Char} {n : Nat} (hletter : letter ≠ 'u')
    (h : (escaped? letter).map Char.toNat = some n) (tokens : List Token) (units : List Nat) :
    ['\\', letter].foldlM Lexing.step ⟨tokens, .text units⟩ =
      some ⟨tokens, .text (n :: units)⟩ := by
  obtain ⟨e, he, rfl⟩ := Option.map_eq_some_iff.mp h
  have hbegin : Lexing.step ⟨tokens, .text units⟩ '\\' = some ⟨tokens, .escape units⟩ := rfl
  have hend : Lexing.step ⟨tokens, .escape units⟩ letter =
      some ⟨tokens, .text (e.toNat :: units)⟩ := by
    simp [Lexing.step, hletter, he]
  simp only [List.foldlM_cons, List.foldlM_nil, Option.bind_eq_bind, Option.bind_some, hbegin, hend]
  rfl

/-- **The forms in which a character is written.** -/
inductive Form (c : Char) : Text → Prop where
  /-- A letter after a backslash. -/
  | letter {letter : Char} (hletter : letter ≠ 'u') (hlt : c.toNat < 0x10000)
    (hescaped : (escaped? letter).map Char.toNat = some c.toNat) : Form c ['\\', letter]
  /-- The character itself. -/
  | plain (hle : 0x20 ≤ c.toNat) (hlt : c.toNat < 0x7f) (hquote : c ≠ '"')
    (hbackslash : c ≠ '\\') : Form c [c]
  | unit (hlt : c.toNat < 0x10000) : Form c (escapedUnit c.toNat)
  | pair {high low : Nat} (hunits : unitsOf c = [high, low]) (hhigh : high < 0x10000)
    (hlow : low < 0x10000) : Form c (escapedUnit high ++ escapedUnit low)

theorem form_jsonChar (c : Char) : Form c (jsonChar c) := by
  have hvalid : c.toNat < 0xd800 ∨ 0xdfff < c.toNat ∧ c.toNat < 0x110000 := isValidChar_toNat c
  unfold jsonChar
  dsimp only
  split_ifs with hquote hnewline hreturn htab hback hfeed hprint hplane
  · rcases (by simpa using hquote : c = '"' ∨ c = '\\') with rfl | rfl
    · exact .letter (by decide) (by decide) rfl
    · exact .letter (by decide) (by decide) rfl
  · subst hnewline
    exact .letter (by decide) (by decide) rfl
  · subst hreturn
    exact .letter (by decide) (by decide) rfl
  · subst htab
    exact .letter (by decide) (by decide) rfl
  · exact .letter (by decide) (by omega) (by rw [hback]; rfl)
  · exact .letter (by decide) (by omega) (by rw [hfeed]; rfl)
  · have hbounds : 0x20 ≤ c.toNat ∧ c.toNat < 0x7f := by simpa using hprint
    have hne : c ≠ '"' ∧ c ≠ '\\' := by simpa using hquote
    exact .plain hbounds.1 hbounds.2 hne.1 hne.2
  · exact .unit hplane
  · exact .pair (if_neg hplane) (by omega) (by omega)

/-- **A character is read as its code units**, in whatever form it is written. -/
theorem foldlM_jsonChar (c : Char) (tokens : List Token) (units : List Nat) :
    (jsonChar c).foldlM Lexing.step ⟨tokens, .text units⟩ =
      some ⟨tokens, .text ((unitsOf c).reverse ++ units)⟩ := by
  have hform := form_jsonChar c
  generalize jsonChar c = t at hform ⊢
  cases hform with
  | letter hletter hlt hescaped =>
    rw [unitsOf_of_lt hlt]
    exact foldlM_letter hletter hescaped tokens units
  | plain hle hlt hquote hbackslash =>
    rw [unitsOf_of_lt (by omega)]
    simp [Lexing.step, hquote, hbackslash, hle]
  | unit hlt =>
    rw [unitsOf_of_lt hlt]
    exact foldlM_escapedUnit hlt tokens units
  | pair hunits hhigh hlow =>
    rw [hunits]
    exact foldlM_escapedUnits hhigh hlow tokens units

theorem foldlM_flatMap_jsonChar (t : Text) (tokens : List Token) (units : List Nat) :
    (t.flatMap jsonChar).foldlM Lexing.step ⟨tokens, .text units⟩ =
      some ⟨tokens, .text ((t.flatMap unitsOf).reverse ++ units)⟩ := by
  induction t generalizing units with
  | nil => rfl
  | cons c t ih =>
    rw [List.flatMap_cons, List.foldlM_append, foldlM_jsonChar, List.flatMap_cons,
      List.reverse_append, List.append_assoc]
    exact ih _

/-! ### Tokens -/

/-- The tokens that have been read, from the last to the first, if the text can end here. -/
def Lexing.finished? : Lexing → Option (List Token)
  | ⟨tokens, .between⟩ => some tokens
  | ⟨tokens, .word read⟩ => (wordOf? read.reverse).map (.scalar · :: tokens)
  | _ => none

/-- **The text `t` is cut into `tokens`**, whatever has been read before it; its end can be the end
of a word. -/
def Reads (t : Text) (tokens : List Token) : Prop :=
  ∀ prior, ∃ s, t.foldlM Lexing.step ⟨prior, .between⟩ = some s ∧
    s.finished? = some (tokens.reverse ++ prior)

theorem Reads.tokens? {t : Text} {tokens : List Token} (h : Reads t tokens) :
    tokens? t = some tokens := by
  obtain ⟨⟨before, mode⟩, hs, hfinished⟩ := h []
  rw [List.append_nil] at hfinished
  unfold Datum.tokens?
  rw [hs]
  cases mode with
  | between =>
    obtain rfl := Option.some.inj hfinished
    exact congrArg some tokens.reverse_reverse
  | word read =>
    obtain ⟨d, hd, heq⟩ := Option.map_eq_some_iff.mp hfinished
    show (wordOf? read.reverse).map _ = _
    rw [hd, Option.map_some, heq, List.reverse_reverse]
  | text | escape | digits => simp [Lexing.finished?] at hfinished

theorem reads_nil : Reads [] [] :=
  fun prior => ⟨⟨prior, .between⟩, rfl, rfl⟩

/-- A character that cannot belong to a word ends it. -/
theorem step_of_finished? {s : Lexing} {tokens : List Token} (h : s.finished? = some tokens)
    {c : Char} (hc : isWordChar c = false) : s.step c = beginToken? tokens c := by
  obtain ⟨before, mode⟩ := s
  cases mode with
  | between =>
    obtain rfl := Option.some.inj h
    rfl
  | word read =>
    obtain ⟨d, hd, rfl⟩ := Option.map_eq_some_iff.mp h
    show (if isWordChar c = true then _ else _) = _
    rw [hc, if_neg Bool.false_ne_true, hd]
    rfl
  | text | escape | digits => simp [Lexing.finished?] at h

/-- **Texts can be put together** if the second begins with a character that ends a word. -/
theorem Reads.append_cons {t u : Text} {c : Char} {a b : List Token} (ht : Reads t a)
    (hc : isWordChar c = false) (hu : Reads (c :: u) b) : Reads (t ++ c :: u) (a ++ b) := by
  intro prior
  obtain ⟨s, hs, hfinished⟩ := ht prior
  obtain ⟨s', hs', hfinished'⟩ := hu (a.reverse ++ prior)
  refine ⟨s', ?_, ?_⟩
  · -- the state after `t` and the state between its tokens and those of `u` go on alike
    rw [List.foldlM_append, hs]
    show (s.step c).bind _ = _
    rw [step_of_finished? hfinished hc]
    exact hs'
  · rw [hfinished', List.reverse_append, List.append_assoc]

/-- A mark is a token of its own. -/
theorem Reads.mark {c : Char} {token : Token}
    (hc : ∀ tokens, beginToken? tokens c = some ⟨token :: tokens, .between⟩) {u : Text}
    {b : List Token} (hu : Reads u b) : Reads (c :: u) (token :: b) := by
  intro prior
  obtain ⟨s, hs, hfinished⟩ := hu (token :: prior)
  refine ⟨s, ?_, ?_⟩
  · show (beginToken? prior c).bind _ = _
    rw [hc]
    exact hs
  · rw [hfinished, List.reverse_cons, List.append_assoc]
    rfl

theorem Reads.space {u : Text} {b : List Token} (hu : Reads u b) : Reads (' ' :: u) b :=
  hu

theorem beginToken?_of_isWordChar {c : Char} (hc : isWordChar c = true) (tokens : List Token) :
    beginToken? tokens c = some ⟨tokens, .word [c]⟩ := by
  have hne (x : Char) (hx : isWordChar x = false) : c ≠ x := by
    rintro rfl
    exact Bool.noConfusion (hc.symm.trans hx)
  have hblank : (decide (c = ' ') || decide (c = '\n') || decide (c = '\r') ||
      decide (c = '\t')) = false := by
    simp [hne ' ' (by decide), hne '\n' (by decide), hne '\r' (by decide), hne '\t' (by decide)]
  unfold beginToken?
  rw [hblank, if_neg Bool.false_ne_true, if_neg (hne '"' (by decide)), if_pos hc]

/-- A word is read until it ends. -/
theorem foldlM_word {t : Text} (h : ∀ c ∈ t, isWordChar c = true) (tokens : List Token)
    (read : Text) :
    t.foldlM Lexing.step ⟨tokens, .word read⟩ = some ⟨tokens, .word (t.reverse ++ read)⟩ := by
  induction t generalizing read with
  | nil => rfl
  | cons c t ih =>
    obtain ⟨hc, ht⟩ := List.forall_mem_cons.mp h
    have hstep : Lexing.step ⟨tokens, .word read⟩ c = some ⟨tokens, .word (c :: read)⟩ := if_pos hc
    rw [List.foldlM_cons, hstep, List.reverse_cons, List.append_assoc]
    exact ih ht (c :: read)

/-- A word is one token. -/
theorem Spells.reads {t : Text} {d : Datum} (h : Spells t d) : Reads t [.scalar d] := by
  intro prior
  cases t with
  | nil =>
    have hnil : Datum.wordOf? [] = none := rfl
    exact absurd (hnil.symm.trans h.wordOf?) (by simp)
  | cons c t =>
    obtain ⟨hc, ht⟩ := List.forall_mem_cons.mp h.isWordChar
    have hbegin : Lexing.step ⟨prior, .between⟩ c = some ⟨prior, .word [c]⟩ :=
      beginToken?_of_isWordChar hc prior
    refine ⟨⟨prior, .word (t.reverse ++ [c])⟩, ?_, ?_⟩
    · rw [List.foldlM_cons, hbegin]
      exact foldlM_word ht prior [c]
    · rw [Lexing.finished?, ← List.reverse_cons, List.reverse_reverse, h.wordOf?]
      rfl

/-- A text between quotes is one token. -/
theorem reads_jsonText (t : Text) : Reads (jsonText t) [.scalar (.text t)] := by
  intro prior
  refine ⟨⟨.scalar (.text t) :: prior, .between⟩, ?_, rfl⟩
  have hunits := charsOf?_units t [] []
  rw [List.append_nil, List.append_nil] at hunits
  have hopen : Lexing.step ⟨prior, .between⟩ '"' = some ⟨prior, .text []⟩ := rfl
  have hclose : Lexing.step ⟨prior, .text (t.flatMap unitsOf).reverse⟩ '"' =
      some ⟨.scalar (.text t) :: prior, .between⟩ := by
    show (charsOf? [] _).map _ = _
    rw [hunits]
    rfl
  have hbody := foldlM_flatMap_jsonChar t prior []
  rw [List.append_nil] at hbody
  rw [jsonText, List.cons_append, List.foldlM_cons, hopen]
  show ((t.flatMap jsonChar) ++ ['"']).foldlM Lexing.step _ = _
  rw [List.foldlM_append, hbody]
  show (Lexing.step _ '"').bind _ = _
  rw [hclose]
  rfl

end LabelLoop.Datum
