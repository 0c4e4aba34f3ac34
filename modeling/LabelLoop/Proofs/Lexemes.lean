import LabelLoop.Proofs.Literals
import LabelLoop.Proofs.Markers
import LabelLoop.Script.Lexer

/-!
# Lexemes and quotes

In plain code, without slashes, backslashes and backticks, quotes belong to string literals alone.
No other lexeme takes a quote with it (`Quoteless`), for every kind of lexeme, and at a quote no
other lexeme begins.
-/

namespace LabelLoop.Script

open Text Literal

/-! ### Stretches without quotes -/

/-- The first `n` characters of a text are **no quotes**. -/
def Quoteless (n : Nat) (t : Text) : Prop :=
  ∀ c ∈ t.take n, ¬IsQuote c

theorem quoteless_zero (t : Text) : Quoteless 0 t := by
  intro c hc
  exact absurd hc (by simp)

theorem quoteless_succ_cons {n : Nat} {c : Char} {t : Text} :
    Quoteless (n + 1) (c :: t) ↔ ¬IsQuote c ∧ Quoteless n t := by
  unfold Quoteless
  rw [List.take_succ_cons, List.forall_mem_cons]

/-- One stretch after another. -/
theorem quoteless_add {m n : Nat} {t : Text} :
    Quoteless (m + n) t ↔ Quoteless m t ∧ Quoteless n (t.drop m) := by
  unfold Quoteless
  rw [List.take_add, List.forall_mem_append]

theorem quoteless_one {c : Char} (h : ¬IsQuote c) (t : Text) : Quoteless 1 (c :: t) :=
  quoteless_succ_cons.mpr ⟨h, quoteless_zero t⟩

/-- A class of characters that both quotes are outside of. -/
theorem not_isQuote_of_class {p : Char → Bool} (hdouble : p '"' = false) (hsingle : p '\'' = false)
    {c : Char} (h : p c = true) : ¬IsQuote c := by
  rintro (rfl | rfl)
  · exact Bool.false_ne_true (hdouble.symm.trans h)
  · exact Bool.false_ne_true (hsingle.symm.trans h)

/-- A run of characters of such a class. -/
theorem quoteless_takeWhile {p : Char → Bool} (hdouble : p '"' = false) (hsingle : p '\'' = false)
    (t : Text) : Quoteless (t.takeWhile p).length t := by
  intro c hc
  have hrun : t.take (t.takeWhile p).length = t.takeWhile p :=
    (List.prefix_iff_eq_take.mp (List.takeWhile_prefix p)).symm
  rw [hrun] at hc
  exact not_isQuote_of_class hdouble hsingle (List.mem_takeWhile_imp hc)

/-- A given text that holds none. -/
theorem quoteless_of_beginsWith {a t : Text} (ha : a.all (fun c => decide ¬IsQuote c) = true)
    (h : beginsWith t a = true) : Quoteless a.length t := by
  obtain ⟨rest, rfl⟩ := beginsWith_iff.mp h
  intro c hc
  rw [List.take_left] at hc
  exact forall_mem_of_all ha c hc

/-- Plain code begins with no text that holds a slash. -/
theorem beginsWith_eq_false_of_mem {c : Char} {a t : Text} (ha : c ∈ a) (ht : c ∉ t) :
    beginsWith t a = false := by
  by_contra hbegins
  rw [Bool.not_eq_false] at hbegins
  obtain ⟨rest, rfl⟩ := beginsWith_iff.mp hbegins
  exact ht (List.mem_append_left _ ha)

/-! ### White space and numbers -/

theorem quoteless_trivia? {t : Text} {n : Nat} (hslash : '/' ∉ t) (h : trivia? t = some n) :
    Quoteless n t := by
  unfold trivia? at h
  dsimp only at h
  split_ifs at h with hblank hmark hline
  · obtain rfl := Option.some.inj h
    exact quoteless_takeWhile (by decide) (by decide) t
  · obtain rfl := Option.some.inj h
    exact quoteless_of_beginsWith (by decide) hmark
  · rw [beginsWith_eq_false_of_mem (c := '/') (by decide) hslash] at hline
    exact absurd hline Bool.false_ne_true
  · split at h
    · exact absurd h (by simp)
    · rename_i rest hafter
      rw [List.isPrefixOf?_eq_some_iff_append_eq] at hafter
      exact absurd (hafter ▸ List.mem_append_left _ (by decide)) hslash

theorem quoteless_wholeDigits? {digit : Char → Bool} (hdouble : digit '"' = false)
    (hsingle : digit '\'' = false) {t : Text} {n : Nat} (h : wholeDigits? digit t = some n) :
    Quoteless n t := by
  have hdigits := quoteless_takeWhile hdouble hsingle t
  unfold wholeDigits? at h
  dsimp only at h
  split_ifs at h with hnone hbig
  · obtain rfl := Option.some.inj h
    exact quoteless_add.mpr ⟨hdigits, quoteless_of_beginsWith (by decide) hbig⟩
  · obtain rfl := Option.some.inj h
    exact hdigits

/-- A number with a sign of its base, of one or two characters, in front of its digits. -/
theorem quoteless_basedNumber? {t : Text} {n : Nat} (h : basedNumber? t = some n) :
    Quoteless n t := by
  unfold basedNumber? at h
  split at h
  case h_8 => exact absurd h (by simp)
  case h_7 =>
    obtain ⟨k, hk, rfl⟩ := Option.map_eq_some_iff.mp h
    exact quoteless_succ_cons.mpr ⟨by decide, quoteless_wholeDigits? (by decide) (by decide) hk⟩
  all_goals
    obtain ⟨k, hk, rfl⟩ := Option.map_eq_some_iff.mp h
    refine quoteless_succ_cons.mpr ⟨by decide, quoteless_succ_cons.mpr ⟨by decide, ?_⟩⟩
    exact quoteless_wholeDigits? (by decide) (by decide) hk

theorem quoteless_exponentLength (t : Text) : Quoteless (exponentLength t) t := by
  unfold exponentLength
  split
  · rename_i e t
    split
    · rename_i hmark
      have he : ¬IsQuote e := not_isQuote_of_class
        (p := fun c => decide (c = 'e') || decide (c = 'E')) (by decide) (by decide) hmark
      have hsign : Quoteless (if beginsWith t ['-'] || beginsWith t ['+'] then 1 else 0) t := by
        split
        · rename_i hsign
          rcases Bool.or_eq_true_iff.mp hsign with hsign | hsign
          · exact quoteless_of_beginsWith (by decide) hsign
          · exact quoteless_of_beginsWith (by decide) hsign
        · exact quoteless_zero t
      extract_lets sign digits
      change Quoteless sign t at hsign
      split
      · exact quoteless_zero _
      · rw [Nat.add_assoc, quoteless_add]
        exact ⟨quoteless_one he t,
          quoteless_add.mpr ⟨hsign, quoteless_takeWhile (by decide) (by decide) _⟩⟩
    · exact quoteless_zero _
  · exact quoteless_zero _

theorem quoteless_decimalNumber? {t : Text} {n : Nat} (h : decimalNumber? t = some n) :
    Quoteless n t := by
  unfold decimalNumber? at h
  extract_lets whole fraction point mantissa at h
  have hwhole : Quoteless whole t := quoteless_takeWhile (by decide) (by decide) t
  have hmantissa : Quoteless mantissa t := by
    unfold mantissa
    split
    · rename_i hpoint
      refine quoteless_add.mpr ⟨quoteless_add.mpr ⟨hwhole, ?_⟩, ?_⟩
      · exact quoteless_of_beginsWith (by decide) (Bool.and_eq_true_iff.mp hpoint).1
      · exact quoteless_takeWhile (by decide) (by decide) _
    · exact hwhole
  split at h
  · exact absurd h (by simp)
  · obtain rfl := Option.some.inj h
    exact quoteless_add.mpr ⟨hmantissa, quoteless_exponentLength _⟩

theorem quoteless_number? {t : Text} {n : Nat} (h : number? t = some n) : Quoteless n t := by
  unfold number? at h
  split at h
  · rename_i hbased
    obtain rfl := Option.some.inj h
    exact quoteless_basedNumber? hbased
  · dsimp only at h
    split at h
    · rename_i hbig
      obtain rfl := Option.some.inj h
      exact quoteless_add.mpr ⟨quoteless_takeWhile (by decide) (by decide) t,
        quoteless_of_beginsWith (by decide) (Bool.and_eq_true_iff.mp hbig).2⟩
    · exact quoteless_decimalNumber? h

/-! ### Signs -/

/-- The signs hold no quotes. -/
def quotelessSigns (signs : List Text) : Bool :=
  signs.all fun sign => sign.all fun c => decide ¬IsQuote c

theorem quoteless_of_find? {signs : List Text} (hsigns : quotelessSigns signs = true)
    {t sign : Text} (h : signs.find? (beginsWith t) = some sign) : Quoteless sign.length t := by
  have hmem := List.mem_of_find?_eq_some h
  exact quoteless_of_beginsWith (List.all_eq_true.mp hsigns sign hmem) (List.find?_some h)

theorem quoteless_assignable? {signs : List Text} (hsigns : quotelessSigns signs = true) {t : Text}
    {n : Nat} (h : assignable? signs t = some n) : Quoteless n t := by
  unfold assignable? at h
  split at h
  · exact absurd h (by simp)
  · rename_i sign hfind
    have hsign := quoteless_of_find? hsigns hfind
    obtain rfl := Option.some.inj h
    split
    · rename_i hequals
      exact quoteless_add.mpr ⟨hsign, quoteless_of_beginsWith (by decide) hequals⟩
    · exact hsign

theorem quoteless_operator? {t : Text} {n : Nat} (hbackslash : '\\' ∉ t)
    (h : operator? t = some n) : Quoteless n t := by
  unfold operator? at h
  split at h
  · rename_i sign hfind
    obtain rfl := Option.some.inj h
    exact quoteless_of_find? (by decide) hfind
  · split_ifs at h with hdouble hone
    · exact quoteless_assignable? (by decide) h
    · obtain rfl := Option.some.inj h
      rw [beginsWith_eq_false_of_mem (a := ['\\', '\n']) (by decide) hbackslash, Bool.or_false,
        Bool.or_eq_true] at hone
      rcases hone with hone | hone
      · exact quoteless_of_beginsWith (by decide) hone
      · exact quoteless_of_beginsWith (by decide) hone
    · exact quoteless_assignable? (by decide) h

theorem quoteless_joiner? {t : Text} {n : Nat} (h : joiner? t = some n) : Quoteless n t := by
  unfold joiner? at h
  split_ifs at h with hspread harrow
  · obtain rfl := Option.some.inj h
    exact quoteless_of_beginsWith (by decide) hspread
  · obtain rfl := Option.some.inj h
    exact quoteless_of_beginsWith (by decide) harrow

/-! ### Words -/

theorem quoteless_definedName? {t : Text} {n : Nat} (h : definedName? t = some n) :
    Quoteless n t := by
  unfold definedName? at h
  split at h
  · exact absurd h (by simp)
  · dsimp only at h
    split at h
    · obtain rfl := Option.some.inj h
      exact quoteless_takeWhile (by decide) (by decide) _
    · exact absurd h (by simp)

/-- No escape begins but at a backslash. -/
theorem escapedUnit_eq_false {c : Char} (h : c ≠ '\\') (t : Text) :
    escapedUnit (c :: t) = false := by
  unfold escapedUnit
  have hbegins : beginsWith (c :: t) ['\\', 'u'] = false := by
    rw [beginsWith_cons_cons, beq_false_of_ne h.symm]
    rfl
  rw [hbegins]
  rfl

theorem quoteless_identifierRest {t : Text} (hbackslash : '\\' ∉ t) :
    Quoteless (identifierRest 0 t) t := by
  induction t with
  | nil => exact quoteless_zero _
  | cons c t ih =>
    rw [List.mem_cons, not_or] at hbackslash
    rw [identifierRest]
    split
    · rename_i hpart
      have hc : ¬IsQuote c := not_isQuote_of_class
        (p := fun c => decide (c = '$') || isLetter c || isMark c || decide (c = '\u200c') ||
          decide (c = '\u200d')) (by decide) (by decide) hpart
      rw [Nat.add_comm]
      exact quoteless_succ_cons.mpr ⟨hc, ih hbackslash.2⟩
    · rw [escapedUnit_eq_false (Ne.symm hbackslash.1)]
      exact quoteless_zero _

theorem quoteless_identifier? {t : Text} {n : Nat} (hbackslash : '\\' ∉ t)
    (h : identifier? t = some n) : Quoteless n t := by
  unfold identifier? at h
  split at h
  · exact absurd h (by simp)
  · rename_i c t
    rw [List.mem_cons, not_or] at hbackslash
    rw [escapedUnit_eq_false (Ne.symm hbackslash.1)] at h
    split at h
    · rename_i hstart
      have hc : ¬IsQuote c := not_isQuote_of_class
        (p := fun c => decide (c = '$') || decide (c = '_') || isLetter c) (by decide) (by decide)
        hstart
      obtain rfl := Option.some.inj h
      rw [Nat.add_comm]
      exact quoteless_succ_cons.mpr ⟨hc, quoteless_identifierRest hbackslash.2⟩
    · exact absurd h (by simp)

theorem quoteless_privateName? {t : Text} {n : Nat} (h : privateName? t = some n) :
    Quoteless n t := by
  unfold privateName? at h
  split at h
  · rename_i c t
    split at h
    · rename_i hstart
      have hc : ¬IsQuote c := not_isQuote_of_class
        (p := fun c => isAsciiLetter c || decide (c = '_')) (by decide) (by decide) hstart
      obtain rfl := Option.some.inj h
      rw [Nat.add_comm]
      refine quoteless_succ_cons.mpr ⟨by decide, quoteless_succ_cons.mpr ⟨hc, ?_⟩⟩
      exact quoteless_takeWhile (by decide) (by decide) t
    · exact absurd h (by simp)
  · exact absurd h (by simp)

theorem quoteless_wordStep? {frames : List Frame} {prev : Option Char} {t : Text} {s : Step}
    (hbackslash : '\\' ∉ t) (h : wordStep? frames prev t = some s) : Quoteless s.length t := by
  have hword : Quoteless (t.takeWhile isWord).length t :=
    quoteless_takeWhile (by decide) (by decide) t
  unfold wordStep? at h
  dsimp only at h
  split_ifs at h
  · obtain rfl := Option.some.inj h
    exact hword
  · obtain rfl := Option.some.inj h
    exact hword
  · split at h
    · rename_i hname
      obtain rfl := Option.some.inj h
      exact quoteless_definedName? hname
    · obtain ⟨k, hk, rfl⟩ := Option.map_eq_some_iff.mp h
      exact quoteless_identifier? hbackslash hk

end LabelLoop.Script
