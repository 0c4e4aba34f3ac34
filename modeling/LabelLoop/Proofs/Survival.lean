import LabelLoop.Conversion.Basic
import LabelLoop.Proofs.Literals
import LabelLoop.Proofs.Passes

/-!
# Literals survive a conversion

A source is cut into bits, and its shielded text into pieces.  The two cuts fit together
(`Aligned`): no marker begins or ends within a placeholder, though the name of a marker may hold
one.

The name of a marker is written several times by lowering, and once after a low line.  So if it held
a placeholder, or completed one, there would be more placeholders afterwards than there are literals
(`length_literals_add_excess_le`).  If there are not, the lowered text is a covered source again,
with the same literals in the same order (`exists_output`), and the scanner finds in that source
just these literals: every header and every lowered jump breaks the line before any quote could
come nearer to another one.
-/

namespace LabelLoop.Conversion

open Text Marker Lowering Literal

/-! ### The characters of placeholders -/

/-- Placeholders are words, and no marker begins inside of them. -/
theorem placeholder_chars {digits : Text} (hdigits : ∀ d ∈ digits, d.isDigit = true) {c : Char}
    (h : c ∈ '_' :: digits) : isWord c = true ∧ ∀ k : Kind, agrees k.initial c = false := by
  have hall : ∀ c ∈ "_0123456789".toList,
      isWord c = true ∧ agrees '[' c = false ∧ agrees 'g' c = false :=
    forall_mem_of_all (by decide +kernel)
  have hmem : c ∈ "_0123456789".toList := by
    rcases List.mem_cons.mp h with rfl | h
    · decide
    · exact List.mem_cons_of_mem _ (mem_of_isDigit (hdigits c h))
  refine ⟨(hall c hmem).1, fun k => ?_⟩
  cases k with
  | label => exact (hall c hmem).2.1
  | jump => exact (hall c hmem).2.2

theorem underline_not_mem {digits : Text} (hdigits : ∀ d ∈ digits, d.isDigit = true) :
    '_' ∉ digits :=
  fun hmem => absurd (hdigits _ hmem) (by decide)

theorem not_isQuote_of_isWord {c : Char} (h : isWord c = true) : ¬IsQuote c := by
  rintro (rfl | rfl)
  · exact absurd h (by decide)
  · exact absurd h (by decide)

/-! ### Bits and pieces -/

/-- Bits of a source and pieces of its shielded text **fit together**.  In a marker there may be
literals, as part of its name. -/
inductive Aligned (placeholder : Text) : List Bit → List Piece → Prop where
  | nil : Aligned placeholder [] []
  | char (c : Char) {bits : List Bit} {ps : List Piece} (h : Aligned placeholder bits ps) :
      Aligned placeholder (.char c :: bits) (.char c :: ps)
  | literal (l : Text) {bits : List Bit} {ps : List Piece} (h : Aligned placeholder bits ps) :
      Aligned placeholder (.literal l :: bits) (chars placeholder ++ ps)
  | marker {k : Kind} {name : Text} {inside bits : List Bit} {ps : List Piece}
      (hspells : k.form.Spells name (cover placeholder inside)) (h : Aligned placeholder bits ps) :
      Aligned placeholder (inside ++ bits) (.marker k name (cover placeholder inside) :: ps)

/-- Characters at which no marker begins are pieces of their own. -/
theorem exists_chars_append {ps : List Piece} (hcut : Cut ps) {a b : Text}
    (ha : ∀ c ∈ a, ∀ k : Kind, agrees k.initial c = false) (h : written ps = a ++ b) :
    ∃ qs, ps = chars a ++ qs ∧ written qs = b := by
  induction a generalizing ps with
  | nil => exact ⟨ps, rfl, h⟩
  | cons c a ih =>
    cases hcut using Cut.induct with
    | nil => exact absurd h (by simp)
    | char _ hcut _ =>
      obtain ⟨rfl, htail⟩ := List.cons.inj h
      obtain ⟨qs, rfl, hqs⟩ := ih hcut (fun x hx => ha x (List.mem_cons_of_mem _ hx)) htail
      exact ⟨qs, rfl, hqs⟩
    | @marker k _ _ _ hspells _ _ =>
      obtain ⟨_, hkeyword⟩ := k.keyword_eq
      obtain ⟨x, xs, rfl, hagrees⟩ := hspells.agrees_head hkeyword
      obtain ⟨rfl, -⟩ := List.cons.inj h
      rw [ha x List.mem_cons_self k] at hagrees
      exact absurd hagrees Bool.false_ne_true

/-- Bits are cut at every character that is not part of the placeholder. -/
theorem exists_split_cover {placeholder : Text} {c : Char} (hc : c ∉ placeholder) {bits : List Bit}
    {a b : Text} (h : cover placeholder bits = a ++ c :: b) :
    ∃ as bs, bits = as ++ .char c :: bs ∧ cover placeholder as = a ∧ cover placeholder bs = b := by
  induction bits generalizing a with
  | nil => exact absurd h.symm (by simp)
  | cons bit bits ih =>
    cases bit with
    | char x =>
      rw [cover_char] at h
      cases a with
      | nil =>
        obtain ⟨rfl, hb⟩ := List.cons.inj h
        exact ⟨[], bits, rfl, rfl, hb⟩
      | cons y a =>
        obtain ⟨rfl, htail⟩ := List.cons.inj h
        obtain ⟨as, bs, rfl, rfl, hbs⟩ := ih htail
        exact ⟨.char x :: as, bs, rfl, rfl, hbs⟩
    | literal l =>
      obtain ⟨d, rfl, hd⟩ := exists_of_append_eq_append_cons hc h
      obtain ⟨as, bs, rfl, rfl, hbs⟩ := ih hd
      exact ⟨.literal l :: as, bs, rfl, rfl, hbs⟩

/-! ### What lowering adds -/

/-- A lowered marker has its name in two lines, and once after a low line. -/
theorem exists_lowered_eq_name (k : Kind) (name : Text) :
    ∃ a b c, k.lowered name = a ++ (('_' :: name) ++ (b ++ (name ++ c))) ∧ '\n' ∈ b := by
  have hsentinel : "goto_function_".toList = "goto_function".toList ++ ['_'] := rfl
  cases k with
  | label =>
    refine ⟨"var ".toList ++ "goto_function".toList, " = false;\n".toList,
      ": while(!".toList ++ Loop.sentinel name ++ ")\x7b\n ".toList ++ Loop.sentinel name ++
        " = true;\n".toList, ?_, by decide⟩
    unfold Kind.lowered Loop.header Loop.sentinel
    simp only [hsentinel, List.append_assoc, List.cons_append, List.nil_append]
  | jump =>
    refine ⟨"goto_function".toList, " = false;\n continue ".toList, [';'], ?_, by decide⟩
    unfold Kind.lowered Loop.jump Loop.sentinel
    simp only [hsentinel, List.append_assoc, List.cons_append, List.nil_append]

theorem occurrences_lowered (k : Kind) (name needle : Text) :
    occurrences needle name + occurrences needle ('_' :: name) ≤
      occurrences needle (k.lowered name) := by
  obtain ⟨a, b, c, heq, -⟩ := exists_lowered_eq_name k name
  have h1 := occurrences_le_append_right needle a (('_' :: name) ++ (b ++ (name ++ c)))
  have h2 := occurrences_append_le needle ('_' :: name) (b ++ (name ++ c))
  have h3 := occurrences_le_append_right needle b (name ++ c)
  have h4 := occurrences_le_append_left needle name c
  rw [heq]
  omega

theorem newline_mem_lowered (k : Kind) (name : Text) : '\n' ∈ k.lowered name := by
  obtain ⟨a, b, c, heq, hline⟩ := exists_lowered_eq_name k name
  rw [heq]
  simp [hline]

/-- No quote is written. -/
theorem not_isQuote_of_mem_lowered {k : Kind} {name : Text} (hname : ∀ c ∈ name, isWord c = true)
    {c : Char} (hc : c ∈ k.lowered name) : ¬IsQuote c := by
  rcases mem_lowered hc with hc | hc
  · exact not_isQuote_of_isWord (hname c hc)
  · rintro (rfl | rfl)
    · exact absurd hc (by decide)
    · exact absurd hc (by decide)

/-- How many placeholders come in addition when markers are lowered. -/
def excess (placeholder : Text) : List Piece → Nat
  | [] => 0
  | .char _ :: ps => excess placeholder ps
  | .marker _ name _ :: ps => occurrences placeholder ('_' :: name) + excess placeholder ps

theorem excess_chars (placeholder t : Text) (ps : List Piece) :
    excess placeholder (chars t ++ ps) = excess placeholder ps := by
  induction t with
  | nil => rfl
  | cons c t ih => exact ih

section Placeholder

variable {digits : Text} (hdigits : ∀ d ∈ digits, d.isDigit = true)

include hdigits

/-- **The cut of a source and the cut of its shielded text fit together.** -/
theorem aligned_of_cut {ps : List Piece} (hcut : Cut ps) {bits : List Bit}
    (h : written ps = cover ('_' :: digits) bits) : Aligned ('_' :: digits) bits ps := by
  -- a literal covers several pieces and a marker several bits, so the induction is on a length
  induction hlen : bits.length using Nat.strongRecOn generalizing ps bits with
  | _ n ih =>
    cases hcut using Cut.induct with
    | nil =>
      cases bits with
      | nil => exact .nil
      | cons bit bits => cases bit <;> exact absurd h (by simp)
    | @char c ps _ hcut _ =>
      cases bits with
      | nil => exact absurd h (by simp)
      | cons bit bits =>
        have hlt : bits.length < n := by rw [← hlen]; exact Nat.lt_succ_self _
        cases bit with
        | char x =>
          obtain ⟨rfl, htail⟩ := List.cons.inj h
          exact .char c (ih _ hlt hcut htail rfl)
        | literal l =>
          obtain ⟨rfl, htail⟩ := List.cons.inj h
          obtain ⟨qs, rfl, hqs⟩ := exists_chars_append hcut
            (fun d hd => (placeholder_chars hdigits (List.mem_cons_of_mem _ hd)).2) htail
          exact .literal l (ih _ hlt hcut.of_append hqs rfl)
    | @marker k name raw ps hspells hcut _ =>
      -- the marker ends with a character that is not part of a placeholder
      obtain ⟨front, rfl, -⟩ := hspells.eq_append_closer
      have hcloser : k.form.closer ∉ '_' :: digits := by
        intro hmem
        have := (placeholder_chars hdigits hmem).1
        rw [k.proper.closer_not_word] at this
        exact Bool.false_ne_true this
      rw [written_marker, List.append_assoc] at h
      obtain ⟨as, bs, rfl, rfl, hbs⟩ := exists_split_cover hcloser h.symm
      have hinside : cover ('_' :: digits) (as ++ [.char k.form.closer]) =
          cover ('_' :: digits) as ++ [k.form.closer] := cover_append _ _ _
      have hlt : bs.length < n := by
        rw [← hlen, List.length_append, List.length_cons]
        omega
      have hassoc : as ++ .char k.form.closer :: bs = (as ++ [.char k.form.closer]) ++ bs := by simp
      rw [hassoc, ← hinside]
      rw [← hinside] at hspells
      exact .marker hspells (ih _ hlt hcut hbs.symm rfl)

/-! ### More placeholders than literals -/

/-- In a marker, placeholders stand in the name only, and none reaches over its end. -/
theorem occurrences_marker_append {k : Kind} {name raw : Text} (h : k.form.Spells name raw)
    (rest : Text) :
    occurrences ('_' :: digits) (raw ++ rest) =
      occurrences ('_' :: digits) name + occurrences ('_' :: digits) rest := by
  obtain ⟨key, gap, pad, rfl, hkey, ⟨-, hgap⟩, -, hpad⟩ := h
  have hkey' : '_' ∉ key := by
    intro hmem
    have hnone : ∀ p ∈ k.form.keyword, agrees p '_' = false := by
      cases k <;> exact forall_mem_of_all (by decide)
    obtain ⟨p, hp, hagrees⟩ := exists_agrees_of_mem hkey hmem
    exact Bool.false_ne_true ((hnone p hp).symm.trans hagrees)
  have hgap' : '_' ∉ gap := fun hmem => absurd (hgap _ hmem) (by decide)
  have hend : ∀ c ∈ pad ++ [k.form.closer], c ∉ '_' :: digits := by
    intro c hc hmem
    have hword : isWord c = false := by
      rcases List.mem_append.mp hc with hc | hc
      · exact isWord_eq_false_of_isBlank (hpad c hc)
      · rw [List.mem_singleton.mp hc]
        exact k.proper.closer_not_word
    rw [(placeholder_chars hdigits hmem).1] at hword
    exact Bool.false_ne_true hword.symm
  have hassoc : key ++ (gap ++ (name ++ (pad ++ [k.form.closer]))) ++ rest =
      key ++ (gap ++ (name ++ ((pad ++ [k.form.closer]) ++ rest))) := by simp
  rw [hassoc, occurrences_append_of_not_mem hkey', occurrences_append_of_not_mem hgap',
    occurrences_append_append (by simp) hend]

theorem occurrences_marker {k : Kind} {name raw : Text} (h : k.form.Spells name raw) :
    occurrences ('_' :: digits) raw = occurrences ('_' :: digits) name :=
  (congrArg _ (List.append_nil raw).symm).trans (occurrences_marker_append hdigits h [])

/-- **A placeholder in a name, or completed by one, is one too many.** -/
theorem length_literals_add_excess_le {bits : List Bit} {ps : List Piece}
    (h : Aligned ('_' :: digits) bits ps) (pending : List Nat) :
    (literals bits).length + excess ('_' :: digits) ps ≤
      occurrences ('_' :: digits) (sweep pending ps) := by
  have hlow := underline_not_mem hdigits
  induction h generalizing pending with
  | nil => exact Nat.zero_le _
  | @char c bits ps _ ih =>
    refine Nat.le_trans (ih (pendingAfter pending c)) ?_
    exact Nat.le_trans (Nat.le_add_left _ _) (occurrences_le_append_right _ _ (c :: _))
  | @literal l bits ps _ ih =>
    have hplain : Block.Plain ('_' :: digits) :=
      plain_of_isWord fun c hc => (placeholder_chars hdigits hc).1
    rw [sweep_chars hplain, occurrences_placeholder_append hlow, excess_chars,
      literals_literal, List.length_cons]
    have := ih pending
    omega
  | @marker k name inside bits ps hspells _ ih =>
    have hinside := length_literals_le hlow inside
    have hmarker := occurrences_marker hdigits hspells
    have hlowered := occurrences_lowered k name ('_' :: digits)
    have hrest := ih (pendingPast k pending)
    have happend := occurrences_append_le ('_' :: digits) (k.lowered name)
      (sweep (pendingPast k pending) ps)
    rw [sweep, excess, literals_append, List.length_append]
    omega

/-- **The lowered text is a covered source**, and all literals of the source are kept in it. -/
theorem exists_output {bits : List Bit} {ps : List Piece} (h : Aligned ('_' :: digits) bits ps)
    (hexcess : excess ('_' :: digits) ps = 0) (pending : List Nat) :
    ∃ bits', cover ('_' :: digits) bits' = sweep pending ps ∧ Kept bits bits' := by
  have hbraces : ∀ n, ∀ c ∈ List.replicate n '\x7d', ¬IsQuote c := by
    intro n c hc
    rw [List.eq_of_mem_replicate hc]
    rintro (h | h)
    · exact absurd h (by decide)
    · exact absurd h (by decide)
  induction h generalizing pending with
  | nil =>
    refine ⟨bare (List.replicate pending.sum '\x7d') ++ [], ?_, Kept.nil.bare_append (hbraces _)⟩
    rw [cover_bare_append]
    exact List.append_nil _
  | @char c bits ps _ ih =>
    obtain ⟨bits', hcover, hkept⟩ := ih hexcess (pendingAfter pending c)
    refine ⟨bare (List.replicate (dueBefore pending c) '\x7d') ++ .char c :: bits', ?_,
      (hkept.char c).bare_append (hbraces _)⟩
    rw [cover_bare_append, cover_char, hcover, sweep]
  | @literal l bits ps _ ih =>
    rw [excess_chars] at hexcess
    obtain ⟨bits', hcover, hkept⟩ := ih hexcess pending
    have hplain : Block.Plain ('_' :: digits) :=
      plain_of_isWord fun c hc => (placeholder_chars hdigits hc).1
    refine ⟨.literal l :: bits', ?_, hkept.literal l⟩
    rw [cover_literal, hcover, sweep_chars hplain]
  | @marker k name inside bits ps hspells _ ih =>
    rw [excess, Nat.add_eq_zero_iff] at hexcess
    obtain ⟨bits', hcover, hkept⟩ := ih hexcess.2 (pendingPast k pending)
    -- there is no placeholder in the name, and so no literal in the marker
    have hinside : literals inside = [] := by
      have h1 := length_literals_le (underline_not_mem hdigits) inside
      have h2 := occurrences_marker hdigits hspells
      have h3 := occurrences_le_append_right ('_' :: digits) ['_'] name
      rw [List.singleton_append, hexcess.1] at h3
      exact List.eq_nil_of_length_eq_zero (by omega)
    refine ⟨bare (k.lowered name) ++ bits', ?_, ?_⟩
    · rw [cover_bare_append, hcover, sweep]
    · rw [eq_bare_of_literals_eq_nil hinside ('_' :: digits)]
      exact hkept.replace (fun c => not_isQuote_of_mem_lowered hspells.isWord_name)
        (newline_mem_lowered k name) _

end Placeholder

/-! ### Conversions -/

/-- What a conversion says when its text has been lowered. -/
theorem permissive_of_lower {o : Options} {source : Text} {lowered : Lowered}
    (h : lower o.header (shield o.scan o.placeholder source).text = .ok lowered) :
    permissive o source = .ok
      { code := (restore o.placeholder (shield o.scan o.placeholder source).literals
          lowered.code).text
        labels := lowered.labels.map (·.pass.name)
        jumpTargets := lowered.jumpTargets
        literalCount := (shield o.scan o.placeholder source).literals.length
        diagnostics := Diagnostic.ofCollision o.placeholder source ++
          Diagnostic.ofLowered lowered ++
          Diagnostic.ofUnresolved (restore o.placeholder
            (shield o.scan o.placeholder source).literals lowered.code).unresolved } := by
  rw [permissive, h]
  rfl

/-- A conversion that is not strict is a permissive one. -/
theorem convert_false_of_permissive {o : Options} {source : Text} {c : Converted}
    (h : permissive o source = .ok c) : convert o false source = .ok c := by
  rw [convert, h]
  rfl

/-- Nothing is said about placeholders exactly if there is no need to. -/
theorem ofCollision_eq_nil {placeholder source : Text} :
    (∀ d ∈ Diagnostic.ofCollision placeholder source, d.code ≠ .placeholderCollision) ↔
      position? placeholder source = none := by
  rw [Diagnostic.ofCollision]
  cases position? placeholder source with
  | none => simp
  | some n => simp

theorem ofCollision_eq_nil_iff {placeholder source : Text} :
    Diagnostic.ofCollision placeholder source = [] ↔ ¬placeholder <:+: source := by
  rw [← position?_eq_none_iff_absent, Diagnostic.ofCollision]
  cases position? placeholder source with
  | none => simp
  | some n => simp

theorem ofUnresolved_eq_nil {count : Nat} :
    (∀ d ∈ Diagnostic.ofUnresolved count, d.code ≠ .unresolvedPlaceholder) ↔ count = 0 := by
  rw [Diagnostic.ofUnresolved]
  split
  · simp [*]
  · simp [*]

section Placeholder

variable {digits : Text} (hdigits : ∀ d ∈ digits, d.isDigit = true)

include hdigits

/-- Where all placeholders get a literal, restoring gives a source whose literals are those of the
source before. -/
theorem exists_restored {bits : List Bit} (hbits : Scanned bits) {ps : List Piece} (hcut : Cut ps)
    (hps : written ps = cover ('_' :: digits) bits)
    (h : (restore ('_' :: digits) (literals bits) (sweep [] ps)).unresolved = 0) :
    ∃ bits', Scanned bits' ∧ literals bits' = literals bits ∧
      cover ('_' :: digits) bits' = sweep [] ps ∧
      restore ('_' :: digits) (literals bits) (sweep [] ps) = ⟨source bits', 0, 0⟩ ∧
      occurrences ('_' :: digits) (sweep [] ps) ≤ (literals bits).length := by
  have hlow := underline_not_mem hdigits
  have halign := aligned_of_cut hdigits hcut hps
  have hrestore : restore ('_' :: digits) (literals bits) (sweep [] ps) =
      restoreFrom ('_' :: digits) (literals bits) 0 (sweep [] ps) := if_neg (by simp)
  have hcount := occurrences_le hlow (literals bits) (sweep [] ps)
  rw [← hrestore, h, Nat.add_zero] at hcount
  have hexcess : excess ('_' :: digits) ps = 0 := by
    have := length_literals_add_excess_le hdigits halign []
    omega
  obtain ⟨bits', hcover, hkept⟩ := exists_output hdigits halign hexcess []
  refine ⟨bits', hkept.scanned hbits, hkept.literals_eq, hcover, ?_, hcount⟩
  rw [hrestore, ← hcover, ← hkept.literals_eq]
  exact restoreFrom_cover hlow (by rwa [hcover, hkept.literals_eq])

/-- A source without markers and without a placeholder of its own is converted to itself. -/
theorem convert_of_cut_chars {bits : List Bit} (hbits : Scanned bits)
    (hcut : Cut (chars (cover ('_' :: digits) bits)))
    (hcover : occurrences ('_' :: digits) (cover ('_' :: digits) bits) ≤ (literals bits).length)
    (hsource : occurrences ('_' :: digits) (source bits) = 0) (strict : Bool) :
    convert { placeholder := '_' :: digits } strict (source bits) =
      .ok ⟨source bits, [], [], (literals bits).length, []⟩ := by
  have hshield := shield_source hbits ('_' :: digits)
  have hrestore : restore ('_' :: digits) (literals bits) (cover ('_' :: digits) bits) =
      ⟨source bits, 0, 0⟩ :=
    (if_neg (by simp)).trans (restoreFrom_cover (underline_not_mem hdigits) hcover)
  have hcollision : Diagnostic.ofCollision ('_' :: digits) (source bits) = [] := by
    rw [Diagnostic.ofCollision, (position?_eq_none_iff (by simp)).mpr hsource]
  have hlower : lower Loop.header (shield byQuotes ('_' :: digits) (source bits)).text =
      .ok ⟨cover ('_' :: digits) bits, [], []⟩ := by
    rw [hshield]
    exact lower_of_cut_chars hcut
  have hpermissive := permissive_of_lower (o := { placeholder := '_' :: digits }) hlower
  rw [hshield] at hpermissive
  simp only [hrestore, hcollision] at hpermissive
  rw [convert, hpermissive]
  cases strict <;> rfl

end Placeholder

/-- **Literals survive a conversion, and shielding commutes with lowering.**  If nothing is said
about placeholders, shielding the output gives the lowered text of the shielded source and the
literals of the source.  So converting the output once more changes nothing and says nothing. -/
theorem conversion_keeps_literals {digits : Text} (hdigits : ∀ d ∈ digits, d.isDigit = true)
    (source : Text) :
    ∃ c lowered,
      convert { placeholder := '_' :: digits } false source = .ok c ∧
      lower Loop.header (shield byQuotes ('_' :: digits) source).text = .ok lowered ∧
      ((∀ d ∈ c.diagnostics, d.code ≠ .placeholderCollision ∧ d.code ≠ .unresolvedPlaceholder) →
        (shield byQuotes ('_' :: digits) c.code).text = lowered.code ∧
        (shield byQuotes ('_' :: digits) c.code).literals =
          (shield byQuotes ('_' :: digits) source).literals ∧
        ∀ strict, convert { placeholder := '_' :: digits } strict c.code =
          .ok ⟨c.code, [], [], c.literalCount, []⟩) := by
  have hlow := underline_not_mem hdigits
  obtain ⟨bits, hbits, rfl⟩ := exists_scanned source
  obtain ⟨ps, hcut, hps⟩ := exists_cut (cover ('_' :: digits) bits)
  have hshield := shield_source hbits ('_' :: digits)
  obtain ⟨lowered, hlower, hcode⟩ : ∃ lowered,
      lower Loop.header (shield byQuotes ('_' :: digits) (source bits)).text = .ok lowered ∧
        lowered.code = sweep [] ps := by
    rw [hshield, ← hps]
    exact ⟨_, lower_written hcut, rfl⟩
  have hpermissive := permissive_of_lower (o := { placeholder := '_' :: digits }) hlower
  refine ⟨_, lowered, convert_false_of_permissive hpermissive, hlower, fun hsilent => ?_⟩
  have hcollision := ofCollision_eq_nil.mp fun d hd =>
    (hsilent d (List.mem_append_left _ (List.mem_append_left _ hd))).1
  have hunresolved := ofUnresolved_eq_nil.mp fun d hd => (hsilent d (List.mem_append_right _ hd)).2
  rw [position?_eq_none_iff (by simp)] at hcollision
  simp only [hshield, hcode] at hunresolved ⊢
  obtain ⟨bits', hbits', hliterals, hcover, hrestore, hcount⟩ :=
    exists_restored hdigits hbits hcut hps hunresolved
  have hsource : occurrences ('_' :: digits) (source bits') = 0 := by
    refine occurrences_source_eq_zero hlow hbits'
      (fun c hc => not_isQuote_of_isWord (placeholder_chars hdigits hc).1)
      (by rwa [hcover, hliterals]) fun l hl => ?_
    rw [hliterals] at hl
    exact Nat.eq_zero_of_le_zero
      (Nat.le_trans (occurrences_literal_le hl ('_' :: digits)) (Nat.le_of_eq hcollision))
  have hcut' : Cut (chars (cover ('_' :: digits) bits')) := by
    rw [hcover]
    exact (edit_sweep [] ps).cut hcut
  rw [hrestore, shield_source hbits', ← hliterals]
  refine ⟨hcover, rfl, convert_of_cut_chars hdigits hbits' hcut' ?_ hsource⟩
  rwa [hcover, hliterals]

/-- A block with a label, a jump, a literal that reads like a jump, and a literal that ends at an
escaped quote because its line has no other. -/
theorem conversion_keeps_literals_of_block :
    ∃ c, convert { placeholder := "_17".toList } false
        "\x7b[lbl] a: s = \"goto b;\"; 'x\\' + 1\n goto a;\x7d".toList = .ok c ∧
      c.diagnostics = [] ∧
      (shield byQuotes "_17".toList c.code).literals = ["\"goto b;\"".toList, "'x\\'".toList] ∧
      ∀ strict, convert { placeholder := "_17".toList } strict c.code =
        .ok ⟨c.code, [], [], 2, []⟩ := by
  have hdigits : ∀ d ∈ ['1', '7'], d.isDigit = true := forall_mem_of_all (by decide)
  have heval : (convert { placeholder := "_17".toList } false
      "\x7b[lbl] a: s = \"goto b;\"; 'x\\' + 1\n goto a;\x7d".toList).map
        (fun c => (c.diagnostics, c.literalCount)) = .ok ([], 2) := rfl
  obtain ⟨c, lowered, hc, -, hkeeps⟩ := conversion_keeps_literals hdigits
    "\x7b[lbl] a: s = \"goto b;\"; 'x\\' + 1\n goto a;\x7d".toList
  have hparts : (c.diagnostics, c.literalCount) = ([], 2) := by
    refine Except.ok.inj (Eq.trans ?_ heval)
    exact (congrArg (Except.map fun c => (c.diagnostics, c.literalCount)) hc).symm
  obtain ⟨hdiagnostics, hcount⟩ := Prod.mk.inj hparts
  obtain ⟨-, hliterals, hagain⟩ := hkeeps (by rw [hdiagnostics]; simp)
  rw [hcount] at hagain
  exact ⟨c, hc, hdiagnostics, hliterals, hagain⟩

end LabelLoop.Conversion
