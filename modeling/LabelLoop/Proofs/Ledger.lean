import LabelLoop.Proofs.RoundTrip
import LabelLoop.Proofs.Verdict

/-!
# The ledger of literals

A placeholder is a word, and so it may become part of the name of a marker, which lowering writes
several times; and a name of digits may become a placeholder when it is written after a low line.
This is all that can happen to placeholders on the way (`occurrences_sweep`), and it can be counted
exactly: a jump writes its name once more than its marker does, and a label three times, each time
after a low line.

In a shielded text every placeholder stands for a literal (`exists_literal_of_cover_eq`), and
restoring writes the literals into the first placeholders that it meets.  So no literal is left
over, and the placeholders without a literal are just those that lowering has added
(`restoration_ledger_is_exact`).
-/

namespace LabelLoop.Literal

open Text

/-! ### Placeholders of a shielded text -/

section Placeholder

variable {digits : Text} (hdigits : '_' ∉ digits)

include hdigits

/-- **There are as many placeholders as literals** in a shielded text. -/
theorem occurrences_cover {bits : List Bit} (h : ¬('_' :: digits) <:+: source bits) :
    occurrences ('_' :: digits) (cover ('_' :: digits) bits) = (literals bits).length := by
  induction bits with
  | nil => rfl
  | cons bit bits ih =>
    cases bit with
    | char c =>
      have hbegin := beginsWith_cover_eq_false (unbordered_cons hdigits) h
      rw [cover_char, occurrences, if_neg hbegin, Nat.zero_add, literals_char]
      exact ih fun hin => h (List.infix_cons hin)
    | literal l =>
      rw [cover_literal, occurrences_placeholder_append hdigits, literals_literal,
        List.length_cons, Nat.add_comm,
        ih fun hin => h (hin.trans (List.suffix_append _ _).isInfix)]

theorem occurrences_shield {scan : Scanner} {source : Text} (htidy : Tidy source (scan source))
    (h : ¬('_' :: digits) <:+: source) :
    occurrences ('_' :: digits) (shield scan ('_' :: digits) source).text =
      (shield scan ('_' :: digits) source).literals.length := by
  obtain ⟨bits, rfl, hspans⟩ := exists_bits_of_scan htidy
  rw [shield_of_spans hspans]
  exact occurrences_cover hdigits h

/-- **Every placeholder stands for a literal** in a shielded text. -/
theorem exists_literal_of_cover_eq {bits : List Bit} (h : ¬('_' :: digits) <:+: source bits)
    {a b : Text} (heq : cover ('_' :: digits) bits = a ++ ('_' :: digits ++ b)) :
    ∃ before l after, bits = before ++ .literal l :: after ∧ cover ('_' :: digits) before = a := by
  induction bits generalizing a with
  | nil => exact absurd heq.symm (by simp)
  | cons bit bits ih =>
    cases bit with
    | char c =>
      cases a with
      | nil =>
        have hbegin := beginsWith_cover_eq_false (unbordered_cons hdigits) h
        exact absurd (beginsWith_iff.mpr ⟨b, heq⟩) hbegin
      | cons x a =>
        obtain ⟨rfl, htail⟩ := List.cons.inj heq
        obtain ⟨before, l, after, rfl, rfl⟩ := ih (fun hin => h (List.infix_cons hin)) htail
        exact ⟨.char c :: before, l, after, rfl, rfl⟩
    | literal l =>
      cases a with
      | nil => exact ⟨[], l, bits, rfl, rfl⟩
      | cons x a =>
        -- two placeholders that are not the same do not overlap
        obtain ⟨rfl, htail⟩ := List.cons.inj heq
        obtain ⟨d, rfl, hd⟩ := Marker.exists_of_append_eq_append_cons hdigits htail
        obtain ⟨before, l', after, rfl, rfl⟩ :=
          ih (fun hin => h (hin.trans (List.suffix_append _ _).isInfix)) hd
        exact ⟨.literal l :: before, l', after, rfl, rfl⟩

/-- The same, said of the spans that a scanner finds: the text before the placeholder is what comes
before the span, shielded. -/
theorem exists_span_of_shield_eq {scan : Scanner} {source : Text}
    (htidy : Tidy source (scan source)) (h : ¬('_' :: digits) <:+: source) {a b : Text}
    (heq : (shield scan ('_' :: digits) source).text = a ++ ('_' :: digits ++ b)) :
    ∃ before span after, scan source = before ++ span :: after ∧
      a = coverFrom ('_' :: digits) (source.take span.start) 0 before := by
  obtain ⟨bits, rfl, hspans⟩ := exists_bits_of_scan htidy
  rw [shield_of_spans hspans] at heq
  obtain ⟨before, l, after, rfl, rfl⟩ := exists_literal_of_cover_eq hdigits h heq
  refine ⟨_, _, _, hspans.trans (spansFrom_append 0 before _), ?_⟩
  rw [source_append, Nat.zero_add, List.take_left]
  exact (coverFrom_spansFrom _ List.drop_zero (Nat.le_refl 0)).symm

end Placeholder

end LabelLoop.Literal

namespace LabelLoop.Conversion

open Text Marker Lowering Literal

/-! ### What lowering does to placeholders -/

section Placeholder

variable {digits : Text} (hdigits : ∀ d ∈ digits, d.isDigit = true)

include hdigits

/-- Texts that do not begin with a digit begin with the same digits: with none. -/
theorem prefix_iff_of_head? {t u : Text} (ht : ∀ c ∈ t.head?, c.isDigit = false)
    (hu : ∀ c ∈ u.head?, c.isDigit = false) : digits <+: t ↔ digits <+: u := by
  cases digits with
  | nil => exact iff_of_true List.nil_prefix List.nil_prefix
  | cons d w =>
    have hd := hdigits d List.mem_cons_self
    refine iff_of_false ?_ ?_
    · rintro ⟨rest, rfl⟩
      exact Bool.false_ne_true ((ht d rfl).symm.trans hd)
    · rintro ⟨rest, rfl⟩
      exact Bool.false_ne_true ((hu d rfl).symm.trans hd)

/-- **Lowering neither adds nor removes digits at the front of a text.** -/
theorem prefix_sweep_iff {ps : List Piece} (h : Cut ps) (pending : List Nat) :
    digits <+: sweep pending ps ↔ digits <+: written ps := by
  induction h using Cut.induct generalizing pending digits with
  | nil =>
    refine prefix_iff_of_head? hdigits (fun c hc => ?_) (fun c hc => absurd hc (by simp))
    rw [List.eq_of_mem_replicate (List.mem_of_head? hc)]
    decide
  | @char c ps _ _ ih =>
    rw [sweep, written_char]
    by_cases hclose : c = '\x7d'
    · subst hclose
      refine prefix_iff_of_head? hdigits (fun c hc => ?_) (fun c hc => ?_)
      · have hhead : c = '\x7d' := by
          cases hdue : dueBefore pending '\x7d' <;> rw [hdue] at hc <;>
            exact (Option.some.inj hc).symm
        rw [hhead]
        decide
      · rw [← Option.some.inj hc]
        decide
    · rw [dueBefore_of_ne hclose]
      cases digits with
      | nil => exact iff_of_true List.nil_prefix List.nil_prefix
      | cons d w =>
        have hw : ∀ x ∈ w, x.isDigit = true := fun x hx => hdigits x (List.mem_cons_of_mem _ hx)
        show d :: w <+: c :: sweep (pendingAfter pending c) ps ↔ _
        rw [List.cons_prefix_cons, List.cons_prefix_cons, ih hw]
  | @marker k name raw ps hspells _ _ =>
    obtain ⟨_, hkeyword⟩ := k.keyword_eq
    obtain ⟨x, xs, rfl, hagrees⟩ := hspells.agrees_head hkeyword
    refine prefix_iff_of_head? hdigits (fun c hc => ?_) (fun c hc => ?_)
    · cases k <;>
      · rw [← Option.some.inj hc]
        decide
    · rw [← Option.some.inj hc, ← Bool.not_eq_true]
      -- no keyword begins with a digit
      intro hdigit
      have hx : ∀ d ∈ [x], d.isDigit = true := fun d hd => List.mem_singleton.mp hd ▸ hdigit
      have hnot := (placeholder_chars hx (List.mem_cons_of_mem _ List.mem_cons_self)).2 k
      exact Bool.false_ne_true (hnot.symm.trans hagrees)

/-- The characters of a given text are not part of a placeholder; they are checked one by one. -/
theorem not_mem_placeholder {t : Text}
    (h : t.all (fun c => decide (c ≠ '_' ∧ c.isDigit = false)) = true) :
    ∀ c ∈ t, c ∉ '_' :: digits := by
  intro c hc
  obtain ⟨hlow, hdigit⟩ := of_decide_eq_true (List.all_eq_true.mp h c hc)
  rw [List.mem_cons, not_or]
  exact ⟨hlow, fun hmem => Bool.false_ne_true (hdigit.symm.trans (hdigits c hmem))⟩

section Digit

variable (hne : digits ≠ [])

include hne

/-- In the name of a sentinel, placeholders stand in the name of its label and the low line before
that. -/
theorem occurrences_sentinel_append (name : Text) {between : Text} (hbetween : between ≠ [])
    (h : ∀ c ∈ between, c ∉ '_' :: digits) (rest : Text) :
    occurrences ('_' :: digits) (Loop.sentinel name ++ (between ++ rest)) =
      occurrences ('_' :: digits) ('_' :: name) + occurrences ('_' :: digits) rest := by
  have hsentinel : Loop.sentinel name ++ (between ++ rest) = "goto".toList ++
      ('_' :: ("function".toList ++ (('_' :: name) ++ (between ++ rest)))) := rfl
  -- the first low line is followed by a letter
  have hbegin : ¬beginsWith ('_' :: ("function".toList ++ (('_' :: name) ++ (between ++ rest))))
      ('_' :: digits) = true := by
    obtain ⟨d, w, rfl⟩ := List.exists_cons_of_ne_nil hne
    intro hbegin
    obtain ⟨rest', heq⟩ := beginsWith_iff.mp hbegin
    obtain ⟨rfl, -⟩ := List.cons.inj (List.cons.inj heq).2
    exact absurd (hdigits _ List.mem_cons_self) (by decide)
  rw [hsentinel, occurrences_append_of_not_mem (by decide), occurrences, if_neg hbegin,
    Nat.zero_add, occurrences_append_of_not_mem (by decide),
    occurrences_append_append hbetween h]

/-- A jump writes its name once as it is, and once after a low line. -/
theorem occurrences_jump_append (name rest : Text) :
    occurrences ('_' :: digits) (Loop.jump name ++ rest) =
      occurrences ('_' :: digits) name + occurrences ('_' :: digits) ('_' :: name) +
        occurrences ('_' :: digits) rest := by
  have hassoc : Loop.jump name ++ rest = Loop.sentinel name ++
      (" = false;\n continue ".toList ++ (name ++ ([';'] ++ rest))) := by
    unfold Loop.jump
    simp only [List.append_assoc]
  rw [hassoc, occurrences_sentinel_append hdigits hne name (by decide)
      (not_mem_placeholder hdigits (by decide)),
    occurrences_append_append (by decide) (not_mem_placeholder hdigits (by decide))]
  omega

/-- The header of a loop writes its name once as it is, and three times after a low line. -/
theorem occurrences_header_append (name rest : Text) :
    occurrences ('_' :: digits) (Loop.header name ++ rest) =
      occurrences ('_' :: digits) name + 3 * occurrences ('_' :: digits) ('_' :: name) +
        occurrences ('_' :: digits) rest := by
  have hassoc : Loop.header name ++ rest = "var ".toList ++ (Loop.sentinel name ++
      (" = false;\n".toList ++ (name ++ (": while(!".toList ++ (Loop.sentinel name ++
        (")\x7b\n ".toList ++ (Loop.sentinel name ++ (" = true;\n".toList ++ rest)))))))) := by
    unfold Loop.header
    simp only [List.append_assoc]
  have hsentinel := fun {between : Text} (hbetween : between ≠ []) h =>
    occurrences_sentinel_append hdigits hne name hbetween (not_mem_placeholder hdigits h)
  rw [hassoc, occurrences_append_of_not_mem (by decide), hsentinel (by decide) (by decide),
    occurrences_append_append (by decide) (not_mem_placeholder hdigits (by decide)),
    hsentinel (by decide) (by decide), hsentinel (by decide) (by decide)]
  omega

/-- **What lowering adds.**  All placeholders are kept, and every name brings in those that it has
after a low line: once for a jump and three times for a label. -/
theorem occurrences_sweep {ps : List Piece} (h : Cut ps) (pending : List Nat) :
    occurrences ('_' :: digits) (sweep pending ps) =
      occurrences ('_' :: digits) (written ps) +
        (((names .jump ps).map fun x => occurrences ('_' :: digits) ('_' :: x)).sum +
          3 * ((names .label ps).map fun x => occurrences ('_' :: digits) ('_' :: x)).sum) := by
  induction h using Cut.induct generalizing pending with
  | nil =>
    refine occurrences_eq_zero_of_not_mem fun hmem => ?_
    exact absurd (List.eq_of_mem_replicate hmem) (by decide)
  | @char c ps _ hcut ih =>
    have hbraces : '_' ∉ List.replicate (dueBefore pending c) '\x7d' := fun hmem =>
      absurd (List.eq_of_mem_replicate hmem) (by decide)
    have hbegin : beginsWith (c :: sweep (pendingAfter pending c) ps) ('_' :: digits) =
        beginsWith (c :: written ps) ('_' :: digits) := by
      rw [Bool.eq_iff_iff, beginsWith_iff_prefix, beginsWith_iff_prefix, List.cons_prefix_cons,
        List.cons_prefix_cons, prefix_sweep_iff hdigits hcut]
    rw [sweep, occurrences_append_of_not_mem hbraces, occurrences, ih, written_char, occurrences,
      hbegin, Nat.add_assoc]
    rfl
  | @marker k name raw ps hspells _ ih =>
    have hmarker := occurrences_marker_append hdigits hspells (written ps)
    have hrest := ih (pendingPast k pending)
    cases k with
    | jump =>
      show occurrences _ (Loop.jump name ++ sweep (pendingPast .jump pending) ps) =
        occurrences _ (raw ++ written ps) + (((name :: names .jump ps).map _).sum +
          3 * ((names .label ps).map _).sum)
      rw [occurrences_jump_append hdigits hne, hmarker, hrest, List.map_cons, List.sum_cons]
      omega
    | label =>
      show occurrences _ (Loop.header name ++ sweep (pendingPast .label pending) ps) =
        occurrences _ (raw ++ written ps) + (((names .jump ps).map _).sum +
          3 * ((name :: names .label ps).map _).sum)
      rw [occurrences_header_append hdigits hne, hmarker, hrest, List.map_cons, List.sum_cons]
      omega

/-- The same for a whole run of lowering, with the names of its markers. -/
theorem exists_lower_occurrences (t : Text) :
    ∃ lowered, lower Loop.header t = .ok lowered ∧
      occurrences ('_' :: digits) lowered.code = occurrences ('_' :: digits) t +
        (((jumpTargets t).map fun x => occurrences ('_' :: digits) ('_' :: x)).sum +
          3 * (((Marker.labels t).map Found.item).map fun x =>
            occurrences ('_' :: digits) ('_' :: x)).sum) := by
  obtain ⟨ps, hcut, rfl⟩ := exists_cut t
  refine ⟨_, lower_written hcut, ?_⟩
  have hjumps : jumpTargets (written ps) = names .jump ps :=
    (congrArg (List.map Found.item) (search_written hcut .jump)).trans (map_item_foundFrom _ _ _)
  rw [hjumps, labels_written hcut, map_item_foundFrom]
  exact occurrences_sweep hdigits hne hcut []

end Digit

end Placeholder

/-! ### What is remarked -/

/-- A name has a placeholder after a low line if it holds one, or begins with its digits. -/
theorem occurrences_ne_zero_iff (digits name : Text) :
    occurrences ('_' :: digits) ('_' :: name) ≠ 0 ↔
      '_' :: digits <:+: name ∨ digits <+: name := by
  rw [Ne, ← position?_eq_none_iff (List.cons_ne_nil _ _), position?_eq_none_iff_absent, not_not,
    List.infix_cons_iff, List.cons_prefix_cons, or_comm]
  simp only [true_and]

theorem added_ne_zero_iff (digits : Text) (jumps labels : List Text) :
    (jumps.map fun x => occurrences ('_' :: digits) ('_' :: x)).sum +
        3 * (labels.map fun x => occurrences ('_' :: digits) ('_' :: x)).sum ≠ 0 ↔
      ∃ name, (name ∈ jumps ∨ name ∈ labels) ∧ ('_' :: digits <:+: name ∨ digits <+: name) := by
  have hsum : ∀ l : List Text,
      (l.map fun x => occurrences ('_' :: digits) ('_' :: x)).sum ≠ 0 ↔
        ∃ x ∈ l, '_' :: digits <:+: x ∨ digits <+: x := by
    intro l
    rw [Ne, List.sum_eq_zero_iff_forall_eq_nat]
    simp only [← occurrences_ne_zero_iff, List.forall_mem_map, not_forall, exists_prop, Ne]
  constructor
  · intro h
    by_cases hjumps : (jumps.map fun x => occurrences ('_' :: digits) ('_' :: x)).sum = 0
    · obtain ⟨x, hx, hholds⟩ := (hsum labels).mp (by omega)
      exact ⟨x, Or.inr hx, hholds⟩
    · obtain ⟨x, hx, hholds⟩ := (hsum jumps).mp hjumps
      exact ⟨x, Or.inl hx, hholds⟩
  · rintro ⟨x, hx | hx, hholds⟩
    · have := (hsum jumps).mpr ⟨x, hx, hholds⟩
      omega
    · have := (hsum labels).mpr ⟨x, hx, hholds⟩
      omega

/-- If the placeholder does not occur in the source, nothing is said about that, and only one check
speaks of placeholders left. -/
theorem code_of_mem_diagnostics {placeholder source : Text} (h : ¬placeholder <:+: source)
    {lowered : Lowered} {count : Nat} {d : Diagnostic}
    (hd : d ∈ Diagnostic.ofCollision placeholder source ++ Diagnostic.ofLowered lowered ++
      Diagnostic.ofUnresolved count) :
    d.code ≠ .placeholderCollision ∧
      (d.code = .unresolvedPlaceholder → d ∈ Diagnostic.ofUnresolved count) := by
  rw [ofCollision_eq_nil_iff.mpr h, List.nil_append] at hd
  rcases List.mem_append.mp hd with hd | hd
  · rcases Diagnostic.code_of_mem_ofLowered hd with hcode | hcode | hcode <;>
    · rw [hcode]
      exact ⟨by decide, fun hother => absurd hother (by decide)⟩
  · refine ⟨?_, fun _ => hd⟩
    rw [Diagnostic.ofUnresolved] at hd
    split at hd
    · exact absurd hd List.not_mem_nil
    · rw [List.mem_singleton.mp hd]
      show Diagnostic.Code.unresolvedPlaceholder ≠ .placeholderCollision
      decide

theorem exists_unresolved_iff {placeholder source : Text} (h : ¬placeholder <:+: source)
    (lowered : Lowered) (count : Nat) :
    (∃ d ∈ Diagnostic.ofCollision placeholder source ++ Diagnostic.ofLowered lowered ++
        Diagnostic.ofUnresolved count, d.code = .unresolvedPlaceholder) ↔ count ≠ 0 := by
  rw [Ne, ← ofUnresolved_eq_nil]
  push Not
  constructor
  · rintro ⟨d, hd, hcode⟩
    exact ⟨d, (code_of_mem_diagnostics h hd).2 hcode, hcode⟩
  · rintro ⟨d, hd, hcode⟩
    exact ⟨d, List.mem_append_right _ hd, hcode⟩

/-- **The ledger of literals is exact.**  Shield a source with a placeholder of a low line and
digits that does not occur in it, lower the text and restore the literals.  Then no literal is left
over; the literals stand in order in the place of the first placeholders of the lowered text; and
the placeholders left are those that the names of markers hold after a low line, once for every jump
and three times for every label.  Every placeholder of the shielded text stands where a literal was,
so there is a remark on placeholders left exactly if the name of some marker holds that of a literal
or begins with the digits. -/
theorem restoration_ledger_is_exact {placeholder digits : Text}
    (hplaceholder : placeholder = '_' :: digits) (hne : digits ≠ [])
    (hdigits : ∀ d ∈ digits, d.isDigit = true) (kind : ScannerKind) {source : Text}
    (hfresh : ¬placeholder <:+: source) {s : Shielded}
    (hs : shield kind.scanner placeholder source = s) :
    ∃ lowered r c,
      lower Loop.header s.text = .ok lowered ∧
      restore placeholder s.literals lowered.code = r ∧
      convert { placeholder := placeholder, scan := kind.scanner } false source = .ok c ∧
      c.code = r.text ∧
      r.unused = 0 ∧
      r.unresolved =
        ((jumpTargets s.text).map fun x => occurrences placeholder ('_' :: x)).sum +
          3 * (((Marker.labels s.text).map Found.item).map fun x =>
            occurrences placeholder ('_' :: x)).sum ∧
      (∃ first gaps, (∀ g ∈ first :: gaps, ¬placeholder <:+: g) ∧
        gaps.length = s.literals.length + r.unresolved ∧
        lowered.code = woven first (List.replicate gaps.length placeholder) gaps ∧
        r.text = woven first (s.literals ++ List.replicate r.unresolved placeholder) gaps) ∧
      (∀ a b, s.text = a ++ (placeholder ++ b) →
        ∃ before span after, kind.scanner source = before ++ span :: after ∧
          a = coverFrom placeholder (source.take span.start) 0 before) ∧
      (∀ d ∈ c.diagnostics, d.code ≠ .placeholderCollision) ∧
      ((∃ d ∈ c.diagnostics, d.code = .unresolvedPlaceholder) ↔
        ∃ name, (name ∈ jumpTargets s.text ∨ name ∈ (Marker.labels s.text).map Found.item) ∧
          (placeholder <:+: name ∨ digits <+: name)) := by
  subst hplaceholder hs
  have hlow := underline_not_mem hdigits
  have htidy := kind.tidy_scanner source
  obtain ⟨lowered, hlower, hcount⟩ :=
    exists_lower_occurrences hdigits hne (shield kind.scanner ('_' :: digits) source).text
  obtain ⟨first, gaps, hparted⟩ := exists_parted (List.cons_ne_nil '_' digits) lowered.code
  have hrestore := hparted.restore_eq (List.cons_ne_nil _ _)
    (shield kind.scanner ('_' :: digits) source).literals
  rw [hparted.occurrences_eq hlow, occurrences_shield hlow htidy hfresh] at hcount
  have hpermissive := permissive_of_lower
    (o := { placeholder := '_' :: digits, scan := kind.scanner }) hlower
  have hunresolved := congrArg Restored.unresolved hrestore
  rw [hcount, Nat.add_sub_cancel_left] at hunresolved
  refine ⟨lowered, _, _, hlower, rfl, convert_false_of_permissive hpermissive, rfl, ?_, hunresolved,
    ⟨first, gaps, hparted.absent (List.cons_ne_nil _ _), ?_, hparted.eq_woven, ?_⟩,
    fun a b => exists_span_of_shield_eq hlow htidy hfresh,
    fun d hd => (code_of_mem_diagnostics hfresh hd).1, ?_⟩
  · rw [hrestore]
    dsimp only
    omega
  · rw [hcount, hunresolved]
  · rw [hrestore]
  · rw [exists_unresolved_iff hfresh, hunresolved, added_ne_zero_iff]

/-- A literal is part of the name of a jump, and a label has the digits of the placeholder as its
name. -/
theorem restoration_ledger_of_captured_literal :
    ∃ lowered r c,
      lower Loop.header "\x7bs = _7; goto a_7;[lbl] 7: goto b;\x7d".toList = .ok lowered ∧
      restore "_7".toList ["\"y\"".toList, "'x'".toList] lowered.code = r ∧
      convert { placeholder := "_7".toList, scan := ScannerKind.quotes.scanner } false
        "\x7bs = \"y\"; goto a'x';[lbl] 7: goto b;\x7d".toList = .ok c ∧
      r.unused = 0 ∧ r.unresolved = 4 ∧
      ∃ d ∈ c.diagnostics, d.code = .unresolvedPlaceholder := by
  have hshield : shield ScannerKind.quotes.scanner "_7".toList
      "\x7bs = \"y\"; goto a'x';[lbl] 7: goto b;\x7d".toList =
        ⟨"\x7bs = _7; goto a_7;[lbl] 7: goto b;\x7d".toList, ["\"y\"".toList, "'x'".toList],
          "_7".toList⟩ := rfl
  have hlabels :
      (Marker.labels "\x7bs = _7; goto a_7;[lbl] 7: goto b;\x7d".toList).map Found.item =
        ["7".toList] := rfl
  have hdigits : ∀ d ∈ "7".toList, d.isDigit = true := forall_mem_of_all (by decide)
  obtain ⟨lowered, r, c, hlower, hr, hc, -, hunused, hunresolved, -, -, -, hremark⟩ :=
    restoration_ledger_is_exact rfl (by decide) hdigits .quotes
      (position?_eq_none_iff_absent.mp rfl) hshield
  refine ⟨lowered, r, c, hlower, hr, hc, hunused, hunresolved.trans rfl, hremark.mpr ?_⟩
  exact ⟨"7".toList, Or.inr (by rw [hlabels]; exact List.mem_cons_self),
    Or.inr (List.prefix_refl _)⟩

end LabelLoop.Conversion
