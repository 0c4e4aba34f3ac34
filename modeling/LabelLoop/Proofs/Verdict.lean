import LabelLoop.Proofs.Enclosure
import LabelLoop.Proofs.Survival
import Mathlib.Data.List.Nodup

/-!
# The verdict of strict rules

Under strict rules a conversion fails exactly if there is something to remark, and what there is to
remark can be told from the source and its shielded text (`strict_conversion_fails_iff`), though
the remarks are made from what the passes recorded.  Each check has nothing to say exactly if what
it looks for is not there (`ofCollision_eq_nil_iff`, `ofUnenclosed_eq_nil_iff` and so on); the names
and the places that the checks read are those of the markers (`exists_lower_reports`).
-/

namespace LabelLoop.Marker

open Text

/-- No label marker is found twice. -/
theorem nodup_labels (t : Text) : (labels t).Nodup := by
  obtain ⟨ps, hcut, rfl⟩ := exists_cut t
  rw [labels_written hcut]
  refine (pairwise_foundFrom hcut .label 0).imp fun hlt heq => ?_
  rw [heq] at hlt
  exact Nat.lt_irrefl _ hlt

end LabelLoop.Marker

namespace LabelLoop.Diagnostic

open Text

/-! ### When a check has nothing to say -/

theorem ofUnenclosed_eq_nil_iff {labels : List Lowering.Label} :
    ofUnenclosed labels = [] ↔ ¬∃ l ∈ labels, l.pass.enclosed = false := by
  rw [ofUnenclosed, List.map_eq_nil_iff, List.filter_eq_nil_iff]
  simp

theorem ofDuplicates_eq_nil_iff {names : List Text} : ofDuplicates names = [] ↔ names.Nodup := by
  rw [ofDuplicates, List.map_eq_nil_iff, List.filter_eq_nil_iff, List.nodup_iff_count_le_one]
  simp only [List.mem_eraseDups, decide_eq_true_eq, Nat.not_lt]
  constructor
  · intro h n
    by_cases hn : n ∈ names
    · exact h n hn
    · rw [List.count_eq_zero_of_not_mem hn]
      exact Nat.zero_le 1
  · intro h n _
    exact h n

theorem ofUndeclared_eq_nil_iff {names targets : List Text} :
    ofUndeclared names targets = [] ↔ ∀ n ∈ targets, n ∈ names := by
  rw [ofUndeclared, List.map_eq_nil_iff, List.filter_eq_nil_iff]
  simp

theorem ofUnresolved_eq_nil_iff {count : Nat} : ofUnresolved count = [] ↔ count = 0 := by
  rw [ofUnresolved]
  split
  · simp [*]
  · simp [*]

/-! ### Remarks on blocks -/

theorem exists_of_mem_ofUnenclosed {labels : List Lowering.Label} {d : Diagnostic}
    (h : d ∈ ofUnenclosed labels) :
    ∃ l ∈ labels, l.pass.enclosed = false ∧ d.offset = some l.sourceOffset ∧
      d.label = some l.pass.name := by
  obtain ⟨l, hl, rfl⟩ := List.mem_map.mp h
  rw [List.mem_filter, Bool.not_eq_true'] at hl
  exact ⟨l, hl.1, hl.2, rfl, rfl⟩

theorem exists_mem_ofUnenclosed {labels : List Lowering.Label} {l : Lowering.Label}
    (hl : l ∈ labels) (h : l.pass.enclosed = false) :
    ∃ d ∈ ofUnenclosed labels, d.code = .unmatchedBlock ∧ d.offset = some l.sourceOffset ∧
      d.label = some l.pass.name := by
  have hmem : l ∈ labels.filter fun l => !l.pass.enclosed := by
    rw [List.mem_filter, Bool.not_eq_true']
    exact ⟨hl, h⟩
  exact ⟨_, List.mem_map_of_mem hmem, rfl, rfl, rfl⟩

/-- The checks of labels and jumps have codes of their own. -/
theorem code_of_mem_ofLowered {lowered : Lowering.Lowered} {d : Diagnostic}
    (h : d ∈ ofLowered lowered) :
    d.code = .unmatchedBlock ∨ d.code = .duplicateLabel ∨ d.code = .undeclaredLabel := by
  simp only [ofLowered, List.mem_append] at h
  rcases h with (h | h) | h
  · obtain ⟨l, -, rfl⟩ := List.mem_map.mp h
    exact Or.inl rfl
  · obtain ⟨n, -, rfl⟩ := List.mem_map.mp h
    exact Or.inr (Or.inl rfl)
  · obtain ⟨n, -, rfl⟩ := List.mem_map.mp h
    exact Or.inr (Or.inr rfl)

/-- Only the check for blocks speaks of blocks. -/
theorem mem_ofUnenclosed_of_mem {placeholder source : Text} {lowered : Lowering.Lowered}
    {count : Nat} {d : Diagnostic}
    (h : d ∈ ofCollision placeholder source ++ ofLowered lowered ++ ofUnresolved count)
    (hcode : d.code = .unmatchedBlock) : d ∈ ofUnenclosed lowered.labels := by
  simp only [ofLowered, List.mem_append] at h
  -- the other four checks make remarks with codes of their own
  rcases h with (h | ((h | h) | h)) | h
  · rw [ofCollision] at h
    split at h
    · exact absurd h List.not_mem_nil
    · rw [List.mem_singleton.mp h] at hcode
      contradiction
  · exact h
  · obtain ⟨n, -, rfl⟩ := List.mem_map.mp h
    contradiction
  · obtain ⟨n, -, rfl⟩ := List.mem_map.mp h
    contradiction
  · rw [ofUnresolved] at h
    split at h
    · exact absurd h List.not_mem_nil
    · rw [List.mem_singleton.mp h] at hcode
      contradiction

end LabelLoop.Diagnostic

namespace LabelLoop.Conversion

open Text Marker Lowering Literal Block

/-- Two label markers have the same name. -/
theorem exists_same_name_iff (t : Text) :
    ¬((Marker.labels t).map Found.item).Nodup ↔
      ∃ m ∈ Marker.labels t, ∃ m' ∈ Marker.labels t, m ≠ m' ∧ m.item = m'.item := by
  rw [List.nodup_map_iff_inj_on (nodup_labels t)]
  push Not
  constructor
  · rintro ⟨m, hm, m', hm', heq, hne⟩
    exact ⟨m, hm, m', hm', hne, heq⟩
  · rintro ⟨m, hm, m', hm', hne, heq⟩
    exact ⟨m, hm, m', hm', heq, hne⟩

/-- **There is something to remark** exactly if something is wrong with the source, the markers of
its shielded text, or the number of placeholders in the lowered text. -/
theorem diagnostics_ne_nil_iff {placeholder source t : Text} (hne : placeholder ≠ [])
    {lowered : Lowered} (htargets : lowered.jumpTargets = jumpTargets t)
    (hreports : List.Forall₂ (Reports t) lowered.labels (Marker.labels t))
    (literals : List Text) :
    Diagnostic.ofCollision placeholder source ++ Diagnostic.ofLowered lowered ++
        Diagnostic.ofUnresolved (restore placeholder literals lowered.code).unresolved ≠ [] ↔
      placeholder <:+: source ∨
      (∃ m ∈ Marker.labels t, ¬Enclosed t m.start m.stop) ∨
      (∃ m ∈ Marker.labels t, ∃ m' ∈ Marker.labels t, m ≠ m' ∧ m.item = m'.item) ∨
      (∃ j ∈ search Marker.jump.read? t, ∀ m ∈ Marker.labels t, m.item ≠ j.item) ∨
      literals.length < tokens placeholder lowered.code := by
  have hnames := map_name_of_reports hreports
  have hcollision : Diagnostic.ofCollision placeholder source ≠ [] ↔ placeholder <:+: source := by
    rw [Ne, ofCollision_eq_nil_iff, not_not]
  have hunenclosed : Diagnostic.ofUnenclosed lowered.labels ≠ [] ↔
      ∃ m ∈ Marker.labels t, ¬Enclosed t m.start m.stop := by
    rw [Ne, Diagnostic.ofUnenclosed_eq_nil_iff, not_not, exists_unenclosed_iff hreports]
  have hduplicates : Diagnostic.ofDuplicates (lowered.labels.map (·.pass.name)) ≠ [] ↔
      ∃ m ∈ Marker.labels t, ∃ m' ∈ Marker.labels t, m ≠ m' ∧ m.item = m'.item := by
    rw [Ne, Diagnostic.ofDuplicates_eq_nil_iff, hnames, exists_same_name_iff]
  have hundeclared :
      Diagnostic.ofUndeclared (lowered.labels.map (·.pass.name)) lowered.jumpTargets ≠ [] ↔
        ∃ j ∈ search Marker.jump.read? t, ∀ m ∈ Marker.labels t, m.item ≠ j.item := by
    rw [Ne, Diagnostic.ofUndeclared_eq_nil_iff, hnames, htargets, jumpTargets]
    simp
  have hunresolved :
      Diagnostic.ofUnresolved (restore placeholder literals lowered.code).unresolved ≠ [] ↔
        literals.length < tokens placeholder lowered.code := by
    rw [Ne, Diagnostic.ofUnresolved_eq_nil_iff, (restore_counts hne _ _).1]
    omega
  rw [← hcollision, ← hunenclosed, ← hduplicates, ← hundeclared, ← hunresolved,
    Diagnostic.ofLowered]
  simp only [Ne, List.append_eq_nil_iff, not_and_or, or_assoc]

/-- Under strict rules a conversion with remarks fails with them. -/
theorem convert_true_of_permissive {o : Options} {source : Text} {c : Converted}
    (h : permissive o source = .ok c) :
    convert o true source =
      if c.diagnostics = [] then .ok c else .error (.diagnosed c.diagnostics) := by
  rw [convert, h]
  cases hdiagnostics : c.diagnostics with
  | nil => simp [Converted.ok, hdiagnostics]
  | cons d ds => simp [Converted.ok, hdiagnostics]

/-- **The verdict of strict rules**, decided by the source alone.  The conversion fails exactly if
the placeholder occurs in the source, or, in the shielded text, a label marker is not enclosed, two
label markers have the same name or a jump marker goes to a name that no label marker has, or if
the lowered text holds more placeholders than there are literals; and it fails with the remarks that
are made otherwise.  A label that is remarked for its block is not enclosed, and the first label
that is not enclosed is remarked. -/
theorem strict_conversion_fails_iff {placeholder : Text} (hne : placeholder ≠ []) (scan : Scanner)
    (source : Text) {s : Shielded} (hs : shield scan placeholder source = s) :
    ∃ c lowered,
      convert { placeholder := placeholder, scan := scan } false source = .ok c ∧
      lower Loop.header s.text = .ok lowered ∧
      ((∃ f, convert { placeholder := placeholder, scan := scan } true source = .error f) ↔
        placeholder <:+: source ∨
        (∃ m ∈ Marker.labels s.text, ¬Enclosed s.text m.start m.stop) ∨
        (∃ m ∈ Marker.labels s.text, ∃ m' ∈ Marker.labels s.text, m ≠ m' ∧ m.item = m'.item) ∨
        (∃ j ∈ search Marker.jump.read? s.text, ∀ m ∈ Marker.labels s.text, m.item ≠ j.item) ∨
        s.literals.length < tokens placeholder lowered.code) ∧
      convert { placeholder := placeholder, scan := scan } true source =
        (if c.diagnostics = [] then .ok c else .error (.diagnosed c.diagnostics)) ∧
      (∀ d ∈ c.diagnostics, d.code = .unmatchedBlock → ∃ m ∈ Marker.labels s.text,
        d.offset = some m.start ∧ d.label = some m.item ∧ ¬Enclosed s.text m.start m.stop) ∧
      ∀ m ∈ Marker.labels s.text, ¬Enclosed s.text m.start m.stop →
        (∀ m' ∈ Marker.labels s.text, m'.start < m.start → Enclosed s.text m'.start m'.stop) →
        ∃ d ∈ c.diagnostics, d.code = .unmatchedBlock ∧ d.offset = some m.start ∧
          d.label = some m.item := by
  subst hs
  obtain ⟨lowered, hlower, htargets, hreports⟩ :=
    exists_lower_reports (shield scan placeholder source).text
  have hpermissive :=
    permissive_of_lower (o := { placeholder := placeholder, scan := scan }) hlower
  have hstrict := convert_true_of_permissive hpermissive
  -- left are when it fails, what the remarks on blocks are about, and that the first is made
  refine ⟨_, lowered, convert_false_of_permissive hpermissive, hlower, ?_, hstrict, ?_, ?_⟩
  · rw [← diagnostics_ne_nil_iff hne htargets hreports, hstrict]
    split
    · rename_i hnil
      exact iff_of_false (by simp) (not_not.mpr hnil)
    · rename_i hcons
      exact iff_of_true ⟨_, rfl⟩ hcons
  · intro d hd hcode
    obtain ⟨l, hl, hpass, hoffset, hlabel⟩ :=
      Diagnostic.exists_of_mem_ofUnenclosed (Diagnostic.mem_ofUnenclosed_of_mem hd hcode)
    obtain ⟨m, hm, hstart, hname, hnot⟩ := exists_label_of_unenclosed hreports hl hpass
    rw [hstart] at hoffset
    rw [hname] at hlabel
    exact ⟨m, hm, hoffset, hlabel, hnot⟩
  · intro m hm hnot hfirst
    obtain ⟨l, hl, hpass, hstart, hname⟩ := exists_unenclosed_of_first hreports hm hnot hfirst
    obtain ⟨d, hd, hcode, hoffset, hlabel⟩ := Diagnostic.exists_mem_ofUnenclosed hl hpass
    rw [hstart] at hoffset
    rw [hname] at hlabel
    refine ⟨d, ?_, hcode, hoffset, hlabel⟩
    simp only [Diagnostic.ofLowered, List.mem_append]
    exact Or.inl (Or.inr (Or.inl (Or.inl hd)))

/-- The loop of the first of two labels outside of all braces makes the second look enclosed. -/
theorem strict_conversion_fails_on_first_label :
    ∃ c, convert { placeholder := "_7".toList } false "[lbl] a: [lbl] b:".toList = .ok c ∧
      convert { placeholder := "_7".toList } true "[lbl] a: [lbl] b:".toList =
        .error (.diagnosed c.diagnostics) ∧
      ∃ d ∈ c.diagnostics, d.code = .unmatchedBlock ∧ d.offset = some 0 ∧
        d.label = some "a".toList := by
  have hshield : shield byQuotes "_7".toList "[lbl] a: [lbl] b:".toList =
      ⟨"[lbl] a: [lbl] b:".toList, [], "_7".toList⟩ := by decide
  obtain ⟨c, lowered, hc, -, -, hstrict, -, hfirst⟩ :=
    strict_conversion_fails_iff (by decide) byQuotes _ hshield
  obtain ⟨d, hd, hremark⟩ := hfirst ⟨0, 8, "a".toList⟩ (by decide) (by decide) (by decide)
  rw [if_neg (List.ne_nil_of_mem hd)] at hstrict
  exact ⟨c, hc, hstrict, d, hd, hremark⟩

end LabelLoop.Conversion
