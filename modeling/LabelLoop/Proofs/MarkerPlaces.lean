import LabelLoop.Proofs.NormalForm

/-!
# A search finds every marker

`LabelAt t m` and `JumpAt t m` say where markers stand in a text, character by character and without
any search: a keyword in small letters or capitals, blanks, a name, perhaps blanks, and the closer
(`Parts`).  A search passes over what it has found, and so it could miss a marker that begins inside
another one.  There is none: a marker that begins behind another begins behind its end
(`Kind.MarkerAt.stop_le_of_start_lt`), and where a marker begins there is just one, of one kind.

So the markers found are just those that stand in the text (`mem_search_iff`), and all questions
about label markers are answered by one list of them (`marker_search_misses_nothing`).
-/

namespace LabelLoop.Marker

open Text

/-! ### The parts of a marker -/

/-- The **parts** of a marker that opens with `word`, in small letters or capitals, and ends in
`closer`. -/
structure Parts (word : Text) (closer : Char) where
  key : Text
  gap : Text
  name : Text
  pad : Text
  key_lower : key.map Char.toLower = word
  gap_ne_nil : gap ≠ []
  gap_blank : ∀ c ∈ gap, isBlank c = true
  name_ne_nil : name ≠ []
  name_word : ∀ c ∈ name, isWord c = true
  pad_blank : ∀ c ∈ pad, isBlank c = true

/-- The text that the parts make up. -/
def Parts.text {word : Text} {closer : Char} (p : Parts word closer) : Text :=
  p.key ++ (p.gap ++ (p.name ++ (p.pad ++ [closer])))

/-- A marker **stands in** the text: its parts begin at the place `m.start`, take `m.length`
characters and have the name `m.item`. -/
def MarkerAt (word : Text) (closer : Char) (t : Text) (m : Found Text) : Prop :=
  ∃ p : Parts word closer, p.text <+: t.drop m.start ∧ p.text.length = m.length ∧ p.name = m.item

/-- A label marker `[lbl] name:` stands in the text. -/
def LabelAt (t : Text) (m : Found Text) : Prop :=
  MarkerAt "[lbl]".toList ':' t m

/-- A jump marker `goto name;` stands in the text. -/
def JumpAt (t : Text) (m : Found Text) : Prop :=
  MarkerAt "goto".toList ';' t m

/-- A marker of the kind `k` stands in the text. -/
def Kind.MarkerAt (k : Kind) (t : Text) (m : Found Text) : Prop :=
  Marker.MarkerAt k.form.keyword k.form.closer t m

/-- A marker is spelled exactly if it has parts. -/
theorem Kind.spells_iff_exists_parts (k : Kind) (name raw : Text) :
    k.form.Spells name raw ↔
      ∃ p : Parts k.form.keyword k.form.closer, p.text = raw ∧ p.name = name := by
  constructor
  · rintro ⟨key, gap, pad, rfl, hkey, ⟨hgap0, hgap⟩, ⟨hname0, hname⟩, hpad⟩
    have hlower := (forall₂_agrees_iff k.plainCase key).mp hkey
    exact ⟨⟨key, gap, name, pad, hlower, hgap0, hgap, hname0, hname, hpad⟩, rfl, rfl⟩
  · rintro ⟨p, rfl, rfl⟩
    exact ⟨p.key, p.gap, p.pad, rfl, (forall₂_agrees_iff k.plainCase p.key).mpr p.key_lower,
      ⟨p.gap_ne_nil, p.gap_blank⟩, ⟨p.name_ne_nil, p.name_word⟩, p.pad_blank⟩

/-- The same for a marker in a text. -/
theorem Kind.markerAt_iff {k : Kind} {t : Text} {m : Found Text} :
    k.MarkerAt t m ↔
      ∃ raw rest, t.drop m.start = raw ++ rest ∧ raw.length = m.length ∧
        k.form.Spells m.item raw := by
  constructor
  · rintro ⟨p, ⟨rest, hrest⟩, hlength, hname⟩
    exact ⟨p.text, rest, hrest.symm, hlength, (k.spells_iff_exists_parts _ _).mpr ⟨p, rfl, hname⟩⟩
  · rintro ⟨raw, rest, hdrop, hlength, hspells⟩
    obtain ⟨p, rfl, hname⟩ := (k.spells_iff_exists_parts _ _).mp hspells
    exact ⟨p, ⟨rest, hdrop.symm⟩, hlength, hname⟩

/-- **A marker stands where it is read.** -/
theorem Kind.markerAt_iff_read? {k : Kind} {t : Text} {m : Found Text} :
    k.MarkerAt t m ↔ k.form.read? (t.drop m.start) = some (m.item, m.length) :=
  Kind.markerAt_iff.trans (Form.read?_eq_some_iff k.proper).symm

theorem Kind.MarkerAt.stands {k : Kind} {t : Text} {m : Found Text} (h : k.MarkerAt t m) :
    k.Stands t m.start m.item := by
  obtain ⟨raw, rest, hdrop, -, hspells⟩ := Kind.markerAt_iff.mp h
  exact ⟨raw, hspells, rest, hdrop.symm⟩

/-! ### Two markers -/

/-- No marker of any kind begins inside a marker. -/
theorem Form.Spells.silent_inside {k k' : Kind} {name cs : Text} {c : Char}
    (h : k.form.Spells name (c :: cs)) (b : Text) : Silent k' cs b := by
  by_cases hk : k' = k
  · subst hk
    exact h.silent_tail b
  · exact (h.silent_of_ne hk b).2

/-- **What begins behind a marker's beginning, begins behind its end.** -/
theorem Kind.MarkerAt.stop_le_of_start_lt {k k' : Kind} {t : Text} {m m' : Found Text}
    (h : k.MarkerAt t m) (h' : k'.MarkerAt t m') (hlt : m.start < m'.start) :
    m.stop ≤ m'.start := by
  by_contra hinside
  obtain ⟨raw, rest, hdrop, hlength, hspells⟩ := Kind.markerAt_iff.mp h
  obtain ⟨c, cs, rfl⟩ := List.exists_cons_of_ne_nil hspells.ne_nil
  -- the second marker begins `i` characters behind the first character of the first one
  obtain ⟨i, hi⟩ := Nat.exists_eq_add_of_lt hlt
  have hshort : i < cs.length := by
    rw [List.length_cons] at hlength
    rw [Found.stop] at hinside
    omega
  have hstands : k'.Stands (cs ++ rest) i m'.item := by
    obtain ⟨raw', hspells', hprefix⟩ := h'.stands
    refine ⟨raw', hspells', ?_⟩
    rw [hi, Nat.add_assoc, ← List.drop_drop, hdrop, List.cons_append,
      List.drop_succ_cons] at hprefix
    exact hprefix
  exact not_stands_of_silent (hspells.silent_inside rest) hshort hstands

/-- Where a marker begins, there is just one. -/
theorem Kind.MarkerAt.eq_of_start_eq {k k' : Kind} {t : Text} {m m' : Found Text}
    (h : k.MarkerAt t m) (h' : k'.MarkerAt t m') (hstart : m.start = m'.start) :
    k = k' ∧ m = m' := by
  have hread := Kind.markerAt_iff_read?.mp h
  have hread' := Kind.markerAt_iff_read?.mp h'
  rw [← hstart] at hread'
  have hk : k = k' := by
    by_contra hk
    -- the other kind does not even begin at the first character
    obtain ⟨raw, rest, hdrop, -, hspells⟩ := Kind.markerAt_iff.mp h
    obtain ⟨c, cs, rfl⟩ := List.exists_cons_of_ne_nil hspells.ne_nil
    have hnone := (hspells.silent_of_ne (Ne.symm hk) rest).1
    rw [hdrop, List.cons_append, hnone] at hread'
    exact absurd hread' (by simp)
  subst hk
  obtain ⟨hitem, hlength⟩ := Prod.mk.inj (Option.some.inj (hread.symm.trans hread'))
  cases m
  cases m'
  subst hstart hitem hlength
  exact ⟨rfl, rfl⟩

/-- Two items have no character in common. -/
def Apart (m m' : Found Text) : Prop :=
  m.stop ≤ m'.start ∨ m'.stop ≤ m.start

/-- **Markers do not overlap**, whatever their kinds. -/
theorem Kind.MarkerAt.eq_or_apart {k k' : Kind} {t : Text} {m m' : Found Text}
    (h : k.MarkerAt t m) (h' : k'.MarkerAt t m') : (k = k' ∧ m = m') ∨ Apart m m' := by
  rcases Nat.lt_trichotomy m.start m'.start with hlt | heq | hgt
  · exact Or.inr (Or.inl (h.stop_le_of_start_lt h' hlt))
  · exact Or.inl (h.eq_of_start_eq h' heq)
  · exact Or.inr (Or.inr (h'.stop_le_of_start_lt h hgt))

/-! ### What is found -/

/-- The list holds **just the markers** of a sort, in the order of their places. -/
structure Lists (At : Found Text → Prop) (markers : List (Found Text)) : Prop where
  ordered : markers.Pairwise fun m m' => m.start < m'.start
  mem_iff : ∀ m, m ∈ markers ↔ At m

/-- **A search finds the markers that stand in the text**, and all of them. -/
theorem mem_search_iff {k : Kind} {t : Text} {m : Found Text} :
    m ∈ search k.form.read? t ↔ k.MarkerAt t m := by
  obtain ⟨ps, hcut, rfl⟩ := exists_cut t
  rw [search_written hcut]
  have hfound : ∀ f ∈ foundFrom k 0 ps, k.MarkerAt (written ps) f :=
    fun f hf => Kind.markerAt_iff.mpr (exists_spells_of_mem_foundFrom hcut hf)
  refine ⟨hfound m, fun h => ?_⟩
  -- something is found at the place of the marker, and only one marker begins there
  obtain ⟨f, hf, hstart, -⟩ := exists_mem_foundFrom_of_stands hcut h.stands 0
  rw [Nat.zero_add] at hstart
  obtain ⟨-, rfl⟩ := (hfound f hf).eq_of_start_eq h hstart
  exact hf

theorem lists_search (k : Kind) (t : Text) : Lists (k.MarkerAt t) (search k.form.read? t) := by
  refine ⟨?_, fun m => mem_search_iff⟩
  obtain ⟨ps, hcut, rfl⟩ := exists_cut t
  rw [search_written hcut]
  exact pairwise_foundFrom hcut k 0

/-- **A search for markers misses nothing.**  There is one list of just the label markers that stand
in a text, at whatever place, in order: their places, their number and the first of them are what is
told of the label markers.  There is such a list of the jump markers, too, and their names are the
jump targets.  No two label markers, no two jump markers, and no label marker and jump marker have a
character in common. -/
theorem marker_search_misses_nothing (t : Text) :
    (∃ markers, Lists (LabelAt t) markers ∧
      labelOffsets t = markers.map Found.start ∧
      (∀ i, i ∈ labelOffsets t ↔ ∃ m, LabelAt t m ∧ m.start = i) ∧
      countLabels t = markers.length ∧
      firstLabel? t = markers.head?) ∧
    (∃ markers, Lists (JumpAt t) markers ∧ jumpTargets t = markers.map Found.item) ∧
    (∀ m m', LabelAt t m → LabelAt t m' → m = m' ∨ Apart m m') ∧
    (∀ m m', JumpAt t m → JumpAt t m' → m = m' ∨ Apart m m') ∧
    ∀ m m', LabelAt t m → JumpAt t m' → Apart m m' := by
  have hlabels : Lists (LabelAt t) (labels t) := lists_search .label t
  refine ⟨⟨labels t, hlabels, rfl, fun i => ?_, rfl, firstLabel?_eq_head? t⟩,
    ⟨_, lists_search .jump t, rfl⟩, fun m m' h h' => ?_, fun m m' h h' => ?_, fun m m' h h' => ?_⟩
  · rw [labelOffsets, List.mem_map]
    exact exists_congr fun m => and_congr_left fun _ => hlabels.mem_iff m
  · exact (@Kind.MarkerAt.eq_or_apart .label .label t m m' h h').imp_left And.right
  · exact (@Kind.MarkerAt.eq_or_apart .jump .jump t m m' h h').imp_left And.right
  · rcases @Kind.MarkerAt.eq_or_apart .label .jump t m m' h h' with ⟨hk, -⟩ | happart
    · exact absurd hk (by decide)
    · exact happart

/-- The first keyword begins no marker, and the last one is the name of a jump. -/
example : jumpTargets "goto goto x;GOTO\n goto;".toList = ["x".toList, "goto".toList] := rfl

end LabelLoop.Marker
