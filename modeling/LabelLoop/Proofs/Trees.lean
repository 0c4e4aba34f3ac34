import LabelLoop.Proofs.Ways

/-!
# What operations do to a file tree

Every operation on a tree puts entries at places, and `entryAt?_put` says once what that changes.
From it come the ways in which a tree changes.  Making directories only adds directories
(`grown_ensureDirectories`).  Writing a file changes what stands at its place and nowhere else
(`TakesFile.fileAt?_put`); where a file was, the tree is only refilled (`refilled_put_file`).  None
of this changes the ways through the tree (`Keeps`).

So a path that leads somewhere leads to the same place after directories have been added.  The
converse is false: a path that steps back out of a directory with two dots may begin to lead to an
old file when that directory is made.  It holds for paths that step back only where they could be
followed before, in a tree where everything stands in a directory
(`WellFormed.place_of_ensureDirectories`).  For where such a path could not be followed, either
nothing was there, and then nothing old is below; or a link leads nowhere, and then no directory can
be made beyond it.
-/

namespace LabelLoop.FileTree

open Text

/-! ### Entries -/

theorem here_put (tree : FileTree) (place : Place) (e : Entry) :
    (tree.put place e).here = tree.here := by
  rw [put]
  split <;> rfl

theorem denials_put (tree : FileTree) (place : Place) (e : Entry) :
    (tree.put place e).denials = tree.denials := by
  rw [put]
  split <;> rfl

theorem bounds_put (tree : FileTree) (place : Place) (e : Entry) :
    (tree.put place e).bounds = tree.bounds := by
  rw [put]
  split <;> rfl

theorem lookup_map_replace (entries : List (Place × Entry)) (place q : Place) (e : Entry) :
    (entries.map fun (p, old) => if p = place then (p, e) else (p, old)).lookup q =
      if q = place then (entries.lookup q).map fun _ => e else entries.lookup q := by
  induction entries with
  | nil => exact (ite_self none).symm
  | cons entry entries ih =>
    obtain ⟨p, old⟩ := entry
    by_cases hp : p = place
    · subst hp
      simp only [List.map_cons, if_true, List.lookup_cons, ih]
      by_cases hq : q = p
      · simp [hq]
      · simp [hq, beq_false_of_ne hq]
    · simp only [List.map_cons, hp, if_false, List.lookup_cons, ih]
      by_cases hq : q = p
      · simp [hq, hp]
      · simp [beq_false_of_ne hq]

/-- What is listed at a place after an entry has been put somewhere. -/
theorem lookup_entries_put (tree : FileTree) (place : Place) (e : Entry) (q : Place) :
    (tree.put place e).entries.lookup q = if q = place then some e else tree.entries.lookup q := by
  rw [put]
  split
  · rename_i hsome
    dsimp only
    rw [lookup_map_replace]
    by_cases hq : q = place
    · obtain ⟨old, hold⟩ := Option.isSome_iff_exists.mp hsome
      rw [if_pos hq, if_pos hq, hq, hold, Option.map_some]
    · rw [if_neg hq, if_neg hq]
  · rename_i hnone
    rw [Option.not_isSome_iff_eq_none] at hnone
    dsimp only
    rw [List.lookup_append, List.lookup_cons, List.lookup_nil]
    by_cases hq : q = place
    · rw [if_pos hq, hq, hnone, beq_self_eq_true, Option.none_or]
    · rw [if_neg hq, beq_false_of_ne hq, Option.or_none]

/-- Where no directory stands, the program does not run below. -/
theorem isPrefixOf_eq_false {tree : FileTree} {place : Place}
    (h : tree.entryAt? place ≠ some .directory) : place.isPrefixOf tree.here = false := by
  by_contra hbelow
  rw [Bool.not_eq_false] at hbelow
  exact h (if_pos hbelow)

/-- **What stands where** after an entry has been put at a place that is no directory. -/
theorem entryAt?_put {tree : FileTree} {place : Place} (h : tree.entryAt? place ≠ some .directory)
    (e : Entry) (q : Place) :
    (tree.put place e).entryAt? q = if q = place then some e else tree.entryAt? q := by
  rw [entryAt?, here_put, lookup_entries_put, entryAt?]
  by_cases hq : q = place
  · rw [if_pos hq, if_pos hq, hq, isPrefixOf_eq_false h, if_neg Bool.false_ne_true]
  · rw [if_neg hq, if_neg hq]

/-- The content of the file at a place. -/
def fileAt? (tree : FileTree) (q : Place) : Option Bytes :=
  match tree.entryAt? q with
  | some (.file content) => some content
  | _ => none

theorem fileAt?_eq_some_iff {tree : FileTree} {q : Place} {content : Bytes} :
    tree.fileAt? q = some content ↔ tree.entryAt? q = some (.file content) := by
  rw [fileAt?]
  split
  · rename_i old hold
    rw [hold]
    simp
  · rename_i hnone
    exact ⟨fun h => absurd h (by simp), fun h => absurd h (hnone content)⟩

theorem entryAt?_ne_none_of_fileAt? {tree : FileTree} {q : Place} (h : tree.fileAt? q ≠ none) :
    tree.entryAt? q ≠ none := by
  intro hnone
  rw [fileAt?, hnone] at h
  exact h rfl

/-! ### Making directories -/

/-- A tree has **grown** if directories have been added to it, and nothing else has changed. -/
structure Grown (before after : FileTree) : Prop where
  here : after.here = before.here
  denials : after.denials = before.denials
  bounds : after.bounds = before.bounds
  keeps : ∀ q e, before.entryAt? q = some e → after.entryAt? q = some e
  adds : ∀ q, before.entryAt? q = none →
    after.entryAt? q = none ∨ after.entryAt? q = some .directory

theorem Grown.refl (tree : FileTree) : Grown tree tree :=
  ⟨rfl, rfl, rfl, fun _ _ h => h, fun _ h => Or.inl h⟩

theorem Grown.trans {a b c : FileTree} (h : Grown a b) (h' : Grown b c) : Grown a c where
  here := h'.here.trans h.here
  denials := h'.denials.trans h.denials
  bounds := h'.bounds.trans h.bounds
  keeps q e hq := h'.keeps q e (h.keeps q e hq)
  adds q hq := by
    rcases h.adds q hq with hq | hq
    · exact h'.adds q hq
    · exact Or.inr (h'.keeps q _ hq)

/-- What leads on after directories have been added did so before. -/
theorem Grown.leadsOn {before after : FileTree} (h : Grown before after) {q : Place} {e : Entry}
    (he : e.leadsOn = true) (hq : after.entryAt? q = some e) : before.entryAt? q = some e := by
  cases hbefore : before.entryAt? q with
  | none =>
    rcases h.adds q hbefore with hnone | hdirectory
    · exact absurd (hnone.symm.trans hq) (by simp)
    · rw [← Option.some.inj (hdirectory.symm.trans hq)] at he
      exact absurd he (by simp [Entry.leadsOn])
  | some old => rw [← hq, h.keeps q old hbefore]

theorem Grown.keepsWays {before after : FileTree} (h : Grown before after) : Keeps before after :=
  ⟨h.here, h.denials, fun q => h.keeps q _, fun _ _ he => ⟨h.leadsOn he, h.keeps _ _⟩⟩

/-- The files stay as they are. -/
theorem Grown.fileAt? {before after : FileTree} (h : Grown before after) (q : Place) :
    after.fileAt? q = before.fileAt? q := by
  rw [FileTree.fileAt?, FileTree.fileAt?]
  cases hq : before.entryAt? q with
  | none =>
    rcases h.adds q hq with hnone | hdirectory
    · rw [hnone]
    · rw [hdirectory]
  | some e => rw [h.keeps q e hq]

theorem grown_put_directory {tree : FileTree} {place : Place} (h : tree.entryAt? place = none) :
    Grown tree (tree.put place .directory) := by
  have hput : ∀ q, (tree.put place .directory).entryAt? q =
      if q = place then some .directory else tree.entryAt? q :=
    entryAt?_put (by rw [h]; simp) .directory
  refine ⟨here_put _ _ _, denials_put _ _ _, bounds_put _ _ _, fun q e hq => ?_, fun q hq => ?_⟩
  · rw [hput, if_neg, hq]
    rintro rfl
    exact absurd (h.symm.trans hq) (Option.some_ne_none _).symm
  · rw [hput]
    split
    · exact Or.inr rfl
    · exact Or.inl hq

theorem eq_of_unlessDenied {α : Type} {tree : FileTree} {place : Place} {p : Path} {a b : α}
    (h : tree.unlessDenied place p a = .ok b) : a = b := by
  rw [unlessDenied] at h
  split at h
  · exact Except.ok.inj h
  · exact absurd h (by simp)

theorem grown_makeDirectory {tree after : FileTree} {p : Path}
    (h : tree.makeDirectory p = .ok after) : Grown tree after := by
  rw [makeDirectory] at h
  split at h
  · exact absurd h (by simp)
  · split at h
    · exact absurd h (by simp)
    · rename_i hnone
      rw [← eq_of_unlessDenied h]
      exact grown_put_directory hnone

theorem grown_ensureDirectory (tree : FileTree) (p : Path) :
    Grown tree (tree.ensureDirectory p).1 := by
  rw [ensureDirectory]
  split
  · rename_i after hmake
    exact grown_makeDirectory hmake
  · exact .refl tree
  · exact .refl tree

theorem grown_ensureDirectoriesOf (tree : FileTree) (anchor : Path.Anchor) (names : List Text) :
    Grown tree (tree.ensureDirectoriesOf anchor names).1 := by
  induction names with
  | nil => exact grown_ensureDirectory _ _
  | cons name names ih =>
    rw [ensureDirectoriesOf]
    split
    · -- the directory above is missing, and is made first
      split
      · rename_i hmade
        rw [hmade] at ih
        exact ih
      · rename_i hmade
        rw [hmade] at ih
        exact ih.trans (grown_ensureDirectory _ _)
    · exact grown_ensureDirectory _ _

/-- **Making a directory and those above it** only adds directories. -/
theorem grown_ensureDirectories (tree : FileTree) (p : Path) :
    Grown tree (tree.ensureDirectories p).1 :=
  grown_ensureDirectoriesOf _ _ _

/-- The directories above are only looked at where something is not found. -/
theorem ensureDirectories_of_ensureDirectory {tree after : FileTree} {p : Path}
    {error : Option FileError} (h : tree.ensureDirectory p = (after, error))
    (herror : ∀ p', error ≠ some (.refused .notFound p')) :
    tree.ensureDirectories p = (after, error) := by
  rw [ensureDirectories]
  cases hnames : p.names.reverse with
  | nil =>
    rw [List.reverse_eq_nil_iff] at hnames
    rw [ensureDirectoriesOf, ← hnames]
    exact h
  | cons name names =>
    have hp : (⟨p.anchor, (name :: names).reverse⟩ : Path) = p := by
      rw [← hnames, List.reverse_reverse]
    rw [ensureDirectoriesOf]
    rw [hp, h]
    split
    · rename_i p' hnotFound
      exact absurd (Prod.mk.inj hnotFound).2 (herror p')
    · rfl

/-- Nothing can be made where something stands. -/
theorem makeDirectory_of_spot {tree : FileTree} {p : Path} {q : Place} (hspot : tree.spot p = .ok q)
    (hq : tree.entryAt? q ≠ none) : tree.makeDirectory p = .error (.refused .exists p) := by
  obtain ⟨e, he⟩ := Option.ne_none_iff_exists'.mp hq
  rw [makeDirectory, hspot]
  dsimp only
  rw [he]

/-- A directory that is there need not be made. -/
theorem ensureDirectories_of_find? {tree : FileTree} {p : Path}
    (h : tree.find? p = some .directory) : tree.ensureDirectories p = (tree, none) := by
  obtain ⟨q, hplace, hdirectory⟩ := find?_eq_some_iff.mp h
  obtain ⟨r, hspot, hr⟩ := exists_spot_of_place hplace
  have hthere : tree.entryAt? r ≠ none := by
    rcases hr with rfl | ⟨e, he, -⟩
    · exact fun hnone => absurd (hnone.symm.trans hdirectory) (by simp)
    · exact fun hnone => absurd (hnone.symm.trans he) (by simp)
  refine ensureDirectories_of_ensureDirectory ?_ (by simp)
  rw [ensureDirectory, makeDirectory_of_spot hspot hthere]
  dsimp only
  rw [if_pos h]

/-! ### Where no directory can be made -/

section Stuck

variable {tree : FileTree} {anchor : Path.Anchor} {above : List Text} {name : Text} {r q : Place}
  {m : Nat}

/-- What cannot be found and not be made is not made. -/
theorem ensureDirectory_of_error {p : Path} {e : FileError} (h : tree.makeDirectory p = .error e)
    (hfind : tree.find? p ≠ some .directory) : tree.ensureDirectory p = (tree, some e) := by
  rw [ensureDirectory, h]
  cases e <;> simp [hfind]

/-- A path that cannot be asked about is not one where something is not found. -/
theorem makeDirectory_of_checkPath (tree : FileTree) {p : Path} {e : FileError}
    (h : checkPath p = .error e) :
    tree.makeDirectory p = .error e ∧ ∀ p', e ≠ .refused .notFound p' := by
  refine ⟨by rw [makeDirectory, spot, locate, h], fun p' hp' => ?_⟩
  rw [checkPath] at h
  split at h
  · exact absurd ((Except.error.inj h).trans hp') (by simp)
  · split at h
    · exact absurd ((Except.error.inj h).trans hp') (by simp)
    · exact absurd h (by simp)

theorem find?_eq_none_of_stuck {p : Path}
    (h : ∀ goal left, ¬tree.Leads maxLinks (tree.start p) p.names goal left) :
    tree.find? p = none := by
  rw [find?]
  split
  · rename_i q hplace
    obtain ⟨-, left, hleads⟩ := place_eq_ok_iff.mp hplace
    exact absurd hleads (h q left)
  · rfl

/-- A name that cannot be followed cannot be followed further. -/
theorem stuck_append {links : Nat} {origin : Place} (habove : tree.Leads links origin above r m)
    (hstuck : ∀ goal left, ¬tree.Leads m r [name] goal left) (rest : List Text) (goal : Place)
    (left : Nat) : ¬tree.Leads links origin (above ++ name :: rest) goal left := by
  intro hleads
  obtain ⟨r', m', habove', hrest⟩ := leads_append_iff.mp hleads
  obtain ⟨rfl, rfl⟩ := habove.unique habove'
  obtain ⟨s, k, hname, -⟩ := (leads_append_iff (a := [name])).mp hrest
  exact hstuck s k hname

/-- **Beyond a link that leads nowhere no directory can be made.** -/
theorem exists_error_of_stuck (habove : tree.Leads maxLinks (tree.start ⟨anchor, []⟩) above r m)
    (hstep : tree.step r name = .ok q) (hq : tree.entryAt? q ≠ none)
    (hstuck : ∀ goal left, ¬tree.Leads m r [name] goal left) (rest : List Text) :
    ∃ e, tree.ensureDirectories ⟨anchor, above ++ name :: rest⟩ = (tree, some e) := by
  have hfind : ∀ rest, tree.find? ⟨anchor, above ++ name :: rest⟩ = none := fun rest =>
    find?_eq_none_of_stuck (stuck_append habove hstuck rest)
  induction rest using List.reverseRecOn with
  | nil =>
    have hmake : ∃ e, tree.makeDirectory ⟨anchor, above ++ [name]⟩ = .error e ∧
        ∀ p, e ≠ .refused .notFound p := by
      cases hcheck : checkPath ⟨anchor, above ++ [name]⟩ with
      | error e => exact ⟨e, makeDirectory_of_checkPath tree hcheck⟩
      | ok u =>
        have hspot : tree.spot ⟨anchor, above ++ [name]⟩ = .ok q :=
          (spot_eq_ok_iff rfl).mpr ⟨hcheck, r, m, habove, hstep⟩
        exact ⟨_, makeDirectory_of_spot hspot hq, by simp⟩
    obtain ⟨e, hmake, he⟩ := hmake
    refine ⟨e, ensureDirectories_of_ensureDirectory (ensureDirectory_of_error hmake ?_) ?_⟩
    · rw [hfind]
      simp
    · simpa using he
  | append_singleton rest last ih =>
    obtain ⟨e, ih⟩ := ih
    have hassoc : above ++ name :: (rest ++ [last]) = (above ++ name :: rest) ++ [last] := by simp
    have hmake : ∃ e,
        tree.makeDirectory ⟨anchor, above ++ name :: (rest ++ [last])⟩ = .error e := by
      rw [makeDirectory]
      split
      · exact ⟨_, rfl⟩
      · rename_i s hspot
        obtain ⟨-, goal, left, hleads, -⟩ := (spot_eq_ok_iff hassoc).mp hspot
        exact absurd hleads (stuck_append habove hstuck rest goal left)
    obtain ⟨e', hmake⟩ := hmake
    have hensure := ensureDirectory_of_error hmake (by rw [hfind]; simp)
    rw [ensureDirectories] at ih ⊢
    dsimp only at ih ⊢
    rw [hassoc, List.reverse_append, List.reverse_singleton, List.singleton_append,
      ensureDirectoriesOf, ih]
    dsimp only
    rw [List.reverse_cons, List.reverse_reverse, ← hassoc, hensure]
    split
    · exact ⟨e, rfl⟩
    · exact ⟨e', rfl⟩

/-- Where a path leads to a directory already, nothing is made. -/
theorem eq_of_ensureDirectories {made : FileTree} {p : Path}
    (hmade : tree.ensureDirectories p = (made, none))
    (hleads : tree.Leads maxLinks (tree.start p) p.names r m)
    (hr : tree.entryAt? r = some .directory) : made = tree := by
  cases hcheck : checkPath p with
  | ok u =>
    have hfind : tree.find? p = some .directory :=
      find?_eq_some_iff.mpr ⟨r, place_eq_ok_iff.mpr ⟨hcheck, m, hleads⟩, hr⟩
    rw [ensureDirectories_of_find? hfind] at hmade
    exact (Prod.mk.inj hmade).1.symm
  | error e =>
    obtain ⟨hmake, hnotFound⟩ := makeDirectory_of_checkPath tree hcheck
    have hfind : tree.find? p ≠ some .directory := by
      rw [find?, place, locate, hcheck]
      simp
    rw [ensureDirectories_of_ensureDirectory (ensureDirectory_of_error hmake hfind)
      (by simpa using hnotFound)] at hmade
    exact absurd (Prod.mk.inj hmade).2 (by simp)

end Stuck

/-! ### Old files -/

section Old

variable {before after : FileTree} {r q : Place} {m left : Nat} {name : Text} {names : List Text}

/-- Below a place where nothing was, new directories lead down. -/
theorem Grown.eq_append_of_leads (h : Grown before after) (hbefore : before.WellFormed)
    (hr : before.entryAt? r = none) (hdots : "..".toList ∉ names)
    (hleads : after.Leads m r names q left) : q = r ++ names := by
  induction names generalizing r with
  | nil =>
    cases hleads
    exact (List.append_nil _).symm
  | cons name names ih =>
    rw [List.mem_cons, not_or] at hdots
    have hnext : ∀ s, after.step r name = .ok s → s = r ++ [name] := by
      intro s hstep
      obtain ⟨-, -, -, rfl⟩ := step_eq_ok_iff.mp hstep
      rw [next, if_neg (Ne.symm hdots.1)]
    have hnone := hbefore.entryAt?_next hr name
    cases hleads with
    | pass hstep _ hleads =>
      obtain rfl := hnext _ hstep
      rw [ih hnone hdots.2 hleads, List.append_assoc]
      rfl
    | twin hstep hs _ =>
      obtain rfl := hnext _ hstep
      exact absurd (hnone.symm.trans (h.leadsOn rfl hs)) (by simp)
    | link hstep hs _ =>
      obtain rfl := hnext _ hstep
      exact absurd (hnone.symm.trans (h.leadsOn rfl hs)) (by simp)

/-- A way that can only be followed after directories have been made begins where nothing was, or at
a link that led nowhere. -/
theorem Grown.cases_of_stuck (h : Grown before after)
    (hstuck : ∀ goal left, ¬before.Leads m r [name] goal left)
    (hleads : after.Leads m r (name :: names) q left) :
    before.entryAt? r = none ∨
      ∃ s, before.step r name = .ok s ∧ before.entryAt? s ≠ none := by
  have hstep : ∃ s, after.step r name = .ok s := by
    cases hleads with
    | pass hstep _ _ => exact ⟨_, hstep⟩
    | twin hstep _ _ => exact ⟨_, hstep⟩
    | link hstep _ _ => exact ⟨_, hstep⟩
  obtain ⟨s, hstep⟩ := hstep
  obtain ⟨hdirectory, hsearch, hname, hnext⟩ := step_eq_ok_iff.mp hstep
  cases hr : before.entryAt? r with
  | none => exact Or.inl rfl
  | some e =>
    have he : e = .directory := Option.some.inj ((h.keeps r e hr).symm.trans hdirectory)
    rw [denial?, h.denials] at hsearch
    have hbefore : before.step r name = .ok s :=
      step_eq_ok_iff.mpr ⟨he ▸ hr, hsearch, hname, hnext⟩
    refine Or.inr ⟨s, hbefore, fun hnone => hstuck s m (.pass hbefore (fun e he => ?_) .nil)⟩
    exact absurd (hnone.symm.trans he) (by simp)

/-- Where a path that descends cannot be followed, it steps back no more. -/
theorem Descends.dots_not_mem {p : Path} (h : before.Descends p) {above rest : List Text}
    (hnames : p.names = above ++ name :: rest)
    (habove : before.Leads maxLinks (before.start p) above r m)
    (hstuck : ∀ goal left, ¬before.Leads m r [name] goal left) : "..".toList ∉ name :: rest := by
  obtain ⟨above', below, hnames', ⟨q, left, hleads⟩, hdots⟩ := h
  rcases List.append_eq_append_iff.mp (hnames.symm.trans hnames') with
    ⟨more, rfl, hmore⟩ | ⟨more, rfl, rfl⟩
  · cases more with
    | nil => rwa [hmore, List.nil_append]
    | cons x more =>
      obtain ⟨rfl, -⟩ := List.cons.inj hmore
      exact absurd hleads (stuck_append habove hstuck more q left)
  · exact fun hmem => hdots (List.mem_append_right more hmem)

/-- **An old entry that a path leads to after its directories have been made** is one that it led to
before, if the path descends. -/
theorem WellFormed.place_of_ensureDirectories (hbefore : before.WellFormed) {p : Path}
    (hmade : before.ensureDirectories p.parent = (after, none)) (hp : before.Descends p)
    (hplace : after.place p = .ok q) (hthere : before.entryAt? q ≠ none) :
    before.place p = .ok q := by
  have hgrown : Grown before after := by
    have := grown_ensureDirectories before p.parent
    rwa [hmade] at this
  obtain ⟨hcheck, left, hleads⟩ := place_eq_ok_iff.mp hplace
  rw [hgrown.keepsWays.start] at hleads
  by_contra hnot
  have hnowhere : ∀ goal left', ¬before.Leads maxLinks (before.start p) p.names goal left' := by
    intro goal left' hold
    obtain ⟨rfl, -⟩ := (hgrown.keepsWays.leads hold).unique hleads
    exact hnot (place_eq_ok_iff.mpr ⟨hcheck, left', hold⟩)
  obtain ⟨above, name, rest, r, m, hnames, habove, hstuck⟩ := exists_stuck hnowhere
  have hrest : after.Leads m r (name :: rest) q left := by
    rw [hnames] at hleads
    obtain ⟨r', m', habove', hrest⟩ := leads_append_iff.mp hleads
    obtain ⟨rfl, rfl⟩ := (hgrown.keepsWays.leads habove).unique habove'
    exact hrest
  rcases hgrown.cases_of_stuck hstuck hrest with hnone | ⟨s, hstep, hs⟩
  · -- nothing was there, so nothing old is below
    have hdots := hp.dots_not_mem hnames habove hstuck
    rw [hgrown.eq_append_of_leads hbefore hnone hdots hrest] at hthere
    exact hthere (hbefore.entryAt?_append hnone _)
  · -- a link leads nowhere
    obtain ⟨hdirectory, -⟩ := step_eq_ok_iff.mp hstep
    rcases List.eq_nil_or_concat rest with rfl | ⟨rest, last, rfl⟩
    · have hparent : p.parent.names = above := by rw [Path.parent, hnames, List.dropLast_concat]
      have hsame := eq_of_ensureDirectories hmade (hparent ▸ habove) hdirectory
      rw [hsame] at hleads
      exact hnowhere q left hleads
    · have hparent : p.parent = ⟨p.anchor, above ++ name :: rest⟩ := by
        rw [Path.parent, hnames, List.concat_eq_append, ← List.cons_append, ← List.append_assoc,
          List.dropLast_concat]
      have habove' : before.Leads maxLinks (before.start ⟨p.anchor, []⟩) above r m := habove
      obtain ⟨e, he⟩ := exists_error_of_stuck habove' hstep hs hstuck rest
      rw [hparent, he] at hmade
      exact absurd (Prod.mk.inj hmade).2 (by simp)

end Old

/-! ### Writing files -/

/-- A file can be **put** at a place: nothing but a file stands there. -/
def TakesFile (tree : FileTree) (q : Place) : Prop :=
  ∀ e, tree.entryAt? q = some e → ∃ content, e = .file content

section Files

variable {tree : FileTree} {p : Path} {q : Place} {old content : Bytes}

/-- **What is opened**: the place that the path leads to, where nothing or a file stands. -/
theorem of_openAt (h : tree.openAt p = .ok (q, old)) :
    tree.place p = .ok q ∧ tree.TakesFile q := by
  rw [openAt] at h
  split at h
  · exact absurd h (by simp)
  · rename_i place hplace
    split at h
    · rename_i hnone
      obtain ⟨rfl, -⟩ := Prod.mk.inj (eq_of_unlessDenied h)
      exact ⟨hplace, fun e he => absurd (hnone.symm.trans he) (by simp)⟩
    · rename_i content hfile
      obtain ⟨rfl, -⟩ := Prod.mk.inj (eq_of_unlessDenied h)
      exact ⟨hplace, fun e he => ⟨content, Option.some.inj (he.symm.trans hfile)⟩⟩
    · exact absurd h (by simp)
    · exact absurd h (by simp)

theorem TakesFile.ne_directory (h : tree.TakesFile q) : tree.entryAt? q ≠ some .directory := by
  intro hdirectory
  obtain ⟨content, hcontent⟩ := h _ hdirectory
  exact absurd hcontent (by simp)

theorem TakesFile.fileAt?_put (h : tree.TakesFile q) (content : Bytes) (r : Place) :
    (tree.put q (.file content)).fileAt? r = if r = q then some content else tree.fileAt? r := by
  rw [fileAt?, entryAt?_put h.ne_directory]
  by_cases hr : r = q
  · rw [if_pos hr, if_pos hr]
  · rw [if_neg hr, if_neg hr, fileAt?]

theorem TakesFile.keeps_put (h : tree.TakesFile q) (content : Bytes) :
    Keeps tree (tree.put q (.file content)) := by
  refine ⟨here_put _ _ _, denials_put _ _ _, fun r hr => ?_, fun r e he => ?_⟩
  · rw [entryAt?_put h.ne_directory, if_neg, hr]
    rintro rfl
    exact h.ne_directory hr
  · rw [entryAt?_put h.ne_directory]
    split
    · rename_i hr
      subst hr
      constructor
      · intro hfile
        rw [← Option.some.inj hfile] at he
        exact absurd he (by simp [Entry.leadsOn])
      · intro hold
        obtain ⟨content, rfl⟩ := h e hold
        exact absurd he (by simp [Entry.leadsOn])
    · rfl

end Files

/-! ### Trees that are refilled -/

/-- A tree has been **refilled** if nothing has changed but the contents of files that are there. -/
structure Refilled (before after : FileTree) : Prop where
  here : after.here = before.here
  denials : after.denials = before.denials
  bounds : after.bounds = before.bounds
  entries : ∀ q, after.entryAt? q = before.entryAt? q ∨
    ∃ old new, before.entryAt? q = some (.file old) ∧ after.entryAt? q = some (.file new)

theorem Refilled.refl (tree : FileTree) : Refilled tree tree :=
  ⟨rfl, rfl, rfl, fun _ => Or.inl rfl⟩

theorem Refilled.trans {a b c : FileTree} (h : Refilled a b) (h' : Refilled b c) :
    Refilled a c where
  here := h'.here.trans h.here
  denials := h'.denials.trans h.denials
  bounds := h'.bounds.trans h.bounds
  entries q := by
    rcases h'.entries q with hsame' | ⟨old', new', hold', hnew'⟩
    · rw [hsame']
      exact h.entries q
    · rcases h.entries q with hsame | ⟨old, new, hold, -⟩
      · exact Or.inr ⟨old', new', hsame ▸ hold', hnew'⟩
      · exact Or.inr ⟨old, new', hold, hnew'⟩

/-- What is no file stays as it is. -/
theorem Refilled.entryAt?_eq {before after : FileTree} (h : Refilled before after) {q : Place}
    (hq : ∀ content, before.entryAt? q ≠ some (.file content)) :
    after.entryAt? q = before.entryAt? q := by
  rcases h.entries q with hsame | ⟨old, -, hold, -⟩
  · exact hsame
  · exact absurd hold (hq old)

theorem Refilled.keeps {before after : FileTree} (h : Refilled before after) :
    Keeps before after := by
  refine ⟨h.here, h.denials, fun q hq => ?_, fun q e he => ?_⟩
  · rw [h.entryAt?_eq (by rw [hq]; simp), hq]
  · rcases h.entries q with hsame | ⟨old, new, hold, hnew⟩
    · rw [hsame]
    · -- a file does not lead on, whatever is in it
      rw [hold, hnew]
      have hne : ∀ content, e ≠ .file content := by
        rintro content rfl
        exact absurd he (by simp [Entry.leadsOn])
      exact iff_of_false (fun heq => hne new (Option.some.inj heq).symm)
        (fun heq => hne old (Option.some.inj heq).symm)

/-- Writing to a file that is there changes only its content. -/
theorem refilled_put_file {tree : FileTree} {q : Place} {old : Bytes}
    (h : tree.entryAt? q = some (.file old)) (content : Bytes) :
    Refilled tree (tree.put q (.file content)) := by
  refine ⟨here_put _ _ _, denials_put _ _ _, bounds_put _ _ _, fun r => ?_⟩
  rw [entryAt?_put (by rw [h]; simp)]
  split
  · rename_i hr
    exact Or.inr ⟨old, content, hr ▸ h, rfl⟩
  · exact Or.inl rfl

end LabelLoop.FileTree
