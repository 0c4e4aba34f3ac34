import LabelLoop.Files.Tree
import Mathlib.Data.List.Induction
import Mathlib.Tactic.Common

/-!
# Where paths lead

Following the names of a path is a walk over directories and links.  `Leads` says what such a walk
does without saying how it is done, and `walk_eq_ok_iff` says that it is done so: a name leads on to
a place, from a link the way goes on where its target leads, and another name of a file leads to
the file.  Ways can be joined and cut at any name (`leads_append_iff`).

What a path leads to depends on the directories and links on its way only.  So it does not change
when a tree keeps these (`Keeps.leads`).
-/

namespace LabelLoop

/-- What stands at a place **leads on** to another one. -/
def Entry.leadsOn : Entry → Bool
  | .link _ | .twin _ => true
  | _ => false

namespace FileTree

open Text

/-! ### Ways -/

/-- **One step leaves a directory** that is there and that one may go on from, over a name that is
not too long. -/
theorem step_eq_ok_iff {tree : FileTree} {place q : Place} {name : Text} :
    tree.step place name = .ok q ↔
      tree.entryAt? place = some .directory ∧ tree.denial? place .search = none ∧
        byteLength name ≤ 255 ∧ next place name = q := by
  rw [step]
  cases tree.entryAt? place with
  | none => simp
  | some e =>
    cases e with
    | directory =>
      cases tree.denial? place .search with
      | some cause => simp
      | none =>
        by_cases hlong : 255 < byteLength name
        · simp [hlong, Nat.not_le.mpr hlong]
        · simp [hlong, Nat.not_lt.mp hlong]
    | file content | link target | twin r => simp

/-- From a place names **lead** to another one, where the numbers tell how many links may be
followed before and after. -/
inductive Leads (tree : FileTree) : Nat → Place → List Text → Place → Nat → Prop
  | nil {links : Nat} {place : Place} : Leads tree links place [] place links
  | pass {links left : Nat} {place q goal : Place} {name : Text} {names : List Text}
      (hstep : tree.step place name = .ok q)
      (hq : ∀ e, tree.entryAt? q = some e → e.leadsOn = false)
      (h : Leads tree links q names goal left) : Leads tree links place (name :: names) goal left
  | twin {links left : Nat} {place q r goal : Place} {name : Text} {names : List Text}
      (hstep : tree.step place name = .ok q) (hq : tree.entryAt? q = some (.twin r))
      (h : Leads tree links r names goal left) : Leads tree links place (name :: names) goal left
  | link {links left : Nat} {place q goal : Place} {name : Text} {names : List Text} {target : Path}
      (hstep : tree.step place name = .ok q) (hq : tree.entryAt? q = some (.link target))
      (h : Leads tree links (startFrom place target) (target.names ++ names) goal left) :
      Leads tree (links + 1) place (name :: names) goal left

variable {tree : FileTree} {links left : Nat} {origin q goal : Place} {name : Text}
  {names : List Text}

/-- How a walk goes on behind a link. -/
def jump (tree : FileTree) : Nat → Place → List Text → Except Cause (Place × Nat)
  | 0, _, _ => .error .tooManyLinks
  | links + 1, place, names => tree.walk links place names

theorem walk_eq (tree : FileTree) (links : Nat) :
    tree.walk links = tree.walkWith links (tree.jump links) := by
  cases links <;> rfl

/-- Between two links a walk goes over one name after another. -/
theorem leads_of_walkWith {jump : Place → List Text → Except Cause (Place × Nat)}
    (hjump : ∀ place names, jump place names = .ok (goal, left) →
      ∃ k, links = k + 1 ∧ tree.Leads k place names goal left)
    (h : tree.walkWith links jump origin names = .ok (goal, left)) :
    tree.Leads links origin names goal left := by
  induction names generalizing origin with
  | nil =>
    obtain ⟨rfl, rfl⟩ := Prod.mk.inj (Except.ok.inj h)
    exact .nil
  | cons name names ih =>
    rw [walkWith] at h
    split at h
    · exact absurd h (by simp)
    · rename_i q hstep
      split at h
      · rename_i target hq
        obtain ⟨k, rfl, hleads⟩ := hjump _ _ h
        exact .link hstep hq hleads
      · rename_i r hq
        exact .twin hstep hq (ih h)
      · rename_i hlink htwin
        refine .pass hstep (fun e he => ?_) (ih h)
        cases e with
        | link target => exact absurd he (hlink target)
        | twin r => exact absurd he (htwin r)
        | file content | directory => rfl

theorem leads_of_walk (h : tree.walk links origin names = .ok (goal, left)) :
    tree.Leads links origin names goal left := by
  induction links generalizing origin names with
  | zero => exact leads_of_walkWith (fun _ _ h => absurd h (by simp)) h
  | succ links ih => exact leads_of_walkWith (fun _ _ h => ⟨links, rfl, ih h⟩) h

theorem walk_of_leads (h : tree.Leads links origin names goal left) :
    tree.walk links origin names = .ok (goal, left) := by
  induction h with
  | nil => rw [walk_eq, walkWith]
  | @pass links left place q goal name names hstep hq _ ih =>
    rw [walk_eq] at ih ⊢
    rw [walkWith, hstep]
    dsimp only
    split
    · rename_i target hlink
      exact absurd (hq _ hlink) (by simp [Entry.leadsOn])
    · rename_i r htwin
      exact absurd (hq _ htwin) (by simp [Entry.leadsOn])
    · exact ih
  | twin hstep hq _ ih =>
    rw [walk_eq] at ih ⊢
    rw [walkWith, hstep]
    dsimp only
    rw [hq]
    exact ih
  | link hstep hq _ ih =>
    rw [walk_eq, walkWith, hstep]
    dsimp only
    rw [hq]
    exact ih

/-- **A walk goes where the names lead.** -/
theorem walk_eq_ok_iff :
    tree.walk links origin names = .ok (goal, left) ↔ tree.Leads links origin names goal left :=
  ⟨leads_of_walk, walk_of_leads⟩

theorem Leads.unique {goal' : Place} {left' : Nat} (h : tree.Leads links origin names goal left)
    (h' : tree.Leads links origin names goal' left') : goal = goal' ∧ left = left' :=
  Prod.mk.inj (Except.ok.inj ((walk_eq_ok_iff.mpr h).symm.trans (walk_eq_ok_iff.mpr h')))

/-- **Ways can be joined and cut.** -/
theorem leads_append_iff {a b : List Text} :
    tree.Leads links origin (a ++ b) goal left ↔
      ∃ r m, tree.Leads links origin a r m ∧ tree.Leads m r b goal left := by
  constructor
  · intro h
    generalize hnames : a ++ b = names at h
    induction h generalizing a with
    | @nil links place =>
      obtain ⟨rfl, rfl⟩ := List.append_eq_nil_iff.mp hnames
      exact ⟨place, links, .nil, .nil⟩
    | @pass links left place q goal name names hstep hq h ih =>
      rcases List.append_eq_cons_iff.mp hnames with ⟨rfl, rfl⟩ | ⟨a, rfl, rfl⟩
      · exact ⟨place, links, .nil, .pass hstep hq h⟩
      · obtain ⟨r, m, ha, hb⟩ := ih rfl
        exact ⟨r, m, .pass hstep hq ha, hb⟩
    | @twin links left place q r goal name names hstep hq h ih =>
      rcases List.append_eq_cons_iff.mp hnames with ⟨rfl, rfl⟩ | ⟨a, rfl, rfl⟩
      · exact ⟨place, links, .nil, .twin hstep hq h⟩
      · obtain ⟨r, m, ha, hb⟩ := ih rfl
        exact ⟨r, m, .twin hstep hq ha, hb⟩
    | @link links left place q goal name names target hstep hq h ih =>
      rcases List.append_eq_cons_iff.mp hnames with ⟨rfl, rfl⟩ | ⟨a, rfl, rfl⟩
      · exact ⟨place, links + 1, .nil, .link hstep hq h⟩
      · obtain ⟨r, m, ha, hb⟩ := ih (List.append_assoc _ _ _)
        exact ⟨r, m, .link hstep hq ha, hb⟩
  · rintro ⟨r, m, ha, hb⟩
    induction ha with
    | nil => exact hb
    | pass hstep hq _ ih => exact .pass hstep hq (ih hb)
    | twin hstep hq _ ih => exact .twin hstep hq (ih hb)
    | link hstep hq _ ih =>
      have hnames := ih hb
      rw [List.append_assoc] at hnames
      exact .link hstep hq hnames

/-- A single name leads to the place of its step, unless what stands there leads on. -/
theorem Leads.step_of_singleton (h : tree.Leads links origin [name] goal left) :
    ∃ q, tree.step origin name = .ok q ∧
      (goal = q ∨ ∃ e, tree.entryAt? q = some e ∧ e.leadsOn = true) := by
  cases h with
  | pass hstep _ h =>
    cases h
    exact ⟨goal, hstep, Or.inl rfl⟩
  | twin hstep hq _ => exact ⟨_, hstep, Or.inr ⟨_, hq, rfl⟩⟩
  | link hstep hq _ => exact ⟨_, hstep, Or.inr ⟨_, hq, rfl⟩⟩

/-- Names that lead nowhere lead up to one that cannot be followed. -/
theorem exists_stuck (h : ∀ goal left, ¬tree.Leads links origin names goal left) :
    ∃ above name rest r m, names = above ++ name :: rest ∧ tree.Leads links origin above r m ∧
      ∀ goal left, ¬tree.Leads m r [name] goal left := by
  induction names using List.reverseRecOn with
  | nil => exact absurd .nil (h origin links)
  | append_singleton init last ih =>
    by_cases hinit : ∃ r m, tree.Leads links origin init r m
    · obtain ⟨r, m, hinit⟩ := hinit
      exact ⟨init, last, [], r, m, rfl, hinit,
        fun goal left hlast => h goal left (leads_append_iff.mpr ⟨r, m, hinit, hlast⟩)⟩
    · obtain ⟨above, name, rest, r, m, rfl, habove, hname⟩ :=
        ih fun goal left hleads => hinit ⟨goal, left, hleads⟩
      exact ⟨above, name, rest ++ [last], r, m, by simp, habove, hname⟩

/-! ### Paths -/

theorem locate_eq_ok_iff {p : Path} {found : Except Cause Place} :
    locate p found = .ok q ↔ checkPath p = .ok () ∧ found = .ok q := by
  rw [locate]
  cases checkPath p with
  | error e => simp
  | ok u => cases found <;> simp [Except.mapError]

/-- **Where a path leads.** -/
theorem place_eq_ok_iff {p : Path} :
    tree.place p = .ok q ↔
      checkPath p = .ok () ∧ ∃ left, tree.Leads maxLinks (tree.start p) p.names q left := by
  rw [place, locate_eq_ok_iff]
  refine and_congr_right fun _ => ?_
  constructor
  · intro h
    cases hwalk : tree.walk maxLinks (tree.start p) p.names with
    | error cause =>
      rw [hwalk] at h
      exact absurd h (by simp [Except.map])
    | ok goal =>
      rw [hwalk] at h
      rw [← Except.ok.inj h]
      exact ⟨goal.2, walk_eq_ok_iff.mp hwalk⟩
  · rintro ⟨left, h⟩
    rw [walk_eq_ok_iff.mpr h]
    rfl

/-- **Which place a path names.** -/
theorem spot_eq_ok_iff {p : Path} {above : List Text} (hnames : p.names = above ++ [name]) :
    tree.spot p = .ok q ↔
      checkPath p = .ok () ∧
        ∃ r m, tree.Leads maxLinks (tree.start p) above r m ∧ tree.step r name = .ok q := by
  rw [spot, locate_eq_ok_iff, hnames, List.getLast?_concat, List.dropLast_concat]
  refine and_congr_right fun _ => ?_
  dsimp only
  constructor
  · intro h
    split at h
    · exact absurd h (by simp)
    · rename_i r m hwalk
      exact ⟨r, m, walk_eq_ok_iff.mp hwalk, h⟩
  · rintro ⟨r, m, habove, hstep⟩
    rw [walk_eq_ok_iff.mpr habove]
    exact hstep

/-- A path leads to the place that it names, unless what stands there leads on. -/
theorem place_of_spot {p : Path} (hspot : tree.spot p = .ok q)
    (hq : ∀ e, tree.entryAt? q = some e → e.leadsOn = false) : tree.place p = .ok q := by
  rcases List.eq_nil_or_concat p.names with hnil | ⟨above, name, hnames⟩
  · rw [spot, hnil, List.getLast?_nil, locate_eq_ok_iff] at hspot
    obtain ⟨hcheck, hstart⟩ := hspot
    obtain rfl := Except.ok.inj hstart
    exact place_eq_ok_iff.mpr ⟨hcheck, maxLinks, hnil ▸ .nil⟩
  · rw [List.concat_eq_append] at hnames
    obtain ⟨hcheck, r, m, habove, hstep⟩ := (spot_eq_ok_iff hnames).mp hspot
    refine place_eq_ok_iff.mpr ⟨hcheck, m, ?_⟩
    rw [hnames]
    exact leads_append_iff.mpr ⟨r, m, habove, .pass hstep hq .nil⟩

/-- A path that leads somewhere names a place, from which it may be led on. -/
theorem exists_spot_of_place {p : Path} (hplace : tree.place p = .ok q) :
    ∃ r, tree.spot p = .ok r ∧ (q = r ∨ ∃ e, tree.entryAt? r = some e ∧ e.leadsOn = true) := by
  obtain ⟨hcheck, left, hleads⟩ := place_eq_ok_iff.mp hplace
  rcases List.eq_nil_or_concat p.names with hnil | ⟨above, name, hnames⟩
  · rw [hnil] at hleads
    cases hleads
    refine ⟨tree.start p, ?_, Or.inl rfl⟩
    rw [spot, hnil, List.getLast?_nil, locate_eq_ok_iff]
    exact ⟨hcheck, rfl⟩
  · rw [List.concat_eq_append] at hnames
    rw [hnames] at hleads
    obtain ⟨r, m, habove, hname⟩ := leads_append_iff.mp hleads
    obtain ⟨s, hstep, hs⟩ := hname.step_of_singleton
    exact ⟨s, (spot_eq_ok_iff hnames).mpr ⟨hcheck, r, m, habove, hstep⟩, hs⟩

theorem find?_eq_some_iff {p : Path} {e : Entry} :
    tree.find? p = some e ↔ ∃ q, tree.place p = .ok q ∧ tree.entryAt? q = some e := by
  rw [find?]
  cases tree.place p with
  | error cause => simp
  | ok q => simp

/-- What a path leads to is there. -/
theorem isThere_of_place {p : Path} (hq : tree.place p = .ok q) :
    tree.isThere p = .ok (tree.entryAt? q).isSome := by
  rw [isThere, hq]

/-! ### Trees in which everything stands in a directory -/

/-- A tree is **well formed** if whatever stands in it stands in a directory. -/
def WellFormed (tree : FileTree) : Prop :=
  ∀ place name, tree.entryAt? (place ++ [name]) ≠ none → tree.entryAt? place = some .directory

/-- It is enough to look at the entries. -/
theorem wellFormed_iff (tree : FileTree) :
    tree.WellFormed ↔ ∀ entry ∈ tree.entries, tree.entryAt? entry.1.dropLast = some .directory := by
  constructor
  · rintro h ⟨place, e⟩ hentry
    rcases List.eq_nil_or_concat place with rfl | ⟨above, name, rfl⟩
    · exact if_pos rfl
    · rw [List.concat_eq_append] at hentry ⊢
      rw [List.dropLast_concat]
      apply h above name
      rw [entryAt?]
      split
      · exact Option.some_ne_none _
      · intro hnone
        have hne := List.lookup_eq_none_iff.mp hnone _ hentry
        simp at hne
  · intro h place name hthere
    rw [entryAt?] at hthere
    split at hthere
    · rename_i hbelow
      have hshorter : place <+: tree.here :=
        (List.prefix_append place [name]).trans (List.isPrefixOf_iff_prefix.mp hbelow)
      exact if_pos (List.isPrefixOf_iff_prefix.mpr hshorter)
    · obtain ⟨e, he⟩ := Option.ne_none_iff_exists'.mp hthere
      obtain ⟨before, after, hentries, -⟩ := List.lookup_eq_some_iff.mp he
      have := h (place ++ [name], e) (by rw [hentries]; simp)
      rwa [List.dropLast_concat] at this

instance (tree : FileTree) : Decidable tree.WellFormed :=
  decidable_of_iff _ tree.wellFormed_iff.symm

/-- Below a place where nothing stands there is nothing. -/
theorem WellFormed.entryAt?_next (h : tree.WellFormed) (hnone : tree.entryAt? origin = none)
    (name : Text) : tree.entryAt? (origin ++ [name]) = none := by
  by_contra hthere
  exact absurd (hnone.symm.trans (h origin name hthere)) (by simp)

theorem WellFormed.entryAt?_append (h : tree.WellFormed) (hnone : tree.entryAt? origin = none)
    (names : List Text) : tree.entryAt? (origin ++ names) = none := by
  induction names using List.reverseRecOn with
  | nil => rwa [List.append_nil]
  | append_singleton names name ih =>
    rw [← List.append_assoc]
    exact h.entryAt?_next ih name

/-- A path **descends** if it steps back with two dots only where it can be followed. -/
def Descends (tree : FileTree) (p : Path) : Prop :=
  ∃ above below, p.names = above ++ below ∧
    (∃ q left, tree.Leads maxLinks (tree.start p) above q left) ∧ "..".toList ∉ below

/-! ### Trees that keep their ways -/

/-- After a change all **ways are kept**: directories stay, and the same places lead on. -/
structure Keeps (before after : FileTree) : Prop where
  here : after.here = before.here
  denials : after.denials = before.denials
  directories : ∀ q, before.entryAt? q = some .directory → after.entryAt? q = some .directory
  leadsOn : ∀ q e, e.leadsOn = true → (after.entryAt? q = some e ↔ before.entryAt? q = some e)

variable {before after : FileTree}

theorem Keeps.refl (tree : FileTree) : Keeps tree tree :=
  ⟨rfl, rfl, fun _ h => h, fun _ _ _ => Iff.rfl⟩

theorem Keeps.trans {a b c : FileTree} (h : Keeps a b) (h' : Keeps b c) : Keeps a c where
  here := h'.here.trans h.here
  denials := h'.denials.trans h.denials
  directories q hq := h'.directories q (h.directories q hq)
  leadsOn q e he := (h'.leadsOn q e he).trans (h.leadsOn q e he)

theorem Keeps.start (h : Keeps before after) (p : Path) : after.start p = before.start p := by
  rw [FileTree.start, FileTree.start, h.here]

theorem Keeps.step (h : Keeps before after) (hstep : before.step origin name = .ok q) :
    after.step origin name = .ok q := by
  obtain ⟨hdirectory, hsearch, hname, hnext⟩ := step_eq_ok_iff.mp hstep
  refine step_eq_ok_iff.mpr ⟨h.directories _ hdirectory, ?_, hname, hnext⟩
  rw [denial?, h.denials]
  exact hsearch

/-- **A way that can be followed leads to the same place afterwards.** -/
theorem Keeps.leads (h : Keeps before after) (hleads : before.Leads links origin names goal left) :
    after.Leads links origin names goal left := by
  induction hleads with
  | nil => exact .nil
  | pass hstep hq _ ih =>
    refine .pass (h.step hstep) (fun e he => ?_) ih
    by_contra hon
    rw [Bool.not_eq_false] at hon
    exact absurd ((hq e ((h.leadsOn _ e hon).mp he)).symm.trans hon) Bool.false_ne_true
  | twin hstep hq _ ih => exact .twin (h.step hstep) ((h.leadsOn _ _ rfl).mpr hq) ih
  | link hstep hq _ ih => exact .link (h.step hstep) ((h.leadsOn _ _ rfl).mpr hq) ih

theorem Keeps.place (h : Keeps before after) {p : Path} (hplace : before.place p = .ok q) :
    after.place p = .ok q := by
  obtain ⟨hcheck, left, hleads⟩ := place_eq_ok_iff.mp hplace
  exact place_eq_ok_iff.mpr ⟨hcheck, left, by rw [h.start]; exact h.leads hleads⟩

theorem Keeps.spot (h : Keeps before after) {p : Path} (hspot : before.spot p = .ok q) :
    after.spot p = .ok q := by
  rcases List.eq_nil_or_concat p.names with hnil | ⟨above, name, hnames⟩
  · rw [FileTree.spot, hnil, List.getLast?_nil] at hspot ⊢
    rw [h.start]
    exact hspot
  · rw [List.concat_eq_append] at hnames
    obtain ⟨hcheck, r, m, habove, hstep⟩ := (spot_eq_ok_iff hnames).mp hspot
    refine (spot_eq_ok_iff hnames).mpr ⟨hcheck, r, m, ?_, h.step hstep⟩
    rw [h.start]
    exact h.leads habove

end FileTree

end LabelLoop
