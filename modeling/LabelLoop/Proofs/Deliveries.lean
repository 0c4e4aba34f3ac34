import LabelLoop.CommandLine.Run
import LabelLoop.Proofs.Installing
import LabelLoop.Proofs.Trees

/-!
# What a delivery does to the files

Storing a result has three ends (`store_cases`).  It makes some directories and fails; or it leaves
the result at the place that the output path leads to then, with every other file as it was
(`Stored`); or the file there does not take all of the result, and keeps the beginning of it.  A
place that is free and takes whatever is written can be stored to (`store_of_free`).

The log can only touch its own file.  Whatever holds of a tree and is kept when a line is added to a
log file holds after any number of records (`writeRecords_tree`), so a log that is set up without a
file leaves the tree alone (`tree_writeRecords`), and one with a file only refills it
(`refilled_writeRecords`).
-/

namespace LabelLoop

open Text

namespace FileTree

/-! ### Free places -/

theorem checkPath_eq_ok_iff {p : Path} :
    checkPath p = .ok () ↔
      p.names.any (·.contains '\x00') = false ∧ byteLength p.toText < 4096 := by
  rw [checkPath]
  cases p.names.any (·.contains '\x00') with
  | true => simp
  | false =>
    by_cases hlong : 4096 ≤ byteLength p.toText
    · simp [hlong, Nat.not_lt.mpr hlong]
    · simp [hlong, Nat.not_le.mp hlong]

theorem byteLength_le_of_begins {t u : Text} (h : t <+: u) : byteLength t ≤ byteLength u := by
  obtain ⟨rest, rfl⟩ := h
  rw [byteLength, byteLength, List.flatMap_append, List.length_append]
  exact Nat.le_add_right _ _

theorem intercalate_dropLast_begins (separator : Text) (names : List Text) :
    List.intercalate separator names.dropLast <+: List.intercalate separator names := by
  induction names with
  | nil => exact List.prefix_refl _
  | cons name names ih =>
    cases names with
    | nil => exact List.nil_prefix
    | cons name' names =>
      rw [List.dropLast_cons_cons, List.intercalate_cons_cons]
      cases hrest : (name' :: names).dropLast with
      | nil =>
        rw [List.intercalate_singleton, List.append_assoc]
        exact List.prefix_append _ _
      | cons name'' names' =>
        rw [List.intercalate_cons_cons, ← hrest]
        exact (List.prefix_append_right_inj _).mpr ih

/-- The directory of a path is written as the beginning of the path, or as a single dot. -/
theorem toText_parent (p : Path) : p.parent.toText = ['.'] ∨ p.parent.toText <+: p.toText := by
  have hjoined := intercalate_dropLast_begins ['/'] p.names
  rw [Path.toText, Path.toText, Path.parent]
  cases hanchor : p.anchor with
  | root => exact Or.inr ((List.prefix_cons_inj _).mpr hjoined)
  | doubleRoot =>
    exact Or.inr ((List.prefix_cons_inj _).mpr ((List.prefix_cons_inj _).mpr hjoined))
  | here =>
    dsimp only
    by_cases hempty : p.names.dropLast = []
    · exact Or.inl (by rw [hempty]; rfl)
    · have hnames : p.names ≠ [] := fun h => hempty (by rw [h]; rfl)
      rw [List.isEmpty_eq_false_iff.mpr hempty, List.isEmpty_eq_false_iff.mpr hnames]
      exact Or.inr hjoined

/-- The directory of a path can be asked about if the path can. -/
theorem checkPath_parent {p : Path} (h : checkPath p = .ok ()) : checkPath p.parent = .ok () := by
  rw [checkPath_eq_ok_iff] at h ⊢
  obtain ⟨hnull, hlength⟩ := h
  refine ⟨?_, ?_⟩
  · rw [List.any_eq_false] at hnull ⊢
    exact fun name hname => hnull name (List.dropLast_subset _ hname)
  · rcases toText_parent p with hdot | hbegins
    · rw [hdot]
      decide
    · exact Nat.lt_of_le_of_lt (byteLength_le_of_begins hbegins) hlength

/-- A **free** place for a new file, which a path names: nothing stands there, not even a link that
leads nowhere, and one may make a file of any size there. -/
structure Free (tree : FileTree) (p : Path) (q : Place) : Prop where
  spot : tree.spot p = .ok q
  vacant : tree.entryAt? q = none
  allowed : tree.denial? q.dropLast .write = none
  unbounded : tree.bounds.lookup q = none

variable {tree before after : FileTree} {p : Path} {q : Place}

theorem Free.place (h : tree.Free p q) : tree.place p = .ok q :=
  place_of_spot h.spot fun e he => absurd (h.vacant.symm.trans he) (by simp)

theorem Free.isThere (h : tree.Free p q) : tree.isThere p = .ok false := by
  rw [isThere_of_place h.place, h.vacant, Option.isSome_none]

theorem Free.openAt (h : tree.Free p q) : tree.openAt p = .ok (q, []) := by
  rw [FileTree.openAt, h.place]
  dsimp only
  rw [h.vacant]
  dsimp only
  rw [unlessDenied, h.allowed]

theorem entryAt?_start (tree : FileTree) (p : Path) :
    tree.entryAt? (tree.start p) = some .directory := by
  rw [start, startFrom]
  split
  · exact if_pos (List.isPrefixOf_iff_prefix.mpr (List.prefix_refl _))
  · exact if_pos rfl

/-- The directory of a free place is there. -/
theorem Free.find?_parent (h : tree.Free p q) : tree.find? p.parent = some .directory := by
  obtain ⟨hcheck, -⟩ := place_eq_ok_iff.mp h.place
  rcases List.eq_nil_or_concat p.names with hnil | ⟨above, name, hnames⟩
  · have hspot := h.spot
    rw [FileTree.spot, hnil, List.getLast?_nil, locate_eq_ok_iff] at hspot
    have hstart := entryAt?_start tree p
    rw [Except.ok.inj hspot.2, h.vacant] at hstart
    exact absurd hstart (by simp)
  · rw [List.concat_eq_append] at hnames
    obtain ⟨-, r, m, habove, hstep⟩ := (spot_eq_ok_iff hnames).mp h.spot
    have hparent : p.parent.names = above := by rw [Path.parent, hnames, List.dropLast_concat]
    exact find?_eq_some_iff.mpr ⟨r, place_eq_ok_iff.mpr ⟨checkPath_parent hcheck, m,
      hparent.symm ▸ habove⟩, (step_eq_ok_iff.mp hstep).1⟩

/-- A free place stays free when files are refilled. -/
theorem Free.of_refilled (h : before.Free p q) (hrefilled : Refilled before after) :
    after.Free p q where
  spot := hrefilled.keeps.spot h.spot
  vacant := by rw [hrefilled.entryAt?_eq (by rw [h.vacant]; simp), h.vacant]
  allowed := by
    rw [denial?, hrefilled.denials]
    exact h.allowed
  unbounded := by rw [hrefilled.bounds, h.unbounded]

/-! ### Files that take all or a part -/

/-- **What a file takes**: all that is written to it, or the beginning that it can hold. -/
theorem fill_cases (tree : FileTree) (q : Place) (content : Bytes) :
    (tree.refusal? q [] content = none ∧ tree.fill q [] content = tree.put q (.file content)) ∨
      ∃ bound, tree.bounds.lookup q = some bound ∧ bound.size < content.length ∧
        tree.refusal? q [] content = some bound.cause ∧
        tree.fill q [] content = tree.put q (.file (content.take bound.size)) := by
  rw [fill, refusal?, room]
  cases hbound : tree.bounds.lookup q with
  | none => exact Or.inl ⟨rfl, by rw [List.nil_append, List.take_length]⟩
  | some bound =>
    dsimp only
    rw [List.length_nil, Nat.sub_zero, List.nil_append]
    by_cases hfits : content.length ≤ bound.size
    · rw [if_pos hfits, List.take_of_length_le hfits]
      exact Or.inl ⟨rfl, rfl⟩
    · rw [if_neg hfits]
      exact Or.inr ⟨bound, rfl, Nat.not_le.mp hfits, rfl, rfl⟩

/-- **What is added** goes into the file that the path leads to. -/
theorem exists_of_append {appended : Appended} {bytes : Bytes}
    (h : tree.append p bytes = .ok appended) :
    ∃ q content, tree.place p = .ok q ∧ tree.TakesFile q ∧
      appended.tree = tree.put q (.file content) := by
  rw [append] at h
  split at h
  · exact absurd h (by simp)
  · rename_i q old hopen
    obtain ⟨hplace, htakes⟩ := of_openAt hopen
    exact ⟨q, _, hplace, htakes, congrArg Appended.tree (Except.ok.inj h).symm⟩

end FileTree

namespace Delivery

/-! ### Storing -/

/-- A content has been **stored** at a place, to which the output path leads now.  If that place was
taken, a path that descends led there before. -/
structure Stored (before after : FileTree) (output : Path) (q : Place) (content : Bytes) :
    Prop where
  leads : after.place output = .ok q
  files : ∀ r, after.fileAt? r = if r = q then some content else before.fileAt? r
  old : before.WellFormed → before.Descends output → before.entryAt? q ≠ none →
    before.place output = .ok q

section Stored

variable {before after : FileTree} {output : Path} {q : Place} {content : Bytes}

theorem Stored.eq_of_ne (h : Stored before after output q content) {r : Place}
    (hr : after.fileAt? r ≠ before.fileAt? r) : r = q := by
  by_contra hrq
  exact hr ((h.files r).trans (if_neg hrq))

/-- A file is only **overwritten** if that has been allowed, or by a path that did not descend. -/
theorem Stored.overwritten (h : Stored before after output q content) (hwf : before.WellFormed)
    {overwrite : Bool} (hallowed : overwrite = true ∨ before.isThere output = .ok false) :
    before.fileAt? q = none ∨ overwrite = true ∨ ¬before.Descends output := by
  by_contra hnot
  simp only [not_or, not_not] at hnot
  obtain ⟨hold, hoverwrite, hdescends⟩ := hnot
  have hthere := FileTree.entryAt?_ne_none_of_fileAt? hold
  have hisThere := FileTree.isThere_of_place (h.old hwf hdescends hthere)
  rw [hallowed.resolve_left hoverwrite, Option.isSome_iff_ne_none.mpr hthere] at hisThere
  exact Bool.noConfusion (Except.ok.inj hisThere)

end Stored

/-- A **part** of a content has been stored: the file can hold no more. -/
def StoredPart (before after : FileTree) (output : Path) (q : Place) (content : Bytes) : Prop :=
  ∃ bound, before.bounds.lookup q = some bound ∧ bound.size < content.length ∧
    Stored before after output q (content.take bound.size)

variable {codecs : Codecs} {codec : Codec} {tree made after : FileTree} {output : Path}
  {encoding t : Text} {content : Bytes}

theorem stored_put {q : Place} (hmade : tree.ensureDirectories output.parent = (made, none))
    (hplace : made.place output = .ok q) (htakes : made.TakesFile q) (content : Bytes) :
    Stored tree (made.put q (.file content)) output q content where
  leads := (htakes.keeps_put content).place hplace
  files r := by
    have hgrown := FileTree.grown_ensureDirectories tree output.parent
    rw [hmade] at hgrown
    rw [htakes.fileAt?_put, hgrown.fileAt?]
  old hwf hdescends := hwf.place_of_ensureDirectories hmade hdescends hplace

/-- **What writing does** with a text that can be encoded: nothing, or the file is opened and takes
all of the text or a part. -/
theorem writeText_cases (hcodec : codecs encoding = .ok codec)
    (hencode : codec.encode t = .ok content) {result : Except Failure Unit}
    (h : writeText codecs tree output encoding t = (after, result)) :
    (after = tree ∧ ∃ f, result = .error f) ∨
      ∃ q, tree.place output = .ok q ∧ tree.TakesFile q ∧
        ((result = .ok () ∧ after = tree.put q (.file content)) ∨
          ∃ bound, tree.bounds.lookup q = some bound ∧ bound.size < content.length ∧
            result = .error (.file (.cutOff bound.cause)) ∧
            after = tree.put q (.file (content.take bound.size))) := by
  rw [writeText] at h
  split at h
  · obtain ⟨rfl, rfl⟩ := Prod.mk.inj h
    exact Or.inl ⟨rfl, _, rfl⟩
  · rename_i q old hopen
    obtain ⟨hplace, htakes⟩ := FileTree.of_openAt hopen
    refine Or.inr ⟨q, hplace, htakes, ?_⟩
    rw [hcodec] at h
    dsimp only at h
    rw [hencode] at h
    dsimp only at h
    rcases tree.fill_cases q content with
      ⟨hrefusal, hfill⟩ | ⟨bound, hbound, hsize, hrefusal, hfill⟩
    · rw [hrefusal, hfill] at h
      obtain ⟨rfl, rfl⟩ := Prod.mk.inj h
      exact Or.inl ⟨rfl, rfl⟩
    · rw [hrefusal, hfill] at h
      obtain ⟨rfl, rfl⟩ := Prod.mk.inj h
      exact Or.inr ⟨bound, hbound, hsize, rfl, rfl⟩

/-- **What storing does**: directories may be made, and then either nothing more, or the result is
stored, in whole or in part. -/
theorem store_cases (hcodec : codecs encoding = .ok codec)
    (hencode : codec.encode t = .ok content) {overwrite : Bool} {result : Except Failure Unit}
    (h : store codecs tree output overwrite encoding t = (after, result)) :
    (FileTree.Grown tree after ∧ ∃ f, result = .error f) ∨
      (overwrite = true ∨ tree.isThere output = .ok false) ∧
        ∃ q, (result = .ok () ∧ Stored tree after output q content) ∨
          (∃ cause, result = .error (.file (.cutOff cause))) ∧
            StoredPart tree after output q content := by
  rw [store] at h
  split at h
  · obtain ⟨rfl, rfl⟩ := Prod.mk.inj h
    exact Or.inl ⟨.refl tree, _, rfl⟩
  · rename_i there hthere
    split at h
    · obtain ⟨rfl, rfl⟩ := Prod.mk.inj h
      exact Or.inl ⟨.refl tree, _, rfl⟩
    · rename_i hfree
      have hgrown := FileTree.grown_ensureDirectories tree output.parent
      split at h
      · rename_i made f hmade
        obtain ⟨rfl, rfl⟩ := Prod.mk.inj h
        rw [hmade] at hgrown
        exact Or.inl ⟨hgrown, _, rfl⟩
      · rename_i made hmade
        rw [hmade] at hgrown
        rcases writeText_cases hcodec hencode h with ⟨rfl, hf⟩ | ⟨q, hplace, htakes, hwritten⟩
        · exact Or.inl ⟨hgrown, hf⟩
        · refine Or.inr ⟨?_, q, ?_⟩
          · cases overwrite with
            | true => exact Or.inl rfl
            | false =>
              cases there with
              | true => exact absurd rfl hfree
              | false => exact Or.inr hthere
          · rcases hwritten with ⟨rfl, rfl⟩ | ⟨bound, hbound, hsize, rfl, rfl⟩
            · exact Or.inl ⟨rfl, stored_put hmade hplace htakes content⟩
            · refine Or.inr ⟨⟨bound.cause, rfl⟩, bound, ?_, hsize, stored_put hmade hplace htakes _⟩
              exact hgrown.bounds ▸ hbound

/-- **A free place can be stored to.** -/
theorem store_of_free (hcodec : codecs encoding = .ok codec)
    (hencode : codec.encode t = .ok content) {q : Place} (hfree : tree.Free output q)
    (overwrite : Bool) :
    store codecs tree output overwrite encoding t = (tree.put q (.file content), .ok ()) := by
  have hrefusal : tree.refusal? q [] content = none := by rw [FileTree.refusal?, hfree.unbounded]
  have hfill : tree.fill q [] content = tree.put q (.file content) := by
    rw [FileTree.fill, FileTree.room, hfree.unbounded, List.nil_append, List.take_length]
  rw [store, hfree.isThere]
  dsimp only
  rw [Bool.false_and, if_neg Bool.false_ne_true,
    FileTree.ensureDirectories_of_find? hfree.find?_parent]
  dsimp only
  rw [writeText, hfree.openAt]
  dsimp only
  rw [hcodec]
  dsimp only
  rw [hencode]
  dsimp only
  rw [hrefusal, hfill]

theorem deliver_of_store {r : Request} (houtput : r.output = some output)
    (h : store codecs tree output r.overwrite r.encoding t = (after, .ok ()))
    (default : Except Path.SuffixError Path) :
    deliver codecs tree r default t = (after, .ok output) := by
  rw [deliver, houtput, Option.elim_some]
  dsimp only
  rw [h]

/-- **What a delivery does.** -/
theorem deliver_cases {r : Request} {default : Except Path.SuffixError Path}
    (hcodec : codecs r.encoding = .ok codec) (hencode : codec.encode t = .ok content)
    {result : Except Failure Path} (h : deliver codecs tree r default t = (after, result)) :
    (FileTree.Grown tree after ∧ ∃ f, result = .error f) ∨
      ∃ target q, r.output.elim default .ok = .ok target ∧
        (r.overwrite = true ∨ tree.isThere target = .ok false) ∧
        ((result = .ok target ∧ Stored tree after target q content) ∨
          (∃ cause, result = .error (.file (.cutOff cause))) ∧
            StoredPart tree after target q content) := by
  rw [deliver] at h
  split at h
  · obtain ⟨rfl, rfl⟩ := Prod.mk.inj h
    exact Or.inl ⟨.refl tree, _, rfl⟩
  · rename_i target htarget
    split at h
    · rename_i f hstore
      obtain ⟨rfl, rfl⟩ := Prod.mk.inj h
      rcases store_cases hcodec hencode hstore with
        ⟨hgrown, -⟩ | ⟨hallowed, q, ⟨hresult, -⟩ | ⟨⟨cause, hcause⟩, hpart⟩⟩
      · exact Or.inl ⟨hgrown, _, rfl⟩
      · exact absurd hresult (by simp)
      · obtain rfl := Except.error.inj hcause
        exact Or.inr ⟨target, q, htarget, hallowed, Or.inr ⟨⟨cause, rfl⟩, hpart⟩⟩
    · rename_i hstore
      obtain ⟨rfl, rfl⟩ := Prod.mk.inj h
      rcases store_cases hcodec hencode hstore with
        ⟨-, f, hresult⟩ | ⟨hallowed, q, ⟨-, hstored⟩ | ⟨⟨f, hresult⟩, -⟩⟩
      · exact absurd hresult (by simp)
      · exact Or.inr ⟨target, q, htarget, hallowed, Or.inl ⟨rfl, hstored⟩⟩
      · exact absurd hresult (by simp)

end Delivery

/-! ### The log -/

namespace Log

/-- What holds of a tree is **kept** when something is added to the file at a path. -/
def KeptBy (holds : FileTree → Prop) (path : Path) : Prop :=
  ∀ tree bytes appended, holds tree → FileTree.append tree path bytes = .ok appended →
    holds appended.tree

/-- **What one record does** with one handler: if the tree changes, something has been added to the
file of the handler. -/
theorem Handler.write_cases (h : Handler) (r : Record) (traces : Traces) :
    (h.write r traces).2.tree = traces.tree ∨
      ∃ path bytes appended, h.sink = .file path ∧
        traces.tree.append path bytes = .ok appended ∧
        (h.write r traces).2.tree = appended.tree := by
  rw [Handler.write]
  split
  · exact Or.inl rfl
  · split
    · exact Or.inl rfl
    · split
      · exact Or.inl rfl
      · rename_i path hsink
        split
        · exact Or.inl rfl
        · dsimp only
          rw [Handler.push]
          split
          · exact Or.inl rfl
          · rename_i appended happend
            exact Or.inr ⟨path, _, appended, hsink, happend, rfl⟩

/-- The handlers of a log write to a file. -/
def Logger.WritesTo (logger : Logger) (path : Path) : Prop :=
  ∃ h ∈ logger.handlers, h.sink = .file path

/-- Where a log writes does not depend on what it holds back. -/
theorem Logger.WritesTo.of_bare {logger logger' : Logger} (h : logger.bare = logger'.bare)
    {path : Path} (hpath : logger.WritesTo path) : logger'.WritesTo path := by
  obtain ⟨handler, hhandler, hsink⟩ := hpath
  have hmem : handler.bare ∈ logger'.handlers.map Handler.bare := by
    have hhandlers : logger.handlers.map Handler.bare = logger'.handlers.map Handler.bare :=
      congrArg Logger.handlers h
    exact hhandlers ▸ List.mem_map_of_mem hhandler
  obtain ⟨handler', hhandler', hbare⟩ := List.mem_map.mp hmem
  exact ⟨handler', hhandler', (congrArg Handler.sink hbare).trans hsink⟩

theorem writeAll_tree (holds : FileTree → Prop) (r : Record) {handlers : List Handler}
    (hkept : ∀ h ∈ handlers, ∀ path, h.sink = .file path → KeptBy holds path) {traces : Traces}
    (htraces : holds traces.tree) : holds (writeAll r handlers traces).2.tree := by
  induction handlers generalizing traces with
  | nil => exact htraces
  | cons h hs ih =>
    rw [List.forall_mem_cons] at hkept
    have hwritten : holds (h.write r traces).2.tree := by
      rcases h.write_cases r traces with hsame | ⟨path, bytes, appended, hpath, happend, hafter⟩
      · rw [hsame]
        exact htraces
      · rw [hafter]
        exact hkept.1 path hpath _ _ _ htraces happend
    exact ih hkept.2 hwritten

theorem Logger.write_tree (holds : FileTree → Prop) (r : Record) {logger : Logger}
    (hkept : ∀ path, logger.WritesTo path → KeptBy holds path) {traces : Traces}
    (htraces : holds traces.tree) : holds (logger.write r traces).2.tree := by
  rw [Logger.write]
  split
  · exact htraces
  · exact writeAll_tree holds r (fun h hh path hpath => hkept path ⟨h, hh, hpath⟩) htraces

/-- **What holds of a tree and is kept by what is added to log files** holds after any records. -/
theorem writeRecords_tree (holds : FileTree → Prop) {logger : Logger}
    (hkept : ∀ path, logger.WritesTo path → KeptBy holds path) (records : List Record)
    {traces : Traces} (htraces : holds traces.tree) :
    holds (logger.writeRecords records traces).2.tree := by
  rw [Logger.writeRecords]
  induction records generalizing logger traces with
  | nil => exact htraces
  | cons r records ih =>
    exact ih (fun path hpath => hkept path (hpath.of_bare (logger.bare_write r traces)))
      (Logger.write_tree holds r hkept htraces)

/-- All log files are there. -/
def Logger.Opened (logger : Logger) (tree : FileTree) : Prop :=
  ∀ path, logger.WritesTo path → ∃ content, tree.find? path = some (.file content)

/-- **Records only refill log files** once these are there. -/
theorem refilled_writeRecords {logger : Logger} {tree : FileTree} (h : logger.Opened tree)
    (records : List Record) (console : Text) :
    FileTree.Refilled tree (logger.writeRecords records ⟨console, tree⟩).2.tree := by
  refine writeRecords_tree (FileTree.Refilled tree) ?_ records (FileTree.Refilled.refl tree)
  intro path hpath before bytes appended hbefore happend
  obtain ⟨content, hfind⟩ := h path hpath
  obtain ⟨q, hplace, hfile⟩ := FileTree.find?_eq_some_iff.mp hfind
  obtain ⟨q', content', hplace', -, hafter⟩ := FileTree.exists_of_append happend
  obtain rfl := Except.ok.inj ((hbefore.keeps.place hplace).symm.trans hplace')
  rw [hafter]
  rcases hbefore.entries q with hsame | ⟨-, new, -, hnew⟩
  · exact hbefore.trans (FileTree.refilled_put_file (hsame.trans hfile) _)
  · exact hbefore.trans (FileTree.refilled_put_file hnew _)

theorem tree_writeRecords {logger : Logger}
    (h : ∀ handler ∈ logger.handlers, handler.sink = .console) (records : List Record)
    (traces : Traces) : (logger.writeRecords records traces).2.tree = traces.tree := by
  refine writeRecords_tree (· = traces.tree) (fun path hpath => ?_) records rfl
  obtain ⟨handler, hhandler, hsink⟩ := hpath
  rw [h handler hhandler] at hsink
  exact absurd hsink Sink.noConfusion

/-- A log file that could be opened is there. -/
theorem find?_of_openFile {tree after : FileTree} {path : Path}
    (h : openFile tree path = (after, .ok ())) :
    ∃ content, after.find? path = some (.file content) := by
  rw [openFile] at h
  split at h
  · exact absurd (Prod.mk.inj h).2 (by simp)
  · split at h
    · exact absurd (Prod.mk.inj h).2 (by simp)
    · rename_i appended happend
      obtain ⟨q, content, hplace, htakes, hafter⟩ := FileTree.exists_of_append happend
      rw [← (Prod.mk.inj h).1, hafter]
      refine ⟨content, FileTree.find?_eq_some_iff.mpr
        ⟨q, (htakes.keeps_put content).place hplace, ?_⟩⟩
      rw [FileTree.entryAt?_put htakes.ne_directory, if_pos rfl]

/-- Without a log file the tree is left alone, and all lines go to the console. -/
theorem setup_of_logFile {settings : Settings}
    (h : settings.logFile = none ∨ settings.logFile = some []) (tree : FileTree) :
    (setup tree settings).1 = tree ∧ ∀ logger, (setup tree settings).2 = .ok logger →
      ∀ handler ∈ logger.handlers, handler.sink = .console := by
  rw [setup]
  split
  · exact ⟨rfl, fun logger hlogger => absurd hlogger (by simp)⟩
  · rcases h with h | h
    all_goals
      rw [h]
      refine ⟨rfl, fun logger hlogger handler hhandler => ?_⟩
      rw [← Except.ok.inj hlogger, List.mem_singleton] at hhandler
      rw [hhandler]

/-- **Once the log is set up** its file is there. -/
theorem opened_of_setup {tree after : FileTree} {settings : Settings} {logger : Logger}
    (h : setup tree settings = (after, .ok logger)) : logger.Opened after := by
  rintro path ⟨handler, hhandler, hsink⟩
  by_cases hfile : settings.logFile = none ∨ settings.logFile = some []
  · obtain ⟨-, hconsole⟩ := setup_of_logFile hfile tree
    rw [h] at hconsole
    rw [hconsole logger rfl handler hhandler] at hsink
    exact absurd hsink Sink.noConfusion
  · rw [not_or] at hfile
    obtain ⟨name, hname⟩ := Option.ne_none_iff_exists'.mp hfile.1
    obtain ⟨c, cs, rfl⟩ := List.exists_cons_of_ne_nil fun h => hfile.2 (h ▸ hname)
    rw [setup, hname] at h
    split at h
    · exact absurd (Prod.mk.inj h).2 (by simp)
    · dsimp only at h
      split at h
      · exact absurd (Prod.mk.inj h).2 (by simp)
      · rename_i opened hopen
        obtain ⟨rfl, hlogger⟩ := Prod.mk.inj h
        rw [← Except.ok.inj hlogger, List.mem_cons, List.mem_singleton] at hhandler
        rcases hhandler with rfl | rfl
        · exact absurd hsink Sink.noConfusion
        · rw [← Sink.file.inj hsink]
          exact find?_of_openFile hopen

end Log

end LabelLoop
