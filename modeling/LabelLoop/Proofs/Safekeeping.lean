import LabelLoop.Proofs.Deliveries
import LabelLoop.Proofs.Provenance

/-!
# Commands do not damage files

A command changes no file, or it stores its result and changes nothing else; or the file that it
stores to takes only a part (`run_cases`).  The result can always be encoded, since it was read with
the same codec, so no file is left empty for that reason.  An output that is not named lies beside
the source (`beside_of_target`), and leads to another file unless a link stands at one of the two
(`FileTree.ledOn_of_beside`).

`command_keeps_files` puts this together.  It has limits, which `damaged_files` shows.  The
configured content type of documents is not read from the source, and it may be impossible to
encode.  An output path may step back out of a directory that is missing: there seems to be nothing
there, but once the directory has been made the path leads to a file.  A link may lead from the
output to the source.  And a disk may be full.
-/

namespace LabelLoop

open Text

/-! ### Where results go by default -/

namespace Path

/-- `target` lies **beside** `source`: it differs in its last name, which is not two dots. -/
def Beside (source target : Path) : Prop :=
  ∃ names name name', source.names = names ++ [name] ∧
    target = ⟨source.anchor, names ++ [name']⟩ ∧ name' ≠ name ∧ name' ≠ "..".toList

theorem Beside.ne {source target : Path} (h : source.Beside target) : target ≠ source := by
  obtain ⟨names, name, name', hsource, rfl, hne, -⟩ := h
  intro htarget
  have hnames := (congrArg Path.names htarget).trans hsource
  exact hne (List.singleton_inj.mp (List.append_cancel_left hnames))

/-- A name without its suffix. -/
def stem (name : Text) : Text :=
  name.take (name.length - (suffixOf name).length)

theorem length_le_length_stem (name : Text) :
    name.length ≤ (stem name).length + (suffixOf name).length := by
  rw [stem, List.length_take]
  omega

/-- Another suffix changes the last name only. -/
theorem exists_of_withSuffix {p target : Path} {s : Text} (h : p.withSuffix s = .ok target) :
    ∃ names name, p.names = names ++ [name] ∧ target = ⟨p.anchor, names ++ [stem name ++ s]⟩ := by
  rw [withSuffix] at h
  split at h
  · exact absurd h (by simp)
  · split at h
    · exact absurd h (by simp)
    · rename_i name hname
      exact ⟨p.names.dropLast, name, (List.dropLast_append_getLast? name hname).symm,
        (Except.ok.inj h).symm⟩

theorem ne_of_length_lt {a b : Text} (h : b.length < a.length) : a ≠ b :=
  fun hab => Nat.lt_irrefl _ (hab ▸ h)

theorem beside_of_besideScript {source target : Path}
    (h : source.besideScript ".js".toList = .ok target) : source.Beside target := by
  have hdots : ∀ name s : Text, 3 ≤ s.length → stem name ++ s ≠ "..".toList := by
    intro name s hs
    apply ne_of_length_lt
    rw [List.length_append]
    exact Nat.lt_of_lt_of_le hs (Nat.le_add_left _ _)
  rw [besideScript] at h
  split at h
  · exact absurd h (by simp)
  · rename_i first hfirst
    obtain ⟨names, name, hsource, rfl⟩ := exists_of_withSuffix hfirst
    split at h
    · -- the script has that suffix already, and its name is shorter than the new one
      rename_i hsame
      have hname : [stem name ++ ".js".toList] = [name] :=
        (List.append_inj' ((congrArg Path.names hsame).trans hsource) rfl).2
      obtain ⟨names', name', hsource', rfl⟩ := exists_of_withSuffix h
      obtain ⟨rfl, hlast⟩ := List.append_inj' (hsource.symm.trans hsource') rfl
      obtain rfl := List.singleton_inj.mp hlast
      refine ⟨names, name, _, hsource, rfl, ne_of_length_lt ?_, hdots _ _ (by decide)⟩
      have hlength := congrArg List.length (List.singleton_inj.mp hname)
      rw [List.length_append] at hlength
      rw [List.length_append, List.length_append, ← hlength]
      have : 0 < ".out".toList.length := by decide
      omega
    · rename_i hother
      obtain rfl := Except.ok.inj h
      refine ⟨names, name, _, hsource, rfl, fun hname => hother ?_, hdots _ _ (by decide)⟩
      rw [hname, ← hsource]

theorem beside_of_besideDocument {source target : Path}
    (h : source.besideDocument = .ok target) : source.Beside target := by
  obtain ⟨names, name, hsource, rfl⟩ := exists_of_withSuffix h
  have hsuffix : source.suffix = suffixOf name := by
    rw [suffix, name?, hsource, List.getLast?_concat]
    rfl
  have hlength : (suffixOf name).length ≤
      (if source.suffix.isEmpty then ".html".toList else source.suffix).length := by
    rw [hsuffix]
    split
    · rename_i hempty
      rw [List.isEmpty_iff.mp hempty]
      exact Nat.zero_le _
    · exact Nat.le_refl _
  have hstem := length_le_length_stem name
  refine ⟨names, name, _, hsource, rfl, ne_of_length_lt ?_, ne_of_length_lt ?_⟩
  · rw [List.length_append, List.length_append]
    have : ".out".toList.length = 4 := by decide
    omega
  · rw [List.length_append, List.length_append]
    have : ".out".toList.length = 4 := by decide
    have : "..".toList.length = 2 := by decide
    omega

end Path

namespace FileTree

/-- A path names a place from which it is **led on**. -/
def LedOn (tree : FileTree) (p : Path) : Prop :=
  ∃ r e, tree.spot p = .ok r ∧ tree.entryAt? r = some e ∧ e.leadsOn = true

variable {tree : FileTree} {source target : Path} {q : Place}

/-- A path beside another can be followed as far. -/
theorem descends_of_beside (hbeside : source.Beside target) (hq : tree.place source = .ok q) :
    tree.Descends target := by
  obtain ⟨names, name, name', hsource, rfl, -, hdots⟩ := hbeside
  obtain ⟨-, left, hleads⟩ := place_eq_ok_iff.mp hq
  rw [hsource] at hleads
  obtain ⟨r, m, hr, -⟩ := leads_append_iff.mp hleads
  refine ⟨names, [name'], rfl, ⟨r, m, hr⟩, ?_⟩
  rw [List.mem_singleton]
  exact Ne.symm hdots

/-- A path beside another leads to another place, unless one of the two is led on. -/
theorem ledOn_of_beside (hbeside : source.Beside target) (hsource : tree.place source = .ok q)
    (htarget : tree.place target = .ok q) : tree.LedOn source ∨ tree.LedOn target := by
  obtain ⟨r, hspot, hr⟩ := exists_spot_of_place hsource
  obtain ⟨r', hspot', hr'⟩ := exists_spot_of_place htarget
  rcases hr with rfl | ⟨e, he, hon⟩
  · rcases hr' with rfl | ⟨e, he, hon⟩
    · -- both name the same place, but in one directory different names do not
      exfalso
      obtain ⟨names, name, name', hnames, rfl, hne, hdots⟩ := hbeside
      obtain ⟨-, s, m, hs, hstep⟩ := (spot_eq_ok_iff hnames).mp hspot
      obtain ⟨-, s', m', hs', hstep'⟩ := (spot_eq_ok_iff rfl).mp hspot'
      obtain ⟨rfl, -⟩ := hs.unique hs'
      obtain ⟨-, -, -, hnext⟩ := step_eq_ok_iff.mp hstep
      obtain ⟨-, -, -, hnext'⟩ := step_eq_ok_iff.mp hstep'
      rw [next, if_neg hdots] at hnext'
      rw [next, ← hnext'] at hnext
      split at hnext
      · have hlength := congrArg List.length hnext
        rw [List.length_dropLast, List.length_append, List.length_singleton] at hlength
        omega
      · exact hne (List.singleton_inj.mp (List.append_cancel_left hnext)).symm
    · exact Or.inr ⟨r', e, hspot', he, hon⟩
  · exact Or.inl ⟨r, e, hspot, he, hon⟩

end FileTree

/-! ### Commands -/

namespace CommandLine

/-- The path that a command **writes to**, if it writes to one. -/
def Arguments.target (a : Arguments) : Except Path.SuffixError Path :=
  a.request.output.elim a.default .ok

theorem beside_of_target {a : Arguments} (houtput : a.output = none) {target : Path}
    (h : a.target = .ok target) : (Path.ofText a.source).Beside target := by
  rw [Arguments.target, Arguments.request, houtput] at h
  change a.default = _ at h
  rw [Arguments.default] at h
  split at h
  · exact Path.beside_of_besideDocument h
  · exact Path.beside_of_besideScript h

theorem exists_of_bind_eq_ok {ε α β : Type} {x : Except ε α} {f : α → Except ε β} {b : β}
    (h : x.bind f = .ok b) : ∃ a, x = .ok a ∧ f a = .ok b := by
  cases x with
  | error e => exact absurd h (by simp [Except.bind])
  | ok a => exact ⟨a, rfl, h⟩

theorem readSource_of_toConsole_eq_false {a : Arguments} (h : a.toConsole = false)
    (codecs : Codecs) (tree : FileTree) :
    a.readSource codecs tree =
      (Delivery.requireSource tree (Path.ofText a.source)).bind fun _ =>
        Delivery.readText codecs tree (Path.ofText a.source) a.encoding := by
  rw [Arguments.readSource, h]
  rfl

/-! ### How commands end -/

section Ending

variable (w : World) (tree : FileTree) (console : Text)

theorem ending_tree (stream : Stream) (said : Text) (status : Nat) :
    (w.ending tree console stream said status).tree = tree := by
  unfold World.ending
  split
  · cases stream <;> rfl
  · rfl

theorem ending_status (stream : Stream) (said : Text) (status : Nat) :
    (w.ending tree console stream said status).status =
      if w.takes stream said then .ok status else .error (.printing stream) := by
  unfold World.ending
  split
  · cases stream <;> rfl
  · rfl

theorem fail_tree (f : Delivery.Failure) : (w.fail tree console f).tree = tree := by
  rw [World.fail]
  split
  · exact ending_tree _ _ _ _ _ _
  · rfl

theorem fail_status_ne (f : Delivery.Failure) : (w.fail tree console f).status ≠ .ok 0 := by
  rw [World.fail]
  split
  · rw [ending_status]
    split <;> simp
  · simp

/-- A failure that is reported ends a command with status 1, unless it cannot even be reported. -/
theorem fail_status_of_reported {f : Delivery.Failure} (h : reported f = true) :
    (w.fail tree console f).status = .ok 1 ∨
      (w.fail tree console f).status = .error (.printing .errors) := by
  rw [World.fail, if_pos h, ending_status]
  split
  · exact Or.inl rfl
  · exact Or.inr rfl

end Ending

/-- **What a command does to the files**, with a log that writes to the console only: nothing, or
what the delivery of its result does. -/
theorem carryOut_cases {logger : Log.Logger}
    (hlogger : ∀ handler ∈ logger.handlers, handler.sink = .console) (w : World) (tree : FileTree)
    (settings : Settings) (a : Arguments) :
    ((carryOut w tree logger settings a).tree = tree ∧
      ((carryOut w tree logger settings a).status = .ok 0 → a.toConsole = true)) ∨
    ∃ source product after result, a.toConsole = false ∧
      Delivery.readText w.codecs tree (Path.ofText a.source) a.encoding = .ok source ∧
      convert a settings w.clock source = .ok product ∧
      Delivery.deliver w.codecs tree a.request a.default product.text = (after, result) ∧
      (carryOut w tree logger settings a).tree = after ∧
      (∀ f, result = .error f → ∃ console,
        (carryOut w tree logger settings a).status = (w.fail after console f).status) ∧
      (∀ path, result = .ok path → (carryOut w tree logger settings a).status = .ok 0 ∨
        (carryOut w tree logger settings a).status = .error (.printing .output)) := by
  rw [carryOut]
  split
  · exact Or.inl ⟨fail_tree _ _ _ _, fun h => absurd h (fail_status_ne _ _ _ _)⟩
  · rename_i source hsource
    dsimp only
    rw [Log.tree_writeRecords hlogger]
    dsimp only
    split
    · exact Or.inl ⟨fail_tree _ _ _ _, fun h => absurd h (fail_status_ne _ _ _ _)⟩
    · rename_i product hproduct
      split
      · rename_i hconsole
        exact Or.inl ⟨ending_tree _ _ _ _ _ _, fun _ => hconsole⟩
      · rename_i hconsole
        rw [Bool.not_eq_true] at hconsole
        rw [readSource_of_toConsole_eq_false hconsole] at hsource
        obtain ⟨-, -, hread⟩ := exists_of_bind_eq_ok hsource
        cases hdeliver : Delivery.deliver w.codecs tree a.request a.default product.text with
        | mk after result =>
          refine Or.inr ⟨source, product, after, result, hconsole, hread, hproduct, hdeliver, ?_⟩
          cases result with
          | error f =>
            refine ⟨fail_tree _ _ _ _, ?_, fun path hpath => absurd hpath (by simp)⟩
            rintro f' ⟨⟩
            exact ⟨_, rfl⟩
          | ok path =>
            dsimp only
            split
            · exact ⟨rfl, fun f hf => absurd hf (by simp), fun _ _ => Or.inl rfl⟩
            · refine ⟨ending_tree _ _ _ _ _ _, fun f hf => absurd hf (by simp), fun _ _ => ?_⟩
              rw [ending_status]
              split
              · exact Or.inl rfl
              · exact Or.inr rfl

/-- A source that has been read is a file. -/
theorem exists_fileAt?_of_readText {codecs : Codecs} {tree : FileTree} {path : Path}
    {encoding t : Text} (h : Delivery.readText codecs tree path encoding = .ok t) :
    ∃ q content, tree.place path = .ok q ∧ tree.fileAt? q = some content := by
  rw [Delivery.readText] at h
  split at h
  · exact absurd h (by simp)
  · cases hread : tree.read path with
    | error e =>
      rw [hread] at h
      exact absurd h (by simp)
    | ok content =>
      rw [FileTree.read] at hread
      split at hread
      · exact absurd hread (by simp)
      · rename_i q hq
        split at hread
        · rename_i old hold
          exact ⟨q, old, hq, FileTree.fileAt?_eq_some_iff.mpr hold⟩
        · exact absurd hread (by simp)
        · exact absurd hread (by simp)

section Run

variable {w : World} {arguments : List Text} {settings : Settings} {a : Arguments}

/-- **A command changes no file, or it stores its result** and nothing else, or the file takes only
a part of the result. -/
theorem run_cases (hsettings : Settings.load w.tree w.environment [] = .ok settings)
    (hlog : settings.logFile = none ∨ settings.logFile = some [])
    (harguments : read settings arguments = .ok a)
    (hample : ∀ codec, w.codecs a.encoding = .ok codec → codec.Ample)
    (htype : a.TypeEncodable settings w.codecs) :
    ((∀ q, (run w arguments).tree.fileAt? q = w.tree.fileAt? q) ∧
      ((run w arguments).status = .ok 0 → a.toConsole = true)) ∨
    ∃ source target q content, a.toConsole = false ∧
      Delivery.readText w.codecs w.tree (Path.ofText a.source) a.encoding = .ok source ∧
      a.target = .ok target ∧ (a.overwrite = true ∨ w.tree.isThere target = .ok false) ∧
      ((((run w arguments).status = .ok 0 ∨
          (run w arguments).status = .error (.printing .output)) ∧
        Delivery.Stored w.tree (run w arguments).tree target q content) ∨
      ((run w arguments).status = .ok 1 ∨
          (run w arguments).status = .error (.printing .errors)) ∧
        Delivery.StoredPart w.tree (run w arguments).tree target q content) := by
  obtain ⟨htree, hconsole⟩ := Log.setup_of_logFile hlog w.tree
  rw [run, hsettings]
  dsimp only
  rw [harguments]
  dsimp only
  cases hsetup : Log.setup w.tree settings with
  | mk tree result =>
    rw [hsetup] at htree hconsole
    obtain rfl : tree = w.tree := htree
    cases result with
    | error e => exact Or.inl ⟨fun _ => rfl, fun h => absurd h (by simp)⟩
    | ok logger =>
      rcases carryOut_cases (hconsole logger rfl) w w.tree settings a with
        ⟨hsame, hstatus⟩ | ⟨source, product, after, result, hfile, hread, hproduct, hdeliver,
          hafter, herror, hok⟩
      · exact Or.inl ⟨fun q => congrArg (FileTree.fileAt? · q) hsame, hstatus⟩
      · obtain ⟨codec, hcodec, hcovers⟩ := Delivery.exists_covers_of_readText hample hread
        obtain ⟨content, hencode⟩ :=
          exists_encode_of_convert htype hcodec (hample codec hcodec) hcovers hproduct
        rcases Delivery.deliver_cases hcodec hencode hdeliver with
          ⟨hgrown, f, rfl⟩ | ⟨target, q, htarget, hallowed, hdone⟩
        · obtain ⟨console, hstatus⟩ := herror f rfl
          refine Or.inl ⟨fun q => ?_, fun h => ?_⟩
          · exact (congrArg (FileTree.fileAt? · q) hafter).trans (hgrown.fileAt? q)
          · exact absurd (hstatus.symm.trans h) (fail_status_ne _ _ _ _)
        · refine Or.inr ⟨source, target, q, content, hfile, hread, htarget, hallowed, ?_⟩
          rw [← hafter] at hdone
          rcases hdone with ⟨rfl, hstored⟩ | ⟨⟨cause, rfl⟩, hpart⟩
          · exact Or.inl ⟨hok target rfl, hstored⟩
          · obtain ⟨console, hstatus⟩ := herror _ rfl
            refine Or.inr ⟨?_, hpart⟩
            have hreported := fail_status_of_reported w after console
              (show reported (.file (.cutOff cause)) = true from rfl)
            rw [← hstatus] at hreported
            exact hreported

/-- **Commands do not damage files.**  The only file that a command can change is the one that its
output path leads to, and if that was there before, the command was told to overwrite it, or the
path stepped back out of a missing directory.  A command that prints its result changes no file.
One that fails changes none either, unless the file took only a part of the result, or all of it and
only the notice about it could not be printed; any other has stored its result.  An output that is
not named is never the source, so the source stays as it is, unless a link leads from the output to
it. -/
theorem command_keeps_files (htree : w.tree.WellFormed)
    (hsettings : Settings.load w.tree w.environment [] = .ok settings)
    (hlog : settings.logFile = none ∨ settings.logFile = some [])
    (harguments : read settings arguments = .ok a)
    (hample : ∀ codec, w.codecs a.encoding = .ok codec → codec.Ample)
    (htype : a.TypeEncodable settings w.codecs) :
    (∀ q, (run w arguments).tree.fileAt? q ≠ w.tree.fileAt? q →
      ∃ target, a.target = .ok target ∧ (run w arguments).tree.place target = .ok q ∧
        (w.tree.fileAt? q = none ∨ a.overwrite = true ∨ ¬w.tree.Descends target)) ∧
    (a.toConsole = true → ∀ q, (run w arguments).tree.fileAt? q = w.tree.fileAt? q) ∧
    ((run w arguments).status ≠ .ok 0 →
      (∀ q, (run w arguments).tree.fileAt? q = w.tree.fileAt? q) ∨
      ∃ target q content, a.target = .ok target ∧
        (Delivery.StoredPart w.tree (run w arguments).tree target q content ∨
          (run w arguments).status = .error (.printing .output) ∧
            Delivery.Stored w.tree (run w arguments).tree target q content)) ∧
    ((run w arguments).status = .ok 0 → a.toConsole = false →
      ∃ target q content, a.target = .ok target ∧
        Delivery.Stored w.tree (run w arguments).tree target q content) ∧
    (a.output = none →
      (∀ target, a.target = .ok target → target ≠ Path.ofText a.source) ∧
      ∀ q, w.tree.place (Path.ofText a.source) = .ok q →
        (run w arguments).tree.fileAt? q = w.tree.fileAt? q ∨
        ∃ target, a.target = .ok target ∧ w.tree.place target = .ok q ∧
          (w.tree.LedOn (Path.ofText a.source) ∨ w.tree.LedOn target)) := by
  have hne : a.output = none → ∀ target, a.target = .ok target → target ≠ Path.ofText a.source :=
    fun houtput target htarget => (beside_of_target houtput htarget).ne
  rcases run_cases hsettings hlog harguments hample htype with
    ⟨hsame, hstatus⟩ | ⟨source, target, q, content, hfile, hread, htarget, hallowed, hdone⟩
  · refine ⟨fun q hchanged => absurd (hsame q) hchanged, fun _ => hsame, fun _ => Or.inl hsame,
      fun hzero hfile => ?_, fun houtput => ⟨hne houtput, fun q _ => Or.inl (hsame q)⟩⟩
    exact absurd (hfile.symm.trans (hstatus hzero)) Bool.false_ne_true
  · -- whether all of the result has been stored or a part, something has
    obtain ⟨part, hstored⟩ :
        ∃ part, Delivery.Stored w.tree (run w arguments).tree target q part := by
      rcases hdone with ⟨-, hstored⟩ | ⟨-, bound, -, -, hstored⟩
      · exact ⟨_, hstored⟩
      · exact ⟨_, hstored⟩
    refine ⟨fun r hchanged => ?_, fun hconsole => ?_, fun hstatus => Or.inr ?_, fun hzero _ => ?_,
      fun houtput => ⟨hne houtput, fun r hr => ?_⟩⟩
    · obtain rfl := hstored.eq_of_ne hchanged
      exact ⟨target, htarget, hstored.leads, hstored.overwritten htree hallowed⟩
    · exact absurd (hfile.symm.trans hconsole) Bool.false_ne_true
    · refine ⟨target, q, content, htarget, ?_⟩
      rcases hdone with ⟨hended, hall⟩ | ⟨-, hpart⟩
      · exact Or.inr ⟨hended.resolve_left hstatus, hall⟩
      · exact Or.inl hpart
    · refine ⟨target, q, content, htarget, ?_⟩
      rcases hdone with ⟨-, hall⟩ | ⟨hended, -⟩
      · exact hall
      · rw [hzero] at hended
        exact absurd hended (by simp)
    · by_cases hrq : r = q
      · -- the source is a file, so the output led to it before
        subst hrq
        obtain ⟨r', old, hr', hold⟩ := exists_fileAt?_of_readText hread
        obtain rfl := Except.ok.inj (hr.symm.trans hr')
        have hbeside := beside_of_target houtput htarget
        have hthere : w.tree.fileAt? r ≠ none := hold ▸ Option.some_ne_none _
        have hplace := hstored.old htree (FileTree.descends_of_beside hbeside hr)
          (FileTree.entryAt?_ne_none_of_fileAt? hthere)
        exact Or.inr ⟨target, htarget, hplace, FileTree.ledOn_of_beside hbeside hr hplace⟩
      · exact Or.inl ((hstored.files r).trans (if_neg hrq))

end Run

/-- A world with the given files in the directory that the command runs in. -/
def World.ofFiles (environment files : List (Text × Text)) : World where
  tree := {
    here := []
    entries := files.map fun (name, t) => ([name], .file (t.flatMap Encoding.utf8Char)) }
  environment := environment
  clock := 0
  time _ := []

/-- A document, and a file where its conversion goes. -/
def twoDocuments : World :=
  .ofFiles [] [("p.html".toList,
      "<script type=\"text/jsplusgoto\">\x7b[lbl] a: goto a;\x7d</script>".toList),
    ("p.out.html".toList, "old".toList)]

/-- Overwriting the default output changes that file and keeps the source. -/
theorem overwriting_keeps_source :
    twoDocuments.tree.WellFormed ∧
    FileTree.fileAt?
        (run twoDocuments ["p.html".toList, "--html".toList, "--overwrite".toList]).tree
        ["p.out.html".toList] ≠ twoDocuments.tree.fileAt? ["p.out.html".toList] ∧
    FileTree.fileAt?
        (run twoDocuments ["p.html".toList, "--html".toList, "--overwrite".toList]).tree
        ["p.html".toList] = twoDocuments.tree.fileAt? ["p.html".toList] := by
  have htree : twoDocuments.tree.WellFormed := by decide +kernel
  have hsettings : Settings.load twoDocuments.tree twoDocuments.environment [] = .ok {} := by
    decide +kernel
  have harguments : read {} ["p.html".toList, "--html".toList, "--overwrite".toList] =
      .ok ⟨"p.html".toList, none, true, "text/jsplusgoto".toList, .quotes, false, true,
        "utf-8".toList, false⟩ := by
    decide +kernel
  have hplace : twoDocuments.tree.place (Path.ofText "p.html".toList) = .ok ["p.html".toList] := by
    decide +kernel
  have hcodecs : twoDocuments.codecs = Encoding.codecs := rfl
  have hascii : ∀ c ∈ ({} : Settings).outputType, decide (c.toNat < 128) = true :=
    forall_mem_of_all (by decide +kernel)
  refine ⟨htree, by decide +kernel, ?_⟩
  have hkeeps := command_keeps_files htree hsettings (Or.inl rfl) harguments
    (fun codec hcodec => Encoding.ample_of_codecs (hcodecs ▸ hcodec))
    (fun _ codec hcodec c hc =>
      (Encoding.ample_of_codecs (hcodecs ▸ hcodec)).ascii c (of_decide_eq_true (hascii c hc)))
  -- no link leads from the output to the source
  refine ((hkeeps.2.2.2.2 rfl).2 _ hplace).resolve_right ?_
  rintro ⟨target, htarget, hled, -⟩
  obtain rfl : target = Path.ofText "p.out.html".toList := by
    refine Except.ok.inj (htarget.symm.trans ?_)
    decide +kernel
  exact absurd hled (by decide +kernel)

/-- A script, and a file that is not to be overwritten. -/
def guardedFile : World :=
  .ofFiles [] [("a.gjs".toList, "x;".toList), ("b.js".toList, "keep".toList)]

/-- A document, with settings whose content type has an accent. -/
def accentedType : World :=
  .ofFiles [("GOTOJS_OUTPUT_CONTENT_TYPE".toList, "text/é".toList)]
    [("p.html".toList, "<script type=\"text/jsplusgoto\"></script>".toList)]

/-- A script, a link to it where its conversion goes, and no more room than for a byte elsewhere. -/
def linkedScript : World where
  tree := {
    here := []
    entries := [(["a.gjs".toList], .file ("[lbl] a:".toList.flatMap Encoding.utf8Char)),
      (["a.js".toList], .link (Path.ofText "a.gjs".toList))]
    bounds := [(["b.js".toList], ⟨1, .full⟩)] }
  environment := []
  clock := 0
  time _ := []

/-- **Damaged files.**  A file is overwritten although nobody asked for that, since the output path
steps back out of a directory that is missing; a command that fails because the configured content
type cannot be encoded leaves an empty file behind; a link leads from the output to the source; a
full disk leaves a part of the result; and a command that cannot print its notice has stored it all
the same. -/
theorem damaged_files :
    (guardedFile.tree.WellFormed ∧
      (run guardedFile ["a.gjs".toList, "d/../b.js".toList]).status.toOption = some 0 ∧
      guardedFile.tree.fileAt? ["b.js".toList] = some ("keep".toList.flatMap Encoding.utf8Char) ∧
      FileTree.fileAt? (run guardedFile ["a.gjs".toList, "d/../b.js".toList]).tree ["b.js".toList] =
        some ("x;".toList.flatMap Encoding.utf8Char)) ∧
    (accentedType.tree.WellFormed ∧
      (run accentedType ["p.html".toList, "out.html".toList, "--html".toList, "--encoding".toList,
        "ascii".toList]).status.toOption = some 1 ∧
      accentedType.tree.fileAt? ["out.html".toList] = none ∧
      FileTree.fileAt? (run accentedType ["p.html".toList, "out.html".toList, "--html".toList,
        "--encoding".toList, "ascii".toList]).tree ["out.html".toList] = some []) ∧
    linkedScript.tree.WellFormed ∧
      (run linkedScript ["a.gjs".toList, "--overwrite".toList]).status.toOption = some 0 ∧
      FileTree.fileAt? (run linkedScript ["a.gjs".toList, "--overwrite".toList]).tree
        ["a.gjs".toList] ≠ linkedScript.tree.fileAt? ["a.gjs".toList] ∧
      (run linkedScript ["a.gjs".toList, "b.js".toList]).status.toOption = some 1 ∧
      linkedScript.tree.fileAt? ["b.js".toList] = none ∧
      FileTree.fileAt? (run linkedScript ["a.gjs".toList, "b.js".toList]).tree ["b.js".toList] =
        some ("v".toList.flatMap Encoding.utf8Char) ∧
    guardedFile.tree.fileAt? ["c.js".toList] = none ∧
      (run { guardedFile with takes := fun _ _ => false }
        ["a.gjs".toList, "c.js".toList]).status.toOption = none ∧
      FileTree.fileAt? (run { guardedFile with takes := fun _ _ => false }
        ["a.gjs".toList, "c.js".toList]).tree ["c.js".toList] =
        some ("x;".toList.flatMap Encoding.utf8Char) := by
  decide +kernel

end CommandLine

end LabelLoop
