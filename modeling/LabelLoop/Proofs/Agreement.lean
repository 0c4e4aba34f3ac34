import LabelLoop.Proofs.Safekeeping

/-!
# Printing and storing a result agree

A command whose output is a dash prints its result, and any other stores it.  Two commands that
differ only in that are read the same way (`read_files`): what is read after the source and the
output does not depend on them (`readFrom_withFiles`).  They write the same log, which only makes
the log file longer, and so they find the same files.  The one misses the source where the other
cannot read it (`reported_of_requireSource`), and a result that is printed can be stored, since it
can be encoded and its place is free (`carryOut_agree`).

`console_and_file_agree` puts this together.  `commands_that_end_apart` collects the cases in which
two such commands end differently although nothing is found at the output path (`EndsApart`), and
has a codec with which the file is not the whole encoding of what is printed.
-/

namespace LabelLoop.CommandLine

open Text

/-! ### Arguments that differ in the output -/

/-- The progress with other files settled. -/
def Progress.withFiles (p : Progress) (files : Text × Option Text) : Progress :=
  { p with files := some files }

variable (files : Text × Option Text)

theorem mark_withFiles (p : Progress) (s : Switch) :
    (p.withFiles files).mark s = (p.mark s).map (·.withFiles files) := by
  cases s <;> rfl

theorem set_withFiles (p : Progress) (value : Text) (s : Switch) :
    (p.withFiles files).set value s = (p.set value s).map (·.withFiles files) := by
  cases s with
  | scanner =>
    rw [Progress.set, Progress.set]
    cases Literal.ScannerKind.ofName? value <;> rfl
  | _ => rfl

theorem foldlM_mark_withFiles (p : Progress) (switches : List Switch) :
    switches.foldlM Progress.mark (p.withFiles files) =
      (switches.foldlM Progress.mark p).map (·.withFiles files) := by
  induction switches generalizing p with
  | nil => rfl
  | cons s switches ih =>
    rw [List.foldlM_cons, List.foldlM_cons, mark_withFiles]
    cases p.mark s with
    | error stop => rfl
    | ok p' => exact ih p'

/-- **Options are read the same way** whatever the files are. -/
theorem take_withFiles (p : Progress) (o : Occurrence) (rest : List (Text × Kind)) :
    (p.withFiles files).take o rest =
      (p.take o rest).map fun (p', taken) => (p'.withFiles files, taken) := by
  unfold Progress.take
  cases o.attached with
  | some value =>
    dsimp only
    split
    · rw [set_withFiles]
      cases p.set value o.switch <;> rfl
    · split
      · rw [Progress.spread, Progress.spread]
        cases cluster o.switch value with
        | error e => rfl
        | ok switches =>
          dsimp only
          rw [foldlM_mark_withFiles]
          cases switches.foldlM Progress.mark p <;> rfl
      · rfl
  | none =>
    dsimp only
    split
    · split
      · rw [set_withFiles]
        cases p.set _ o.switch <;> rfl
      · rfl
    · rw [mark_withFiles]
      cases p.mark o.switch <;> rfl

/-- Once the files are settled, the rest is read the same way whatever they are. -/
theorem readFrom_withFiles (files' : Text × Option Text) (p : Progress) (skip : Nat)
    (arguments : List (Text × Kind)) :
    readFrom (p.withFiles files) skip arguments =
      (readFrom (p.withFiles files') skip arguments).map (·.withFiles files) := by
  induction arguments generalizing p skip with
  | nil => rfl
  | cons argument rest ih =>
    obtain ⟨argument, kind⟩ := argument
    cases skip with
    | succ k => exact ih p k
    | zero =>
      cases kind with
      | unknown => exact ih (p.putAside argument) 0
      | positional => exact ih (p.putAside argument) 0
      | separator => exact ih (p.putAside argument) 0
      | option o =>
        rw [readFrom, readFrom, take_withFiles, take_withFiles]
        cases p.take o rest with
        | error stop => rfl
        | ok taken => exact ih taken.1 taken.2

/-- The arguments with other files. -/
def Arguments.withFiles (a : Arguments) (source output : Text) : Arguments :=
  { a with source := source, output := some output }

/-- What **the options alone** say, when the source and the output stand before them. -/
def readOptions (settings : Settings) (options : List Text) : Except Stop Arguments :=
  match classifyAll options with
  | .error e => .error (.refused e)
  | .ok kinds =>
    let p := (Progress.start settings).withFiles ([], none)
    match readFrom p (separators kinds).length kinds with
    | .error stop => .error stop
    | .ok p =>
      if p.extras.isEmpty then
        .ok ⟨[], none, p.html, p.contentType, p.scanner, p.strict, p.overwrite, p.encoding, p.quiet⟩
      else .error (.refused (.unrecognized p.extras))

theorem ne_separator_of_positional {argument : Text} (h : classify argument = .ok .positional) :
    argument ≠ "--".toList := by
  rintro rfl
  exact absurd h (by decide +kernel)

theorem classifyAll_cons {argument : Text} (h : classify argument = .ok .positional)
    (rest : List Text) :
    classifyAll (argument :: rest) = (classifyAll rest).map ((argument, .positional) :: ·) := by
  rw [classifyAll, if_neg (ne_separator_of_positional h), h]
  cases classifyAll rest <;> rfl

/-- The source and the output at the front are settled, with the separators after them. -/
theorem readFrom_files {p : Progress} (hp : p.files = none) {source output : Text}
    (hsource : source ≠ "--".toList) (houtput : output ≠ "--".toList)
    (kinds : List (Text × Kind)) :
    readFrom p 0 ((source, .positional) :: (output, .positional) :: kinds) =
      readFrom (p.withFiles (source, some output)) (separators kinds).length kinds := by
  have hfiles : filesAt ((source, .positional) :: (output, .positional) :: kinds) =
      some ([source], output :: separators kinds) := rfl
  have hvalue : ∀ {t : Text} {rest : List Text}, t ≠ "--".toList →
      ((t :: rest).erase "--".toList).head? = some t := by
    intro t rest ht
    have hne : ¬(t == "--".toList) = true := fun h => ht (beq_iff_eq.mp h)
    rw [List.erase_cons_tail hne, List.head?_cons]
  have hsettle : p.settle [source] (output :: separators kinds) =
      p.withFiles (source, some output) := by
    rw [Progress.settle]
    dsimp only
    rw [hvalue hsource, hvalue houtput]
    rfl
  have hcount : [source].length + (output :: separators kinds).length - 1 =
      (separators kinds).length + 1 := by
    rw [List.length_cons, List.length_cons, List.length_nil]
    omega
  rw [readFrom, hp, hfiles, Option.isSome_none, if_neg Bool.false_ne_true]
  dsimp only
  rw [hsettle, hcount, readFrom]

/-- **Arguments that begin with a source and an output** are these and what the options say. -/
theorem read_files (settings : Settings) {source output : Text}
    (hsource : classify source = .ok .positional) (houtput : classify output = .ok .positional)
    (options : List Text) :
    read settings (source :: output :: options) =
      (readOptions settings options).map (·.withFiles source output) := by
  rw [read, readOptions, classifyAll_cons hsource, classifyAll_cons houtput]
  cases classifyAll options with
  | error e => rfl
  | ok kinds =>
    have hread := readFrom_files (p := Progress.start settings) rfl
      (ne_separator_of_positional hsource) (ne_separator_of_positional houtput) kinds
    rw [readFrom_withFiles _ ([], none)] at hread
    dsimp only [Except.map]
    rw [hread]
    generalize (Progress.start settings).withFiles ([], none) = start
    cases readFrom start (separators kinds).length kinds with
    | error stop => rfl
    | ok p =>
      dsimp only [Except.map, Progress.withFiles]
      split <;> rfl

/-! ### Sources -/

theorem subset_intercalate {separator piece : Text} {pieces : List Text} (h : piece ∈ pieces) :
    piece ⊆ List.intercalate separator pieces := by
  induction pieces with
  | nil => exact absurd h List.not_mem_nil
  | cons first rest ih =>
    cases rest with
    | nil =>
      rw [List.mem_singleton.mp h, List.intercalate_singleton]
      exact List.Subset.refl _
    | cons second rest =>
      rw [List.intercalate_cons_cons]
      rcases List.mem_cons.mp h with rfl | h
      · exact List.subset_append_of_subset_left _ (List.subset_append_left _ _)
      · exact List.subset_append_of_subset_right _ (ih h)

theorem no_null_in_names {t : Text} (h : '\x00' ∉ t) :
    (Path.ofText t).names.any (·.contains '\x00') = false := by
  rw [List.any_eq_false]
  intro name hname hnull
  rw [List.contains_iff_mem] at hnull
  have hsubset : name ⊆ t := by
    have hsplit : List.intercalate ['/'] (t.splitOn '/') = t := List.intercalate_splitOn '/'
    rw [← hsplit]
    exact subset_intercalate (List.mem_of_mem_filter hname)
  exact h (hsubset hnull)

theorem place_ne_nullCharacter {tree : FileTree} {p : Path}
    (h : p.names.any (·.contains '\x00') = false) : tree.place p ≠ .error .nullCharacter := by
  rw [FileTree.place, FileTree.locate, FileTree.checkPath, h, if_neg Bool.false_ne_true]
  split
  · rename_i hcheck
    split at hcheck
    · rw [← Except.error.inj hcheck]
      simp
    · exact absurd hcheck (by simp)
  · cases tree.walk FileTree.maxLinks (tree.start p) p.names <;> simp [Except.map, Except.mapError]

/-- **A source that is missed is not read either**, and both is reported. -/
theorem reported_of_requireSource {codecs : Codecs} {tree : FileTree} {path : Path}
    {encoding : Text} {f : Delivery.Failure} (hpath : path.names.any (·.contains '\x00') = false)
    (hencoding : '\x00' ∉ encoding) (h : Delivery.requireSource tree path = .error f) :
    reported f = true ∧
      ∃ g, Delivery.readText codecs tree path encoding = .error g ∧ reported g = true := by
  have hread : ∀ e, tree.read path = .error e → reported (.file e) = true →
      ∃ g, Delivery.readText codecs tree path encoding = .error g ∧ reported g = true := by
    intro e hread hreported
    refine ⟨.file e, ?_, hreported⟩
    have hcut : encoding.contains '\x00' = false := by simpa using hencoding
    rw [Delivery.readText, hcut, if_neg Bool.false_ne_true, hread]
  rw [FileTree.read] at hread
  rw [Delivery.requireSource, FileTree.isThere] at h
  cases hplace : tree.place path with
  | error e =>
    rw [hplace] at h hread
    cases e with
    | nullCharacter => exact absurd hplace (place_ne_nullCharacter hpath)
    | cutOff cause => exact ⟨Except.error.inj h ▸ rfl, hread (.cutOff cause) rfl rfl⟩
    | refused cause p =>
      refine ⟨?_, hread (.refused cause p) rfl rfl⟩
      cases cause <;> exact Except.error.inj h ▸ rfl
  | ok q =>
    rw [hplace] at h hread
    dsimp only at h hread
    cases hentry : tree.entryAt? q with
    | some e =>
      rw [hentry] at h
      exact absurd h (by simp)
    | none =>
      rw [hentry] at h hread
      exact ⟨Except.error.inj h ▸ rfl, hread (.refused .notFound path) rfl rfl⟩

/-! ### Two commands -/

/-- If the streams take everything, a failure that is reported ends a command with status 1. -/
theorem fail_status_eq_one {w : World} (htakes : ∀ stream t, w.takes stream t = true)
    {f : Delivery.Failure} (h : reported f = true) (tree : FileTree) (console : Text) :
    (w.fail tree console f).status = .ok 1 := by
  rw [World.fail, if_pos h, ending_status, if_pos (htakes _ _)]

/-- Two commands **agree**: they end the same way and, if they succeed, the one has stored what the
other has printed.  Behind that a codec may owe an ending, which the file does not get. -/
structure Agree (codecs : Codecs) (printed stored : Outcome) (encoding : Text) (output : Path) :
    Prop where
  status : printed.status = stored.status
  content : stored.status = .ok 0 → ∃ codec bytes, codecs encoding = .ok codec ∧
    codec.whole printed.output = .ok (bytes ++ codec.ending printed.output) ∧
    stored.tree.find? output = some (.file bytes)

section TwoCommands

variable {w : World} {tree : FileTree} {logger : Log.Logger} {settings : Settings} {a : Arguments}
  {source output : Text} {q : Place}

theorem toConsole_withFiles (h : output ≠ ['-']) :
    (a.withFiles source output).toConsole = false :=
  decide_eq_false fun hsome => h (Option.some.inj hsome)

theorem find?_put_of_free {p : Path} (h : tree.Free p q) (content : Bytes) :
    (tree.put q (.file content)).find? p = some (.file content) := by
  obtain ⟨-, htakes⟩ := FileTree.of_openAt h.openAt
  refine FileTree.find?_eq_some_iff.mpr ⟨q, (htakes.keeps_put content).place h.place, ?_⟩
  rw [FileTree.entryAt?_put htakes.ne_directory, if_pos rfl]

/-- A source that can be read is printed or stored. -/
theorem carryOut_agree_of_readText (htakes : ∀ stream t, w.takes stream t = true)
    (hopened : logger.Opened tree) (hdash : output ≠ ['-'])
    (hfree : tree.Free (Path.ofText output) q)
    (hample : ∀ codec, w.codecs a.encoding = .ok codec → codec.Ample)
    (htype : a.TypeEncodable settings w.codecs)
    (hrequire : Delivery.requireSource tree (Path.ofText source) = .ok ()) {text : Text}
    (htext : Delivery.readText w.codecs tree (Path.ofText source) a.encoding = .ok text) :
    Agree w.codecs (carryOut w tree logger settings (a.withFiles source ['-']))
      (carryOut w tree logger settings (a.withFiles source output)) a.encoding
      (Path.ofText output) := by
  have hconsole : (a.withFiles source ['-']).readSource w.codecs tree = .ok text := htext
  have hfile : (a.withFiles source output).readSource w.codecs tree = .ok text := by
    rw [readSource_of_toConsole_eq_false (toConsole_withFiles hdash)]
    change (Delivery.requireSource tree (Path.ofText source)).bind _ = _
    rw [hrequire]
    exact htext
  have hevents : events (a.withFiles source output) settings w.clock text =
    events (a.withFiles source ['-']) settings w.clock text := rfl
  have hconvert : convert (a.withFiles source output) settings w.clock text =
    convert (a.withFiles source ['-']) settings w.clock text := rfl
  rw [carryOut, carryOut, hconsole, hfile]
  dsimp only
  rw [hevents, hconvert]
  have hrefilled := Log.refilled_writeRecords hopened
    ((events (a.withFiles source ['-']) settings w.clock text).map (Log.Record.ofEvent w.time)) []
  generalize (logger.writeRecords _ ⟨[], tree⟩).2 = traces at hrefilled ⊢
  cases hproduct : convert (a.withFiles source ['-']) settings w.clock text with
  | error f => exact ⟨rfl, fun h => absurd h (fail_status_ne _ _ _ _)⟩
  | ok product =>
    obtain ⟨codec, hcodec, hcovers⟩ := Delivery.exists_covers_of_readText hample htext
    obtain ⟨content, hencode⟩ := exists_encode_of_convert (a := a.withFiles source ['-']) htype
      hcodec (hample codec hcodec) hcovers hproduct
    have hfree := hfree.of_refilled hrefilled
    have hdeliver := Delivery.deliver_of_store (r := (a.withFiles source output).request) rfl
      (Delivery.store_of_free hcodec hencode hfree a.overwrite)
    have hwhole : codec.whole product.text = .ok (content ++ codec.ending product.text) := by
      rw [Codec.whole, hencode]
      rfl
    have hprints : (a.withFiles source ['-']).toConsole = true := rfl
    have hending : ∀ tree said, w.ending tree traces.console .output said 0 =
        ⟨tree, said, traces.console, .ok 0⟩ := fun tree said => if_pos (htakes _ _)
    dsimp only
    rw [toConsole_withFiles hdash, if_neg Bool.false_ne_true, hdeliver, hprints, if_pos rfl]
    dsimp only
    rw [hending, hending]
    refine ⟨?_, fun _ => ⟨codec, content, hcodec, hwhole, ?_⟩⟩
    · split <;> rfl
    · rw [← find?_put_of_free hfree content]
      split <;> rfl

/-- **Printing and storing end the same way**, once the log is set up, and what is stored is what is
printed. -/
theorem carryOut_agree (htakes : ∀ stream t, w.takes stream t = true)
    (hopened : logger.Opened tree) (hdash : output ≠ ['-'])
    (hsource : '\x00' ∉ source) (hfree : tree.Free (Path.ofText output) q)
    (hencoding : '\x00' ∉ a.encoding)
    (hample : ∀ codec, w.codecs a.encoding = .ok codec → codec.Ample)
    (htype : a.TypeEncodable settings w.codecs) :
    Agree w.codecs (carryOut w tree logger settings (a.withFiles source ['-']))
      (carryOut w tree logger settings (a.withFiles source output)) a.encoding
      (Path.ofText output) := by
  have hfile := readSource_of_toConsole_eq_false (a := a.withFiles source output)
    (toConsole_withFiles hdash) w.codecs tree
  change _ = (Delivery.requireSource tree (Path.ofText source)).bind
    (fun _ => Delivery.readText w.codecs tree (Path.ofText source) a.encoding) at hfile
  cases hrequire : Delivery.requireSource tree (Path.ofText source) with
  | error f =>
    -- the one command misses the source, and the other cannot read it
    obtain ⟨hf, g, hg, hreported⟩ :=
      reported_of_requireSource (no_null_in_names hsource) hencoding hrequire
    have hconsole : (a.withFiles source ['-']).readSource w.codecs tree = .error g := hg
    rw [hrequire] at hfile
    rw [carryOut, carryOut, hconsole, hfile]
    refine ⟨?_, fun h => absurd h (fail_status_ne _ _ _ _)⟩
    exact (fail_status_eq_one htakes hreported _ _).trans (fail_status_eq_one htakes hf _ _).symm
  | ok u =>
    cases htext : Delivery.readText w.codecs tree (Path.ofText source) a.encoding with
    | error f =>
      have hconsole : (a.withFiles source ['-']).readSource w.codecs tree = .error f := htext
      rw [hrequire, htext] at hfile
      rw [carryOut, carryOut, hconsole, hfile]
      exact ⟨rfl, fun h => absurd h (fail_status_ne _ _ _ _)⟩
    | ok text =>
      exact carryOut_agree_of_readText htakes hopened hdash hfree hample htype hrequire htext

end TwoCommands

/-- **Printing and storing a result agree.**  Let the streams take whatever is printed, and let the
output path name a free place once the log has been set up.  Then a command that prints and one that
stores the same result end in the same way, and if they succeed the file holds the encoding of
exactly the text that has been printed, up to an ending that the codec may owe. -/
theorem console_and_file_agree (w : World) (source output : Text) (options : List Text)
    (htakes : ∀ stream t, w.takes stream t = true)
    (hsource : classify source = .ok .positional) (houtput : classify output = .ok .positional)
    (hdash : output ≠ ['-']) (hnull : '\x00' ∉ source)
    (hfree : ∀ settings, Settings.load w.tree w.environment [] = .ok settings →
      ∃ q, FileTree.Free (Log.setup w.tree settings).1 (Path.ofText output) q)
    (hencoding : ∀ settings a, Settings.load w.tree w.environment [] = .ok settings →
      read settings (source :: output :: options) = .ok a →
        '\x00' ∉ a.encoding ∧ (∀ codec, w.codecs a.encoding = .ok codec → codec.Ample) ∧
          a.TypeEncodable settings w.codecs) :
    (run w (source :: ['-'] :: options)).status = (run w (source :: output :: options)).status ∧
    ∀ settings a, Settings.load w.tree w.environment [] = .ok settings →
      read settings (source :: output :: options) = .ok a →
      (run w (source :: output :: options)).status = .ok 0 →
      ∃ codec bytes, w.codecs a.encoding = .ok codec ∧
        codec.whole (run w (source :: ['-'] :: options)).output =
          .ok (bytes ++ codec.ending (run w (source :: ['-'] :: options)).output) ∧
        (run w (source :: output :: options)).tree.find? (Path.ofText output) =
          some (.file bytes) := by
  have hconsole : classify ['-'] = .ok .positional := by decide +kernel
  rw [run, run]
  cases hload : Settings.load w.tree w.environment [] with
  | error e => exact ⟨rfl, fun settings a hsettings => absurd hsettings (by simp)⟩
  | ok settings =>
    dsimp only
    have hread := read_files settings hsource houtput options
    rw [read_files settings hsource hconsole, hread]
    cases hoptions : readOptions settings options with
    | error stop =>
      rw [hoptions] at hread
      dsimp only [Except.map]
      refine ⟨by cases stop <;> rfl, fun settings' a hsettings ha => ?_⟩
      obtain rfl := Except.ok.inj hsettings
      exact absurd (hread.symm.trans ha) (by simp [Except.map])
    | ok a =>
      rw [hoptions] at hread
      obtain ⟨hcut, hample, htype⟩ := hencoding settings _ hload hread
      obtain ⟨q, hfree⟩ := hfree settings hload
      dsimp only [Except.map]
      cases hsetup : Log.setup w.tree settings with
      | mk tree result =>
        rw [hsetup] at hfree
        cases result with
        | error e => exact ⟨rfl, fun _ _ _ _ h => absurd h (by simp)⟩
        | ok logger =>
          have hagree := carryOut_agree htakes (Log.opened_of_setup hsetup) hdash hnull hfree hcut
            hample htype
          refine ⟨hagree.status, fun settings' a' hsettings ha hstatus => ?_⟩
          obtain rfl := Except.ok.inj hsettings
          obtain rfl := Except.ok.inj (hread.symm.trans ha)
          exact hagree.content hstatus

theorem eq_ok_of_toOption {ε α : Type} {x : Except ε α} {a : α} (h : x.toOption = some a) :
    x = .ok a := by
  cases x with
  | error e => exact absurd h (by simp [Except.toOption])
  | ok b => exact congrArg Except.ok (Option.some.inj h)

/-- A script with an accent, and settings under which everything is logged to a file. -/
def loggedScript : World :=
  .ofFiles
    [("GOTOJS_LOG_FILE".toList, "log.txt".toList), ("GOTOJS_LOG_LEVEL".toList, "DEBUG".toList)]
    [("a.gjs".toList, "\x7b[lbl] a: x = 'é'; goto a;\x7d".toList)]

/-- The logged script is printed and stored alike, with a byte order mark in the file. -/
theorem logged_script_agrees :
    (run loggedScript ["a.gjs".toList, ['-'], "--encoding".toList, "utf-8-sig".toList]).status =
      (run loggedScript
        ["a.gjs".toList, "out.js".toList, "--encoding".toList, "utf-8-sig".toList]).status ∧
    ∃ codec bytes, loggedScript.codecs "utf-8-sig".toList = .ok codec ∧
      codec.whole (run loggedScript
          ["a.gjs".toList, ['-'], "--encoding".toList, "utf-8-sig".toList]).output =
        .ok (bytes ++ codec.ending (run loggedScript
          ["a.gjs".toList, ['-'], "--encoding".toList, "utf-8-sig".toList]).output) ∧
      FileTree.find? (run loggedScript
        ["a.gjs".toList, "out.js".toList, "--encoding".toList, "utf-8-sig".toList]).tree
        (Path.ofText "out.js".toList) = some (.file bytes) := by
  have hload : Settings.load loggedScript.tree loggedScript.environment [] =
      .ok { logFile := some "log.txt".toList, logLevel := "DEBUG".toList } := by
    decide +kernel
  have hread : read { logFile := some "log.txt".toList, logLevel := "DEBUG".toList }
      ["a.gjs".toList, "out.js".toList, "--encoding".toList, "utf-8-sig".toList] =
      .ok ⟨"a.gjs".toList, some "out.js".toList, false, "text/jsplusgoto".toList, .quotes, false,
        false, "utf-8-sig".toList, false⟩ := by
    decide +kernel
  have hcodecs : loggedScript.codecs = Encoding.codecs := rfl
  have hagree := console_and_file_agree loggedScript "a.gjs".toList "out.js".toList
    ["--encoding".toList, "utf-8-sig".toList] (fun _ _ => rfl)
    (by decide +kernel) (by decide +kernel) (by decide +kernel) (by decide +kernel)
    (fun settings hsettings => by
      obtain rfl := Except.ok.inj (hload.symm.trans hsettings)
      exact ⟨["out.js".toList], by decide +kernel, by decide +kernel, by decide +kernel,
        by decide +kernel⟩)
    (fun settings a hsettings ha => by
      obtain rfl := Except.ok.inj (hload.symm.trans hsettings)
      obtain rfl := Except.ok.inj (hread.symm.trans ha)
      exact ⟨by decide +kernel,
        fun codec hcodec => Encoding.ample_of_codecs (hcodecs ▸ hcodec),
        fun hhtml => absurd hhtml Bool.false_ne_true⟩)
  have hstatus : (run loggedScript ["a.gjs".toList, "out.js".toList, "--encoding".toList,
      "utf-8-sig".toList]).status.toOption = some 0 := by
    decide +kernel
  exact ⟨hagree.1, hagree.2 _ _ hload hread (eq_ok_of_toOption hstatus)⟩

/-- Nothing is found at an output path in a directory that is there, but a command that prints its
result and one that stores it there **end apart**. -/
def EndsApart (w : World) (source output : Text) (options : List Text) : Prop :=
  w.tree.find? (Path.ofText output) = none ∧
    w.tree.find? (Path.ofText output).parent = some .directory ∧
    (run w (source :: ['-'] :: options)).status.toOption ≠
      (run w (source :: output :: options)).status.toOption

instance (w : World) (source output : Text) (options : List Text) :
    Decidable (EndsApart w source output options) :=
  inferInstanceAs (Decidable (_ = none ∧ _ = some _ ∧ _ ≠ _))

/-- A script, a link that leads nowhere, a directory in which nothing can be made, and no more room
than for a byte elsewhere. -/
def obstructedScript : World where
  tree := {
    here := []
    entries := [(["a.gjs".toList], .file ("x;".toList.flatMap Encoding.utf8Char)),
      (["b.js".toList], .link (Path.ofText "d/b.js".toList)), (["locked".toList], .directory)]
    denials := [((["locked".toList], .write), .denied)]
    bounds := [(["c.js".toList], ⟨1, .full⟩)] }
  environment := []
  clock := 0
  time _ := []

/-- The bytes of a text in two sets of 128 characters, with a byte that shifts out of the first set
and one that shifts back in. -/
def shift (out : Bool) : Text → Bytes
  | [] => []
  | c :: cs =>
    let next := decide (128 ≤ c.toNat)
    (if next = out then [] else [if next then 0x0E else 0x0F]) ++
      UInt8.ofNat (c.toNat % 128) :: shift next cs

/-- The text of shifted bytes. -/
def unshift (out : Bool) : Bytes → Text
  | [] => []
  | b :: bs =>
    if b = 0x0E then unshift true bs
    else if b = 0x0F then unshift false bs
    else Char.ofNat (b.toNat % 128 + if out then 128 else 0) :: unshift out bs

/-- A codec that shifts between two sets.  Behind a text that ends in the second set it owes a
shift. -/
def shifting : Codec where
  decode bytes := .ok (unshift false bytes)
  encode t := .ok (shift false t)
  ending t := if t.getLast?.any (128 ≤ ·.toNat) then [0x0F] else []

/-- A script that ends with an accent, in shifted bytes. -/
def shiftedScript : World where
  tree := { here := [], entries := [(["a.gjs".toList], .file (shift false "'é".toList))] }
  environment := []
  clock := 0
  time _ := []
  codecs _ := .ok shifting

/-- **Commands that end apart**: the name of the output is too long, the output or the source is
taken for an option, the output becomes the log file, the configured content type cannot be encoded,
the name of the encoding is cut by a null character where there is no source, the output is a link
that leads nowhere, no file may be made there or there is no room for it, or nothing can be printed.
And a file that lacks the ending of what is printed. -/
theorem commands_that_end_apart :
    (EndsApart guardedFile "a.gjs".toList (List.replicate 256 'n') [] ∧
      EndsApart guardedFile "a.gjs".toList "-x".toList [] ∧
      EndsApart (.ofFiles [] [(['-'], [])]) "--html".toList "c.html".toList [] ∧
      EndsApart (.ofFiles [("GOTOJS_LOG_FILE".toList, "c.js".toList)] [("a.gjs".toList, [])])
        "a.gjs".toList "c.js".toList [] ∧
      EndsApart accentedType "p.html".toList "out.html".toList
        ["--html".toList, "--encoding".toList, "ascii".toList] ∧
      EndsApart guardedFile "missing.gjs".toList "c.js".toList ["--encoding".toList, ['\x00']] ∧
      EndsApart obstructedScript "a.gjs".toList "b.js".toList [] ∧
      EndsApart obstructedScript "a.gjs".toList "locked/b.js".toList [] ∧
      EndsApart obstructedScript "a.gjs".toList "c.js".toList [] ∧
      EndsApart { guardedFile with takes := fun _ _ => false } "a.gjs".toList "c.js".toList
        ["--quiet".toList]) ∧
    shifting.Ample ∧
      (run shiftedScript ["a.gjs".toList, "c.js".toList]).status.toOption = some 0 ∧
      FileTree.find? (run shiftedScript ["a.gjs".toList, "c.js".toList]).tree
        (Path.ofText "c.js".toList) = some (.file [0x27, 0x0E, 0x69]) ∧
      shifting.whole (run shiftedScript ["a.gjs".toList, ['-']]).output =
        .ok [0x27, 0x0E, 0x69, 0x0F] := by
  exact ⟨by decide +kernel, ⟨fun _ _ => ⟨_, rfl⟩, fun _ _ _ _ _ => ⟨_, rfl⟩, fun _ _ => ⟨_, rfl⟩⟩,
    by decide +kernel, by decide +kernel, by decide +kernel⟩

end LabelLoop.CommandLine
