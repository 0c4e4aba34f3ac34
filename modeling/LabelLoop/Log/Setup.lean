import LabelLoop.Settings.Basic

/-!
# Setting up the log

The log is set up from the settings: a threshold, a console handler and, if a file is named, a file
handler.  A log that is in use is changed step by step.  What can fail is tried before the first
change, with one exception: a handler that is taken off is closed, and one that holds back what its
file would not take tries once more to write it.
-/

namespace LabelLoop.Log

open Text

/-! ### The log -/

/-- Where the lines of a handler go. -/
inductive Sink where
  | console
  | file (path : Path)
  deriving DecidableEq, Repr

/-- A **handler** writes the events that reach its threshold. -/
structure Handler where
  sink : Sink
  threshold : Nat
  style : Style
  /-- What has been written to the handler, and its file has not taken. -/
  held : Bytes := []
  deriving DecidableEq, Repr

/-- The state of the **log**. -/
structure Logger where
  threshold : Nat
  handlers : List Handler
  /-- Events are also passed on to the handlers of the host. -/
  propagate : Bool
  deriving DecidableEq, Repr

/-- The log before it has been set up. -/
def Logger.initial : Logger :=
  ⟨0, [], true⟩

/-! ### Thresholds -/

/-- The upper-case form of a character, as far as it is made of ASCII characters; the names of
thresholds hold no others. -/
def upperAscii (c : Char) : Text :=
  match [('ı', "I"), ('ſ', "S"), ('ß', "SS"), ('ﬀ', "FF"), ('ﬁ', "FI"), ('ﬂ', "FL"), ('ﬃ', "FFI"),
      ('ﬄ', "FFL"), ('ﬅ', "ST"), ('ﬆ', "ST")].lookup c with
  | some s => s.toList
  | none => [c.toUpper]

/-- The names of thresholds. -/
def thresholds : List (Text × Nat) :=
  [("DEBUG".toList, 10), ("INFO".toList, 20), ("WARNING".toList, 30), ("WARN".toList, 30),
    ("ERROR".toList, 40), ("CRITICAL".toList, 50), ("FATAL".toList, 50), ("NOTSET".toList, 0)]

/-- Why the log **cannot be set up**. -/
inductive SetupError where
  /-- The name of the threshold is that of the text of a basic format. -/
  | formatText
  /-- The name of the threshold is that of the table of formats. -/
  | formatTable
  | file (error : FileTree.FileError)
  deriving DecidableEq, Repr

/-- The basic format, in which a line is a level, a name and a message. -/
def basicFormat : Text :=
  "'%(levelname)s:%(name)s:%(message)s'".toList

/-- The message of an error. -/
def SetupError.message : SetupError → Text
  | .formatText => "Unknown level: ".toList ++ basicFormat
  | .formatTable =>
    "Level not an integer or a valid string: \x7b'%': (<class 'logging.PercentStyle'>, ".toList ++
      basicFormat ++ "), '\x7b': (<class 'logging.StrFormatStyle'>, ".toList ++
      "'\x7blevelname\x7d:\x7bname\x7d:\x7bmessage\x7d'), ".toList ++
      "'$': (<class 'logging.StringTemplateStyle'>, ".toList ++
      "'$\x7blevelname\x7d:$\x7bname\x7d:$\x7bmessage\x7d')\x7d".toList
  | .file e => e.message

/-- What a name **stands for** where a threshold is asked for. -/
inductive Named where
  | threshold (n : Nat)
  /-- The text of the basic format. -/
  | formatText
  /-- The table of formats. -/
  | formatTable
  deriving DecidableEq, Repr

/-- What a name stands for, in any case; an unknown name means the threshold of warnings.  Two names
stand for something that is no threshold. -/
def named (name : Text) : Named :=
  let upper := name.flatMap upperAscii
  match thresholds.lookup upper with
  | some n => .threshold n
  | none =>
    if upper = "BASIC_FORMAT".toList then .formatText
    else if upper = "_STYLES".toList then .formatTable
    else .threshold Level.warning.weight

/-- What a name stands for, checked to be a threshold. -/
def Named.check : Named → Except SetupError Nat
  | .threshold n => .ok n
  | .formatText => .error .formatText
  | .formatTable => .error .formatTable

/-- The threshold with a given name. -/
def thresholdOf (name : Text) : Except SetupError Nat :=
  (named name).check

/-! ### Setup -/

/-- The tree with a log file to which lines can be added. -/
def openFile (tree : FileTree) (path : Path) : FileTree × Except SetupError Unit :=
  match tree.ensureDirectories path.parent with
  | (t, some e) => (t, .error (.file e))
  | (t, none) =>
    match t.append path [] with
    | .error e => (t, .error (.file e))
    | .ok appended => (appended.tree, .ok ())

/-- **Sets up** a new log. -/
def setup (tree : FileTree) (settings : Settings) : FileTree × Except SetupError Logger :=
  match thresholdOf settings.logLevel with
  | .error e => (tree, .error e)
  | .ok threshold =>
    let console : Handler := { sink := .console, threshold, style := settings.logStyle }
    match settings.logFile with
    | none | some [] => (tree, .ok ⟨threshold, [console], false⟩)
    | some name =>
      let path := Path.ofText name
      let file : Handler := { sink := .file path, threshold, style := settings.logStyle }
      match openFile tree path with
      | (t, .error e) => (t, .error e)
      | (t, .ok ()) => (t, .ok ⟨threshold, [console, file], false⟩)

/-! ### A log in use -/

/-- The log without a handler. -/
def Logger.remove (logger : Logger) (h : Handler) : Logger :=
  { logger with handlers := logger.handlers.erase h }

/-- The log with a handler added, if it has not got it. -/
def Logger.add (logger : Logger) (h : Handler) : Logger :=
  if h ∈ logger.handlers then logger else { logger with handlers := logger.handlers ++ [h] }

/-- **Adds** to the file of a handler what the handler holds back and then more.  What the file does
not take is held back; a file that is gone takes everything, and nobody will see it. -/
def Handler.push (h : Handler) (tree : FileTree) (path : Path) (more : Bytes) :
    FileTree × Handler × Option FileTree.Cause :=
  match tree.append path (h.held ++ more) with
  | .error _ => (tree, { h with held := [] }, none)
  | .ok appended => (appended.tree, { h with held := appended.left }, appended.cause)

/-- **Closes** a handler: its file gets what is held back, or refuses it for good. -/
def Handler.close (h : Handler) (tree : FileTree) : FileTree × Except SetupError Unit :=
  match h.sink with
  | .console => (tree, .ok ())
  | .file path =>
    if h.held.isEmpty then (tree, .ok ())
    else
      match h.push tree path [] with
      | (t, _, none) => (t, .ok ())
      | (t, _, some cause) => (t, .error (.file (.cutOff cause)))

/-- A log in use, and the files around it. -/
structure Installation where
  tree : FileTree
  logger : Logger

/-- **Work** on a log in use.  Where it fails, what has been done before stays done. -/
abbrev Work := ExceptT SetupError (StateM Installation)

/-- A new handler, whose threshold is checked. -/
def makeHandler (sink : Sink) (level : Named) (style : Style) : Work Handler := do
  let threshold ← MonadExcept.ofExcept level.check
  return { sink, threshold, style }

/-- Changes the files, which may fail. -/
def changeFiles (change : FileTree → FileTree × Except SetupError Unit) : Work Unit := do
  let (tree, result) := change (← get).tree
  modify ({ · with tree := tree })
  MonadExcept.ofExcept result

/-- The handlers that the settings ask for, the console first. -/
def makeHandlers (level : Named) (settings : Settings) : Work (List Handler) := do
  let console ← makeHandler .console level settings.logStyle
  match settings.logFile with
  | none | some [] => return [console]
  | some name =>
    let path := Path.ofText name
    changeFiles (openFile · path)
    let file ← makeHandler (.file path) level settings.logStyle
    return [console, file]

/-- Changes the log. -/
def changeLogger (change : Logger → Logger) : Work Unit :=
  modify fun i => { i with logger := change i.logger }

/-- Takes off handlers one by one, and closes each of them. -/
def takeOff : List Handler → Work Unit
  | [] => return
  | h :: hs => do
    changeLogger (·.remove h)
    changeFiles h.close
    takeOff hs

/-- **Sets up a log in use**: makes the new handlers, takes off the old ones, puts the new ones on
one by one, and sets the threshold, which is checked once more. -/
def install (settings : Settings) : Work Unit := do
  let level := named settings.logLevel
  let handlers ← makeHandlers level settings
  takeOff (← get).logger.handlers
  changeLogger fun logger => handlers.foldl Logger.add logger
  let threshold ← MonadExcept.ofExcept level.check
  changeLogger ({ · with threshold := threshold })
  changeLogger ({ · with propagate := false })

/-- Sets up a log that may have been set up before: the files afterwards, how it ended, and the
log. -/
def Logger.reset (logger : Logger) (tree : FileTree) (settings : Settings) :
    FileTree × Except SetupError Unit × Logger :=
  let (result, i) := StateT.run (install settings).run ⟨tree, logger⟩
  (i.tree, result, i.logger)

/-! ### Writing events -/

/-- The threshold that counts: without one of its own the log has that of the host, which hears
warnings. -/
def Logger.effective (logger : Logger) : Nat :=
  if logger.threshold = 0 then Level.warning.weight else logger.threshold

/-- What events leave behind: lines on the console, and a tree with longer log files. -/
structure Traces where
  console : Text
  tree : FileTree

/-- **Writes** one record to one handler.  An event of which no line can be made is not written, nor
to a file one whose line is no text. -/
def Handler.write (h : Handler) (r : Record) (traces : Traces) : Handler × Traces :=
  if r.level.weight < h.threshold then (h, traces)
  else
    match r.line h.style with
    | .error _ => (h, traces)
    | .ok line =>
      match h.sink with
      | .console => (h, { traces with console := traces.console ++ line.onConsole ++ ['\n'] })
      | .file path =>
        match line.narrow? with
        | none => (h, traces)
        | some t =>
          let (tree, h', _) := h.push traces.tree path ((t ++ ['\n']).flatMap Encoding.utf8Char)
          (h', { traces with tree := tree })

/-- Writes one record to handlers, one after another. -/
def writeAll (r : Record) : List Handler → Traces → List Handler × Traces
  | [], traces => ([], traces)
  | h :: hs, traces =>
    let (h', traces) := h.write r traces
    let (hs', traces) := writeAll r hs traces
    (h' :: hs', traces)

/-- **Writes** one record: the log afterwards, and what the record leaves behind. -/
def Logger.write (logger : Logger) (r : Record) (traces : Traces) : Logger × Traces :=
  if r.level.weight < logger.effective then (logger, traces)
  else
    let (handlers, traces) := writeAll r logger.handlers traces
    ({ logger with handlers := handlers }, traces)

/-- Writes records, one after another. -/
def Logger.writeRecords (logger : Logger) (records : List Record) (traces : Traces) :
    Logger × Traces :=
  records.foldl (fun (logger, traces) r => logger.write r traces) (logger, traces)

end LabelLoop.Log
