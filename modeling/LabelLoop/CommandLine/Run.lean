import LabelLoop.CommandLine.Arguments
import LabelLoop.CommandLine.Help
import LabelLoop.Files.Delivery
import LabelLoop.Log.Setup

/-!
# Running a command

A command as a function of what it finds (the files, the codecs, the variables of the environment,
the clock, the streams that it prints on and its arguments) to what it leaves behind (the files,
what it prints and how it ends).

A stream may refuse what is printed on it, for example a character that it cannot encode, and this
stops the command.  Only lines of the log are let go then.
-/

namespace LabelLoop.CommandLine

open Text

/-! ### What a command finds and leaves -/

/-- The streams that a command prints on. -/
inductive Stream where
  | output
  | errors
  deriving DecidableEq, Repr

/-- What a command **finds**. -/
structure World where
  tree : FileTree
  environment : List (Text × Text)
  /-- The time in nanoseconds, from which placeholders are made.  The clock stands still while the
  command runs, so that all bodies of a document have the same placeholder. -/
  clock : Int
  /-- The time as each style of log lines writes it. -/
  time : Log.Style → Text
  codecs : Codecs := Encoding.codecs
  /-- If a stream takes a text that is printed on it. -/
  takes : Stream → Text → Bool := fun _ _ => true

/-- What stops a command without an answer of its own. -/
inductive Crash where
  | settings (error : Settings.LoadError)
  | logging (error : Log.SetupError)
  | delivery (failure : Delivery.Failure)
  /-- The help text cannot be written. -/
  | help (error : Template.Error)
  /-- A stream does not take what is printed on it. -/
  | printing (stream : Stream)

/-- How a command **ends** and what it leaves: the files, and the texts that the streams have taken.
A text that is refused does not show at all. -/
structure Outcome where
  tree : FileTree
  output : Text
  errors : Text
  status : Except Crash Nat

/-! ### Converting -/

/-- The choices that the arguments leave to a conversion. -/
def Arguments.options (a : Arguments) (clock : Int) : Conversion.Options where
  placeholder := Literal.placeholderAt clock
  scan := a.scanner.scanner

/-- A conversion for a command: the text, and the remarks on it. -/
structure Product where
  text : Text
  remarks : List Diagnostic

/-- The hooks of a command: one, for the content type that the arguments give. -/
def Arguments.hooks (a : Arguments) (settings : Settings) : Document.Hooks Unit :=
  Document.Hooks.register { outputType := settings.outputType } a.contentType ()

/-- Converts what has been read. -/
def convert (a : Arguments) (settings : Settings) (clock : Int) (source : Text) :
    Except Delivery.Failure Product :=
  let converted (body : Text) := Conversion.convert (a.options clock) a.strict body
  if a.html then
    let hooks := a.hooks settings
    match hooks.process (fun () body => (converted body).map (·.code)) source with
    | .error f => .error (.hook f)
    | .ok text =>
      let bodies := (hooks.hooked source).map fun (f, _) => f.item.body
      .ok ⟨text, bodies.flatMap fun b => ((converted b).toOption.map (·.diagnostics)).getD []⟩
  else
    match converted source with
    | .error f => .error (.conversion f)
    | .ok c => .ok ⟨c.code, c.diagnostics⟩

/-- The bodies up to and including the first that `fails`. -/
def visited (fails : Text → Bool) : List Text → List Text
  | [] => []
  | b :: bs => if fails b then [b] else b :: visited fails bs

/-- The event at the end of a document. -/
def documentEvent (count : Nat) : Log.Event where
  level := .debug
  logger := "gotojs.translator.script_blocks".toList
  message := "Rewrote ".toList ++ Text.ofNat count ++ " script block(s)".toList

/-- The events of converting what has been read. -/
def events (a : Arguments) (settings : Settings) (clock : Int) (source : Text) : List Log.Event :=
  let o := a.options clock
  let name := (Path.ofText a.source).toText
  if a.html then
    let bodies := ((a.hooks settings).hooked source).map fun (f, _) => f.item.body
    let fails (b : Text) : Bool := !(Conversion.convert o a.strict b).isOk
    (visited fails bodies).flatMap (Conversion.events o name) ++
      if bodies.any fails then [] else [documentEvent bodies.length]
  else Conversion.events o name source

/-! ### Ending -/

/-- A failure that a command reports itself, with exit status 1. -/
def reported : Delivery.Failure → Bool
  | .noCodec .. | .encodingCut | .nameless _ | .settings _ => false
  | .file .nullCharacter => false
  | .conversion (.lowering .sourceExhausted) => false
  | _ => true

/-- Ends a command with a text on a stream, if the stream takes it. -/
def World.ending (w : World) (tree : FileTree) (console : Text) (stream : Stream) (said : Text)
    (status : Nat) : Outcome :=
  if w.takes stream said then
    match stream with
    | .output => ⟨tree, said, console, .ok status⟩
    | .errors => ⟨tree, [], console ++ said, .ok status⟩
  else ⟨tree, [], console, .error (.printing stream)⟩

/-- Ends a command that has failed. -/
def World.fail (w : World) (tree : FileTree) (console : Text) (f : Delivery.Failure) : Outcome :=
  if reported f then w.ending tree console .errors ("Error: ".toList ++ f.message ++ ['\n']) 1
  else ⟨tree, [], console, .error (.delivery f)⟩

/-- What is said about a file that has been written. -/
def notice (path : Path) (remarks : List Diagnostic) : Text :=
  "Wrote ".toList ++ path.toText ++
    (if remarks.isEmpty then []
      else " (".toList ++ Text.ofNat remarks.length ++ " diagnostic(s))".toList) ++ ['\n']

/-! ### The command -/

/-- The result is to be printed instead of being written to a file. -/
def Arguments.toConsole (a : Arguments) : Bool :=
  a.output = some ['-']

/-- What the arguments ask to be delivered. -/
def Arguments.request (a : Arguments) : Delivery.Request where
  source := Path.ofText a.source
  output := a.output.map Path.ofText
  overwrite := a.overwrite
  encoding := a.encoding

/-- The source, which is only missed by name if the result goes to a file. -/
def Arguments.readSource (a : Arguments) (codecs : Codecs) (tree : FileTree) :
    Except Delivery.Failure Text := do
  let r := a.request
  if !a.toConsole then Delivery.requireSource tree r.source
  Delivery.readText codecs tree r.source r.encoding

/-- Where a result goes if no output is named. -/
def Arguments.default (a : Arguments) : Except Path.SuffixError Path :=
  if a.html then a.request.source.besideDocument else Delivery.scriptDefault a.request

/-- Carries out what the arguments ask for, with a log that is set up. -/
def carryOut (w : World) (tree : FileTree) (logger : Log.Logger) (settings : Settings)
    (a : Arguments) : Outcome :=
  match a.readSource w.codecs tree with
  | .error f => w.fail tree [] f
  | .ok source =>
    let records := (events a settings w.clock source).map (Log.Record.ofEvent w.time)
    let traces := (logger.writeRecords records ⟨[], tree⟩).2
    match convert a settings w.clock source with
    | .error f => w.fail traces.tree traces.console f
    | .ok product =>
      if a.toConsole then w.ending traces.tree traces.console .output product.text 0
      else
        match Delivery.deliver w.codecs traces.tree a.request a.default product.text with
        | (after, .error f) => w.fail after traces.console f
        | (after, .ok path) =>
          if a.quiet then ⟨after, [], traces.console, .ok 0⟩
          else w.ending after traces.console .output (notice path product.remarks) 0

/-- Puts something in front of what a command reports. -/
def Outcome.after (o : Outcome) (said : Text) : Outcome :=
  { o with errors := said ++ o.errors }

/-- **Runs** a command.  Of a command that is refused only the reason is reported. -/
def run (w : World) (arguments : List Text) : Outcome :=
  let said := Settings.complaints w.tree
  match Settings.load w.tree w.environment [] with
  | .error e => ⟨w.tree, [], said, .error (.settings e)⟩
  | .ok settings =>
    match read settings arguments with
    | .error .help =>
      match help (columns w.environment) settings with
      | .ok text => w.ending w.tree said .output text 0
      | .error e => ⟨w.tree, [], said, .error (.help e)⟩
    | .error (.refused e) =>
      w.ending w.tree [] .errors ("gotojs: error: ".toList ++ e.message ++ ['\n']) 2
    | .ok a =>
      match Log.setup w.tree settings with
      | (tree, .error e) => ⟨tree, [], said, .error (.logging e)⟩
      | (tree, .ok logger) => (carryOut w tree logger settings a).after said

end LabelLoop.CommandLine
