import LabelLoop.Conversion.Basic
import LabelLoop.Document.Hooks
import LabelLoop.Settings.Basic

/-!
# Delivering results

A source is read from a file, converted, and the result is written to a file.  Nothing is written
unless everything before has succeeded, and a file that is there already is not overwritten unless
that is asked for.  Writing itself may fail half-way, and then the file keeps what it has taken.

All that a conversion reads from the clock is one moment, which the bodies of a document share.
-/

namespace LabelLoop.Delivery

open Text

/-- Why a result is **not delivered**. -/
inductive Failure where
  | sourceMissing (path : Path)
  | wouldOverwrite (path : Path)
  | file (error : FileTree.FileError)
  | undecodable (error : Codec.DecodeError)
  | unencodable (error : Codec.EncodeError)
  /-- There is no codec of that name for texts. -/
  | noCodec (name : Text) (why : Codec.Missing)
  /-- The name of the encoding holds a null character. -/
  | encodingCut
  /-- There is no path for the result. -/
  | nameless (error : Path.SuffixError)
  | settings (error : Settings.LoadError)
  | conversion (failure : Conversion.Failure)
  | hook (failure : Document.Hooks.Failure Conversion.Failure)

/-- The message of a failure. -/
def Failure.message : Failure → Text
  | .sourceMissing p => "Source file not found: ".toList ++ p.toText
  | .wouldOverwrite p => "Refusing to overwrite existing file: ".toList ++ p.toText
  | .file e => e.message
  | .undecodable e => e.message
  | .unencodable e => e.message
  | .noCodec name why => why.message name
  | .encodingCut => "embedded null character".toList
  | .nameless e => e.message
  | .settings e => e.message
  | .conversion f => f.message
  | .hook f => f.message Conversion.Failure.message

/-! ### Reading -/

/-- The text of a file. -/
def readText (codecs : Codecs) (tree : FileTree) (path : Path) (encoding : Text) :
    Except Failure Text :=
  if encoding.contains '\x00' then .error .encodingCut
  else
    match tree.read path, codecs encoding with
    | .error e, _ => .error (.file e)
    | .ok _, .error why => .error (.noCodec encoding why)
    | .ok content, .ok codec =>
      match codec.decode content with
      | .error e => .error (.undecodable e)
      | .ok t => .ok (Codec.unifyLines t)

/-- The source at a path must be there. -/
def requireSource (tree : FileTree) (path : Path) : Except Failure Unit :=
  match tree.isThere path with
  | .ok true => .ok ()
  | .ok false => .error (.sourceMissing path)
  | .error e => .error (.file e)

/-! ### Writing -/

/-- What is asked of a delivery. -/
structure Request where
  source : Path
  /-- Where the result goes; if nothing is said, next to the source. -/
  output : Option Path := none
  overwrite : Bool := false
  encoding : Text := "utf-8".toList
  deriving DecidableEq, Repr

/-- Writes a text to a file.  The file is emptied first; it stays empty if the text cannot be
encoded, and keeps what it can hold if that is not all. -/
def writeText (codecs : Codecs) (tree : FileTree) (path : Path) (encoding t : Text) :
    FileTree × Except Failure Unit :=
  match tree.openAt path with
  | .error e => (tree, .error (.file e))
  | .ok (place, _) =>
    let emptied := tree.put place (.file [])
    match codecs encoding with
    | .error why => (emptied, .error (.noCodec encoding why))
    | .ok codec =>
      match codec.encode t with
      | .error e => (emptied, .error (.unencodable e))
      | .ok content =>
        let written := tree.fill place [] content
        match tree.refusal? place [] content with
        | none => (written, .ok ())
        | some cause => (written, .error (.file (.cutOff cause)))

/-- Writes a result to `output`, in a directory that is made if it is missing. -/
def store (codecs : Codecs) (tree : FileTree) (output : Path) (overwrite : Bool)
    (encoding t : Text) : FileTree × Except Failure Unit :=
  match tree.isThere output with
  | .error e => (tree, .error (.file e))
  | .ok there =>
    if there && !overwrite then (tree, .error (.wouldOverwrite output))
    else
      match tree.ensureDirectories output.parent with
      | (made, some e) => (made, .error (.file e))
      | (made, none) => writeText codecs made output encoding t

/-- Writes a result where the request says, or else to the default, and tells where. -/
def deliver (codecs : Codecs) (tree : FileTree) (r : Request)
    (default : Except Path.SuffixError Path) (t : Text) : FileTree × Except Failure Path :=
  match r.output.elim default .ok with
  | .error e => (tree, .error (.nameless e))
  | .ok output =>
    match store codecs tree output r.overwrite r.encoding t with
    | (after, .error f) => (after, .error f)
    | (after, .ok ()) => (after, .ok output)

/-! ### Scripts and documents -/

/-- Where the result for a script goes by default. -/
def scriptDefault (r : Request) : Except Path.SuffixError Path :=
  r.source.besideScript ".js".toList

/-- **Converts a script** from file to file. -/
def convertScript (codecs : Codecs) (tree : FileTree) (r : Request) (o : Conversion.Options)
    (strict : Bool) : FileTree × Except Failure (Path × Conversion.Converted) :=
  let converted := do
    requireSource tree r.source
    let source ← readText codecs tree r.source r.encoding
    (Conversion.convert o strict source).mapError Failure.conversion
  match converted with
  | .error f => (tree, .error f)
  | .ok c =>
    let (after, output) := deliver codecs tree r (scriptDefault r) c.code
    (after, output.map (·, c))

/-- A hook that converts scripts and keeps all remarks.  The clock is read once and for all. -/
def permissiveHook (clock : Int) (body : Text) : Except Conversion.Failure Text :=
  (Conversion.convert { placeholder := Literal.placeholderAt clock } false body).map (·.code)

/-- The hooks that the settings ask for. -/
def hooksOf (settings : Settings) : Document.Hooks Unit :=
  Document.Hooks.register { outputType := settings.outputType } settings.contentType ()

/-- **Converts a document** from file to file, with the hooks that the settings ask for. -/
def convertDocument (codecs : Codecs) (tree : FileTree) (r : Request)
    (settings : Except Settings.LoadError Settings) (clock : Int) :
    FileTree × Except Failure (Path × Text) :=
  let converted := do
    requireSource tree r.source
    let settings ← settings.mapError Failure.settings
    let document ← readText codecs tree r.source r.encoding
    ((hooksOf settings).process (fun () => permissiveHook clock) document).mapError Failure.hook
  match converted with
  | .error f => (tree, .error f)
  | .ok document =>
    let (after, output) := deliver codecs tree r r.source.besideDocument document
    (after, output.map (·, document))

end LabelLoop.Delivery
