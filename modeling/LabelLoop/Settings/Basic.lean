import LabelLoop.Field.Basic
import LabelLoop.Files.Tree
import LabelLoop.Literal.Scanner
import LabelLoop.Log.Line
import LabelLoop.Settings.EnvFile

/-!
# Settings

The settings of the program have defaults, which a file of variables, the environment and the caller
can change; the later of these wins.
-/

namespace LabelLoop

/-- The **settings**. -/
structure Settings where
  /-- The content type of the scripts to convert in a document. -/
  contentType : Text := "text/jsplusgoto".toList
  /-- The content type of converted scripts. -/
  outputType : Text := "text/javascript".toList
  scanner : Literal.ScannerKind := .quotes
  strict : Bool := false
  encoding : Text := "utf-8".toList
  logLevel : Text := "WARNING".toList
  logStyle : Log.Style := .plain
  logFile : Option Text := none
  deriving DecidableEq, Repr

namespace Settings

open Text

/-- The beginning of the names of the variables that hold settings. -/
def variableStem : Text :=
  "GOTOJS_".toList

/-- The names of the settings. -/
def names : List Text :=
  ["CONTENT_TYPE", "OUTPUT_CONTENT_TYPE", "SCANNER", "STRICT", "ENCODING", "LOG_LEVEL",
    "LOG_FORMAT", "LOG_FILE"].map String.toList

/-- Settings from their fields. -/
def ofEntries (entries : Entries) : Except (List Field.Issue) Settings :=
  let d : Settings := {}
  let contentType := Field.defaulted entries "CONTENT_TYPE".toList d.contentType Field.text
  let outputType := Field.defaulted entries "OUTPUT_CONTENT_TYPE".toList d.outputType Field.text
  let scanner := Field.defaulted entries "SCANNER".toList d.scanner
    (Field.choice Literal.ScannerKind.names)
  let strict := Field.defaulted entries "STRICT".toList d.strict Field.truth
  let encoding := Field.defaulted entries "ENCODING".toList d.encoding Field.text
  let logLevel := Field.defaulted entries "LOG_LEVEL".toList d.logLevel Field.text
  let logStyle := Field.defaulted entries "LOG_FORMAT".toList d.logStyle
    (Field.choice Log.Style.names)
  let logFile := Field.defaulted entries "LOG_FILE".toList d.logFile (Field.nullable Field.text)
  match contentType, outputType, scanner, strict, encoding, logLevel, logStyle, logFile with
  | .ok ct, .ok ot, .ok sc, .ok st, .ok en, .ok ll, .ok ls, .ok lf =>
    .ok ⟨ct, ot, sc, st, en, ll, ls, lf⟩
  | _, _, _, _, _, _, _, _ =>
    .error (Field.issues contentType ++ Field.issues outputType ++ Field.issues scanner ++
      Field.issues strict ++ Field.issues encoding ++ Field.issues logLevel ++
      Field.issues logStyle ++ Field.issues logFile)

/-- The fields that variables give. -/
def entriesOfBindings (bindings : List Binding) : Entries :=
  bindings.filterMap fun (name, value) =>
    match variableStem.isPrefixOf? name, value with
    | some field, some v => some (field, .text v)
    | _, _ => none

/-- Why there are **no settings**. -/
inductive LoadError where
  | invalid (issues : List Field.Issue)
  | unreadable (error : FileTree.FileError)
  | undecodable (error : Codec.DecodeError)
  deriving DecidableEq, Repr

/-- The message of an error; faulty settings have a line per issue. -/
def LoadError.message : LoadError → Text
  | .invalid issues =>
    List.intercalate ['\n'] (issues.map fun i => i.field ++ ": ".toList ++ i.fault.message)
  | .unreadable e => e.message
  | .undecodable e => e.message

/-- The path of the file that settings are read from. -/
def path : Path :=
  .ofText ".env".toList

/-- The statements of the file `.env`, if there is one; a byte order mark at its start does not
count. -/
def fileStatements (tree : FileTree) : Except LoadError (List Statement) :=
  match tree.find? path with
  | some (.file _) =>
    match tree.read path with
    | .error e => .error (.unreadable e)
    | .ok content =>
      match Encoding.utf8.decode content with
      | .error e => .error (.undecodable e)
      | .ok t =>
        let marked := beginsWith t ['\ufeff']
        .ok (statements (Codec.unifyLines (if marked then t.drop 1 else t)))
  | _ => .ok []

/-- **Loads** the settings: `given` are those that the caller gives. -/
def load (tree : FileTree) (environment : List (Text × Text)) (given : Entries) :
    Except LoadError Settings :=
  let environment : List Binding := environment.map fun (n, v) => (n, some v)
  match fileStatements tree with
  | .error e => .error e
  | .ok file =>
    let ofFile := bindingsOf environment file
    (ofEntries (given ++ entriesOfBindings environment ++ entriesOfBindings ofFile)).mapError
      .invalid

/-- What is said on the console when the settings are loaded: a line for each statement of the file
that cannot be read. -/
def complaints (tree : FileTree) : Text :=
  match fileStatements tree with
  | .error _ => []
  | .ok file => (file.filterMap Statement.complaint?).flatten

end Settings

end LabelLoop
