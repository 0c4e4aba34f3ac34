import LabelLoop.Settings.Basic
import LabelLoop.Template.Basic
import LabelLoop.Text.Wrap

/-!
# The help text

The text that explains the command line, in so many columns as the variable `COLUMNS` says, or
eighty.  It names the defaults that are in force.

The explanation of an argument is a template, which can ask for what is known about the argument.
Since a default stands in it as it is, a per cent sign in a default begins a slot too.
-/

namespace LabelLoop.CommandLine

open Text

/-! ### Columns -/

/-- The value of a decimal digit of any script; the digits of a script follow one another. -/
def digitValue (c : Char) : Nat :=
  let first := (digitSet.bounds.filter (· ≤ c.toNat)).getLast?.getD 0
  (c.toNat - first) % 10

/-- The positive number that a text is: decimal digits of any script, perhaps with single low lines
between them, a plus sign before them and white space around them. -/
def positive? (t : Text) : Option Nat :=
  let trimmed := ((t.dropWhile Field.isMargin).reverse.dropWhile Field.isMargin).reverse
  let groups := (if beginsWith trimmed ['+'] then trimmed.drop 1 else trimmed).splitOn '_'
  let digits := groups.flatten
  let value := digits.foldl (fun n c => 10 * n + digitValue c) 0
  if groups.any List.isEmpty || !digits.all isDecimalDigit ||
      Field.longestWhole < digits.length || value = 0 then none
  else some value

/-- The number of **columns** that the environment asks for. -/
def columns (environment : List (Text × Text)) : Nat :=
  ((environment.lookup "COLUMNS".toList).bind positive?).getD 80

/-! ### Usage -/

/-- Puts parts into lines of at most `width` columns, each after a margin.  The first `used` columns
of the line that is being filled are taken by the margin and the parts that are in it, of which the
last comes first. -/
def pack (width margin used : Nat) (line : List Text) : List Text → List (List Text)
  | [] => if line.isEmpty then [] else [line.reverse]
  | part :: parts =>
    if width < used + part.length && !line.isEmpty then
      line.reverse :: pack width margin (margin + part.length + 1) [part] parts
    else pack width margin (used + part.length + 1) (part :: line) parts

/-- The name of the command. -/
def program : Text :=
  "gotojs".toList

/-- The options, as the usage shows them. -/
def optionParts : List Text :=
  ["[-h]", "[--html]", "[--content-type CONTENT_TYPE]", "[--scanner \x7bpygments,regex\x7d]",
    "[--strict]", "[--overwrite]", "[--encoding ENCODING]", "[-q]"].map String.toList

/-- The files, as the usage shows them. -/
def fileParts : List Text :=
  ["source", "[output]"].map String.toList

/-- The lines of the **usage**.  If it does not fit in one line, the options and the files start
lines of their own, and so does what follows the name of the command if the lines are very
short. -/
def usage (columns : Nat) : List Text :=
  let width := columns - 2
  let start := "usage: ".toList
  let line := start ++ List.intercalate [' '] (program :: optionParts ++ fileParts)
  let beside := start.length + program.length
  let indented (margin : Nat) (parts : List Text) : Text :=
    List.replicate margin ' ' ++ List.intercalate [' '] parts
  if line.length ≤ width then [line]
  else if 4 * beside ≤ 3 * width then
    let margin := beside + 1
    match pack width margin start.length [] (program :: optionParts) ++
        pack width margin margin [] fileParts with
    | [] => []
    | first :: rest => (start ++ List.intercalate [' '] first) :: rest.map (indented margin)
  else
    let margin := start.length
    let all := pack width margin margin [] (optionParts ++ fileParts)
    let lines :=
      if all.length ≤ 1 then all
      else pack width margin margin [] optionParts ++ pack width margin margin [] fileParts
    (start ++ program) :: lines.map (indented margin)

/-! ### Entries -/

/-- What the help text says about one argument. -/
structure Explained where
  /-- How the argument is written. -/
  heading : Text
  /-- The template of its explanation. -/
  explanation : Text
  /-- What the template can ask for. -/
  known : Entries := []

/-- An argument that is explained by a fixed text. -/
def Explained.plain (heading explanation : String) : Explained :=
  { heading := heading.toList, explanation := explanation.toList }

/-- An option with a value that has a default. -/
def Explained.valued (spelling dest placeholder explanation : String) (choices : Datum)
    (default : Text) : Explained :=
  let explanation := explanation.toList ++ " (default: ".toList ++ default ++ ").".toList
  { heading := spelling.toList ++ ' ' :: placeholder.toList
    explanation := explanation
    known :=
      [("option_strings".toList, .list [.text spelling.toList]), ("dest".toList, .text dest.toList),
        ("nargs".toList, .null), ("const".toList, .null), ("default".toList, .text default),
        ("type".toList, .null), ("choices".toList, choices), ("required".toList, .bool false),
        ("help".toList, .text explanation), ("metavar".toList, .null),
        ("prog".toList, .text program)] }

/-- The files. -/
def explainedFiles : List Explained :=
  [.plain "source" "Path to the script (or HTML document with --html) to translate.",
    .plain "output" "Destination file, or '-' for stdout (defaults to alongside the source)."]

/-- The options. -/
def explainedOptions (settings : Settings) : List Explained :=
  [.plain "-h, --help" "show this help message and exit",
    .plain "--html" "Treat the source as HTML and rewrite its goto script blocks.",
    .valued "--content-type" "content_type" "CONTENT_TYPE" "Script type rewritten in --html mode"
      .null settings.contentType,
    .valued "--scanner" "scanner" "\x7bpygments,regex\x7d" "String literal scanner"
      (.text "pygments, regex".toList) settings.scanner.name,
    .plain "--strict" "Fail instead of writing output when diagnostics are found.",
    .plain "--overwrite" "Allow overwriting an existing output file.",
    .valued "--encoding" "encoding" "ENCODING" "Encoding to use when reading and writing files"
      .null settings.encoding,
    .plain "-q, --quiet" "Suppress informational output."]

/-- The lines of an entry: the heading, and the explanation in the columns from a certain one on.
The explanation starts beside the heading if that leaves two columns free. -/
def Explained.lines (columns : Nat) (e : Explained) : Except Template.Error (List Text) := do
  let position := min 24 (max (columns - 22) 4)
  let explanation ← Template.fill Datum.startRoom e.explanation (.object e.known)
  let lines := wrap (max (columns - 2 - position) 11) explanation.onConsole
  let margin := List.replicate position ' '
  let head := "  ".toList ++ e.heading
  match lines with
  | first :: rest =>
    if head.length + 2 ≤ position then
      return (head ++ List.replicate (position - head.length) ' ' ++ first) ::
        rest.map (margin ++ ·)
    else return head :: lines.map (margin ++ ·)
  | [] => return [head]

/-- **The help text**. -/
def help (columns : Nat) (settings : Settings) : Except Template.Error Text := do
  let description := "Translate JavaScript using [lbl]/goto into plain JavaScript.".toList
  let files ← explainedFiles.mapM (·.lines columns)
  let options ← (explainedOptions settings).mapM (·.lines columns)
  let lines := usage columns ++ [[]] ++ wrap (max (columns - 2) 11) description ++
    ["", "positional arguments:"].map String.toList ++ files.flatten ++
    ["", "options:"].map String.toList ++ options.flatten
  return lines.flatMap (· ++ ['\n'])

end LabelLoop.CommandLine
