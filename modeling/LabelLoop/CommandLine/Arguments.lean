import LabelLoop.CommandLine.Option
import LabelLoop.Settings.Basic

/-!
# The arguments of the command line

Arguments are read from left to right.  The source and the output, which need not be given, must
stand next to each other: with the source the question of the output is settled.
-/

namespace LabelLoop.CommandLine

open Text

/-- The **arguments** as they are understood. -/
structure Arguments where
  source : Text
  output : Option Text
  html : Bool
  contentType : Text
  scanner : Literal.ScannerKind
  strict : Bool
  overwrite : Bool
  encoding : Text
  quiet : Bool
  deriving DecidableEq, Repr

/-- What has been read so far. -/
structure Progress where
  /-- The source and the output, once they are settled. -/
  files : Option (Text × Option Text) := none
  html : Bool := false
  contentType : Text
  scanner : Literal.ScannerKind
  strict : Bool
  overwrite : Bool := false
  encoding : Text
  quiet : Bool := false
  /-- The arguments that nothing could be made of. -/
  extras : List Text := []
  deriving DecidableEq, Repr

/-- Before anything is read the settings count. -/
def Progress.start (settings : Settings) : Progress where
  contentType := settings.contentType
  scanner := settings.scanner
  strict := settings.strict
  encoding := settings.encoding

/-- Why reading **stops** early. -/
inductive Stop where
  /-- Help is asked for. -/
  | help
  | refused (error : UsageError)
  deriving DecidableEq, Repr

/-! ### Options -/

/-- Takes an option without a value into account. -/
def Progress.mark (p : Progress) : Switch → Except Stop Progress
  | .help => .error .help
  | .html => .ok { p with html := true }
  | .strict => .ok { p with strict := true }
  | .overwrite => .ok { p with overwrite := true }
  | .quiet => .ok { p with quiet := true }
  | .contentType | .scanner | .encoding => .ok p

/-- The names of the scanners in alphabetical order. -/
def scannerChoices : List Text :=
  ["pygments".toList, "regex".toList]

/-- Takes an option with a value into account. -/
def Progress.set (p : Progress) (value : Text) : Switch → Except Stop Progress
  | .contentType => .ok { p with contentType := value }
  | .encoding => .ok { p with encoding := value }
  | .scanner =>
    match Literal.ScannerKind.ofName? value with
    | some k => .ok { p with scanner := k }
    | none => .error (.refused (.invalidChoice .scanner value scannerChoices))
  | .help | .html | .strict | .overwrite | .quiet => .ok p

/-- Puts an argument aside. -/
def Progress.putAside (p : Progress) (argument : Text) : Progress :=
  { p with extras := p.extras ++ [argument] }

/-- The short options that the option `s` and the characters attached to it stand for. -/
def cluster (s : Switch) : Text → Except UsageError (List Switch)
  | [] => .ok [s]
  | c :: cs =>
    match Switch.spellings.lookup ['-', c] with
    | some s' => (cluster s' cs).map (s :: ·)
    | none => .error (.valueIgnored s (c :: cs))

/-- Takes a short option with characters attached to it into account, if all of them stand for
options. -/
def Progress.spread (p : Progress) (s : Switch) (attached : Text) : Except Stop Progress :=
  match cluster s attached with
  | .error e => .error (.refused e)
  | .ok switches => switches.foldlM Progress.mark p

/-! ### Source and output -/

/-- The separators at the front of some arguments. -/
def separators (arguments : List (Text × Kind)) : List Text :=
  (arguments.takeWhile fun (_, k) => k = .separator).map Prod.fst

/-- The arguments at the front that belong to the source and to the output: to each one positional
argument and the separators around it, where the output may be missing. -/
def filesAt (arguments : List (Text × Kind)) : Option (List Text × List Text) :=
  let before := separators arguments
  match arguments.drop before.length with
  | (source, .positional) :: rest =>
    let between := separators rest
    let output :=
      match rest.drop between.length with
      | (output, .positional) :: rest' => output :: separators rest'
      | _ => []
    some (before ++ source :: between, output)
  | _ => none

/-- Settles the source and the output, each given by arguments of which the first separator does
not count. -/
def Progress.settle (p : Progress) (source output : List Text) : Progress :=
  let value (arguments : List Text) : Option Text := (arguments.erase "--".toList).head?
  { p with files := some ((value source).getD [], value output) }

/-! ### All arguments -/

/-- Reads an option, before the arguments `rest`: the progress made, and how many of the arguments
after it belong to it. -/
def Progress.take (p : Progress) (o : Occurrence) (rest : List (Text × Kind)) :
    Except Stop (Progress × Nat) :=
  match o.attached with
  | some value =>
    if o.switch.takesValue then (p.set value o.switch).map (·, 0)
    else if o.short && !value.isEmpty then (p.spread o.switch value).map (·, 0)
    else .error (.refused (.valueIgnored o.switch value))
  | none =>
    if o.switch.takesValue then
      match rest with
      | (value, .positional) :: _ => (p.set value o.switch).map (·, 1)
      | _ => .error (.refused (.valueExpected o.switch))
    else (p.mark o.switch).map (·, 0)

/-- Reads the arguments from left to right, after `skip` arguments that have been read. -/
def readFrom (p : Progress) (skip : Nat) : List (Text × Kind) → Except Stop Progress
  | [] => .ok p
  | (argument, kind) :: rest =>
    match skip with
    | k + 1 => readFrom p k rest
    | 0 =>
      match kind with
      | .unknown => readFrom (p.putAside argument) 0 rest
      | .option o =>
        match p.take o rest with
        | .error s => .error s
        | .ok (p', taken) => readFrom p' taken rest
      | .positional | .separator =>
        match (if p.files.isSome then none else filesAt ((argument, kind) :: rest)) with
        | some (source, output) =>
          readFrom (p.settle source output) (source.length + output.length - 1) rest
        | none => readFrom (p.putAside argument) 0 rest

/-- **Reads the arguments** of the command line. -/
def read (settings : Settings) (arguments : List Text) : Except Stop Arguments :=
  match classifyAll arguments with
  | .error e => .error (.refused e)
  | .ok kinds =>
    match readFrom (.start settings) 0 kinds with
    | .error s => .error s
    | .ok p =>
      match p.files with
      | none => .error (.refused .required)
      | some (source, output) =>
        if p.extras.isEmpty then
          .ok ⟨source, output, p.html, p.contentType, p.scanner, p.strict, p.overwrite,
            p.encoding, p.quiet⟩
        else .error (.refused (.unrecognized p.extras))

end LabelLoop.CommandLine
