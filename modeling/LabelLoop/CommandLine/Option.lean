import LabelLoop.Text.Digit
import LabelLoop.Text.Quoted

/-!
# The options of the command line

The options, how they are written, and how an argument is recognised as one.  A long option may be
cut short as long as it can be told from the others, and may have its value after an equals sign.
Short options without a value can be written together.
-/

namespace LabelLoop.CommandLine

open Text

/-- The **options**. -/
inductive Switch where
  | help
  | html
  | contentType
  | scanner
  | strict
  | overwrite
  | encoding
  | quiet
  deriving DecidableEq, Repr

namespace Switch

/-- All ways to write an option, in the order in which they are listed. -/
def spellings : List (Text × Switch) :=
  [("-h".toList, .help), ("--help".toList, .help), ("--html".toList, .html),
    ("--content-type".toList, .contentType), ("--scanner".toList, .scanner),
    ("--strict".toList, .strict), ("--overwrite".toList, .overwrite),
    ("--encoding".toList, .encoding), ("-q".toList, .quiet), ("--quiet".toList, .quiet)]

/-- The option takes a value. -/
def takesValue : Switch → Bool
  | .contentType | .scanner | .encoding => true
  | _ => false

/-- The name of an option in messages: its spellings with slashes between them. -/
def label (s : Switch) : Text :=
  List.intercalate ['/'] ((spellings.filter fun (_, s') => s' = s).map Prod.fst)

end Switch

/-! ### Faulty arguments -/

/-- Why arguments are **refused**. -/
inductive UsageError where
  | required
  | unrecognized (arguments : List Text)
  | invalidChoice (switch : Switch) (value : Text) (choices : List Text)
  | valueExpected (switch : Switch)
  | valueIgnored (switch : Switch) (value : Text)
  | ambiguous (argument : Text) (spellings : List Text)
  deriving DecidableEq, Repr

/-- The message of an error. -/
def UsageError.message : UsageError → Text
  | .required => "the following arguments are required: source".toList
  | .unrecognized arguments => "unrecognized arguments: ".toList ++ List.intercalate [' '] arguments
  | .invalidChoice s value choices =>
    "argument ".toList ++ s.label ++ ": invalid choice: ".toList ++ quoted value ++
      " (choose from ".toList ++ List.intercalate ", ".toList (choices.map quoted) ++ [')']
  | .valueExpected s => "argument ".toList ++ s.label ++ ": expected one argument".toList
  | .valueIgnored s value =>
    "argument ".toList ++ s.label ++ ": ignored explicit argument ".toList ++ quoted value
  | .ambiguous argument spellings =>
    "ambiguous option: ".toList ++ argument ++ " could match ".toList ++
      List.intercalate ", ".toList spellings

/-! ### Recognising options -/

/-- An argument that is an option. -/
structure Occurrence where
  switch : Switch
  /-- The option is written with one dash and one letter. -/
  short : Bool
  /-- What is attached to it in the same argument. -/
  attached : Option Text
  deriving DecidableEq, Repr

/-- What an argument **is**. -/
inductive Kind where
  | positional
  /-- The two dashes after which everything is positional. -/
  | separator
  | option (occurrence : Occurrence)
  /-- It looks like an option, but there is none of that name. -/
  | unknown
  deriving DecidableEq, Repr

/-- An argument at its first equals sign: what stands before it, and the value after it. -/
def splitValue (argument : Text) : Text × Option Text :=
  let spelling := argument.takeWhile (· ≠ '=')
  match argument.drop spelling.length with
  | _ :: value => (spelling, some value)
  | [] => (spelling, none)

/-- `spelling` is that of a short option. -/
def isShort (spelling : Text) : Bool :=
  !beginsWith spelling "--".toList

/-- The options that an argument may be meant as, when it is none as it stands: those with a long
spelling that it cuts short, or the short one that it begins with. -/
def candidates (argument : Text) : List (Text × Occurrence) :=
  let (start, attached) :=
    if isShort argument then (argument.take 2, some (argument.drop 2)) else splitValue argument
  (Switch.spellings.filter fun (spelling, _) => beginsWith spelling start).map
    fun (spelling, s) => (spelling, ⟨s, isShort spelling, attached⟩)

/-- `t` is a negative number, with or without a fraction; a line break after it does not count. -/
def isNegativeNumber (t : Text) : Bool :=
  let line := if t.getLast? = some '\n' then t.dropLast else t
  match line with
  | '-' :: cs =>
    let whole := cs.takeWhile isDecimalDigit
    match cs.drop whole.length with
    | [] => !whole.isEmpty
    | '.' :: fraction => !fraction.isEmpty && fraction.all isDecimalDigit
    | _ => false
  | _ => false

/-- What an argument before the separator is. -/
def classify (argument : Text) : Except UsageError Kind :=
  if !beginsWith argument ['-'] then .ok .positional
  else
    match Switch.spellings.lookup argument with
    | some s => .ok (.option ⟨s, isShort argument, none⟩)
    | none =>
      if argument.length = 1 then .ok .positional
      else
        let (spelling, attached) := splitValue argument
        match Switch.spellings.lookup spelling with
        | some s => .ok (.option ⟨s, isShort spelling, attached⟩)
        | none =>
          match candidates argument with
          | [] =>
            .ok (if isNegativeNumber argument || argument.contains ' ' then .positional
              else .unknown)
          | [(_, o)] => .ok (.option o)
          | several => .error (.ambiguous argument (several.map Prod.fst))

/-- What each of the arguments is. -/
def classifyAll : List Text → Except UsageError (List (Text × Kind))
  | [] => .ok []
  | argument :: rest =>
    if argument = "--".toList then
      .ok ((argument, .separator) :: rest.map fun a => (a, .positional))
    else do
      let kind ← classify argument
      let kinds ← classifyAll rest
      return (argument, kind) :: kinds

end LabelLoop.CommandLine
