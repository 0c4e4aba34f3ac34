import LabelLoop.Text.Quoted

/-!
# Paths

A path is a list of names, read from a starting point: the directory the program runs in, or a
root.  Empty names and single dots say nothing and are dropped; two dots stay, since what they mean
depends on the files.
-/

namespace LabelLoop

/-- Where a path starts. -/
inductive Path.Anchor where
  /-- The directory the program runs in. -/
  | here
  /-- The root, written as a slash. -/
  | root
  /-- The other root, written as exactly two slashes. -/
  | doubleRoot
  deriving DecidableEq, Repr

/-- A **path**. -/
structure Path where
  anchor : Path.Anchor
  names : List Text
  deriving DecidableEq, Repr

namespace Path

open Text

/-! ### Paths and texts -/

/-- The anchor that the slashes at the front of a text stand for. -/
def anchorOf (t : Text) : Anchor :=
  match (t.takeWhile (· = '/')).length with
  | 0 => .here
  | 2 => .doubleRoot
  | _ => .root

/-- Reads a path. -/
def ofText (t : Text) : Path where
  anchor := anchorOf t
  names := (t.splitOn '/').filter fun n => !n.isEmpty && n ≠ ['.']

/-- A path as text; the empty path is a single dot. -/
def toText (p : Path) : Text :=
  match p.anchor with
  | .here => if p.names.isEmpty then ['.'] else List.intercalate ['/'] p.names
  | .root => '/' :: List.intercalate ['/'] p.names
  | .doubleRoot => '/' :: '/' :: List.intercalate ['/'] p.names

/-! ### Parts of a path -/

/-- The last name of a path. -/
def name? (p : Path) : Option Text :=
  p.names.getLast?

/-- The path without its last name; a path without names is its own parent. -/
def parent (p : Path) : Path :=
  { p with names := p.names.dropLast }

/-- The suffix of a name: its end from the last dot on.  A dot at the start or the end of a name
begins no suffix. -/
def suffixOf (name : Text) : Text :=
  let afterDot := (name.reverse.takeWhile (· ≠ '.')).reverse
  if name.contains '.' && !afterDot.isEmpty && afterDot.length + 1 < name.length then
    '.' :: afterDot
  else []

/-- The suffix of the last name of a path. -/
def suffix (p : Path) : Text :=
  (p.name?.map suffixOf).getD []

/-! ### Other suffixes -/

/-- Why a path cannot be given a suffix. -/
inductive SuffixError where
  | invalid (suffix : Text)
  | nameless (path : Path)
  deriving DecidableEq, Repr

/-- The message of an error. -/
def SuffixError.message : SuffixError → Text
  | .invalid s => "Invalid suffix ".toList ++ quoted s
  | .nameless p => "PosixPath(".toList ++ quoted p.toText ++ ") has an empty name".toList

/-- A suffix is empty, or a dot and at least one character, none of them a slash. -/
def isSuffix (s : Text) : Bool :=
  !s.contains '/' && (s.isEmpty || (beginsWith s ['.'] && s ≠ ['.']))

/-- The path with `s` in the place of its suffix, or after its name if it has none. -/
def withSuffix (p : Path) (s : Text) : Except SuffixError Path :=
  if !isSuffix s then .error (.invalid s)
  else
    match p.name? with
    | none => .error (.nameless p)
    | some name =>
      .ok { p with
        names := p.names.dropLast ++ [name.take (name.length - (suffixOf name).length) ++ s] }

/-! ### Where results go -/

/-- Where the result for a script goes if nothing else is said: next to it, with the given suffix,
and with `.out` before the suffix where the path would be that of the script. -/
def besideScript (source : Path) (s : Text) : Except SuffixError Path :=
  match source.withSuffix s with
  | .error e => .error e
  | .ok output => if output = source then source.withSuffix (".out".toList ++ s) else .ok output

/-- Where the result for a document goes if nothing else is said: next to it, with `.out` before
its suffix. -/
def besideDocument (source : Path) : Except SuffixError Path :=
  let s := if source.suffix.isEmpty then ".html".toList else source.suffix
  source.withSuffix (".out".toList ++ s)

end Path

end LabelLoop
