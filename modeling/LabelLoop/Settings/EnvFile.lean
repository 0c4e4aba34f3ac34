import LabelLoop.Text.Blank
import LabelLoop.Text.Search

/-!
# Files of variables

A file of variables has lines such as `NAME=value`.  White space around names and bare values does
not count, `export` may stand before a name, and a number sign starts a comment.  A value in quotes
may hold escapes and run over several lines.  In every value `${NAME}` stands for the value of
another variable, and `${NAME:-default}` for a default where there is none.  A statement that cannot
be read is passed over, and noted with the line it starts in.

Lines end with a line feed alone.
-/

namespace LabelLoop.Settings

open Text

/-! ### Reading one binding -/

/-- White space within a line. -/
def isPad (c : Char) : Bool :=
  isBlank c && c ≠ '\n'

/-- A text without the white space at its start. -/
def skipPad (t : Text) : Text :=
  t.dropWhile isPad

/-- The characters of a value in quotes, up to the quote that ends it; a character after a backslash
is never that quote. -/
def quotedLength? (quote : Char) : Text → Option Nat
  | [] => none
  | '\\' :: _ :: cs => (quotedLength? quote cs).map (· + 2)
  | c :: cs => if c = quote then some 0 else (quotedLength? quote cs).map (· + 1)

/-- What an escaped character stands for, between quotes of the given kind. -/
def unescape? (quote c : Char) : Option Char :=
  if c = '\\' || c = '\'' then some c
  else if quote = '\'' then none
  else
    [('"', '"'), ('a', '\x07'), ('b', '\x08'), ('f', '\x0c'), ('n', '\n'), ('r', '\r'),
      ('t', '\t'), ('v', '\x0b')].lookup c

/-- A value in quotes with its escapes resolved. -/
def unescaped (quote : Char) (t : Text) : Text :=
  replace (fun s =>
    match s with
    | '\\' :: c :: _ => (unescape? quote c).map fun d => (d, 2)
    | _ => none) (fun d => [d]) t

/-- A bare value ends before white space and a number sign. -/
def dropComment : Text → Text
  | [] => []
  | c :: cs =>
    if isBlank c && beginsWith (cs.dropWhile isBlank) ['#'] then [] else c :: dropComment cs

/-- Reads a name; a comment has none.  The result is the part read and what follows it; here and in
the other readers the error is the text that could not be read. -/
def readName (t : Text) : Except Text (Option Text × Text) :=
  match t with
  | '#' :: _ => .ok (none, t)
  | '\'' :: cs =>
    let name := cs.takeWhile (· ≠ '\'')
    match cs.drop name.length with
    | _ :: rest => if name.isEmpty then .error t else .ok (some name, rest)
    | [] => .error t
  | _ =>
    let name := t.takeWhile fun c => c ≠ '=' && c ≠ '#' && !isBlank c
    if name.isEmpty then .error t else .ok (some name, t.drop name.length)

/-- Reads a value after the equals sign.  White space before it does not count, but lets a comment
begin. -/
def readValue (t : Text) : Except Text (Text × Text) :=
  match skipPad t with
  | [] => .ok ([], [])
  | c :: cs =>
    if c = '"' || c = '\'' then
      match quotedLength? c cs with
      | some n => .ok (unescaped c (cs.take n), cs.drop (n + 1))
      | none => .error (c :: cs)
    else if c = '#' && t.head?.any isPad then .ok ([], c :: cs)
    else
      let line := (c :: cs).takeWhile (· ≠ '\n')
      .ok (((dropComment line).reverse.dropWhile isBlank).reverse, (c :: cs).drop line.length)

/-- Reads the end of a line, with a comment before it. -/
def readEnd (t : Text) : Except Text Text :=
  let commented := skipPad t
  let rest :=
    match commented with
    | '#' :: _ => commented.dropWhile (· ≠ '\n')
    | _ => commented
  match rest with
  | [] => .ok []
  | '\n' :: cs => .ok cs
  | _ => .error t

/-- A **binding**: a name, and its value if it has one. -/
abbrev Binding := Text × Option Text

/-- Reads the binding of a line that starts with no white space. -/
def readBinding (t : Text) : Except Text (Option Binding × Text) := do
  let start :=
    match "export".toList.isPrefixOf? t with
    | some rest => if rest.head?.any isPad then skipPad rest else t
    | none => t
  let (name, afterName) ← readName start
  let (value, afterValue) ←
    match skipPad afterName with
    | '=' :: cs => (readValue cs).map fun (v, rest) => (some v, rest)
    | rest => .ok (none, rest)
  let rest ← readEnd afterValue
  return (name.map fun n => (n, value), rest)

/-! ### Reading all statements -/

/-- A **statement** of the file. -/
inductive Statement where
  | binding (b : Binding)
  | comment
  /-- It cannot be read; the given line is the one in which the statement before it has ended. -/
  | unreadable (line : Nat)
  deriving DecidableEq, Repr

/-- What follows the line that could not be read. -/
def afterLine (t : Text) : Text :=
  (t.dropWhile (· ≠ '\n')).drop 1

/-- The statements of a text that starts in the given line, after `skip` characters that have been
read; `mark` is the line in which the statement before it has ended. -/
def statementsFrom (mark line skip : Nat) : Text → List Statement
  | [] => []
  | c :: cs =>
    let next := if c = '\n' then line + 1 else line
    match skip with
    | k + 1 => statementsFrom next next k cs
    | 0 =>
      if isBlank c then statementsFrom mark next 0 cs
      else
        match readBinding (c :: cs) with
        | .ok (some b, rest) =>
          .binding b :: statementsFrom line line (cs.length - rest.length) cs
        | .ok (none, rest) => .comment :: statementsFrom line line (cs.length - rest.length) cs
        | .error rest =>
          .unreadable mark :: statementsFrom line line (cs.length - (afterLine rest).length) cs

/-- **The statements** of a file. -/
def statements (content : Text) : List Statement :=
  statementsFrom 1 1 0 content

/-- What is said about a statement that cannot be read. -/
def Statement.complaint? : Statement → Option Text
  | .unreadable line =>
    some ("python-dotenv could not parse statement starting at line ".toList ++ Text.ofNat line ++
      ['\n'])
  | _ => none

/-! ### Values of other variables -/

/-- A reference at the front of a text: the name, the default, and the length. -/
def reference? : Recogniser (Text × Text) := fun t =>
  match "$\x7b".toList.isPrefixOf? t with
  | none => none
  | some rest =>
    let name := rest.takeWhile fun c => c ≠ '\x7d' && c ≠ ':'
    match rest.drop name.length with
    | '\x7d' :: _ => some ((name, []), name.length + 3)
    | ':' :: '-' :: afterMark =>
      let default := afterMark.takeWhile (· ≠ '\x7d')
      if default.length < afterMark.length then
        some ((name, default), name.length + default.length + 5)
      else none
    | _ => none

/-- Replaces references by what `known` says, and else by their defaults. -/
def expand (known : List Binding) (value : Text) : Text :=
  replace reference? (fun (name, default) =>
    match known.lookup name with
    | some v => v.getD []
    | none => default) value

/-- Sets the value of a name, in place if it has one. -/
def bind (bindings : List Binding) (name : Text) (value : Option Text) : List Binding :=
  if (bindings.lookup name).isSome then
    bindings.map fun (n, v) => if n = name then (n, value) else (n, v)
  else bindings ++ [(name, value)]

/-- **The variables** that the statements of a file give, where `outer` are the variables of the
environment. -/
def bindingsOf (outer : List Binding) (file : List Statement) : List Binding :=
  file.foldl (fun acc s =>
    match s with
    | .binding (name, value) => bind acc name (value.map (expand (acc ++ outer)))
    | _ => acc) []

end LabelLoop.Settings
