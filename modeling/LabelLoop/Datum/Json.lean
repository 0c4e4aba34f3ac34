import LabelLoop.Datum.Shown
import LabelLoop.Text.CodePoint

/-!
# Data as JSON text

A datum is written on one line, with `", "` between items and `": "` after keys, and in printable
ASCII characters only: every other character of a text is escaped.  Characters beyond the basic
plane are escaped as the two surrogates that encode them, and so cannot be told from these.
-/

namespace LabelLoop.Datum

open Text

/-! ### Texts -/

/-- The escape of one code unit of sixteen bits. -/
def escapedUnit (n : Nat) : Text :=
  '\\' :: 'u' :: hex 4 n

/-- One character between the quotes of a JSON text. -/
def jsonChar (c : Char) : Text :=
  let n := c.toNat
  if c = '"' || c = '\\' then ['\\', c]
  else if c = '\n' then ['\\', 'n']
  else if c = '\r' then ['\\', 'r']
  else if c = '\t' then ['\\', 't']
  else if n = 8 then ['\\', 'b']
  else if n = 12 then ['\\', 'f']
  else if 0x20 ≤ n && n < 0x7f then [c]
  else if n < 0x10000 then escapedUnit n
  else
    let m := n - 0x10000
    escapedUnit (0xd800 + m / 0x400) ++ escapedUnit (0xdc00 + m % 0x400)

/-- A text between quotes. -/
def jsonText (t : Text) : Text :=
  '"' :: t.flatMap jsonChar ++ ['"']

/-- One code point between the quotes of a JSON text. -/
def jsonPoint : CodePoint → Text
  | .char c => jsonChar c
  | p@(.surrogate _) => escapedUnit p.toNat

/-- A wide text between quotes. -/
def jsonWide (t : WideText) : Text :=
  '"' :: t.flatMap jsonPoint ++ ['"']

/-! ### Data -/

mutual

/-- A datum as **JSON**. -/
def json : Datum → Text
  | .null => "null".toList
  | .bool b => if b then "true".toList else "false".toList
  | .int n => ofInt n
  | .real x => x.written "Infinity".toList "NaN".toList
  | .text t => jsonText t
  | .list items => '[' :: jsonItems items ++ [']']
  | .object entries => '\x7b' :: jsonEntries entries ++ ['\x7d']

/-- The items of a list, with separators between them. -/
def jsonItems : List Datum → Text
  | [] => []
  | [d] => json d
  | d :: d' :: rest => json d ++ ", ".toList ++ jsonItems (d' :: rest)

/-- The entries of an object, with separators between them. -/
def jsonEntries : List (Text × Datum) → Text
  | [] => []
  | [(k, v)] => jsonText k ++ ": ".toList ++ json v
  | (k, v) :: e :: rest =>
    jsonText k ++ ": ".toList ++ json v ++ ", ".toList ++ jsonEntries (e :: rest)

end

/-- An object whose values are given as JSON text. -/
def jsonObject (values : Table Text) : Text :=
  '\x7b' :: List.intercalate ", ".toList
    (values.map fun (k, t) => jsonText k ++ ": ".toList ++ t) ++ ['\x7d']

end LabelLoop.Datum
