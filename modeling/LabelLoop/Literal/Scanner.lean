import LabelLoop.Datum.Shown
import LabelLoop.Literal.Quotes
import LabelLoop.Script.Lexer

/-!
# The scanners by name

A user chooses between the two scanners by name.
-/

namespace LabelLoop.Literal

open Text

/-- The **kinds of scanners**. -/
inductive ScannerKind where
  /-- Finds literals by their quotes alone. -/
  | quotes
  /-- Finds literals by reading the lexemes of the script. -/
  | lexemes
  deriving DecidableEq, Repr

namespace ScannerKind

/-- The scanner of a kind. -/
def scanner : ScannerKind → Scanner
  | .quotes => byQuotes
  | .lexemes => Script.literals

/-- The kinds and their names, in the order of declaration. -/
def names : List (Text × ScannerKind) :=
  [("regex".toList, .quotes), ("pygments".toList, .lexemes)]

/-- The name of a kind. -/
def name : ScannerKind → Text
  | .quotes => "regex".toList
  | .lexemes => "pygments".toList

/-- The kind with a given name. -/
def ofName? (name : Text) : Option ScannerKind :=
  names.lookup name

/-- The message for something that is the name of no kind; it lists the names in alphabetical
order. -/
def unknownMessage (name : Datum) : Text :=
  "Unknown literal scanner ".toList ++ name.written ++
    "; expected one of ['pygments', 'regex']".toList

end ScannerKind

end LabelLoop.Literal
