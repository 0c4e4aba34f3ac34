import LabelLoop.Datum.Basic
import LabelLoop.Number.Decimal
import LabelLoop.Text.Quoted

/-!
# Data in messages

How a datum is shown inside a message: a text as it is, anything else by its written form, in which
texts are quoted.
-/

namespace LabelLoop.Datum

open Text

mutual

/-- The **written form** of a datum. -/
def written : Datum → Text
  | .null => "None".toList
  | .bool b => if b then "True".toList else "False".toList
  | .int n => ofInt n
  | .real x => x.written "inf".toList "nan".toList
  | .text t => quoted t
  | .list items => '[' :: writtenItems items ++ [']']
  | .object entries => '\x7b' :: writtenEntries entries ++ ['\x7d']

/-- The items of a list, with separators between them. -/
def writtenItems : List Datum → Text
  | [] => []
  | [d] => written d
  | d :: d' :: rest => written d ++ ", ".toList ++ writtenItems (d' :: rest)

/-- The entries of an object, with separators between them. -/
def writtenEntries : List (Text × Datum) → Text
  | [] => []
  | [(k, v)] => quoted k ++ ": ".toList ++ written v
  | (k, v) :: e :: rest =>
    quoted k ++ ": ".toList ++ written v ++ ", ".toList ++ writtenEntries (e :: rest)

end

/-- A datum as it is **shown** in a message. -/
def shown : Datum → Text
  | .text t => t
  | d => d.written

/-- The word for what kind of datum it is. -/
def kind : Datum → Text
  | .null => "NoneType".toList
  | .bool _ => "bool".toList
  | .int _ => "int".toList
  | .real _ => "float".toList
  | .text _ => "str".toList
  | .list _ => "list".toList
  | .object _ => "dict".toList

end LabelLoop.Datum
