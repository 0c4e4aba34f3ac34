import LabelLoop.Text.Basic

/-!
# Faulty fields

What can be wrong with a field of a record, and how that is reported.
-/

namespace LabelLoop.Field

open Text

/-- The **fault** of a field. -/
inductive Fault where
  | missing
  | notText
  | notWhole
  | fractional
  | unreadableWhole
  /-- A whole number has too many digits. -/
  | tooLong
  | notFinite
  | below (bound : Int)
  | notAmong (choices : List Text)
  | notTruth
  | unreadableTruth
  /-- The field belongs to a record that cannot be changed. -/
  | frozen
  deriving DecidableEq, Repr

/-- The short name of a fault. -/
def Fault.kind : Fault → Text
  | .missing => "missing".toList
  | .notText => "string_type".toList
  | .notWhole => "int_type".toList
  | .fractional => "int_from_float".toList
  | .unreadableWhole => "int_parsing".toList
  | .tooLong => "int_parsing_size".toList
  | .notFinite => "finite_number".toList
  | .below _ => "greater_than_equal".toList
  | .notAmong _ => "literal_error".toList
  | .notTruth => "bool_type".toList
  | .unreadableTruth => "bool_parsing".toList
  | .frozen => "frozen_instance".toList

/-- Choices in quotes: `'a'`, `'a' or 'b'`, `'a', 'b' or 'c'`. -/
def alternatives : List Text → Text
  | [] => []
  | [a] => '\'' :: a ++ ['\'']
  | [a, b] => '\'' :: a ++ "' or '".toList ++ b ++ ['\'']
  | a :: rest => '\'' :: a ++ "', ".toList ++ alternatives rest

/-- The message of a fault. -/
def Fault.message : Fault → Text
  | .missing => "Field required".toList
  | .notText => "Input should be a valid string".toList
  | .notWhole => "Input should be a valid integer".toList
  | .fractional => "Input should be a valid integer, got a number with a fractional part".toList
  | .unreadableWhole =>
    "Input should be a valid integer, unable to parse string as an integer".toList
  | .tooLong => "Unable to parse input string as an integer, exceeded maximum size".toList
  | .notFinite => "Input should be a finite number".toList
  | .below bound => "Input should be greater than or equal to ".toList ++ ofInt bound
  | .notAmong choices => "Input should be ".toList ++ alternatives choices
  | .notTruth => "Input should be a valid boolean".toList
  | .unreadableTruth => "Input should be a valid boolean, unable to interpret input".toList
  | .frozen => "Instance is frozen".toList

/-- An **issue**: a field and what is wrong with it. -/
structure Issue where
  field : Text
  fault : Fault
  deriving DecidableEq, Repr

end LabelLoop.Field
