import LabelLoop.Datum.Basic

/-!
# Limits of writing

A datum is not written if it holds a whole number of too many digits, or if lists and objects are
nested deeper in it than there is room for.  How much room there is depends on where the writing
begins.  Texts that show a datum need room for every value in it, JSON text only for lists and
objects.
-/

namespace LabelLoop.Datum

open Text

/-- The ways of **writing** a datum. -/
inductive Writing where
  /-- As it is shown inside a message. -/
  | shown
  | json
  deriving DecidableEq, Repr

/-- Why a datum **cannot be written**. -/
inductive LimitError where
  | tooManyDigits
  | tooDeep (writing : Writing)
  deriving DecidableEq, Repr

/-- How many digits a whole number that is written may have. -/
def maxDigits : Nat :=
  4300

/-- The room for nested data at the start of a program. -/
def startRoom : Nat :=
  1000

/-- The message of an error. -/
def LimitError.message : LimitError → Text
  | .tooManyDigits =>
    "Exceeds the limit (".toList ++ Text.ofNat maxDigits ++ " digits) for integer string ".toList ++
      "conversion; use sys.set_int_max_str_digits() to increase the limit".toList
  | .tooDeep .shown =>
    "maximum recursion depth exceeded while getting the repr of an object".toList
  | .tooDeep .json => "maximum recursion depth exceeded while encoding a JSON object".toList

/-- A whole number has few enough digits. -/
def checkWhole (n : Int) : Except LimitError Unit :=
  if (Text.ofNat n.natAbs).length ≤ maxDigits then .ok () else .error .tooManyDigits

/-- There is room for a value that holds no others. -/
def Writing.checkLeaf (writing : Writing) (room : Nat) : Except LimitError Unit :=
  if writing = .shown ∧ room = 0 then .error (.tooDeep writing) else .ok ()

mutual

/-- A datum **is within the limits**, where there is the given room. -/
def check (writing : Writing) (room : Nat) : Datum → Except LimitError Unit
  | .list items =>
    match room with
    | 0 => .error (.tooDeep writing)
    | room + 1 => checkItems writing room items
  | .object entries =>
    match room with
    | 0 => .error (.tooDeep writing)
    | room + 1 => checkEntries writing room entries
  | .int n => (writing.checkLeaf room).bind fun _ => checkWhole n
  | .null | .bool _ | .real _ | .text _ => writing.checkLeaf room

/-- The items of a list are within the limits. -/
def checkItems (writing : Writing) (room : Nat) : List Datum → Except LimitError Unit
  | [] => .ok ()
  | d :: rest => (check writing room d).bind fun _ => checkItems writing room rest

/-- The entries of an object are within the limits. -/
def checkEntries (writing : Writing) (room : Nat) : List (Text × Datum) → Except LimitError Unit
  | [] => .ok ()
  | (_, v) :: rest =>
    ((writing.checkLeaf room).bind fun _ => check writing room v).bind fun _ =>
      checkEntries writing room rest

end

end LabelLoop.Datum
