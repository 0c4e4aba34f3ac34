import LabelLoop.Number.Binary64
import LabelLoop.Text.Basic

/-!
# Data without a fixed form

The values that come from outside, before they have been read as fields of a given type, and the
values that a log record may carry along: texts, numbers, truth values, lists, and objects whose
keys keep their order.
-/

namespace LabelLoop

/-- A **datum**. -/
inductive Datum where
  | null
  | bool (b : Bool)
  | int (n : Int)
  /-- A number written with a fraction or an exponent. -/
  | real (x : Binary64)
  | text (t : Text)
  | list (items : List Datum)
  | object (entries : List (Text × Datum))

instance : Inhabited Datum := ⟨.null⟩

/-- There is nothing in a datum: it is null, false, zero or empty. -/
def Datum.isVoid : Datum → Bool
  | .null => true
  | .bool b => !b
  | .int n => n = 0
  | .real (.finite _ m _) => m = 0
  | .real _ => false
  | .text t => t.isEmpty
  | .list l => l.isEmpty
  | .object e => e.isEmpty

/-- The datum, or an empty object if there is nothing in it. -/
def Datum.orEmpty (d : Datum) : Datum :=
  if d.isVoid then .object [] else d

/-- A **table**: values with their keys, in order. -/
abbrev Table (α : Type) := List (Text × α)

/-- The entries of an object, in order. -/
abbrev Entries := Table Datum

namespace Table

variable {α : Type}

/-- The value at a key. -/
def get? (table : Table α) (key : Text) : Option α :=
  table.lookup key

/-- Sets the value at a key: in place if the key is there, else at the end. -/
def put (table : Table α) (key : Text) (value : α) : Table α :=
  match table with
  | [] => [(key, value)]
  | (k, v) :: rest => if k = key then (k, value) :: rest else (k, v) :: put rest key value

/-- Sets the values of `changes`, one after another. -/
def update (table changes : Table α) : Table α :=
  changes.foldl (fun acc (k, v) => put acc k v) table

/-- Leaves out a key. -/
def erase (table : Table α) (key : Text) : Table α :=
  table.filter fun (k, _) => k ≠ key

/-- Changes every value. -/
def mapValues {β : Type} (f : α → β) (table : Table α) : Table β :=
  table.map fun e => (e.1, f e.2)

end Table

end LabelLoop
