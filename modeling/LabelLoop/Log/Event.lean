import LabelLoop.Datum.Limits
import LabelLoop.Datum.Shown

/-!
# Log events

What is handed to the log: a level, the name of the part of the program that speaks, a message, and
extra data if that part has any to give.
-/

namespace LabelLoop.Log

/-- The **level** of an event. -/
inductive Level where
  /-- No level of its own; never heard. -/
  | unset
  | debug
  | info
  | warning
  | error
  | critical
  deriving DecidableEq, Repr

/-- The weight of a level; an event is heard if its weight reaches a threshold. -/
def Level.weight : Level → Nat
  | .unset => 0
  | .debug => 10
  | .info => 20
  | .warning => 30
  | .error => 40
  | .critical => 50

/-- The name of a level. -/
def Level.name : Level → Text
  | .unset => "NOTSET".toList
  | .debug => "DEBUG".toList
  | .info => "INFO".toList
  | .warning => "WARNING".toList
  | .error => "ERROR".toList
  | .critical => "CRITICAL".toList

/-- An **event**. -/
structure Event where
  level : Level
  /-- The name of the part that speaks. -/
  logger : Text
  message : Text
  extra : Option Entries := none

/-- Context data with the extra data of one event; where both have a key, the event's value
counts. -/
def withContext (context extra : Entries) : Entries :=
  context.update extra

/-! ### Options of a log call -/

/-- Why the context or the options of a log call are refused. -/
inductive AdaptError where
  /-- The context has a key that is taken. -/
  | taken (key : Text)
  /-- The extra data are not an object. -/
  | notObject (kind : Text)
  /-- The attributes, which are given as a list, have no names. -/
  | unnamed
  /-- The attributes cannot be added to. -/
  | unchangeable (kind : Text)
  deriving DecidableEq, Repr

/-- The message of an error. -/
def AdaptError.message : AdaptError → Text
  | .taken key =>
    "get_context_logger() got multiple values for argument '".toList ++ key ++ ['\'']
  | .notObject kind => '\'' :: kind ++ "' object is not a mapping".toList
  | .unnamed => "list indices must be integers or slices, not str".toList
  | .unchangeable kind => '\'' :: kind ++ "' object does not support item assignment".toList

/-- A **context** must leave the key for the name of the log to it. -/
def checkContext (context : Entries) : Except AdaptError Unit :=
  let key := "name".toList
  if (context.get? key).isSome then .error (.taken key) else .ok ()

/-- **The options** of a log call in a given context: the extra data, joined with the context, move
into the attributes of the record. -/
def adapt (context options : Entries) : Except AdaptError Entries := do
  checkContext context
  let name := "extra_data".toList
  let rest := options.erase name
  match (options.get? name).getD (.object []) with
  | .object extra =>
    let data : Datum := .object (withContext context extra)
    match (rest.get? "extra".toList).getD (.object []) with
    | .object attributes =>
      .ok (rest.put "extra".toList (.object (Table.put attributes name data)))
    | .list _ => .error .unnamed
    | d => .error (.unchangeable d.kind)
  | d => .error (.notObject d.kind)

/-! ### Extra data of a record -/

/-- Why the extra data of a record cannot be added to its fields. -/
inductive ExtraError where
  | notIterable (kind : Text)
  /-- The item at this index has no parts. -/
  | notSequence (index : Nat)
  /-- The item at this index is no pair. -/
  | notPair (index length : Nat)
  /-- A key is of a kind that cannot be one. -/
  | unusableKey (kind : Text)
  /-- A key is a number that is not written. -/
  | limit (e : Datum.LimitError)
  deriving DecidableEq, Repr

/-- The message of an error. -/
def ExtraError.message : ExtraError → Text
  | .notIterable kind => '\'' :: kind ++ "' object is not iterable".toList
  | .notSequence index =>
    "cannot convert dictionary update sequence element #".toList ++ Text.ofNat index ++
      " to a sequence".toList
  | .notPair index length =>
    "dictionary update sequence element #".toList ++ Text.ofNat index ++ " has length ".toList ++
      Text.ofNat length ++ "; 2 is required".toList
  | .unusableKey kind => "unhashable type: '".toList ++ kind ++ ['\'']
  | .limit e => e.message

/-- The parts of a datum, if it has any: the items of a list, the characters of a text, the keys of
an object. -/
def parts? : Datum → Option (List Datum)
  | .list items => some items
  | .text t => some (t.map fun c => .text [c])
  | .object entries => some (entries.map fun (k, _) => .text k)
  | _ => none

/-- A datum as a key. -/
def keyOf : Datum → Except ExtraError Text
  | .text t => .ok t
  | .null => .ok "null".toList
  | .bool b => .ok (if b then "true".toList else "false".toList)
  | .int n => .ok (Text.ofInt n)
  | .real x => .ok (x.written "Infinity".toList "NaN".toList)
  | d => .error (.unusableKey d.kind)

/-- The entries that items stand for, each a key and its value, of which the first has the given
index. -/
def entriesFrom (index : Nat) : List Datum → Except ExtraError Entries
  | [] => .ok []
  | item :: items =>
    match parts? item with
    | none => .error (.notSequence index)
    | some [k, v] => do
      let key ← keyOf k
      let entries ← entriesFrom (index + 1) items
      return (key, v) :: entries
    | some parts => .error (.notPair index parts.length)

/-- The numbers that are keys of items can be written. -/
def checkKeys : List Datum → Except ExtraError Unit
  | [] => .ok ()
  | .list [.int n, _] :: items =>
    ((Datum.checkWhole n).mapError .limit).bind fun _ => checkKeys items
  | _ :: items => checkKeys items

/-- **The extra data** that a datum stands for: an object, or a sequence of pairs. -/
def extraOf : Datum → Except ExtraError Entries
  | .object entries => .ok entries
  | d =>
    match parts? d with
    | some items => do
      let entries ← entriesFrom 0 items
      checkKeys items
      return entries
    | none => .error (.notIterable d.kind)

end LabelLoop.Log
