import LabelLoop.Field.Whole

/-!
# Fields

Reading a field of a given type from a datum.  Reading is lenient where no meaning is lost: a truth
value, for instance, may come as a number or as one of the usual words.  What cannot be read is
reported together with the name of the field, all faulty fields at once and in the order of their
declaration.
-/

namespace LabelLoop.Field

open Text

/-! ### Texts, choices and truth values -/

/-- Reads a **text**. -/
def text : Datum → Except Fault Text
  | .text t => .ok t
  | _ => .error .notText

/-- Reads one of the values that `options` names. -/
def choice {α : Type} (options : List (Text × α)) (d : Datum) : Except Fault α :=
  let refused : Except Fault α := .error (.notAmong (options.map Prod.fst))
  match d with
  | .text t =>
    match options.lookup t with
    | some a => .ok a
    | none => refused
  | _ => refused

/-- The words for truth values, in lower case. -/
def truthWords : List (Text × Bool) :=
  [("0", false), ("off", false), ("f", false), ("false", false), ("n", false), ("no", false),
    ("1", true), ("on", true), ("t", true), ("true", true), ("y", true), ("yes", true)].map
    fun (w, b) => (w.toList, b)

/-- The truth value that a whole number stands for. -/
def truthOfWhole (n : Int) : Except Fault Bool :=
  if n = 0 then .ok false else if n = 1 then .ok true else .error .unreadableTruth

/-- Reads a **truth value**. -/
def truth : Datum → Except Fault Bool
  | .bool b => .ok b
  | .int n => if fits64 n then truthOfWhole n else .error .notTruth
  | .real x =>
    match wholeOfBinary x with
    | .ok n => truthOfWhole n
    | .error _ => .error .notTruth
  | .text t =>
    match truthWords.lookup (t.map Char.toLower) with
    | some b => .ok b
    | none => .error .unreadableTruth
  | _ => .error .notTruth

/-! ### Fields of a record -/

/-- Reads a field that may be null. -/
def nullable {α : Type} (read : Datum → Except Fault α) : Datum → Except Fault (Option α)
  | .null => .ok none
  | d => (read d).map some

/-- Reads a field that must be given. -/
def required {α : Type} (entries : Entries) (name : Text) (read : Datum → Except Fault α) :
    Except Issue α :=
  match entries.get? name with
  | none => .error ⟨name, .missing⟩
  | some d => (read d).mapError (⟨name, ·⟩)

/-- Reads a field that has a default. -/
def defaulted {α : Type} (entries : Entries) (name : Text) (default : α)
    (read : Datum → Except Fault α) : Except Issue α :=
  match entries.get? name with
  | none => .ok default
  | some d => (read d).mapError (⟨name, ·⟩)

/-- The issue of a field, if it has one. -/
def issues {α : Type} : Except Issue α → List Issue
  | .ok _ => []
  | .error i => [i]

end LabelLoop.Field
