import LabelLoop.Datum.Json
import LabelLoop.Log.Event

/-!
# Log lines

An event is written as a line of plain text, or as a JSON object on one line.  The object starts
with fixed fields and goes on with the extra data of the event; extra data under the name of a fixed
field takes the place of its value.  There is no JSON line of an event whose data are beyond the
limits of what is written.
-/

namespace LabelLoop.Log

open Text

/-- The **style** of log lines. -/
inductive Style where
  | structured
  | plain
  deriving DecidableEq, Repr

namespace Style

/-- The styles and their names, in the order in which they are listed to a reader. -/
def names : List (Text × Style) :=
  [("json".toList, .structured), ("text".toList, .plain)]

/-- The name of a style. -/
def name : Style → Text
  | .structured => "json".toList
  | .plain => "text".toList

end Style

/-- The place in a program that an event comes from. -/
structure Origin where
  module : Text
  function : Option Text
  line : Int

/-- The name of a file without its last suffix.  Dots at the start of a name begin no suffix. -/
def stem (name : Text) : Text :=
  let before := ((name.reverse.dropWhile (· ≠ '.')).drop 1).reverse
  if before.any (· ≠ '.') then before else name

/-- The name of the module that a file holds. -/
def moduleOf (file : Text) : Text :=
  stem (((file.splitOn '/').getLast?).getD [])

/-- The text of a failure of a given kind, with what it says if it says anything. -/
def failureText (kind text : Text) : Text :=
  if text.isEmpty then kind else kind ++ ": ".toList ++ text

/-- A **record**: an event with everything that is noted beside it. -/
structure Record where
  level : Level
  /-- The name of the part that speaks. -/
  logger : Text
  message : WideText
  extra : Option Entries := none
  /-- The moment of the event, as each style writes it. -/
  time : Style → Text
  /-- The place it comes from, where that is noted. -/
  origin : Option Origin := none
  /-- The text of the failure it is about. -/
  failure : Option Text := none
  /-- The room for nested data where the line is made. -/
  room : Nat := Datum.startRoom

/-- The value of a **field** of a record. -/
inductive Value where
  | datum (d : Datum)
  /-- A message that is no text, since it holds a surrogate. -/
  | wide (t : WideText)

namespace Value

/-- The value that a message is. -/
def ofMessage (message : WideText) : Value :=
  (message.narrow?).elim (.wide message) fun t => .datum (.text t)

/-- A value as JSON. -/
def json : Value → Text
  | .datum d => d.json
  | .wide t => Datum.jsonWide t

/-- A value is within the limits, where there is the given room. -/
def check (room : Nat) : Value → Except Datum.LimitError Unit
  | .datum d => d.check .json room
  | .wide _ => .ok ()

end Value

namespace Record

/-- The record of an event at a moment. -/
def ofEvent (time : Style → Text) (e : Event) : Record where
  level := e.level
  logger := e.logger
  message := widen e.message
  extra := e.extra
  time := time

/-- The fields of a place. -/
def originFields (o : Origin) : Table Value :=
  [("module".toList, .datum (.text o.module)),
    ("function".toList, .datum (o.function.elim .null .text)),
    ("line".toList, .datum (.int o.line))]

/-- The fixed fields of a record whose event comes from the given place. -/
def baseFields (r : Record) (o : Origin) : Table Value :=
  [("timestamp".toList, .datum (.text (r.time .structured))),
    ("level".toList, .datum (.text r.level.name)), ("logger".toList, .datum (.text r.logger)),
    ("message".toList, .ofMessage r.message)] ++
    originFields o ++ r.failure.toList.map fun f => ("exception".toList, .datum (.text f))

/-- **The fields** of a record.  Where the place is not noted its fields are left out, whatever the
extra data say. -/
def fields (r : Record) : Table Value :=
  let extra := (r.extra.getD []).mapValues Value.datum
  match r.origin with
  | some o => (r.baseFields o).update extra
  | none =>
    let unknown : Origin := ⟨[], none, 0⟩
    ((r.baseFields unknown).update extra).filter fun (k, _) =>
      !(originFields unknown).any fun (k', _) => k' = k

/-- Values are within the limits, where there is the given room. -/
def checkFields (room : Nat) : Table Value → Except Datum.LimitError Unit
  | [] => .ok ()
  | (_, v) :: rest => (v.check room).bind fun _ => checkFields room rest

/-- A record as a JSON object. -/
def structured (r : Record) : Except Datum.LimitError Text :=
  match r.room with
  | 0 => .error (.tooDeep .json)
  | room + 1 =>
    (checkFields room r.fields).map fun _ => Datum.jsonObject (r.fields.mapValues Value.json)

/-- A record as plain text; the text of a failure starts a new line. -/
def plain (r : Record) : WideText :=
  let start := [r.time .plain, r.logger, r.level.name].flatMap (· ++ " - ".toList)
  let line := widen start ++ r.message
  match r.failure with
  | none => line
  | some f =>
    line ++ (if line.getLast? = some (.char '\n') then [] else [.char '\n']) ++ widen f

/-- A record as **a line** of the given style. -/
def line (r : Record) : Style → Except Datum.LimitError WideText
  | .structured => r.structured.map widen
  | .plain => .ok r.plain

end Record

end LabelLoop.Log
