import LabelLoop.Log.Line
import LabelLoop.Log.Message

/-!
# Log calls

A log call gives a message, its arguments, and what else is to be noted.  The arguments are put into
the message only when a line is made of the call, and no line comes of it if they do not fit, if the
extra data are not what they should be, or if something is beyond the limits of what can be written.
Lines of plain text do not look at the extra data.
-/

namespace LabelLoop.Log

/-- Why no line can be made of a call. -/
inductive LineError where
  /-- The arguments do not fit the message. -/
  | message (e : Template.Error)
  | extra (e : ExtraError)
  /-- A field is beyond the limits of what can be written. -/
  | limit (e : Datum.LimitError)
  deriving DecidableEq, Repr

/-- A **call** of the log. -/
structure Call where
  level : Level
  /-- The name of the part that speaks. -/
  logger : Text
  /-- The message, which is shown as a text. -/
  message : Datum
  arguments : List Datum := []
  extra : Option Datum := none
  origin : Origin
  /-- The text of the failure it is about. -/
  failure : Option Text := none
  /-- The moment of the call, as each style writes it. -/
  time : Style → Text
  /-- The room for nested data where arguments are put into the message, -/
  messageRoom : Nat := Datum.startRoom
  /-- and where the line is made. -/
  room : Nat := Datum.startRoom

namespace Call

/-- The message with the arguments in it. -/
def text (c : Call) : Except Template.Error WideText :=
  (Template.shownWithin c.messageRoom c.message).bind fun t =>
    formatMessage c.messageRoom t c.arguments

/-- The extra data that a style looks at. -/
def extraFor (c : Call) : Style → Except ExtraError (Option Entries)
  | .structured =>
    match c.extra with
    | none => .ok none
    | some d => (extraOf d).map some
  | .plain => .ok none

/-- **The record** of a call, for lines of the given style. -/
def record (c : Call) (style : Style) : Except LineError Record := do
  let message ← c.text.mapError .message
  let extra ← (c.extraFor style).mapError .extra
  return {
    level := c.level
    logger := c.logger
    message
    extra
    time := c.time
    origin := some c.origin
    failure := c.failure
    room := c.room }

/-- **The line** of the given style that a call makes. -/
def line (c : Call) (style : Style) : Except LineError WideText :=
  (c.record style).bind fun r => (r.line style).mapError .limit

end Call

end LabelLoop.Log
