import LabelLoop.Template.Basic

/-!
# Messages with arguments

The message of a log call is a template for its arguments.  Without arguments it is taken as it is.
A single argument that is an object, and not an empty one, gives its values by their keys.
-/

namespace LabelLoop.Log

/-- **A message with its arguments** in it, where there is the given room for nested data. -/
def formatMessage (room : Nat) (message : Text) (args : List Datum) :
    Except Template.Error WideText :=
  match args with
  | [] => .ok (Text.widen message)
  | [.object (e :: entries)] => Template.fill room message (.object (e :: entries))
  | _ => Template.fill room message (.list args)

end LabelLoop.Log
