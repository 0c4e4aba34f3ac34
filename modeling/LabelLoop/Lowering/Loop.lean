import LabelLoop.Text.Basic

/-!
# Loops

What takes the place of the markers.  A label becomes the header of a labelled loop that runs once
unless a jump asks for another round: the loop runs while its sentinel is false and sets it to true
first.  A jump sets the sentinel of its label back to false and continues the loop.
-/

namespace LabelLoop.Loop

/-- The variable that decides whether the loop of a label runs again. -/
def sentinel (name : Text) : Text :=
  "goto_function_".toList ++ name

/-- What a jump to `name` becomes. -/
def jump (name : Text) : Text :=
  sentinel name ++ " = false;\n continue ".toList ++ name ++ [';']

/-- What the label `name` becomes: everything of its loop up to the body. -/
def header (name : Text) : Text :=
  "var ".toList ++ sentinel name ++ " = false;\n".toList ++
    name ++ ": while(!".toList ++ sentinel name ++ ")\x7b\n ".toList ++
    sentinel name ++ " = true;\n".toList

end LabelLoop.Loop
