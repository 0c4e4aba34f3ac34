import LabelLoop.Text.Blank
import LabelLoop.Text.Casing
import LabelLoop.Text.Search
import LabelLoop.Text.Word

/-!
# Markers

Two kinds of markers are added to a script.  A label marker `[lbl] name:` names a place, and a jump
marker `goto name;` asks to go on there.  Both are a keyword in any case, white space, a name of
word characters, perhaps white space, and a closing character.
-/

namespace LabelLoop.Marker

open Text

/-- The **form** of a kind of markers. -/
structure Form where
  /-- The keyword, in lower case. -/
  keyword : Text
  closer : Char
  deriving DecidableEq, Repr

/-- The form of label markers. -/
def label : Form :=
  ⟨"[lbl]".toList, ':'⟩

/-- The form of jump markers. -/
def jump : Form :=
  ⟨"goto".toList, ';'⟩

/-- The marker at the front of a text: its name and its length. -/
def Form.read? (form : Form) : Recogniser Text := fun t =>
  match afterIgnoringCase? form.keyword t with
  | none => none
  | some afterKeyword =>
    let gap := (afterKeyword.takeWhile isBlank).length
    let afterGap := afterKeyword.drop gap
    let name := afterGap.takeWhile isWord
    let afterName := afterGap.drop name.length
    let pad := (afterName.takeWhile isBlank).length
    if gap = 0 || name.isEmpty then none
    else
      match afterName.drop pad with
      | [] => none
      | c :: _ =>
        if c = form.closer then some (name, form.keyword.length + gap + name.length + pad + 1)
        else none

/-- The label markers of a text. -/
def labels (t : Text) : List (Found Text) :=
  search label.read? t

/-- The first label marker of a text. -/
def firstLabel? (t : Text) : Option (Found Text) :=
  first? label.read? t

/-- How many label markers a text holds. -/
def countLabels (t : Text) : Nat :=
  (labels t).length

/-- Where the label markers of a text begin. -/
def labelOffsets (t : Text) : List Nat :=
  (labels t).map Found.start

/-- The names that the jump markers of a text go to, in order and with repetitions. -/
def jumpTargets (t : Text) : List Text :=
  (search jump.read? t).map Found.item

end LabelLoop.Marker
