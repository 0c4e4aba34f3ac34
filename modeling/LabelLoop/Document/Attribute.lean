import LabelLoop.Text.Blank
import LabelLoop.Text.Casing
import LabelLoop.Text.Search
import LabelLoop.Text.Word

/-!
# The type attribute

The attributes of an element are kept as the text between the name of its tag and the `>`.  Of
these only the attribute called `type`, in any case, is ever looked at: its value says what kind
of script the element holds.  The value stands in quotes, or bare up to white space, a quote or
`>`.
-/

namespace LabelLoop.Document

open Text

/-- The value at the front of a text, with its quotes if it has any: the value and the length. -/
def attributeValue? : Recogniser Text
  | [] => none
  | c :: cs =>
    if c = '"' || c = '\'' then
      (position? [c] cs).map fun n => (cs.take n, n + 2)
    else
      let bare := (c :: cs).takeWhile fun d => !isBlank d && d ≠ '>' && d ≠ '"' && d ≠ '\''
      if bare.isEmpty then none else some (bare, bare.length)

/-- The attribute `type` with its value at the front of a text: the value, and the length from the
name on. -/
def typeAttribute? : Recogniser Text := fun t =>
  match afterIgnoringCase? "type".toList t with
  | none => none
  | some afterName =>
    let pad := (afterName.takeWhile isBlank).length
    match afterName.drop pad with
    | '=' :: afterSign =>
      let gap := (afterSign.takeWhile isBlank).length
      (attributeValue? (afterSign.drop gap)).map fun (value, n) => (value, 4 + pad + 1 + gap + n)
    | _ => none

/-- A name cannot begin right after `c`. -/
def continuesName (c : Char) : Bool :=
  isWord c || c = '-'

/-- The first type attribute of a text that stands at `offset` and after the character `prev`. -/
def findTypeFrom (prev : Option Char) (offset : Nat) : Text → Option (Found Text)
  | [] => none
  | c :: cs =>
    match (if prev.any continuesName then none else typeAttribute? (c :: cs)) with
    | some (value, n) => some ⟨offset, n, value⟩
    | none => findTypeFrom (some c) (offset + 1) cs

/-- The first type attribute. -/
def findType? (attributes : Text) : Option (Found Text) :=
  findTypeFrom none 0 attributes

/-- The **content type** that attributes give. -/
def contentType? (attributes : Text) : Option Text :=
  (findType? attributes).map Found.item

/-- Attributes with another content type in the place of the one they give; attributes that give
none stay as they are. -/
def retag (attributes contentType : Text) : Text :=
  match findType? attributes with
  | none => attributes
  | some f =>
    attributes.take f.start ++ "type=\"".toList ++ contentType ++ ['"'] ++ attributes.drop f.stop

/-- Content types are compared without case and without white space around them. -/
def normalType (contentType : Text) : Text :=
  lower (strip contentType)

end LabelLoop.Document
