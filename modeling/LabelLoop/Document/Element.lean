import LabelLoop.Document.Attribute

/-!
# Script elements

A document is searched for script elements without reading the rest of its markup.  An element
runs from `<script`, which no word character may continue, over the next `>` to the first closing
tag `</script>` after it.  The names of the tags may be in any case, and white space may stand
before the `>` of the closing tag.
-/

namespace LabelLoop.Document

open Text

/-- A **script element**. -/
structure Element where
  /-- The text between the name of the opening tag and its `>`. -/
  attributes : Text
  body : Text
  /-- The closing tag as it is written. -/
  closeTag : Text
  deriving DecidableEq, Repr

/-- The kind of script that the element says it holds. -/
def Element.contentType? (e : Element) : Option Text :=
  Document.contentType? e.attributes

/-- The closing tag at the front of a text. -/
def closeTag? : Recogniser Unit := fun t =>
  match afterIgnoringCase? "</script".toList t with
  | none => none
  | some rest =>
    let pad := (rest.takeWhile isBlank).length
    match rest.drop pad with
    | '>' :: _ => some ((), 8 + pad + 1)
    | _ => none

/-- The element at the front of a text. -/
def element? : Recogniser Element := fun t =>
  match afterIgnoringCase? "<script".toList t with
  | none => none
  | some rest =>
    let attributes := rest.takeWhile (· ≠ '>')
    match rest.drop attributes.length with
    | '>' :: afterTag =>
      if rest.head?.any isWord then none
      else
        (first? closeTag? afterTag).map fun f =>
          (⟨attributes, afterTag.take f.start, slice afterTag f.start f.stop⟩,
            7 + attributes.length + 1 + f.stop)
    | _ => none

/-- **The script elements** of a document. -/
def elements (document : Text) : List (Found Element) :=
  search element? document

/-- The script elements of one content type. -/
def elementsOf (contentType document : Text) : List (Found Element) :=
  (elements document).filter fun f =>
    f.item.contentType?.map normalType = some (normalType contentType)

end LabelLoop.Document
