import LabelLoop.Block.Basic

/-!
# The block around any number

`Block.around` is about positions of a source.  `Block.locate` takes any whole number.  A number
past the end of the source is refused.  A negative number has no opening brace before it, and the
scan forwards starts after the character counted from the end, runs over the end of the source and
goes on at its start; what comes out is a block only if its bounds are those of one.
-/

namespace LabelLoop.Block

open Text

/-- Why there is no block around a number. -/
inductive LocateError where
  /-- The number counts past either end of the source. -/
  | outside
  /-- The number does not fit into a machine word. -/
  | tooWide
  /-- The bounds found are not those of a block. -/
  | invalid (issues : List Field.Issue)
  deriving DecidableEq, Repr

/-- The message for a number that is refused; bounds that are refused have a message per issue. -/
def LocateError.message : LocateError → Text
  | .outside => "string index out of range".toList
  | .tooWide => "cannot fit 'int' into an index-sized integer".toList
  | .invalid _ => []

/-- The first number that does not fit into a signed machine word. -/
def wordLimit : Int :=
  0x8000000000000000

/-- A character can be asked for by numbers that fit into a machine word only. -/
def fitsWord (n : Int) : Bool :=
  -wordLimit ≤ n && n < wordLimit

/-- The closing brace found by a scan that starts after the character at the negative number
`place`. -/
def closingFromEnd (source : Text) (place : Int) : Int :=
  let tail := source.drop (source.length + place + 1).toNat
  match unanswered? '\x7b' '\x7d' 0 (tail ++ source) with
  | some rest => (source.length : Int) - rest - 1
  | none => source.length

/-- **The block around** the number `place`. -/
def locate (source : Text) (place : Int) : Except LocateError Block :=
  if 0 ≤ place then
    if place ≤ source.length then .ok (around source place.toNat)
    else .error (if fitsWord (place - 1) then .outside else .tooWide)
  else if place + 1 < -(source.length : Int) then
    .error (if fitsWord (place + 1) then .outside else .tooWide)
  else
    let field (name : String) (bound n : Int) : Except Field.Issue Int :=
      (Field.wholeFrom bound (.int n)).mapError (⟨name.toList, ·⟩)
    (ofBounds (field "start" (-1) place) (field "end" 0 (closingFromEnd source place))).mapError
      .invalid

end LabelLoop.Block
