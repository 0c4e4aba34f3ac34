import LabelLoop.Template.Directive
import LabelLoop.Text.CodePoint

/-!
# Arguments in slots

How an argument is written in a slot: as a text, as a code point, as a whole number to the base ten,
eight or sixteen, or as a real number with digits after its point.
-/

namespace LabelLoop.Template

open Text

/-! ### Padding -/

/-- The part of a written argument that padding with zeros leaves in front, and the rest. -/
structure Body where
  front : WideText := []
  rest : WideText

/-- Pads a text to the width of the directive. -/
def Directive.pad (d : Directive) (zeros : Bool) (b : Body) : WideText :=
  let missing := d.width.getD 0 - (b.front.length + b.rest.length)
  let padding (c : Char) : WideText := List.replicate missing (.char c)
  if d.left then b.front ++ (b.rest ++ padding ' ')
  else if zeros then b.front ++ (padding '0' ++ b.rest)
  else padding ' ' ++ (b.front ++ b.rest)

/-- The sign of a number. -/
def Directive.sign (d : Directive) (negative : Bool) : Text :=
  if negative then ['-'] else if d.plus then ['+'] else if d.blank then [' '] else []

/-! ### Texts and code points -/

/-- A text with its characters outside ASCII as escapes. -/
def asciiOnly (t : Text) : Text :=
  t.flatMap fun c => if c.toNat < 0x80 then [c] else numericEscape c

/-- A text, cut off at the precision of the directive. -/
def Directive.text (d : Directive) (t : Text) : WideText :=
  d.pad false { rest := widen (d.precision.elim t t.take) }

/-- The written form of a datum, where there is the given room. -/
def writtenWithin (room : Nat) (d : Datum) : Except Error Text :=
  ((d.check .shown room).mapError .limit).map fun _ => d.written

/-- A datum as it is shown in a message, where there is the given room.  A text needs none. -/
def shownWithin (room : Nat) : Datum → Except Error Text
  | .text t => .ok t
  | d => writtenWithin room d

/-- The code point that an argument is. -/
def codePointOf : Datum → Except Error CodePoint
  | .text [c] => .ok (.char c)
  | .bool b => .ok (.char (if b then '\x01' else '\x00'))
  | .int (.ofNat n) => (CodePoint.ofNat? n).elim (.error .noSuchCharacter) .ok
  | .int (.negSucc _) => .error .noSuchCharacter
  | _ => .error .notCharacter

/-! ### Whole numbers -/

/-- The whole number that an argument is, in a slot of kind `c`.  A fraction is cut off, unless the
number is to be written to another base than ten. -/
def wholeOf (c : Char) (d : Datum) : Except Error Int :=
  let decimal := c = 'd' || c = 'i' || c = 'u'
  match d, decimal with
  | .int n, _ => .ok n
  | .bool b, _ => .ok (if b then 1 else 0)
  | .real x, true =>
    match x with
    | .finite .. => .ok x.truncate
    | .infinite _ => .error .infiniteWhole
    | .nan => .error .undefinedWhole
  | _, true => .error (.notNumber c d.kind)
  | _, false => .error (.notWhole c d.kind)

/-- A whole number that is to be written in a slot of kind `c`.  Only decimal digits can be too
many. -/
def wholeWithin (c : Char) (n : Int) : Except Error Int :=
  if c = 'o' || c = 'x' || c = 'X' then .ok n
  else ((Datum.checkWhole n).mapError .limit).map fun _ => n

/-- A whole number in a slot of kind `c`; the precision is the least number of digits. -/
def Directive.whole (d : Directive) (c : Char) (n : Int) : WideText :=
  let base := if c = 'o' then 8 else if c = 'x' || c = 'X' then 16 else 10
  let raw := Nat.toDigits base n.natAbs
  let digits := List.replicate (d.precision.getD 0 - raw.length) '0' ++ raw
  let mark := if d.alternate && base ≠ 10 then ['0', c] else []
  let shown := if c = 'X' then digits.map Char.toUpper else digits
  d.pad d.zero ⟨widen (d.sign (n < 0) ++ mark), widen shown⟩

/-! ### Real numbers -/

/-- The real number that an argument is. -/
def realOf (d : Datum) : Except Error Binary64 :=
  let ofInt (n : Int) : Except Error Binary64 :=
    match Binary64.ofQuotient (n < 0) n.natAbs 1 with
    | .infinite _ => .error .realTooBig
    | x => .ok x
  match d with
  | .real x => .ok x
  | .int n => ofInt n
  | .bool b => ofInt (if b then 1 else 0)
  | _ => .error (.notReal d.kind)

/-- The magnitude of a real number in a slot of kind `c`: `f` has so many digits after the point,
`e` an exponent too, and `g` so many digits in all, in the notation that suits them. -/
def Directive.magnitude (d : Directive) (c : Char) (m : Nat) : Text :=
  let precision := d.precision.getD 6
  let mark := if c.isUpper then 'E' else 'e'
  if c = 'f' || c = 'F' then (Binary64.upTo m precision).positional d.alternate
  else if c = 'e' || c = 'E' then (Binary64.significant m precision).scientific d.alternate mark
  else
    let count := max 1 precision
    let digits := Binary64.significant m (count - 1)
    if -4 < digits.point && digits.point ≤ count then
      (if d.alternate then digits else digits.trim digits.point.toNat).positional d.alternate
    else (if d.alternate then digits else digits.trim 1).scientific d.alternate mark

/-- A real number in a slot of kind `c`. -/
def Directive.real (d : Directive) (c : Char) (x : Binary64) : WideText :=
  let shown (t : String) : Text := if c.isUpper then t.toList.map Char.toUpper else t.toList
  let body :=
    match x with
    | .finite .. => d.magnitude c x.magnitude
    | .infinite _ => shown "inf"
    | .nan => shown "nan"
  d.pad d.zero ⟨widen (d.sign x.isNegative), widen body⟩

/-! ### All kinds -/

/-- **An argument in a slot** of kind `c`, which stands at `position`, where there is the given room
for nested data. -/
def Directive.write (d : Directive) (room : Nat) (c : Char) (position : Nat) (argument : Datum) :
    Except Error WideText :=
  match c with
  | 's' => (shownWithin room argument).map d.text
  | 'r' => (writtenWithin room argument).map d.text
  | 'a' => (writtenWithin room argument).map fun t => d.text (asciiOnly t)
  | 'c' => (codePointOf argument).map fun p => d.pad false { rest := [p] }
  | 'd' | 'i' | 'u' | 'o' | 'x' | 'X' =>
    ((wholeOf c argument).bind (wholeWithin c)).map (d.whole c)
  | 'e' | 'E' | 'f' | 'F' | 'g' | 'G' => (realOf argument).map (d.real c)
  | _ => .error (.unsupported c position)

end LabelLoop.Template
