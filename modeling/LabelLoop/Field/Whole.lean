import LabelLoop.Datum.Basic
import LabelLoop.Field.Fault
import LabelLoop.Text.Blank

/-!
# Whole numbers in fields

A whole number may come as a number, as a truth value, as a text, or as a binary number without a
fraction.

A text is first read as it stands, in the strict form: decimal digits without needless zeros,
perhaps after a minus sign.  If it is not of that form, white space around it, a sign, zeros at its
start, a fraction of zeros and single low lines between digits are taken away, and what is left is
read in the strict form.
-/

namespace LabelLoop.Field

open Text

/-! ### The strict form -/

/-- How many digits a whole number in strict form may have. -/
def longestWhole : Nat :=
  4300

/-- `c` is a decimal digit other than zero. -/
def isLeadingDigit (c : Char) : Bool :=
  '1' ≤ c && c ≤ '9'

/-- Reads a whole number in **strict form**.  Too many digits are noticed before what follows
them. -/
def strictWhole (t : Text) : Except Fault Int :=
  let negative := beginsWith t ['-']
  let body := if negative then t.drop 1 else t
  let digits := body.takeWhile Char.isDigit
  let value : Int := natOfDigits digits
  if body = ['0'] then .ok 0
  else if !body.head?.any isLeadingDigit then .error .unreadableWhole
  else if longestWhole < digits.length then .error .tooLong
  else if digits.length < body.length then .error .unreadableWhole
  else .ok (if negative then -value else value)

/-! ### Bringing a text into strict form -/

/-- White space around numbers; the information separators are none. -/
def isMargin (c : Char) : Bool :=
  isBlank c && !('\x1c' ≤ c && c ≤ '\x1f')

/-- A text without its sign: if it is negative, and what follows.  A plus sign may stand before
anything but a minus sign, and a minus sign before no other sign. -/
def splitSign (t : Text) : Option (Bool × Text) :=
  let unplussed := if beginsWith t ['+'] then t.drop 1 else t
  match beginsWith t ['+'], unplussed with
  | true, '-' :: _ => none
  | _, '-' :: cs => if beginsWith cs ['-'] || beginsWith cs ['+'] then none else some (true, cs)
  | _, cs => some (false, cs)

/-- What is left after zeros and low lines, the last of which is `last`: it starts with the digit or
the minus sign that follows, or with `last` if a point follows or nothing. -/
def afterZeros? (last : Char) : Text → Option Text
  | [] => some [last]
  | c :: cs =>
    if c = '0' || c = '_' then afterZeros? c cs
    else if isLeadingDigit c || c = '-' then some (c :: cs)
    else if c = '.' then some (last :: c :: cs)
    else none

/-- A text that starts with a digit, without the zeros at its start. -/
def withoutZeros? : Text → Option Text
  | [] => none
  | c :: cs =>
    if c = '0' then afterZeros? c cs else if isLeadingDigit c then some (c :: cs) else none

/-- A text without a fraction of zeros; a point alone is no fraction. -/
def withoutFraction (t : Text) : Text :=
  let whole := t.takeWhile (· ≠ '.')
  let fraction := t.drop (whole.length + 1)
  if !fraction.isEmpty && fraction.all (· = '0') then whole else t

/-- A text without low lines, if each of them stands alone between two other characters. -/
def withoutLowLines (t : Text) : Text :=
  let groups := t.splitOn '_'
  if groups.any List.isEmpty then t else groups.flatten

/-- The **strict form** of a text. -/
def strictForm? (t : Text) : Option Text := do
  let trimmed := ((t.dropWhile isMargin).reverse.dropWhile isMargin).reverse
  let (negative, unsigned) ← splitSign trimmed
  let body ← withoutZeros? unsigned
  let digits := withoutLowLines (withoutFraction body)
  return if negative then '-' :: digits else digits

/-- Reads a whole number from a text. -/
def wholeOfText (t : Text) : Except Fault Int :=
  match strictWhole t with
  | .error .unreadableWhole => ((strictForm? t).map strictWhole).getD (.error .unreadableWhole)
  | r => r

/-! ### Numbers of a fixed width -/

/-- `n` has at most sixty-four bits, the sign included. -/
def fits64 (n : Int) : Bool :=
  let bound : Int := Nat.shiftLeft 1 63
  n < bound && -bound ≤ n

/-- A binary number as a whole number of less than sixty-four bits. -/
def wholeOfBinary (x : Binary64) : Except Fault Int :=
  match x with
  | .finite .. =>
    if !x.isWhole then .error .fractional
    else if fits64 x.truncate && fits64 (-x.truncate) then .ok x.truncate
    else .error .tooLong
  | _ => .error .notFinite

/-! ### Whole numbers -/

/-- Reads a **whole number**. -/
def whole : Datum → Except Fault Int
  | .int n => .ok n
  | .bool b => .ok (if b then 1 else 0)
  | .real x => wholeOfBinary x
  | .text t => wholeOfText t
  | _ => .error .notWhole

/-- Reads a whole number that is at least `bound`. -/
def wholeFrom (bound : Int) (d : Datum) : Except Fault Int :=
  match whole d with
  | .ok n => if bound ≤ n then .ok n else .error (.below bound)
  | .error f => .error f

end LabelLoop.Field
