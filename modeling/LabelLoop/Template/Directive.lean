import LabelLoop.Datum.Limits
import LabelLoop.Datum.Shown

/-!
# Slots of a template

A template is a text with slots for arguments.  A slot starts with a per cent sign and ends with a
letter that says how an argument is written.  In between there may be, in this order, the key of the
argument in brackets, flags, a width, a precision after a point, and a letter for the size of the
argument, which has no effect.  An asterisk stands for a width or precision that is an argument
itself.
-/

namespace LabelLoop.Template

open Text

/-! ### Errors -/

/-- Why arguments **do not fit** a template. -/
inductive Error where
  | tooFew
  | tooMany
  /-- A slot has a key, but the arguments have none. -/
  | noKeys
  /-- The bracket around a key is not closed. -/
  | openKey
  | missingKey (key : Text)
  /-- The template ends inside a slot. -/
  | incomplete
  /-- An argument that stands for a width or a precision is no whole number. -/
  | wantsWhole
  | widthTooBig
  | precisionTooBig
  /-- The argument for a width or a precision is beyond the numbers of the named type. -/
  | beyond (type : Text)
  /-- There is no slot of this kind. -/
  | unsupported (c : Char) (position : Nat)
  /-- The argument of a slot for whole numbers is no number. -/
  | notNumber (c : Char) (kind : Text)
  /-- The argument of a slot for octal or hexadecimal numbers is no whole number. -/
  | notWhole (c : Char) (kind : Text)
  | notReal (kind : Text)
  | notCharacter
  | noSuchCharacter
  | infiniteWhole
  | undefinedWhole
  | realTooBig
  /-- An argument is beyond the limits of what can be written. -/
  | limit (e : Datum.LimitError)
  deriving DecidableEq, Repr

/-- The message of an error. -/
def Error.message : Error → Text
  | .tooFew => "not enough arguments for format string".toList
  | .tooMany => "not all arguments converted during string formatting".toList
  | .noKeys => "format requires a mapping".toList
  | .openKey => "incomplete format key".toList
  | .missingKey key => quoted key
  | .incomplete => "incomplete format".toList
  | .wantsWhole => "* wants int".toList
  | .widthTooBig => "width too big".toList
  | .precisionTooBig => "precision too big".toList
  | .beyond type => "Python int too large to convert to C ".toList ++ type
  | .unsupported c position =>
    let shown := if 31 ≤ c.toNat && c.toNat ≤ 126 then c else '?'
    "unsupported format character '".toList ++ shown :: "' (0x".toList ++ hex 1 c.toNat ++
      ") at index ".toList ++ Text.ofNat position
  | .notNumber c kind => '%' :: c :: " format: a real number is required, not ".toList ++ kind
  | .notWhole c kind => '%' :: c :: " format: an integer is required, not ".toList ++ kind
  | .notReal kind => "must be real number, not ".toList ++ kind
  | .notCharacter => "%c requires int or char".toList
  | .noSuchCharacter => "%c arg not in range(0x110000)".toList
  | .infiniteWhole => "cannot convert float infinity to integer".toList
  | .undefinedWhole => "cannot convert float NaN to integer".toList
  | .realTooBig => "int too large to convert to float".toList
  | .limit e => e.message

/-! ### Arguments -/

/-- The **arguments** that are left. -/
inductive Supply where
  | items (left : List Datum)
  /-- One argument for one slot. -/
  | single (value : Datum) (used : Bool)

/-- There are arguments that no slot has taken. -/
def Supply.isLeft : Supply → Bool
  | .items left => !left.isEmpty
  | .single _ used => !used

/-- Takes the next argument. -/
def Supply.next : Supply → Except Error (Datum × Supply)
  | .items (d :: ds) => .ok (d, .items ds)
  | .single d false => .ok (d, .single d true)
  | _ => .error .tooFew

/-! ### Directives -/

/-- How an argument is to be written, its kind apart. -/
structure Directive where
  /-- Padding goes to the right. -/
  left : Bool := false
  /-- A number that is not negative has a plus sign, -/
  plus : Bool := false
  /-- or a space in its place. -/
  blank : Bool := false
  /-- Numbers show their base, and their point in any case. -/
  alternate : Bool := false
  /-- Numbers are padded with zeros. -/
  zero : Bool := false
  width : Option Nat := none
  precision : Option Nat := none
  deriving DecidableEq, Repr

/-- A reader inside a slot: what it reads from the text and from the arguments, and what is left of
both. -/
abbrev SlotReader (α : Type) := Text → Supply → Except Error (α × Text × Supply)

/-- The character is a flag. -/
def isFlag (c : Char) : Bool :=
  c = '-' || c = '+' || c = ' ' || c = '#' || c = '0'

/-- A directive with the given flags. -/
def Directive.ofFlags (flags : Text) : Directive where
  left := flags.contains '-'
  plus := flags.contains '+'
  blank := flags.contains ' '
  alternate := flags.contains '#'
  zero := flags.contains '0'

/-- The largest width. -/
def maxWidth : Nat :=
  Nat.shiftLeft 1 63 - 1

/-- The largest precision. -/
def maxPrecision : Nat :=
  Nat.shiftLeft 1 31 - 1

/-- An argument as a whole number of the named type, whose largest number is `max`. -/
def wholeArgument (max : Nat) (type : String) (d : Datum) : Except Error Int :=
  let bounded (n : Int) : Except Error Int :=
    if n ≤ max && -(max : Int) ≤ n + 1 then .ok n else .error (.beyond type.toList)
  match d with
  | .int n => bounded n
  | .bool b => bounded (if b then 1 else 0)
  | _ => .error .wantsWhole

/-- Reads digits that give at most `max`. -/
def readDigits (max : Nat) (tooBig : Error) (t : Text) : Except Error (Nat × Text) :=
  let digits := t.takeWhile Char.isDigit
  let n := natOfDigits digits
  if max < n then .error tooBig else .ok (n, t.drop digits.length)

/-- Reads a width, if there is one; a negative one pads to the right. -/
def readWidth (d : Directive) : SlotReader Directive := fun t supply =>
  match t with
  | '*' :: cs => do
    let (argument, supply) ← supply.next
    let n ← wholeArgument maxWidth "ssize_t" argument
    return ({ d with left := d.left || n < 0, width := some n.natAbs }, cs, supply)
  | c :: _ =>
    if c.isDigit then do
      let (n, rest) ← readDigits maxWidth .widthTooBig t
      return ({ d with width := some n }, rest, supply)
    else .ok (d, t, supply)
  | [] => .ok (d, t, supply)

/-- Reads a precision, if there is one; a negative one counts as zero. -/
def readPrecision (d : Directive) : SlotReader Directive := fun t supply =>
  match t with
  | '.' :: '*' :: cs => do
    let (argument, supply) ← supply.next
    let n ← wholeArgument maxPrecision "int" argument
    return ({ d with precision := some n.toNat }, cs, supply)
  | '.' :: cs => do
    let (n, rest) ← readDigits maxPrecision .precisionTooBig cs
    return ({ d with precision := some n }, rest, supply)
  | _ => .ok (d, t, supply)

/-- A text without the letter for a size at its start. -/
def skipSize (t : Text) : Text :=
  match t with
  | c :: cs => if c = 'h' || c = 'l' || c = 'L' then cs else t
  | [] => []

/-- Reads a directive and the letter that ends the slot. -/
def readDirective : SlotReader (Directive × Char) := fun t supply => do
  let flags := t.takeWhile isFlag
  let (d, t, supply) ← readWidth (.ofFlags flags) (t.drop flags.length) supply
  let (d, t, supply) ← readPrecision d t supply
  match skipSize t with
  | [] => .error .incomplete
  | c :: rest => .ok ((d, c), rest, supply)

/-- The characters of a key up to the bracket that closes it, where `depth` brackets inside it are
still open. -/
def keyLength? (depth : Nat) : Text → Option Nat
  | [] => none
  | c :: cs =>
    if c = ')' then
      match depth with
      | 0 => some 0
      | d + 1 => (keyLength? d cs).map (· + 1)
    else (keyLength? (if c = '(' then depth + 1 else depth) cs).map (· + 1)

/-- Reads the key of a slot, if there is one: its value takes the place of the arguments. -/
def readKey (keys : Option Entries) : Text → Supply → Except Error (Text × Supply)
  | '(' :: cs, _ =>
    match keys, keyLength? 0 cs with
    | none, _ => .error .noKeys
    | some _, none => .error .openKey
    | some entries, some n =>
      match entries.get? (cs.take n) with
      | none => .error (.missingKey (cs.take n))
      | some d => .ok (cs.drop (n + 1), .single d false)
  | t, supply => .ok (t, supply)

end LabelLoop.Template
