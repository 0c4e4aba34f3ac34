import LabelLoop.Datum.Basic

/-!
# Reading JSON text

JSON text is read in two passes from left to right.  The first cuts the text into tokens; within the
quotes of a text it collects code units, from which the characters are put together at the end.  The
second builds the datum from the tokens, with the lists and objects that are still open on a stack.
A key that an object has twice keeps its place and takes the later value.
-/

namespace LabelLoop.Datum

open Text

/-! ### Numbers and words -/

/-- The digits at the front of a text, at least one, and what follows them. -/
def digitRun? (t : Text) : Option (Text × Text) :=
  let digits := t.takeWhile Char.isDigit
  if digits.isEmpty then none else some (digits, t.drop digits.length)

/-- The fraction at the front of a text, empty if there is none, and what follows it. -/
def fractionOf? : Text → Option (Text × Text)
  | '.' :: cs => digitRun? cs
  | t => some ([], t)

/-- The exponent that a text is, or none if the text is empty. -/
def exponentOf? : Text → Option (Option Int)
  | [] => some none
  | c :: cs =>
    if c = 'e' || c = 'E' then
      let negative := cs.head? = some '-'
      match digitRun? (if negative || cs.head? = some '+' then cs.drop 1 else cs) with
      | some (digits, []) =>
        let n : Int := natOfDigits digits
        some (some (if negative then -n else n))
      | _ => none
    else none

/-- The number that a text without a sign is: whole, unless it has a fraction or an exponent. -/
def numberOf? (negative : Bool) (t : Text) : Option Datum := do
  let (whole, rest) ← digitRun? t
  if whole.head? = some '0' && 1 < whole.length then none
  let (fraction, rest) ← fractionOf? rest
  let exponent ← exponentOf? rest
  if fraction.isEmpty && exponent.isNone then
    let n : Int := natOfDigits whole
    return .int (if negative then -n else n)
  else
    return .real (.ofDecimal negative (natOfDigits (whole ++ fraction))
      (exponent.getD 0 - fraction.length))

/-- The values that are written as words. -/
def words : List (Text × Datum) :=
  [("null".toList, .null), ("true".toList, .bool true), ("false".toList, .bool false),
    ("NaN".toList, .real .nan), ("Infinity".toList, .real (.infinite false)),
    ("-Infinity".toList, .real (.infinite true))]

/-- The value of a word or number. -/
def wordOf? (t : Text) : Option Datum :=
  match words.lookup t, t with
  | some d, _ => some d
  | none, '-' :: cs => numberOf? true cs
  | none, _ => numberOf? false t

/-! ### Tokens -/

/-- A **token** of JSON text. -/
inductive Token where
  | openList
  | closeList
  | openObject
  | closeObject
  | comma
  | colon
  | scalar (d : Datum)

/-- The character with a given code point, which must be none of a surrogate. -/
def charOf? (n : Nat) : Option Char :=
  if n.isValidChar then some (Char.ofNat n) else none

/-- The characters that code units stand for, given from the last to the first, in front of
`after`.  Two surrogates stand for one character, and one alone for none. -/
def charsOf? (after : Text) : List Nat → Option Text
  | [] => some after
  | low :: high :: units =>
    if 0xdc00 ≤ low && low < 0xe000 && 0xd800 ≤ high && high < 0xdc00 then
      (charOf? (0x10000 + (high - 0xd800) * 0x400 + (low - 0xdc00))).bind fun c =>
        charsOf? (c :: after) units
    else (charOf? low).bind fun c => charsOf? (c :: after) (high :: units)
  | [n] => (charOf? n).map (· :: after)

/-- Where in the text the first pass stands; what has been read of a token is there from the last to
the first. -/
inductive Mode where
  | between
  | word (read : Text)
  | text (units : List Nat)
  /-- After a backslash. -/
  | escape (units : List Nat)
  /-- In a numeric escape, of which `missing` digits are still to come. -/
  | digits (units : List Nat) (value missing : Nat)

/-- The first pass: the tokens so far, from the last to the first, and the mode. -/
structure Lexing where
  tokens : List Token
  mode : Mode

/-- A character of a word or a number. -/
def isWordChar (c : Char) : Bool :=
  c.isAlphanum || c = '-' || c = '+' || c = '.'

/-- The character that an escaped letter stands for. -/
def escaped? (c : Char) : Option Char :=
  [('"', '"'), ('\\', '\\'), ('/', '/'), ('b', '\x08'), ('f', '\x0c'), ('n', '\n'), ('r', '\r'),
    ('t', '\t')].lookup c

/-- The value of a hexadecimal digit. -/
def hexDigit? (c : Char) : Option Nat :=
  if c.isDigit then some (c.toNat - '0'.toNat)
  else if 'a' ≤ c && c ≤ 'f' then some (c.toNat - 'a'.toNat + 10)
  else if 'A' ≤ c && c ≤ 'F' then some (c.toNat - 'A'.toNat + 10)
  else none

/-- The token that a mark stands for. -/
def mark? (c : Char) : Option Token :=
  match c with
  | '[' => some .openList
  | ']' => some .closeList
  | '\x7b' => some .openObject
  | '\x7d' => some .closeObject
  | ',' => some .comma
  | ':' => some .colon
  | _ => none

/-- Reads a character between two tokens. -/
def beginToken? (tokens : List Token) (c : Char) : Option Lexing :=
  if c = ' ' || c = '\n' || c = '\r' || c = '\t' then some ⟨tokens, .between⟩
  else if c = '"' then some ⟨tokens, .text []⟩
  else if isWordChar c then some ⟨tokens, .word [c]⟩
  else (mark? c).map fun t => ⟨t :: tokens, .between⟩

/-- Reads one character. -/
def Lexing.step (s : Lexing) (c : Char) : Option Lexing :=
  match s.mode with
  | .between => beginToken? s.tokens c
  | .word read =>
    if isWordChar c then some { s with mode := .word (c :: read) }
    else (wordOf? read.reverse).bind fun d => beginToken? (.scalar d :: s.tokens) c
  | .text units =>
    if c = '"' then
      (charsOf? [] units).map fun t => ⟨.scalar (.text t) :: s.tokens, .between⟩
    else if c = '\\' then some { s with mode := .escape units }
    else if c.toNat < 0x20 then none
    else some { s with mode := .text (c.toNat :: units) }
  | .escape units =>
    if c = 'u' then some { s with mode := .digits units 0 4 }
    else (escaped? c).map fun e => { s with mode := .text (e.toNat :: units) }
  | .digits units value missing =>
    (hexDigit? c).map fun d =>
      let value := value * 16 + d
      { s with mode := if missing ≤ 1 then .text (value :: units)
          else .digits units value (missing - 1) }

/-- **The tokens** of JSON text. -/
def tokens? (t : Text) : Option (List Token) :=
  match t.foldlM Lexing.step ⟨[], .between⟩ with
  | some ⟨tokens, .between⟩ => some tokens.reverse
  | some ⟨tokens, .word read⟩ => (wordOf? read.reverse).map fun d => (.scalar d :: tokens).reverse
  | _ => none

/-! ### Data -/

/-- A list or an object that is still open, with what has been read of it. -/
inductive Frame where
  /-- The items before the one that is being read, from the last to the first. -/
  | list (items : List Datum)
  /-- The entries before the one whose value is being read, and its key. -/
  | object (entries : Entries) (key : Text)

/-- What the second pass expects next. -/
inductive Expected where
  | value
  /-- The first value of a list, or its end. -/
  | firstItem
  /-- The first key of an object, or its end. -/
  | firstKey
  /-- The key that follows the given entries. -/
  | key (entries : Entries)
  /-- The colon after a key. -/
  | colon (entries : Entries) (key : Text)
  /-- What follows a complete value. -/
  | next (d : Datum)

/-- The second pass: the open lists and objects, from the inside out, and what is expected. -/
structure Building where
  frames : List Frame
  expected : Expected

/-- Reads the token that begins a value. -/
def beginValue? (frames : List Frame) : Token → Option Building
  | .openList => some ⟨.list [] :: frames, .firstItem⟩
  | .openObject => some ⟨frames, .firstKey⟩
  | .scalar d => some ⟨frames, .next d⟩
  | _ => none

/-- Reads one token. -/
def Building.step (s : Building) (token : Token) : Option Building :=
  match s.expected, s.frames, token with
  | .value, frames, t => beginValue? frames t
  | .firstItem, .list [] :: frames, .closeList => some ⟨frames, .next (.list [])⟩
  | .firstItem, frames, t => beginValue? frames t
  | .firstKey, frames, .closeObject => some ⟨frames, .next (.object [])⟩
  | .firstKey, frames, .scalar (.text k) => some ⟨frames, .colon [] k⟩
  | .key entries, frames, .scalar (.text k) => some ⟨frames, .colon entries k⟩
  | .colon entries k, frames, .colon => some ⟨.object entries k :: frames, .value⟩
  | .next d, .list items :: frames, .comma => some ⟨.list (d :: items) :: frames, .value⟩
  | .next d, .list items :: frames, .closeList =>
    some ⟨frames, .next (.list (d :: items).reverse)⟩
  | .next d, .object entries k :: frames, .comma => some ⟨frames, .key (entries.put k d)⟩
  | .next d, .object entries k :: frames, .closeObject =>
    some ⟨frames, .next (.object (entries.put k d))⟩
  | _, _, _ => none

/-- **The datum** that a JSON text is. -/
def ofJson? (t : Text) : Option Datum := do
  match (← tokens? t).foldlM Building.step ⟨[], .value⟩ with
  | some ⟨[], .next d⟩ => some d
  | _ => none

end LabelLoop.Datum
