import LabelLoop.Text.Quoted

/-!
# Codecs

A codec says how texts are stored in files.  There are more of them than a program can know, so a
command finds them by name in the world it runs in, and nothing is assumed about them here.  What
is decoded is a text, and so has no surrogates in it.

An undecodable file is reported by the first bytes that are wrong, and a text that cannot be encoded
by its first characters that are.
-/

namespace LabelLoop

/-- The content of a file. -/
abbrev Bytes := List UInt8

namespace Codec

open Text

/-! ### Errors -/

/-- Why a file **cannot be decoded**. -/
inductive DecodeError where
  /-- The bytes from `start` up to `stop`, the first of which is `first`, mean nothing. -/
  | malformed (codec : String) (first : UInt8) (start stop : Nat) (reason : String)
  /-- Something that has no position. -/
  | other (message : String)
  deriving DecidableEq, Repr

/-- A single position, or the first and the last of several. -/
def positions (start stop : Nat) : Text :=
  if stop ≤ start + 1 then Text.ofNat start
  else Text.ofNat start ++ ['-'] ++ Text.ofNat (stop - 1)

/-- The message of an error. -/
def DecodeError.message : DecodeError → Text
  | .malformed codec first start stop reason =>
    '\'' :: codec.toList ++ "' codec can't decode byte".toList ++
      (if stop ≤ start + 1 then " 0x".toList ++ hex 2 first.toNat else ['s']) ++
      " in position ".toList ++ positions start stop ++ ": ".toList ++ reason.toList
  | .other message => message.toList

/-- Why a text **cannot be encoded**. -/
inductive EncodeError where
  /-- The codec has no bytes for the characters from `start` up to `stop`, the first of which is
  `first`. -/
  | unencodable (codec : String) (first : Char) (start stop : Nat) (reason : String)
  /-- Something that has no position. -/
  | other (message : String)
  deriving DecidableEq, Repr

/-- The message of an error. -/
def EncodeError.message : EncodeError → Text
  | .unencodable codec first start stop reason =>
    '\'' :: codec.toList ++ "' codec can't encode character".toList ++
      (if stop ≤ start + 1 then " '".toList ++ numericEscape first ++ ['\''] else ['s']) ++
      " in position ".toList ++ positions start stop ++ ": ".toList ++ reason.toList
  | .other message => message.toList

/-- Why a name is not that of a codec **for texts**. -/
inductive Missing where
  /-- There is no such codec. -/
  | unknown
  /-- The codec of that name is not for texts. -/
  | notForTexts
  deriving DecidableEq, Repr

/-- What is said of a name that is not that of a codec for texts. -/
def Missing.message (name : Text) : Missing → Text
  | .unknown => "unknown encoding: ".toList ++ name
  | .notForTexts =>
    '\'' :: name ++ "' is not a text encoding; use codecs.open() to handle arbitrary codecs".toList

end Codec

/-- A **codec**. -/
structure Codec where
  /-- The text that a file holds. -/
  decode : Bytes → Except Codec.DecodeError Text
  /-- What a file gets when a text is written to it. -/
  encode : Text → Except Codec.EncodeError Bytes
  /-- What the codec still owes behind a text, to come back to the state that it starts in.  Files
  do not get it. -/
  ending : Text → Bytes := fun _ => []

/-- The codecs by their names. -/
abbrev Codecs := Text → Except Codec.Missing Codec

namespace Codec

/-- The **encoding of a text** as a whole. -/
def whole (codec : Codec) (t : Text) : Except EncodeError Bytes :=
  (codec.encode t).map (· ++ codec.ending t)

/-! ### Lines -/

/-- A text in which every line ends with a line feed alone. -/
def unifyLines : Text → Text
  | [] => []
  | '\r' :: '\n' :: cs => '\n' :: unifyLines cs
  | c :: cs => (if c = '\r' then '\n' else c) :: unifyLines cs

end Codec

end LabelLoop
