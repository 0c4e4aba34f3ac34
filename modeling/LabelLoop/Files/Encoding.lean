import LabelLoop.Files.Codec

/-!
# Encodings

Five codecs: UTF-8 with and without a byte order mark, UTF-16 with one, ASCII and Latin-1.  They are
those that the program brings along (`Encoding.codecs`), and no more than a choice among the many
that a command may be asked to use; what is said about commands holds for other codecs too.
-/

namespace LabelLoop

/-- The **encodings** that the program brings along. -/
inductive Encoding where
  | utf8
  /-- UTF-8 that starts with a byte order mark. -/
  | utf8Marked
  /-- UTF-16 that starts with a byte order mark. -/
  | utf16
  | ascii
  | latin1
  deriving DecidableEq, Repr

namespace Encoding

open Text Codec

/-! ### Names -/

/-- A name in its normal form: the runs of ASCII letters, digits and dots in lower case, with low
lines between them. -/
def normalName (name : Text) : Text :=
  let plain := name.map fun c => if c.isAlphanum || c = '.' then c.toLower else '_'
  List.intercalate ['_'] ((plain.splitOn '_').filter fun r => !r.isEmpty)

/-- The proper name of an encoding, in normal form. -/
def properName : Encoding → String
  | .utf8 => "utf_8"
  | .utf8Marked => "utf_8_sig"
  | .utf16 => "utf_16"
  | .ascii => "ascii"
  | .latin1 => "latin_1"

/-- The other names of an encoding, in normal form. -/
def otherNames : Encoding → List String
  | .utf8 => ["utf8", "utf", "u8", "utf8_ucs2", "utf8_ucs4", "cp65001"]
  | .utf8Marked => []
  | .utf16 => ["utf16", "u16"]
  | .ascii => ["us_ascii", "us", "646", "ansi_x3.4_1968", "ansi_x3_4_1968", "ansi_x3.4_1986",
    "cp367", "csascii", "ibm367", "iso646_us", "iso_646.irv_1991", "iso_ir_6"]
  | .latin1 => ["latin1", "latin", "l1", "8859", "cp819", "csisolatin1", "ibm819", "iso8859",
    "iso8859_1", "iso_8859_1", "iso_8859_1_1987", "iso_ir_100"]

/-- `name`, which is in normal form, is a name of the encoding.  In names other than the proper one
dots may stand for low lines. -/
def hasName (e : Encoding) (name : Text) : Bool :=
  let others := e.otherNames.map String.toList
  name = e.properName.toList || others.contains name ||
    others.contains (name.map fun c => if c = '.' then '_' else c)

/-- The encoding with a given name. -/
def ofName? (name : Text) : Option Encoding :=
  [utf8, utf8Marked, utf16, ascii, latin1].find? (·.hasName (normalName name))

/-! ### UTF-8 -/

/-- What stands at the front of some bytes: a character, or bytes that mean nothing. -/
inductive Reading where
  | char (c : Char) (length : Nat)
  | bad (length : Nat) (reason : String)
  deriving DecidableEq, Repr

/-- Reads `owed` more bytes of a character, of which `length` bytes with the given value have been
read; the next one must lie between `low` and `high`. -/
def readTail (owed : Nat) (low high : UInt8) (value length : Nat) (bytes : Bytes) : Reading :=
  match owed, bytes with
  | 0, _ => .char (Char.ofNat value) length
  | _ + 1, [] => .bad length "unexpected end of data"
  | n + 1, b :: bs =>
    if low ≤ b && b ≤ high then
      readTail n 0x80 0xbf (value * 64 + (b.toNat - 0x80)) (length + 1) bs
    else .bad length "invalid continuation byte"

/-- Reads the character that begins with the byte `b`.  The second byte is limited where it would
otherwise spell a character in more bytes than needed, a surrogate, or no character at all. -/
def readUtf8 (b : UInt8) (bytes : Bytes) : Reading :=
  let n := b.toNat
  if b < 0x80 then .char (Char.ofNat n) 1
  else if b < 0xc2 then .bad 1 "invalid start byte"
  else if b < 0xe0 then readTail 1 0x80 0xbf (n - 0xc0) 1 bytes
  else if b < 0xf0 then
    let low := if b = 0xe0 then 0xa0 else 0x80
    let high := if b = 0xed then 0x9f else 0xbf
    readTail 2 low high (n - 0xe0) 1 bytes
  else if b < 0xf5 then
    let low := if b = 0xf0 then 0x90 else 0x80
    let high := if b = 0xf4 then 0x8f else 0xbf
    readTail 3 low high (n - 0xf0) 1 bytes
  else .bad 1 "invalid start byte"

/-- Decodes bytes with a reader of single characters, after `skip` bytes that have been read; the
first byte stands at `offset`. -/
def decodeFrom (codec : String) (read : UInt8 → Bytes → Reading) (offset skip : Nat) :
    Bytes → Except DecodeError Text
  | [] => .ok []
  | b :: bs =>
    match skip with
    | k + 1 => decodeFrom codec read (offset + 1) k bs
    | 0 =>
      match read b bs with
      | .bad n reason => .error (.malformed codec b offset (offset + n) reason)
      | .char c n => (decodeFrom codec read (offset + 1) (n - 1) bs).map (c :: ·)

/-- The byte with six bits of a character after its first byte. -/
def tailByte (bits : Nat) : UInt8 :=
  (0x80 + bits % 64).toUInt8

/-- The bytes of a character in UTF-8. -/
def utf8Char (c : Char) : Bytes :=
  let n := c.toNat
  if n < 0x80 then [n.toUInt8]
  else if n < 0x800 then [(0xc0 + n / 64).toUInt8, tailByte n]
  else if n < 0x10000 then [(0xe0 + n / 4096).toUInt8, tailByte (n / 64), tailByte n]
  else
    [(0xf0 + n / 262144).toUInt8, tailByte (n / 4096), tailByte (n / 64), tailByte n]

/-- The byte order mark of UTF-8. -/
def utf8Mark : Bytes :=
  [0xef, 0xbb, 0xbf]

/-! ### UTF-16 -/

/-- The order of the two bytes of a unit. -/
inductive ByteOrder where
  | little
  | big
  deriving DecidableEq, Repr

/-- The unit that two bytes stand for. -/
def ByteOrder.unit (o : ByteOrder) (first second : UInt8) : Nat :=
  match o with
  | .little => second.toNat * 256 + first.toNat
  | .big => first.toNat * 256 + second.toNat

/-- The name under which errors are reported. -/
def ByteOrder.codec : ByteOrder → String
  | .little => "utf-16-le"
  | .big => "utf-16-be"

/-- Reads the character that begins with the byte `b`: one unit, or two surrogates. -/
def readUtf16 (o : ByteOrder) (b : UInt8) (bytes : Bytes) : Reading :=
  match bytes with
  | [] => .bad 1 "truncated data"
  | b' :: rest =>
    let n := o.unit b b'
    if n < 0xd800 || 0xe000 ≤ n then .char (Char.ofNat n) 2
    else if 0xdc00 ≤ n then .bad 2 "illegal encoding"
    else
      match rest with
      | c :: c' :: _ =>
        let m := o.unit c c'
        if 0xdc00 ≤ m && m < 0xe000 then
          .char (Char.ofNat (0x10000 + (n - 0xd800) * 0x400 + (m - 0xdc00))) 4
        else .bad 2 "illegal UTF-16 surrogate"
      | _ => .bad (2 + rest.length) "unexpected end of data"

/-- Decodes UTF-16.  The byte order mark says which order the bytes have; without one they are
read, and then refused. -/
def decodeUtf16 (bytes : Bytes) : Except DecodeError Text :=
  let from2 (o : ByteOrder) := decodeFrom o.codec (readUtf16 o) 2 0 (bytes.drop 2)
  match bytes with
  | [] => .ok []
  | 0xff :: 0xfe :: _ => from2 .little
  | 0xfe :: 0xff :: _ => from2 .big
  | _ =>
    match decodeFrom ByteOrder.little.codec (readUtf16 .little) 0 0 bytes with
    | .error e => .error e
    | .ok _ => .error (.other "UTF-16 stream does not start with BOM")

/-- A unit with its low byte first. -/
def utf16Unit (n : Nat) : Bytes :=
  [(n % 256).toUInt8, (n / 256).toUInt8]

/-- The bytes of a character in UTF-16 with low bytes first. -/
def utf16Char (c : Char) : Bytes :=
  let n := c.toNat
  if n < 0x10000 then utf16Unit n
  else
    utf16Unit (0xd800 + (n - 0x10000) / 0x400) ++ utf16Unit (0xdc00 + (n - 0x10000) % 0x400)

/-! ### One byte a character -/

/-- Why a number from `limit` on means nothing. -/
def beyond (limit : Nat) : String :=
  "ordinal not in range(" ++ toString limit ++ ")"

/-- Reads one byte as the character with its number, if there is one below `limit`. -/
def readByte (limit : Nat) (b : UInt8) (_ : Bytes) : Reading :=
  if b.toNat < limit then .char (Char.ofNat b.toNat) 1 else .bad 1 (beyond limit)

/-- Encodes characters below `limit`, one byte each. -/
def encodeBytes (codec : String) (limit : Nat) (t : Text) : Except EncodeError Bytes :=
  let good := (t.takeWhile (·.toNat < limit)).length
  match t.drop good with
  | [] => .ok (t.map fun c => c.toNat.toUInt8)
  | c :: cs =>
    let more := (cs.takeWhile (limit ≤ ·.toNat)).length
    .error (.unencodable codec c good (good + 1 + more) (beyond limit))

/-! ### All encodings -/

/-- Decodes UTF-8 behind a mark if there is one.  A beginning of a mark and nothing else counts as
nothing. -/
def decodeMarked (bytes : Bytes) : Except DecodeError Text :=
  if bytes.length < 3 && utf8Mark.take bytes.length = bytes then .ok []
  else
    decodeFrom "utf-8" readUtf8 0 0 (if bytes.take 3 = utf8Mark then bytes.drop 3 else bytes)

/-- **Decodes** the content of a file. -/
def decode : Encoding → Bytes → Except DecodeError Text
  | .utf8, bytes => decodeFrom "utf-8" readUtf8 0 0 bytes
  | .utf8Marked, bytes => decodeMarked bytes
  | .utf16, bytes => decodeUtf16 bytes
  | .ascii, bytes => decodeFrom "ascii" (readByte 128) 0 0 bytes
  | .latin1, bytes => decodeFrom "latin-1" (readByte 256) 0 0 bytes

/-- **Encodes** a text as the content of a file. -/
def encode : Encoding → Text → Except EncodeError Bytes
  | .utf8, t => .ok (t.flatMap utf8Char)
  | .utf8Marked, t => .ok (utf8Mark ++ t.flatMap utf8Char)
  | .utf16, t => .ok (0xff :: 0xfe :: t.flatMap utf16Char)
  | .ascii, t => encodeBytes "ascii" 128 t
  | .latin1, t => encodeBytes "latin-1" 256 t

/-- An encoding as a codec. -/
def codec (e : Encoding) : Codec where
  decode := e.decode
  encode := e.encode

/-- The codecs that the program brings along. -/
def codecs : Codecs := fun name =>
  match ofName? name with
  | some e => .ok e.codec
  | none => .error .unknown

end Encoding

end LabelLoop
