import LabelLoop.Text.Blank
import LabelLoop.Text.Letter
import LabelLoop.Text.Word

/-!
# The lexemes of a script

Each function here looks at the front of a script and says how many characters the lexeme that
begins there takes, or that none of its kind begins there.  Lexemes are read without regard to
what came before; which of them is tried where is the lexer's business.
-/

namespace LabelLoop.Script

open Text

/-! ### White space and comments -/

/-- The number of characters before the next line break, or before the end. -/
def lineLength (t : Text) : Nat :=
  (t.takeWhile (· ≠ '\n')).length

/-- White space, the mark that opens a markup comment, a comment up to the end of the line, or a
comment between `/*` and `*/`. -/
def trivia? (t : Text) : Option Nat :=
  let blanks := (t.takeWhile isBlank).length
  if 0 < blanks then some blanks
  else if beginsWith t "<!--".toList then some 4
  else if beginsWith t "//".toList then some (lineLength t)
  else
    match "/*".toList.isPrefixOf? t with
    | none => none
    | some rest => (position? "*/".toList rest).map (· + 4)

/-- The line that names an interpreter: `#!`, perhaps a space, and a path from the root. -/
def interpreterLine? (t : Text) : Option Nat :=
  if beginsWith t "#!/".toList || beginsWith t "#! /".toList then some (lineLength t) else none

/-! ### Numbers -/

/-- `c` is one of the ten ASCII digits. -/
def isDigit (c : Char) : Bool :=
  '0' ≤ c && c ≤ '9'

/-- `c` is a digit of an octal number. -/
def isOctal (c : Char) : Bool :=
  '0' ≤ c && c ≤ '7'

/-- `c` is a digit of a hexadecimal number. -/
def isHex (c : Char) : Bool :=
  isDigit c || ('a' ≤ c && c ≤ 'f') || ('A' ≤ c && c ≤ 'F')

/-- The length of a non-empty run of `digit`s and of the `n` that may end it. -/
def wholeDigits? (digit : Char → Bool) (t : Text) : Option Nat :=
  let count := (t.takeWhile digit).length
  if count = 0 then none
  else if beginsWith (t.drop count) ['n'] then some (count + 1)
  else some count

/-- A whole number with a sign of its base, such as `0b101` or `0x1Fn`; octal numbers may also
have no sign but the leading zero. -/
def basedNumber? : Text → Option Nat
  | '0' :: 'b' :: t => (wholeDigits? (fun c => c = '0' || c = '1') t).map (· + 2)
  | '0' :: 'B' :: t => (wholeDigits? (fun c => c = '0' || c = '1') t).map (· + 2)
  | '0' :: 'o' :: t => (wholeDigits? isOctal t).map (· + 2)
  | '0' :: 'O' :: t => (wholeDigits? isOctal t).map (· + 2)
  | '0' :: 'x' :: t => (wholeDigits? isHex t).map (· + 2)
  | '0' :: 'X' :: t => (wholeDigits? isHex t).map (· + 2)
  | '0' :: t => (wholeDigits? isOctal t).map (· + 1)
  | _ => none

/-- The length of an exponent such as `e-7`, or zero. -/
def exponentLength : Text → Nat
  | e :: t =>
    if e = 'e' || e = 'E' then
      let sign := if beginsWith t ['-'] || beginsWith t ['+'] then 1 else 0
      let digits := ((t.drop sign).takeWhile isDigit).length
      if digits = 0 then 0 else 1 + sign + digits
    else 0
  | [] => 0

/-- A decimal number, with or without a fraction and an exponent. -/
def decimalNumber? (t : Text) : Option Nat :=
  let whole := (t.takeWhile isDigit).length
  let fraction := ((t.drop (whole + 1)).takeWhile isDigit).length
  let point := beginsWith (t.drop whole) ['.']
  let mantissa :=
    if point && (0 < whole || 0 < fraction) then whole + 1 + fraction else whole
  if mantissa = 0 then none
  else some (mantissa + exponentLength (t.drop mantissa))

/-- A number of any kind.  A whole decimal number may end with `n`. -/
def number? (t : Text) : Option Nat :=
  match basedNumber? t with
  | some n => some n
  | none =>
    let whole := (t.takeWhile isDigit).length
    if 0 < whole && beginsWith (t.drop whole) ['n'] then some (whole + 1) else decimalNumber? t

/-! ### Signs -/

/-- The length of `t`'s first sign among `signs`, with the equals sign that may follow it. -/
def assignable? (signs : List Text) (t : Text) : Option Nat :=
  match signs.find? (beginsWith t) with
  | none => none
  | some sign =>
    some (if beginsWith (t.drop sign.length) ['='] then sign.length + 1 else sign.length)

/-- An operator after which an operand is expected.  A backslash counts as one at the end of a
line. -/
def operator? (t : Text) : Option Nat :=
  match (["++", "--", "~"].map String.toList).find? (beginsWith t) with
  | some sign => some sign.length
  | none =>
    if beginsWith t "??".toList then assignable? ["??".toList] t
    else if beginsWith t ['?'] || beginsWith t [':'] || beginsWith t ['\\', '\n'] then some 1
    else assignable? (["<<", ">>>", ">>", "==", "=", "!=", "!", "**", "||", "&&", "-", "<", ">",
      "+", "*", "%", "&", "|", "^", "/"].map String.toList) t

/-- The signs that join without asking for an operand. -/
def joiner? (t : Text) : Option Nat :=
  if beginsWith t "...".toList then some 3 else if beginsWith t "=>".toList then some 2 else none

/-! ### Words -/

/-- The words after which an operand is expected. -/
def operandWords : List Text :=
  ["typeof", "instanceof", "in", "void", "delete", "new", "for", "while", "do", "break", "return",
    "continue", "switch", "case", "default", "if", "else", "throw", "try", "catch", "finally",
    "yield", "await", "async", "this", "of", "static", "export", "import", "debugger", "extends",
    "super", "var", "let", "const", "with", "function", "class"].map String.toList

/-- The words that are a lexeme of their own wherever they stand in full. -/
def plainWords : List Text :=
  ["abstract", "boolean", "byte", "char", "double", "enum", "final", "float", "goto", "implements",
    "int", "interface", "long", "native", "package", "private", "protected", "public", "short",
    "synchronized", "throws", "transient", "volatile", "true", "false", "null", "NaN", "Infinity",
    "undefined", "Array", "Boolean", "Date", "BigInt", "Function", "Math", "ArrayBuffer", "Number",
    "Object", "RegExp", "String", "Promise", "Proxy", "decodeURI", "decodeURIComponent",
    "encodeURI", "encodeURIComponent", "eval", "isFinite", "isNaN", "parseFloat", "parseInt",
    "DataView", "document", "window", "globalThis", "global", "arguments", "Symbol", "Intl",
    "WeakSet", "WeakMap", "Set", "Map", "Reflect", "JSON", "Atomics", "Int8Array", "Int16Array",
    "Int32Array", "BigInt64Array", "Float32Array", "Float64Array", "Uint8ClampedArray",
    "Uint8Array", "Uint16Array", "Uint32Array", "BigUint64Array", "Error", "EvalError",
    "InternalError", "RangeError", "ReferenceError", "SyntaxError", "TypeError",
    "URIError"].map String.toList

/-- The words that are a lexeme of their own when no word character stands before them either. -/
def looseWords : List Text :=
  ["constructor", "from", "as"].map String.toList

/-- `c` is an ASCII letter. -/
def isAsciiLetter (c : Char) : Bool :=
  ('a' ≤ c && c ≤ 'z') || ('A' ≤ c && c ≤ 'Z')

/-- A name right before `() {`, as in the definition of a function without parameters. -/
def definedName? (t : Text) : Option Nat :=
  match t with
  | [] => none
  | c :: _ =>
    let name := t.takeWhile fun d => isWord d || d = '?' || d = '.' || d = '$'
    if (isAsciiLetter c || c = '_' || c = '?' || c = '.' || c = '$') &&
        beginsWith (t.drop name.length) "() \x7b".toList then
      some name.length
    else none

/-- The six characters of an escaped code unit, `\u` and four hexadecimal digits. -/
def escapedUnit (t : Text) : Bool :=
  beginsWith t ['\\', 'u'] && ((t.drop 2).take 4).length = 4 && ((t.drop 2).take 4).all isHex

/-- The length of the rest of an identifier, after `skip` characters of an escape. -/
def identifierRest (skip : Nat) : Text → Nat
  | [] => 0
  | c :: cs =>
    match skip with
    | k + 1 => 1 + identifierRest k cs
    | 0 =>
      if c = '$' || isLetter c || isMark c || c = '\u200c' || c = '\u200d' then
        1 + identifierRest 0 cs
      else if escapedUnit (c :: cs) then 1 + identifierRest 5 cs
      else 0

/-- An identifier.  Its characters may be written as escaped code units. -/
def identifier? : Text → Option Nat
  | [] => none
  | c :: cs =>
    if c = '$' || c = '_' || isLetter c then some (1 + identifierRest 0 cs)
    else if escapedUnit (c :: cs) then some (1 + identifierRest 5 cs)
    else none

/-- A private name: a number sign and an ASCII identifier. -/
def privateName? : Text → Option Nat
  | '#' :: c :: cs =>
    if isAsciiLetter c || c = '_' then some (2 + (cs.takeWhile isWord).length) else none
  | _ => none

/-! ### Delimited literals -/

/-- The characters up to and including the next `quote` that no backslash escapes. -/
def quotedRest? (quote : Char) : Text → Option Nat
  | [] => none
  | c :: cs =>
    if c = quote then some 1
    else if c = '\\' then
      match cs with
      | [] => none
      | _ :: rest => (quotedRest? quote rest).map (· + 2)
    else (quotedRest? quote cs).map (· + 1)

/-- A string literal in single or double quotes; it may span lines. -/
def stringLiteral? : Text → Option Nat
  | [] => none
  | c :: cs => if c = '"' || c = '\'' then (quotedRest? c cs).map (· + 1) else none

/-- The characters up to and including the slash that ends a regular expression.  Inside a class
in square brackets a slash is an ordinary character; a line break is none anywhere, unless a
backslash escapes it. -/
def patternRest? (inClass : Bool) : Text → Option Nat
  | [] => none
  | c :: cs =>
    if c = '\\' then
      match cs with
      | [] => none
      | _ :: rest => (patternRest? inClass rest).map (· + 2)
    else if c = '\n' then none
    else if inClass then (patternRest? (c ≠ ']') cs).map (· + 1)
    else if c = '/' then some 1
    else (patternRest? (c = '[') cs).map (· + 1)

/-- A regular expression literal with its flags; no word character may follow. -/
def patternLiteral? : Text → Option Nat
  | '/' :: cs =>
    match patternRest? false cs with
    | none => none
    | some n =>
      let flags := (cs.drop n).takeWhile ("gimuysd".toList.contains ·)
      let following := (cs.drop (n + flags.length)).head?
      if 1 < n && !following.any isWord then some (1 + n + flags.length) else none
  | _ => none

end LabelLoop.Script
