import LabelLoop.Literal.Span
import LabelLoop.Script.Lexeme

/-!
# The string literals of a script, by reading its lexemes

Where a string literal begins can only be told by reading a script from its start: a quote inside
a comment, a regular expression or a template is no delimiter, and whether a slash divides or opens
a regular expression depends on what came before it.  The lexer keeps that much context and no
more.  A character that begins no lexeme is passed over, so that every script can be read to its
end.
-/

namespace LabelLoop.Script

open Text

/-! ### Context -/

/-- What surrounds the place the lexer has come to. -/
inductive Frame where
  /-- The text of a template literal. -/
  | template
  /-- Code between `${` and the next closing brace, inside a template. -/
  | hole
  deriving DecidableEq, Repr

/-- What a slash would mean. -/
inductive Slash where
  /-- A division, or the assignment of one. -/
  | divides
  /-- The start of a regular expression: an operand is expected. -/
  | opens
  /-- Nothing: a slash before it on this line should have opened a regular expression and did
  not, and the rest of the line is passed over. -/
  | passed
  deriving DecidableEq, Repr

/-- The **context** of a place in a script. -/
structure Context where
  /-- The surrounding templates and holes, innermost first. -/
  frames : List Frame
  slash : Slash
  deriving DecidableEq, Repr

/-- The context at the start of a script. -/
def Context.start : Context :=
  ⟨[], .divides⟩

/-- **One step** of the lexer. -/
structure Step where
  /-- How many characters were read; at least one. -/
  length : Nat
  /-- The context after them. -/
  context : Context
  /-- The characters read are a string literal. -/
  literal : Bool := false

/-! ### Steps -/

/-- Reads inside the text of a template. -/
def templateStep (outer : List Frame) (c : Char) (cs : Text) : Step :=
  let inside : Context := ⟨.template :: outer, .divides⟩
  if c = '`' then ⟨1, ⟨outer, .divides⟩, false⟩
  else if c = '\\' && !cs.isEmpty then ⟨2, inside, false⟩
  else if c = '$' && beginsWith cs ['\x7b'] then
    ⟨2, ⟨.hole :: .template :: outer, .divides⟩, false⟩
  else ⟨1, inside, false⟩

/-- Reads a word: one that asks for an operand, one that does not, the name of a function about to
be defined, or any other identifier.  `prev` is the character before it. -/
def wordStep? (frames : List Frame) (prev : Option Char) (t : Text) : Option Step :=
  let word := t.takeWhile isWord
  if operandWords.contains word then some ⟨word.length, ⟨frames, .opens⟩, false⟩
  else if looseWords.contains word && !prev.any isWord || plainWords.contains word then
    some ⟨word.length, ⟨frames, .divides⟩, false⟩
  else
    match definedName? t with
    | some n => some ⟨n, ⟨frames, .opens⟩, false⟩
    | none => (identifier? t).map fun n => ⟨n, ⟨frames, .divides⟩, false⟩

/-- Reads code where a slash divides. -/
def codeStep (frames : List Frame) (prev : Option Char) (c : Char) (cs : Text) : Step :=
  let t := c :: cs
  let after (n : Nat) (slash : Slash) : Step := ⟨n, ⟨frames, slash⟩, false⟩
  if c = '\x7d' && frames.head? = some .hole then ⟨1, ⟨frames.tail, .divides⟩, false⟩
  else if let some n := trivia? t then after n .divides
  else if let some n := number? t then after n .divides
  else if let some n := joiner? t then after n .divides
  else if let some n := operator? t then after n .opens
  else if c = '\x7b' || c = '(' || c = '[' || c = ';' || c = ',' then after 1 .opens
  else if c = '\x7d' || c = ')' || c = ']' || c = '.' then after 1 .divides
  else if let some s := wordStep? frames prev t then s
  else if let some n := stringLiteral? t then ⟨n, ⟨frames, .divides⟩, true⟩
  else if c = '`' then ⟨1, ⟨.template :: frames, .divides⟩, false⟩
  else if let some n := privateName? t then after n .divides
  else after 1 .divides

/-- Reads code where an operand is expected. -/
def operandStep (frames : List Frame) (prev : Option Char) (c : Char) (cs : Text) : Step :=
  let t := c :: cs
  if let some n := trivia? t then ⟨n, ⟨frames, .opens⟩, false⟩
  else if let some n := patternLiteral? t then ⟨n, ⟨frames, .divides⟩, false⟩
  else if c = '/' then ⟨1, ⟨frames, .passed⟩, false⟩
  else codeStep frames prev c cs

/-- White space, a slash or a markup comment at the start of a line is read as if an operand were
expected. -/
def opensLine (prev : Option Char) (c : Char) (cs : Text) : Bool :=
  (prev = none || prev = some '\n') &&
    (isBlank c || c = '/' || beginsWith (c :: cs) "<!--".toList)

/-- **One step** at the character `c`, which `cs` follows and `prev` precedes. -/
def step (ctx : Context) (prev : Option Char) (c : Char) (cs : Text) : Step :=
  match ctx.frames, ctx.slash with
  | .template :: outer, _ => templateStep outer c cs
  | frames, .passed => ⟨1, ⟨frames, if c = '\n' then .divides else .passed⟩, false⟩
  | frames, .opens => operandStep frames prev c cs
  | frames, .divides =>
    match (if prev = none then interpreterLine? (c :: cs) else none) with
    | some n => ⟨n, ⟨frames, .divides⟩, false⟩
    | none =>
      if opensLine prev c cs then operandStep frames prev c cs else codeStep frames prev c cs

/-! ### The scan -/

/-- The string literals of a script whose first character stands at `offset`, after `skip`
characters that belong to a lexeme read before. -/
def literalsFrom (offset : Nat) (prev : Option Char) (ctx : Context) (skip : Nat) :
    Text → List Literal.Span
  | [] => []
  | c :: cs =>
    match skip with
    | k + 1 => literalsFrom (offset + 1) (some c) ctx k cs
    | 0 =>
      let s := step ctx prev c cs
      let rest := literalsFrom (offset + 1) (some c) s.context (s.length - 1) cs
      if s.literal then ⟨offset, offset + s.length⟩ :: rest else rest

/-- The **string literals** of a script, from left to right. -/
def literals (source : Text) : List Literal.Span :=
  literalsFrom 0 none .start 0 source

end LabelLoop.Script
