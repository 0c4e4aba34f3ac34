import LabelLoop.Text.Blank
import LabelLoop.Text.Digit
import LabelLoop.Text.Word

/-!
# Text in lines

A text is cut into chunks, and the chunks are put into lines of a given width.  Between two chunks a
line may end: at spaces, after a hyphen between two words, and around a dash that is made of several
hyphens.  Whether there is such a place depends only on the characters around it.  A chunk that fits
in no line is broken.
-/

namespace LabelLoop.Text

/-! ### Spaces -/

/-- White space of ASCII that separates words. -/
def isSeparator (c : Char) : Bool :=
  c = ' ' || ('\t' ≤ c && c ≤ '\r')

/-- A text with a single space in the place of every run of separators. -/
def singleSpaced : Text → Text
  | [] => []
  | c :: cs =>
    if !isSeparator c then c :: singleSpaced cs
    else if cs.head?.any isSeparator then singleSpaced cs
    else ' ' :: singleSpaced cs

/-! ### Chunks -/

/-- A character of a word that is no digit. -/
def isLetterLike (c : Char) : Bool :=
  isWord c && !isDecimalDigit c

/-- A character that a dash can follow. -/
def endsWord (c : Char) : Bool :=
  isWord c || ['!', '"', '\'', '&', '.', ',', '?'].contains c

/-- A hyphen that has just been read stands between two words.  Both here and in the other
conditions `before` is what has been read, the nearest character first. -/
def afterHyphen (before rest : Text) : Bool :=
  match before, rest with
  | '-' :: a :: b :: before', c :: d :: rest' =>
    isLetterLike a && (isLetterLike b || (b = '-' && before'.head?.any isLetterLike)) &&
      isLetterLike c && (isLetterLike d || (d = '-' && rest'.head?.any isLetterLike))
  | _, _ => false

/-- The hyphens at the front of a text, if there are several, and what follows them. -/
def dash? (t : Text) : Option Text :=
  let length := (t.takeWhile (· = '-')).length
  if 2 ≤ length then some (t.drop length) else none

/-- A dash between two words begins. -/
def beforeDash (before rest : Text) : Bool :=
  before.head?.any endsWord && (dash? rest).any fun after => after.head?.any isWord

/-- A dash between two words has ended. -/
def afterDash (before rest : Text) : Bool :=
  (dash? before).any (fun start => start.head?.any endsWord) && rest.head?.any isWord

/-- A line may end between two parts of a text. -/
def mayBreak (before rest : Text) : Bool :=
  let spaced (t : Text) : Bool := t.head? = some ' '
  spaced before != spaced rest || afterHyphen before rest || beforeDash before rest ||
    afterDash before rest

/-- The chunks of a text, of which `before` has been read; `chunk` is the part of it that belongs to
the next chunk.  Both have the nearest character first. -/
def chunksFrom (before chunk : Text) : Text → List Text
  | [] => if chunk.isEmpty then [] else [chunk.reverse]
  | c :: cs =>
    if !chunk.isEmpty && mayBreak before (c :: cs) then
      chunk.reverse :: chunksFrom (c :: before) [c] cs
    else chunksFrom (c :: before) (c :: chunk) cs

/-- **The chunks** of a text. -/
def chunks (t : Text) : List Text :=
  chunksFrom [] [] t

/-! ### Lines -/

/-- The chunks that fit into the rest of a line, `used` columns of which are taken, and the other
chunks. -/
def fitting (width used : Nat) : List Text → List Text × List Text
  | [] => ([], [])
  | c :: cs =>
    if used + c.length ≤ width then
      let (line, rest) := fitting width (used + c.length) cs
      (c :: line, rest)
    else ([], c :: cs)

/-- How much of a long chunk goes into the given space: all that fits, but nothing after the last
hyphen in it that does not stand at the start. -/
def breakLength (chunk : Text) (space : Nat) : Nat :=
  let head := chunk.take space
  let length := (head.reverse.dropWhile (· ≠ '-')).length
  if (head.take (length - 1)).any (· ≠ '-') then length else space

/-- The chunks of the next line, and the other chunks. -/
def nextLine (width : Nat) (chunks : List Text) : List Text × List Text :=
  let (line, rest) := fitting width 0 chunks
  match rest with
  | c :: cs =>
    if width < c.length then
      let n := breakLength c (width - line.flatten.length)
      (line ++ [c.take n], c.drop n :: cs)
    else (line, rest)
  | [] => (line, [])

/-- A line without its last chunk, if that is white space or empty. -/
def dropBlankEnd (line : List Text) : List Text :=
  if line.getLast?.any (·.all isBlank) then line.dropLast else line

/-- The lines that chunks fill, at most `fuel` of them; each line but the first loses the white
space at its start. -/
def linesFrom (fuel width : Nat) (first : Bool) (chunks : List Text) : List Text :=
  match fuel, chunks with
  | 0, _ => []
  | _, [] => []
  | n + 1, c :: cs =>
    let (line, rest) := nextLine width (if !first && c.all isBlank then cs else c :: cs)
    let shown := dropBlankEnd line
    (if shown.isEmpty then [] else [shown.flatten]) ++
      linesFrom n width (first && shown.isEmpty) rest

/-- A text **in lines** of at most `width` characters.  Every line takes at least one character, so
there are no more lines than characters. -/
def wrap (width : Nat) (t : Text) : List Text :=
  let spaced := strip (singleSpaced t)
  linesFrom spaced.length width true (chunks spaced)

end LabelLoop.Text
