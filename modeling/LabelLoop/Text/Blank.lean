import LabelLoop.Text.CodeSet

/-!
# Blank characters

The characters that count as white space: tabulation to carriage return, the four information
separators and the space, and the line, paragraph and space separators of the wider repertoire.
-/

namespace LabelLoop.Text

/-- **White space**, as a set of code points. -/
def blankSet : CodeSet where
  bounds := [
    0x9, 0xE, 0x1C, 0x21, 0x85, 0x86, 0xA0, 0xA1, 0x1680, 0x1681, 0x2000, 0x200B, 0x2028, 0x202A,
    0x202F, 0x2030, 0x205F, 0x2060, 0x3000, 0x3001]

/-- `c` is white space. -/
def isBlank (c : Char) : Bool :=
  blankSet.contains c

/-- `t` without the white space at its two ends. -/
def strip (t : Text) : Text :=
  ((t.dropWhile isBlank).reverse.dropWhile isBlank).reverse

end LabelLoop.Text
