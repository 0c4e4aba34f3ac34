import LabelLoop.Literal.Span
import LabelLoop.Text.Search

/-!
# Literals by their quotes alone

The plain scanner knows nothing about scripts but quotes, backslashes and line breaks.  A literal
begins at a quote and ends at an equal quote on the same line.  A quote after a backslash is passed
over if another one can still end the literal, and ends it if none can.
-/

namespace LabelLoop.Literal

open Text

/-- The characters from here up to and including the quote that ends a literal.  A backslash and the
quote after it are passed over together; if nothing ends the literal after them, that quote does. -/
def closing? (quote : Char) : Text → Option Nat
  | [] => none
  | [c] => if c = quote then some 1 else none
  | c :: d :: rest =>
    if c = quote then some 1
    else if c = '\n' then none
    else if c = '\\' ∧ d = quote then some ((closing? quote rest).getD 0 + 2)
    else (closing? quote (d :: rest)).map (· + 1)

/-- The literal at the front of a text. -/
def read? : Recogniser Unit
  | [] => none
  | c :: cs =>
    if c = '"' || c = '\'' then (closing? c cs).map fun n => ((), n + 1) else none

/-- **The literals of a source** by their quotes. -/
def byQuotes : Scanner := fun source =>
  (search read? source).map fun f => ⟨f.start, f.stop⟩

end LabelLoop.Literal
