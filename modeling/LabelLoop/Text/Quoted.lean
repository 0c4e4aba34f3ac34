import LabelLoop.Text.Printable

/-!
# Quoted texts

How a text is shown inside a message: between quotes, with every character that could be mistaken
or not be seen written as an escape.  The quotes are single ones, unless the text holds a single
quote and no double one.
-/

namespace LabelLoop.Text

/-- The quote that surrounds `t`. -/
def quoteFor (t : Text) : Char :=
  if t.contains '\'' && !t.contains '"' then '"' else '\''

/-- A character that cannot be shown, as the shortest numeric escape that fits. -/
def numericEscape (c : Char) : Text :=
  let n := c.toNat
  if n < 0x100 then '\\' :: 'x' :: hex 2 n
  else if n < 0x10000 then '\\' :: 'u' :: hex 4 n
  else '\\' :: 'U' :: hex 8 n

/-- One character between quotes of the given kind. -/
def quotedChar (quote c : Char) : Text :=
  if c = quote || c = '\\' then ['\\', c]
  else if c = '\n' then ['\\', 'n']
  else if c = '\r' then ['\\', 'r']
  else if c = '\t' then ['\\', 't']
  else if isPrintable c then [c]
  else numericEscape c

/-- A **quoted text**. -/
def quoted (t : Text) : Text :=
  let quote := quoteFor t
  quote :: t.flatMap (quotedChar quote) ++ [quote]

end LabelLoop.Text
