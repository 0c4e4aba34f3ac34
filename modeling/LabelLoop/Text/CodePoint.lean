import LabelLoop.Text.Basic

/-!
# Code points

A text holds characters.  Where numbers are turned into characters, as in the slots of a message,
surrogates can come up as well: code points that stand for no character, but of which two together
encode one.  What may hold them is a wide text.
-/

namespace LabelLoop

/-- A **code point**: a character or a surrogate. -/
inductive CodePoint where
  | char (c : Char)
  /-- The surrogate whose number is `n` more than that of the first. -/
  | surrogate (n : Fin 0x800)
  deriving DecidableEq, Repr

namespace CodePoint

/-- The number of the first surrogate. -/
def firstSurrogate : Nat :=
  0xd800

/-- The number of a code point. -/
def toNat : CodePoint → Nat
  | .char c => c.toNat
  | .surrogate n => firstSurrogate + n

/-- The code point with a given number. -/
def ofNat? (n : Nat) : Option CodePoint :=
  if n.isValidChar then some (.char (Char.ofNat n))
  else if h : n - firstSurrogate < 0x800 then some (.surrogate ⟨n - firstSurrogate, h⟩)
  else none

end CodePoint

/-- A **wide text**: the list of its code points. -/
abbrev WideText := List CodePoint

/-- A text as a wide one. -/
def Text.widen (t : Text) : WideText :=
  t.map .char

namespace WideText

/-- The text that a wide text is, if it holds no surrogate. -/
def narrow? : WideText → Option Text
  | [] => some []
  | .char c :: ps => (narrow? ps).map (c :: ·)
  | .surrogate _ :: _ => none

@[simp]
theorem narrow?_widen (t : Text) : narrow? t.widen = some t := by
  induction t with
  | nil => rfl
  | cons c t ih =>
    rw [Text.widen, List.map_cons, narrow?, ← Text.widen, ih]
    rfl

/-- A wide text as a console shows it, with surrogates as escapes. -/
def onConsole (t : WideText) : Text :=
  t.flatMap fun
    | .char c => [c]
    | p@(.surrogate _) => '\\' :: 'u' :: Text.hex 4 p.toNat

end WideText

end LabelLoop
