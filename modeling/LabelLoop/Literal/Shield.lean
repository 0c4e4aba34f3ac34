import LabelLoop.Literal.Span

/-!
# Shielding literals

Before a source is changed its literals are taken out, so that nothing inside quotes is mistaken
for code: `shield` writes one placeholder in the place of every literal and keeps the literals in
a list.  `restore` puts them back, the first literal into the first placeholder and so on.  A
placeholder for which no literal is left stays and is counted, and so is a literal for which no
placeholder is found.
-/

namespace LabelLoop.Literal

open Text

/-! ### Placeholders -/

/-- The **placeholder** made at a moment given in nanoseconds: a low line and the number of whole
milliseconds. -/
def placeholderAt (nanoseconds : Int) : Text :=
  '_' :: ofInt (nanoseconds / 1000000)

/-! ### Taking literals out -/

/-- A **shielded source**: the text with placeholders, and the literals they stand for. -/
structure Shielded where
  text : Text
  literals : List Text
  placeholder : Text
  deriving DecidableEq, Repr

/-- The source from position `pos` on, with `placeholder` in the place of each of the spans. -/
def coverFrom (placeholder source : Text) (pos : Nat) : List Span → Text
  | [] => source.drop pos
  | s :: spans =>
    slice source pos s.start ++ placeholder ++ coverFrom placeholder source s.stop spans

/-- **Shields** the literals that `scan` finds. -/
def shield (scan : Scanner) (placeholder source : Text) : Shielded where
  text := coverFrom placeholder source 0 (scan source)
  literals := (scan source).map fun s => slice source s.start s.stop
  placeholder := placeholder

/-! ### Putting literals back -/

/-- A **restored text**, with the number of placeholders that had no literal and of literals that
had no placeholder. -/
structure Restored where
  text : Text
  unresolved : Nat
  unused : Nat
  deriving DecidableEq, Repr

/-- A restored text with `t` written in front of it. -/
def Restored.prepend (t : Text) (r : Restored) : Restored :=
  { r with text := t ++ r.text }

/-- Fills one placeholder from the list of literals that are left, and goes on with the rest of
them. -/
def fill (placeholder : Text) (literals : List Text) (next : List Text → Restored) : Restored :=
  match literals with
  | [] =>
    let r := next []
    ⟨placeholder ++ r.text, r.unresolved + 1, r.unused⟩
  | l :: ls => (next ls).prepend l

/-- Restores the rest of a text, after `skip` characters of a placeholder read before. -/
def restoreFrom (placeholder : Text) (literals : List Text) (skip : Nat) : Text → Restored
  | [] => ⟨[], 0, literals.length⟩
  | c :: cs =>
    match skip with
    | k + 1 => restoreFrom placeholder literals k cs
    | 0 =>
      if beginsWith (c :: cs) placeholder then
        fill placeholder literals fun ls => restoreFrom placeholder ls (placeholder.length - 1) cs
      else (restoreFrom placeholder literals 0 cs).prepend [c]

/-- Passing over a placeholder is the same as dropping it. -/
theorem restoreFrom_skip (placeholder : Text) (literals : List Text) (skip : Nat) (t : Text) :
    restoreFrom placeholder literals skip t =
      restoreFrom placeholder literals 0 (t.drop skip) := by
  induction t generalizing skip with
  | nil => simp [restoreFrom]
  | cons c cs ih =>
    cases skip with
    | zero => simp
    | succ k => rw [restoreFrom, ih, List.drop_succ_cons]

/-- Restores a text with the empty placeholder, which stands before every character and at the
end. -/
def interleave (literals : List Text) : Text → Restored
  | [] => fill [] literals fun ls => ⟨[], 0, ls.length⟩
  | c :: cs => fill [] literals fun ls => (interleave ls cs).prepend [c]

/-- **Restores** the literals of a text, each in the place of one placeholder. -/
def restore (placeholder : Text) (literals : List Text) (t : Text) : Restored :=
  if placeholder = [] then interleave literals t else restoreFrom placeholder literals 0 t

end LabelLoop.Literal
