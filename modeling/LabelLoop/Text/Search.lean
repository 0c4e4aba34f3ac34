import LabelLoop.Text.Basic

/-!
# Searching a text with a recogniser

A recogniser looks at the front of a text and says which item begins there and how many characters
it takes.  `search` walks a text from left to right and collects the items that do not overlap;
`replace` walks the same way and writes something else in the place of every item.  Both recurse
on the text alone: the characters of an item already read are passed over one by one.
-/

namespace LabelLoop.Text

/-- A **recogniser**: the item that begins at the front of a text, and its length. -/
abbrev Recogniser (α : Type) := Text → Option (α × Nat)

/-- An **item found** in a text. -/
structure Found (α : Type) where
  /-- Where the item begins. -/
  start : Nat
  /-- How many characters it takes. -/
  length : Nat
  item : α
  deriving DecidableEq, Repr

/-- The position right after the item. -/
def Found.stop {α : Type} (f : Found α) : Nat :=
  f.start + f.length

/-- The items of a text whose first character stands at `offset`, after `skip` characters that
belong to an item read before. -/
def searchFrom {α : Type} (read : Recogniser α) (offset skip : Nat) : Text → List (Found α)
  | [] => []
  | c :: cs =>
    match skip with
    | k + 1 => searchFrom read (offset + 1) k cs
    | 0 =>
      match read (c :: cs) with
      | none => searchFrom read (offset + 1) 0 cs
      | some (a, n) => ⟨offset, n, a⟩ :: searchFrom read (offset + 1) (n - 1) cs

/-- Passing over characters is the same as dropping them. -/
theorem searchFrom_skip {α : Type} (read : Recogniser α) (offset skip : Nat) (t : Text) :
    searchFrom read offset skip t = searchFrom read (offset + skip) 0 (t.drop skip) := by
  induction t generalizing offset skip with
  | nil => simp [searchFrom]
  | cons c cs ih =>
    cases skip with
    | zero => simp
    | succ k =>
      rw [searchFrom, ih, List.drop_succ_cons]
      congr 1
      omega

/-- All items of a text, from left to right and without overlap. -/
def search {α : Type} (read : Recogniser α) (t : Text) : List (Found α) :=
  searchFrom read 0 0 t

/-- The first item of a text whose first character stands at `offset`. -/
def firstFrom? {α : Type} (read : Recogniser α) (offset : Nat) : Text → Option (Found α)
  | [] => none
  | c :: cs =>
    match read (c :: cs) with
    | none => firstFrom? read (offset + 1) cs
    | some (a, n) => some ⟨offset, n, a⟩

/-- The first item of a text. -/
def first? {α : Type} (read : Recogniser α) (t : Text) : Option (Found α) :=
  firstFrom? read 0 t

/-- Writes `render a` in the place of every item `a`, after `skip` characters that are left out. -/
def replaceFrom {α : Type} (read : Recogniser α) (render : α → Text) (skip : Nat) : Text → Text
  | [] => []
  | c :: cs =>
    match skip with
    | k + 1 => replaceFrom read render k cs
    | 0 =>
      match read (c :: cs) with
      | none => c :: replaceFrom read render 0 cs
      | some (a, n) => render a ++ replaceFrom read render (n - 1) cs

/-- Leaving characters out is the same as dropping them. -/
theorem replaceFrom_skip {α : Type} (read : Recogniser α) (render : α → Text) (skip : Nat)
    (t : Text) :
    replaceFrom read render skip t = replaceFrom read render 0 (t.drop skip) := by
  induction t generalizing skip with
  | nil => simp [replaceFrom]
  | cons c cs ih =>
    cases skip with
    | zero => simp
    | succ k => rw [replaceFrom, ih, List.drop_succ_cons]

/-- A text with `render a` in the place of every item `a`. -/
def replace {α : Type} (read : Recogniser α) (render : α → Text) (t : Text) : Text :=
  replaceFrom read render 0 t

end LabelLoop.Text
