import LabelLoop.Block.Basic
import LabelLoop.Lowering.Loop
import LabelLoop.Marker.Basic

/-!
# Lowering markers to loops

Jump markers are replaced all at once.  Label markers are replaced one after another: each pass
takes the first label marker, writes the header of its loop in its place and a closing brace at
the end of the block around it, and the next pass works on the text so changed.

The header is a parameter, since other headers than those of `Loop` can be plugged in, and a header
may itself hold or break markers.  So every pass is checked to leave exactly one marker less than
it found.  That check is also what bounds the number of passes.
-/

namespace LabelLoop.Lowering

open Text Marker

/-- A **header**: what is written in the place of a label marker with a given name. -/
abbrev Header := Text → Text

/-- Lowers the jump markers of a text. -/
def jumps (t : Text) : Text :=
  replace Marker.jump.read? Loop.jump t

/-! ### One pass -/

/-- What **one pass** did to a text. -/
structure Pass where
  name : Text
  /-- Where the marker stood in the text that the pass found. -/
  offset : Nat
  /-- The block around the marker. -/
  block : Block
  /-- Where the closing brace was written. -/
  closedAt : Nat
  /-- The block lies between two braces. -/
  enclosed : Bool
  /-- The text after the pass. -/
  code : Text
  deriving DecidableEq, Repr

/-- Replaces the label marker `m` of `t`, and closes its loop where the block around it ends. -/
def pass (header : Header) (t : Text) (m : Found Text) : Pass :=
  let block := Block.around t m.start
  let opened := t.take m.start ++ header m.item ++ t.drop m.stop
  let closedAt := block.stop + (header m.item).length - m.length
  { name := m.item
    offset := m.start
    block := block
    closedAt := closedAt
    enclosed := block.enclosed t
    code := opened.take closedAt ++ '\x7d' :: opened.drop closedAt }

/-! ### All passes -/

/-- The record of a **lowered label**: its pass, and where its marker stands in the source that the
labels are counted in. -/
structure Label where
  pass : Pass
  sourceOffset : Nat
  deriving DecidableEq, Repr

/-- Why lowering stops early. -/
inductive Fault where
  /-- After the pass for `name` there were `left` markers instead of `expected`. -/
  | stalled (name : Text) (left expected : Nat)
  /-- The source has no marker for this pass. -/
  | sourceExhausted
  deriving DecidableEq, Repr

/-- The **run** of all passes. -/
structure Run where
  /-- The passes, including the one that lowering stopped after. -/
  passes : List Pass
  outcome : Except Fault (Text × List Label)

/-- A run with one more pass before it. -/
def Run.after (p : Pass) (sourceOffset : Nat) (r : Run) : Run where
  passes := p :: r.passes
  outcome := r.outcome.map fun (code, labels) => (code, ⟨p, sourceOffset⟩ :: labels)

/-- Lowers the label markers of `t`, of which there are `remaining`; `offsets` are the places of
the corresponding markers in the source. -/
def passes (header : Header) (remaining : Nat) (offsets : List Nat) (t : Text) : Run :=
  match remaining with
  | 0 => ⟨[], .ok (t, [])⟩
  | expected + 1 =>
    match firstLabel? t with
    | none => ⟨[], .ok (t, [])⟩
    | some m =>
      let p := pass header t m
      match offsets with
      | [] => ⟨[p], .error .sourceExhausted⟩
      | sourceOffset :: offsets =>
        let left := countLabels p.code
        if left = expected then (passes header expected offsets p.code).after p sourceOffset
        else ⟨[p], .error (.stalled m.item left expected)⟩

/-- There are no more passes than markers. -/
theorem length_passes_le (header : Header) (remaining : Nat) (offsets : List Nat) (t : Text) :
    (passes header remaining offsets t).passes.length ≤ remaining := by
  induction remaining generalizing offsets t with
  | zero => simp [passes]
  | succ expected ih =>
    rw [passes]
    split
    · simp
    · split
      · simp
      · dsimp only
        split
        · simpa [Run.after] using ih _ _
        · simp

/-- Lowers the label markers of `t`, and counts them in `source`. -/
def labels (header : Header) (t source : Text) : Run :=
  passes header (countLabels t) (labelOffsets source) t

/-! ### Jumps and labels -/

/-- A **lowered text**. -/
structure Lowered where
  code : Text
  labels : List Label
  jumpTargets : List Text
  deriving DecidableEq, Repr

/-- Lowers the labels of a text whose jumps have been lowered. -/
def run (header : Header) (t : Text) : Run :=
  labels header (jumps t) t

/-- **Lowers** the jumps and then the labels of a text. -/
def lower (header : Header) (t : Text) : Except Fault Lowered :=
  (run header t).outcome.map fun (code, labels) => ⟨code, labels, jumpTargets t⟩

end LabelLoop.Lowering
