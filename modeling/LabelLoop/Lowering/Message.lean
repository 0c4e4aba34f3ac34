import LabelLoop.Lowering.Basic
import LabelLoop.Text.Quoted

/-!
# What lowering reports

The wording of a fault, and of the note that each pass leaves.
-/

namespace LabelLoop.Lowering

open Text

/-- The message of a fault. -/
def Fault.message : Fault → Text
  | .stalled name left expected =>
    "Label pass for ".toList ++ quoted name ++ " left ".toList ++ ofNat left ++
      " marker(s), expected ".toList ++ ofNat expected
  | .sourceExhausted => "list index out of range".toList

/-- The note that a pass leaves. -/
def Pass.note (p : Pass) : Text :=
  "Rewrote label ".toList ++ quoted p.name ++ " at ".toList ++ ofNat p.offset ++
    ", block ".toList ++ ofInt p.block.start ++ "..".toList ++ ofNat p.block.stop ++
    ", loop closed at ".toList ++ ofNat p.closedAt

end LabelLoop.Lowering
