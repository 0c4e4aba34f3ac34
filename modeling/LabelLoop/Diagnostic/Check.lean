import LabelLoop.Diagnostic.Basic
import LabelLoop.Lowering.Basic
import LabelLoop.Text.Quoted

/-!
# The checks behind the diagnostics

Each check looks for one kind of trouble.  Labels are reported in the order in which they are
declared, and a name that is declared or jumped to several times is reported once.
-/

namespace LabelLoop.Diagnostic

open Text

/-- The placeholder occurs in the source. -/
def ofCollision (placeholder source : Text) : List Diagnostic :=
  match position? placeholder source with
  | none => []
  | some n =>
    [{ code := .placeholderCollision
       message := "Source already contains the placeholder ".toList ++ quoted placeholder
       offset := some n }]

/-- Labels that no block encloses. -/
def ofUnenclosed (labels : List Lowering.Label) : List Diagnostic :=
  (labels.filter fun l => !l.pass.enclosed).map fun l =>
    { code := .unmatchedBlock
      message := "Label ".toList ++ quoted l.pass.name ++
        " has no enclosing block; its loop closes at the end of the source".toList
      offset := some l.sourceOffset
      label := some l.pass.name }

/-- Names that are declared more than once. -/
def ofDuplicates (names : List Text) : List Diagnostic :=
  (names.eraseDups.filter fun n => 1 < names.count n).map fun n =>
    { code := .duplicateLabel
      message := "Label ".toList ++ quoted n ++ " is declared ".toList ++ ofNat (names.count n) ++
        " times; its sentinel is redeclared".toList
      label := some n }

/-- Names that are jumped to and declared nowhere. -/
def ofUndeclared (names targets : List Text) : List Diagnostic :=
  (targets.eraseDups.filter fun n => !names.contains n).map fun n =>
    { code := .undeclaredLabel
      message := "goto ".toList ++ n ++
        " has no matching label; the host will reject 'continue ".toList ++ n ++ ['\'']
      label := some n }

/-- Placeholders that no literal was left for. -/
def ofUnresolved (count : Nat) : List Diagnostic :=
  if count = 0 then []
  else
    [{ code := .unresolvedPlaceholder
       message := ofNat count ++ " placeholder(s) had no literal to restore".toList
       severity := .error }]

/-- Everything there is to say about the labels and jumps of a lowered text. -/
def ofLowered (l : Lowering.Lowered) : List Diagnostic :=
  let names := l.labels.map (·.pass.name)
  ofUnenclosed l.labels ++ ofDuplicates names ++ ofUndeclared names l.jumpTargets

end LabelLoop.Diagnostic
