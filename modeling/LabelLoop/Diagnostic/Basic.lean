import LabelLoop.Field.Basic

/-!
# Diagnostics

What a conversion has to remark about a source: which kind of remark it is, the message, and the
place and the label it is about, where there is one.
-/

namespace LabelLoop

/-- The **kind** of a diagnostic. -/
inductive Diagnostic.Code where
  /-- A label that no block encloses. -/
  | unmatchedBlock
  /-- A jump to a label that is declared nowhere. -/
  | undeclaredLabel
  /-- A label that is declared more than once. -/
  | duplicateLabel
  /-- The source holds the placeholder from the start. -/
  | placeholderCollision
  /-- The result holds placeholders for which there is no literal. -/
  | unresolvedPlaceholder
  deriving DecidableEq, Repr

/-- How grave a diagnostic is. -/
inductive Diagnostic.Severity where
  | warning
  | error
  deriving DecidableEq, Repr

/-- A **diagnostic**. -/
structure Diagnostic where
  code : Diagnostic.Code
  message : Text
  offset : Option Int := none
  label : Option Text := none
  severity : Diagnostic.Severity := .warning
  deriving DecidableEq, Repr

namespace Diagnostic

open Text

/-- The kinds and their names, in the order in which they are listed to a reader. -/
def Code.names : List (Text × Code) :=
  [("unmatched-block".toList, .unmatchedBlock), ("undeclared-label".toList, .undeclaredLabel),
    ("duplicate-label".toList, .duplicateLabel),
    ("placeholder-collision".toList, .placeholderCollision),
    ("unresolved-placeholder".toList, .unresolvedPlaceholder)]

/-- The name of a kind. -/
def Code.name : Code → Text
  | .unmatchedBlock => "unmatched-block".toList
  | .undeclaredLabel => "undeclared-label".toList
  | .duplicateLabel => "duplicate-label".toList
  | .placeholderCollision => "placeholder-collision".toList
  | .unresolvedPlaceholder => "unresolved-placeholder".toList

/-- The severities and their names. -/
def Severity.names : List (Text × Severity) :=
  [("warning".toList, .warning), ("error".toList, .error)]

/-- The name of a severity. -/
def Severity.name : Severity → Text
  | .warning => "warning".toList
  | .error => "error".toList

/-- A diagnostic from its fields. -/
def ofEntries (entries : Entries) : Except (List Field.Issue) Diagnostic :=
  let code := Field.required entries "code".toList (Field.choice Code.names)
  let message := Field.required entries "message".toList Field.text
  let offset := Field.defaulted entries "offset".toList none (Field.nullable Field.whole)
  let label := Field.defaulted entries "label".toList none (Field.nullable Field.text)
  let severity :=
    Field.defaulted entries "severity".toList .warning (Field.choice Severity.names)
  match code, message, offset, label, severity with
  | .ok c, .ok m, .ok o, .ok l, .ok s => .ok ⟨c, m, o, l, s⟩
  | _, _, _, _, _ =>
    .error (Field.issues code ++ Field.issues message ++ Field.issues offset ++
      Field.issues label ++ Field.issues severity)

/-- A diagnostic in one line. -/
def line (d : Diagnostic) : Text :=
  let place :=
    match d.offset with
    | none => []
    | some n => " at offset ".toList ++ ofInt n
  d.severity.name ++ ": ".toList ++ d.code.name ++ place ++ ": ".toList ++ d.message

/-- The lines of several diagnostics, as one message. -/
def summary (ds : List Diagnostic) : Text :=
  "Translation produced ".toList ++ ofNat ds.length ++ " diagnostic(s): ".toList ++
    List.intercalate "; ".toList (ds.map line)

end Diagnostic

end LabelLoop
