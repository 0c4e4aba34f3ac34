import LabelLoop.Diagnostic.Check
import LabelLoop.Literal.Quotes
import LabelLoop.Literal.Shield
import LabelLoop.Log.Event
import LabelLoop.Lowering.Message

/-!
# Converting a source

The whole way of one source: its literals are shielded, the markers in what is left are lowered to
loops, and the literals are put back.  What is to be remarked on the way is collected; under strict
rules a conversion with remarks fails.
-/

namespace LabelLoop.Conversion

open Text

/-- The **choices** left to the caller of a conversion. -/
structure Options where
  /-- What stands for a literal while markers are lowered. -/
  placeholder : Text
  scan : Literal.Scanner := Literal.byQuotes
  header : Lowering.Header := Loop.header

/-- The **result** of a conversion. -/
structure Converted where
  code : Text
  /-- The names of the labels, in order. -/
  labels : List Text
  /-- The names jumped to, in order and with repetitions. -/
  jumpTargets : List Text
  literalCount : Nat
  diagnostics : List Diagnostic
  deriving DecidableEq, Repr

/-- There was nothing to remark. -/
def Converted.ok (c : Converted) : Bool :=
  c.diagnostics.isEmpty

/-- Why a conversion **fails**. -/
inductive Failure where
  /-- There were remarks, and the rules are strict. -/
  | diagnosed (diagnostics : List Diagnostic)
  /-- The markers could not be lowered. -/
  | lowering (fault : Lowering.Fault)
  deriving DecidableEq, Repr

/-- The message of a failure. -/
def Failure.message : Failure → Text
  | .diagnosed ds => Diagnostic.summary ds
  | .lowering f => f.message

/-- Converts a source and keeps all remarks. -/
def permissive (o : Options) (source : Text) : Except Lowering.Fault Converted :=
  let shielded := Literal.shield o.scan o.placeholder source
  (Lowering.lower o.header shielded.text).map fun lowered =>
    let restored := Literal.restore shielded.placeholder shielded.literals lowered.code
    { code := restored.text
      labels := lowered.labels.map (·.pass.name)
      jumpTargets := lowered.jumpTargets
      literalCount := shielded.literals.length
      diagnostics := Diagnostic.ofCollision shielded.placeholder source ++
        Diagnostic.ofLowered lowered ++ Diagnostic.ofUnresolved restored.unresolved }

/-- **Converts** a source; under strict rules any remark is a failure. -/
def convert (o : Options) (strict : Bool) (source : Text) : Except Failure Converted :=
  match permissive o source with
  | .error f => .error (.lowering f)
  | .ok c => if strict && !c.ok then .error (.diagnosed c.diagnostics) else .ok c

/-! ### What a conversion tells the log -/

/-- The event of one pass. -/
def passEvent (p : Lowering.Pass) : Log.Event where
  level := .debug
  logger := "gotojs.translator.rewriter".toList
  message := p.note

/-- An event of the conversion of the source called `name`. -/
def event (name : Text) (level : Log.Level) (message : Text) (extra : Entries) : Log.Event where
  level := level
  logger := "gotojs.translator.preprocessor".toList
  message := message
  extra := some (Log.withContext [("source".toList, .text name)] extra)

/-- The event of one remark. -/
def remarkEvent (name : Text) (d : Diagnostic) : Log.Event :=
  event name .warning d.line [("code".toList, .text d.code.name)]

/-- The event at the end of a conversion. -/
def countsEvent (name : Text) (c : Converted) : Log.Event :=
  event name .debug
    ("Translated ".toList ++ ofNat c.labels.length ++ " label(s), ".toList ++
      ofNat c.jumpTargets.length ++ " goto(s), ".toList ++ ofNat c.literalCount ++
      " literal(s)".toList) []

/-- **The events** of converting the source called `name`: one for each pass and, if the markers
could be lowered, one for each remark and one with the counts. -/
def events (o : Options) (name source : Text) : List Log.Event :=
  let shielded := Literal.shield o.scan o.placeholder source
  (Lowering.run o.header shielded.text).passes.map passEvent ++
    match permissive o source with
    | .error _ => []
    | .ok c => c.diagnostics.map (remarkEvent name) ++ [countsEvent name c]

end LabelLoop.Conversion
