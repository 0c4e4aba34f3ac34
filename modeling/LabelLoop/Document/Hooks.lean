import LabelLoop.Document.Element

/-!
# Hooks

A hook is attached to a content type and converts the body of every script element of that type.
The converted element gets another content type, so that it is not converted again.  The first hook
that fails makes the whole document fail.

What a hook is, is left open: `Hooks` keeps handles of any type, and `process` is given the
function that runs them.  A hook is a function of the body alone: it answers the same body in the
same way each time, keeps no state and reads no clock.
-/

namespace LabelLoop.Document

open Text

/-- The **hooks** that are registered, by content type. -/
structure Hooks (α : Type) where
  /-- The content type of converted elements. -/
  outputType : Text := "text/javascript".toList
  /-- Normalised content types and their hooks, in the order of registration. -/
  entries : List (Text × α) := []

namespace Hooks

variable {α ε : Type}

/-- Sets the hook of a normalised content type. -/
def put (contentType : Text) (hook : α) : List (Text × α) → List (Text × α)
  | [] => [(contentType, hook)]
  | (t, h) :: rest =>
    if t = contentType then (t, hook) :: rest else (t, h) :: put contentType hook rest

/-- Registers a hook; it takes the place of one for the same content type. -/
def register (hooks : Hooks α) (contentType : Text) (hook : α) : Hooks α :=
  { hooks with entries := put (normalType contentType) hook hooks.entries }

/-- Removes the hook of a content type, if there is one. -/
def unregister (hooks : Hooks α) (contentType : Text) : Hooks α :=
  { hooks with entries := hooks.entries.filter fun (t, _) => t ≠ normalType contentType }

/-- The hook for a content type. -/
def hookFor? (hooks : Hooks α) (contentType : Option Text) : Option α :=
  contentType.bind fun t => hooks.entries.lookup (normalType t)

/-- The **failure** of a hook on an element of the given content type. -/
structure Failure (ε : Type) where
  contentType : Text
  cause : ε
  deriving DecidableEq, Repr

/-- The message of a failure, around the message of its cause. -/
def Failure.message (cause : ε → Text) (f : Failure ε) : Text :=
  "Hook for '".toList ++ f.contentType ++ "' failed: ".toList ++ cause f.cause

/-- The elements that have a hook, with their hooks, in the order of the document. -/
def hooked (hooks : Hooks α) (document : Text) : List (Found Element × α) :=
  (elements document).filterMap fun f =>
    (hooks.hookFor? f.item.contentType?).map fun h => (f, h)

/-- An element whose body has been converted to `body`. -/
def render (outputType : Text) (e : Element) (body : Text) : Text :=
  "<script".toList ++ retag e.attributes outputType ++ ['>'] ++ body ++ e.closeTag

/-- The document from position `pos` on, with the given elements converted. -/
def spliceFrom (outputType : Text) (run : α → Text → Except ε Text) (document : Text) (pos : Nat) :
    List (Found Element × α) → Except (Failure ε) Text
  | [] => .ok (document.drop pos)
  | (f, hook) :: rest =>
    match run hook f.item.body with
    | .error cause => .error ⟨f.item.contentType?.getD [], cause⟩
    | .ok body =>
      (spliceFrom outputType run document f.stop rest).map fun tail =>
        slice document pos f.start ++ render outputType f.item body ++ tail

/-- **Converts** the elements of a document that have a hook. -/
def process (hooks : Hooks α) (run : α → Text → Except ε Text) (document : Text) :
    Except (Failure ε) Text :=
  spliceFrom hooks.outputType run document 0 (hooks.hooked document)

end Hooks

end LabelLoop.Document
