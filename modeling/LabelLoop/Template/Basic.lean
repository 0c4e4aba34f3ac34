import LabelLoop.Template.Slot

/-!
# Templates

Filling the slots of a template from left to right.  Two per cent signs stand for one.  Arguments
are either a list, of which every item must be used, or an object, whose values are asked for by
their keys and need not be used.
-/

namespace LabelLoop.Template

open Text

/-- The **arguments** of a template. -/
inductive Arguments where
  | list (items : List Datum)
  | object (entries : Entries)

/-- The values that can be asked for by key. -/
def Arguments.keys : Arguments → Option Entries
  | .list _ => none
  | .object entries => some entries

/-- The arguments before the first slot; an object can also be an argument as a whole. -/
def Arguments.supply : Arguments → Supply
  | .list items => .items items
  | .object entries => .single (.object entries) false

/-- Writes the slot whose per cent sign has been read, in a template of the given length: what is
written, the text after the slot and the arguments that are left. -/
def fillSlot (room : Nat) (keys : Option Entries) (length : Nat) : SlotReader WideText :=
    fun t supply => do
  let (t, supply) ← readKey keys t supply
  let ((d, c), rest, supply) ← readDirective t supply
  let (argument, supply) ← supply.next
  let written ← d.write room c (length - rest.length - 1) argument
  if keys.isSome && supply.isLeft then .error .tooMany
  return (written, rest, supply)

/-- Fills the rest of a template of the given length, after `skip` characters that have been
read. -/
def fillFrom (room : Nat) (keys : Option Entries) (length : Nat) (supply : Supply) (skip : Nat) :
    Text → Except Error WideText
  | [] => if keys.isNone && supply.isLeft then .error .tooMany else .ok []
  | c :: cs =>
    match skip with
    | k + 1 => fillFrom room keys length supply k cs
    | 0 =>
      if c ≠ '%' then (fillFrom room keys length supply 0 cs).map (.char c :: ·)
      else if cs.head? = some '%' then (fillFrom room keys length supply 1 cs).map (.char '%' :: ·)
      else
        match fillSlot room keys length cs supply with
        | .error e => .error e
        | .ok (written, rest, supply) =>
          (fillFrom room keys length supply (cs.length - rest.length) cs).map (written ++ ·)

/-- **A template with its arguments** in it, where there is the given room for nested data. -/
def fill (room : Nat) (template : Text) (arguments : Arguments) : Except Error WideText :=
  fillFrom room arguments.keys template.length arguments.supply 0 template

end LabelLoop.Template
