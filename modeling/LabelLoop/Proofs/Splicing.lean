import LabelLoop.Proofs.Documents
import Mathlib.Data.List.Induction

/-!
# Processing a document is an exact splice

Which hook a content type has is decided by the last change that was made for it
(`hookFor?_afterChanges`), however the changes are written and in whatever order they came.

`replaced` says what processing makes of a document without following its loop: it is given place by
place.  At the first character of an element that is replaced stands all of the replacement, at its
other characters nothing, and at every other place of the document the character that was there.
The parts of the document lead from one to the other (`replaced_textOf`), and with `process_textOf`
the whole result follows (`process_is_exact_splice`).
-/

namespace LabelLoop.Document

open Text
open Division (patched filterMap_foundFrom flatMap_range_patched)

namespace Hooks

variable {α ε : Type}

/-! ### Which hook a content type has -/

/-- A **change** of the hooks. -/
inductive Change (α : Type) where
  | register (contentType : Text) (hook : α)
  | unregister (contentType : Text)

/-- The content type that a change is about. -/
def Change.contentType : Change α → Text
  | .register contentType _ => contentType
  | .unregister contentType => contentType

/-- The hook that a change leaves for its content type. -/
def Change.hook? : Change α → Option α
  | .register _ hook => some hook
  | .unregister _ => none

/-- The hooks after a change. -/
def change (hooks : Hooks α) : Change α → Hooks α
  | .register contentType hook => hooks.register contentType hook
  | .unregister contentType => hooks.unregister contentType

/-- The hooks after several changes, none being registered at first. -/
def afterChanges (outputType : Text) (changes : List (Change α)) : Hooks α :=
  changes.foldl change { outputType := outputType }

/-- The hook that the **last change** for a content type has left, if there is one. -/
def lastHook? (changes : List (Change α)) (contentType : Text) : Option α :=
  (changes.reverse.find? fun c => normalType c.contentType = normalType contentType).bind
    Change.hook?

theorem lookup_cons_eq_ite (t name : Text) (hook : α) (entries : List (Text × α)) :
    ((t, hook) :: entries).lookup name = if name = t then some hook else entries.lookup name := by
  rw [List.lookup_cons]
  by_cases h : name = t
  · rw [if_pos h, beq_iff_eq.mpr h]
  · rw [if_neg h, beq_false_of_ne h]

theorem lookup_put (contentType name : Text) (hook : α) (entries : List (Text × α)) :
    (put contentType hook entries).lookup name =
      if name = contentType then some hook else entries.lookup name := by
  induction entries with
  | nil => exact lookup_cons_eq_ite _ _ _ _
  | cons entry entries ih =>
    obtain ⟨t, old⟩ := entry
    rw [put]
    by_cases ht : t = contentType
    · subst ht
      rw [if_pos rfl, lookup_cons_eq_ite, lookup_cons_eq_ite]
      split <;> rfl
    · rw [if_neg ht, lookup_cons_eq_ite, ih, lookup_cons_eq_ite]
      by_cases h : name = t
      · rw [if_pos h, if_pos h, if_neg (h ▸ ht)]
      · rw [if_neg h, if_neg h]

theorem lookup_filter_ne (contentType name : Text) (entries : List (Text × α)) :
    (entries.filter fun entry => entry.1 ≠ contentType).lookup name =
      if name = contentType then none else entries.lookup name := by
  induction entries with
  | nil => exact (ite_self none).symm
  | cons entry entries ih =>
    obtain ⟨t, old⟩ := entry
    by_cases ht : t = contentType
    · rw [List.filter_cons_of_neg (by simpa using ht), ih, lookup_cons_eq_ite, ht]
      split <;> rfl
    · rw [List.filter_cons_of_pos (by simpa using ht), lookup_cons_eq_ite, ih, lookup_cons_eq_ite]
      by_cases h : name = t
      · rw [if_pos h, if_pos h, if_neg (h ▸ ht)]
      · rw [if_neg h, if_neg h]

/-- **One change** decides about its own content type and leaves the others as they are. -/
theorem lookup_change (hooks : Hooks α) (c : Change α) (name : Text) :
    (hooks.change c).entries.lookup name =
      if name = normalType c.contentType then c.hook? else hooks.entries.lookup name := by
  cases c with
  | register contentType hook => exact lookup_put _ _ _ _
  | unregister contentType => exact lookup_filter_ne _ _ _

/-- **The last change counts.** -/
theorem hookFor?_afterChanges (outputType : Text) (changes : List (Change α)) (t : Option Text) :
    (afterChanges outputType changes).hookFor? t = t.bind (lastHook? changes) := by
  cases t with
  | none => rfl
  | some contentType =>
    show (afterChanges outputType changes).entries.lookup (normalType contentType) = _
    rw [Option.bind_some, lastHook?, afterChanges]
    -- by induction from the end, since the last change is looked at first
    induction changes using List.reverseRecOn with
    | nil => rfl
    | append_singleton changes c ih =>
      rw [List.foldl_append, List.foldl_cons, List.foldl_nil, lookup_change, List.reverse_append,
        List.reverse_singleton, List.singleton_append, List.find?_cons]
      by_cases h : normalType contentType = normalType c.contentType
      · simp [h]
      · rw [if_neg h, ih]
        simp [Ne.symm h]

theorem outputType_afterChanges (outputType : Text) (changes : List (Change α)) :
    (afterChanges outputType changes).outputType = outputType := by
  rw [afterChanges]
  induction changes using List.reverseRecOn with
  | nil => rfl
  | append_singleton changes c ih =>
    rw [List.foldl_append, List.foldl_cons, List.foldl_nil]
    cases c with
    | register contentType hook => exact ih
    | unregister contentType => exact ih

/-! ### A document with elements replaced -/

/-- The texts that are to stand in place of elements of a document. -/
def replacements (new : Element → Option Text) (document : Text) : List (Found Text) :=
  (elements document).filterMap fun f =>
    (new f.item).map fun text => ⟨f.start, f.length, text⟩

/-- **A document with some of its elements replaced**, place by place. -/
def replaced (new : Element → Option Text) (document : Text) : Text :=
  (List.range document.length).flatMap (patched (replacements new document) document)

/-- A part with its element replaced. -/
def replacePart (new : Element → Option Text) (p : Part) : Text :=
  (p.element?.bind new).getD p.text

theorem replaced_textOf {new : Element → Option Text} {ps : List Part} (hps : Parsed ps) :
    replaced new (textOf ps) = ps.flatMap (replacePart new) := by
  rw [replaced, replacements, elements_textOf hps, foundFrom, filterMap_foundFrom new]
  exact flatMap_range_patched hps.text_ne_nil

/-! ### Processing -/

/-- What an element is **replaced by**: its hook, if it has one and does not fail, converts the
body, and the content type becomes `outputType`. -/
def replacement? (outputType : Text) (hookOf : Text → Option α) (run : α → Text → Except ε Text)
    (e : Element) : Option Text := do
  let contentType ← e.contentType?
  let hook ← hookOf contentType
  let body ← (run hook e.body).toOption
  return "<script".toList ++ retag e.attributes outputType ++ ['>'] ++ body ++ e.closeTag

/-- The **failure** of the hook of an element, if it has one and that fails. -/
def failureOf? (hookOf : Text → Option α) (run : α → Text → Except ε Text) (e : Element) :
    Option (Failure ε) := do
  let contentType ← e.contentType?
  let hook ← hookOf contentType
  match run hook e.body with
  | .ok _ => none
  | .error cause => some ⟨contentType, cause⟩

theorem failure?_afterChanges (outputType : Text) (changes : List (Change α))
    (run : α → Text → Except ε Text) (e : Element) :
    (afterChanges outputType changes).failure? run e = failureOf? (lastHook? changes) run e := by
  rw [failure?, hookFor?_afterChanges, failureOf?]
  cases e.contentType? with
  | none => rfl
  | some contentType =>
    show (lastHook? changes contentType).bind _ = (lastHook? changes contentType).bind _
    congr 1
    funext hook
    cases run hook e.body <;> rfl

/-- The text of a changed part. -/
theorem text_change_afterChanges (outputType : Text) (changes : List (Change α))
    (run : α → Text → Except ε Text) (p : Part) :
    (Part.change ((afterChanges outputType changes).converted run) p).text =
      replacePart (replacement? outputType (lastHook? changes) run) p := by
  cases p with
  | char c => rfl
  | element key e =>
    rw [Part.change, converted, hookFor?_afterChanges, outputType_afterChanges, replacePart,
      Part.element?, Option.bind_some, replacement?]
    cases e.contentType? with
    | none => rfl
    | some contentType =>
      simp only [Option.bind_eq_bind, Option.bind_some]
      cases lastHook? changes contentType with
      | none => rfl
      | some hook =>
        simp only [Option.bind_some]
        cases run hook e.body with
        | error cause => rfl
        | ok body => exact (render_eq outputType e body).symm

/-- **Processing a document is an exact splice, up to the first failure.**  Whatever has been
registered and removed before: if the hook of an element fails, the first such element in the order
of the document makes the document fail with its content type and with what the hook failed with.
If none fails, every element with a hook is replaced in its place, and all else stays.  With a
single hook the elements that have one are those of its content type. -/
theorem process_is_exact_splice (outputType : Text) (changes : List (Change α))
    (run : α → Text → Except ε Text) (document : Text) :
    (afterChanges outputType changes).process run document =
      (match (elements document).findSome? fun f => failureOf? (lastHook? changes) run f.item with
        | some failure => .error failure
        | none => .ok (replaced (replacement? outputType (lastHook? changes) run) document)) ∧
    ∀ (contentType : Text) (hook : α),
      (elements document).filter (fun f =>
        (f.item.contentType?.bind (lastHook? [Change.register contentType hook])).isSome) =
      elementsOf contentType document := by
  constructor
  · obtain ⟨ps, hps, rfl⟩ := exists_parsed document
    have hfailure : (items ps).findSome? ((afterChanges outputType changes).failure? run) =
        (elements (textOf ps)).findSome? fun f => failureOf? (lastHook? changes) run f.item := by
      rw [← map_item_elements hps, List.findSome?_map]
      congr 1
      funext f
      exact failure?_afterChanges outputType changes run f.item
    have htext : textOf (ps.map (Part.change ((afterChanges outputType changes).converted run))) =
        ps.flatMap (replacePart (replacement? outputType (lastHook? changes) run)) := by
      rw [textOf, List.flatMap_map]
      congr 1
      funext p
      exact text_change_afterChanges outputType changes run p
    rewrite [process_textOf hps, replaced_textOf hps, hfailure, htext]
    rfl
  · intro contentType hook
    rw [elementsOf]
    refine List.filter_congr fun f _ => ?_
    cases f.item.contentType? with
    | none => rfl
    | some t =>
      rw [Option.bind_some, Option.map_some, lastHook?, List.reverse_singleton,
        List.find?_singleton]
      by_cases h : normalType t = normalType contentType
      · simp [Change.contentType, Change.hook?, h]
      · simp [Change.contentType, h, Ne.symm h]

end Hooks

end LabelLoop.Document
