import LabelLoop.Log.Call
import LabelLoop.Proofs.JsonData

/-!
# Structured log lines

A structured line can be read back: it gives the fixed fields in their order, with what the extra
data say instead where they have the key of one, and then what else the extra data hold.  It cannot
be forged either, since it is in printable characters: nothing that a message or a name holds ends
the line or stands outside of its field.

Setting entries one after another is the same as looking up each old key and appending the new ones
(`update_eq_overridden`).  A record has a line exactly if its fields are within the limits of what
is written (`Record.structured_cases`), and the line is the text of an object as long as the message
is a text (`Call.exists_record`).

`structured_line_reads_back` puts this together, and `calls_without_faithful_line` shows that its
conditions are needed.
-/

namespace LabelLoop

/-! ### Entries set one after another -/

namespace Table

variable {α β : Type}

/-- The entries of `base` with the values that `extra` has for their keys, and then those of `extra`
that have other keys. -/
def overridden (base extra : Table α) : Table α :=
  base.map (fun e => (e.1, (extra.get? e.1).getD e.2)) ++
    extra.filter fun e => e.1 ∉ base.map Prod.fst

theorem get?_cons_self (k : Text) (v : α) (rest : Table α) :
    get? ((k, v) :: rest) k = some v :=
  List.lookup_cons_self

theorem get?_cons_of_ne {k key : Text} (h : key ≠ k) (v : α) (rest : Table α) :
    get? ((k, v) :: rest) key = get? rest key := by
  unfold get?
  rw [List.lookup_cons, beq_eq_false_iff_ne.mpr h]

theorem get?_eq_none {entries : Table α} {key : Text} (h : key ∉ entries.map Prod.fst) :
    entries.get? key = none := by
  unfold get?
  rw [List.lookup_eq_none_iff]
  intro e he
  rw [bne_iff_ne]
  rintro rfl
  exact h (List.mem_map_of_mem he)

/-- A key that is there keeps its place and takes the new value. -/
theorem put_of_mem {entries : Table α} (hnodup : (entries.map Prod.fst).Nodup) {k : Text}
    (h : k ∈ entries.map Prod.fst) (v : α) :
    entries.put k v = entries.map fun e => (e.1, if e.1 = k then v else e.2) := by
  induction entries with
  | nil => exact absurd h List.not_mem_nil
  | cons e rest ih =>
    obtain ⟨key, old⟩ := e
    rw [List.map_cons, List.nodup_cons] at hnodup
    by_cases heq : key = k
    · -- no later entry has the key
      subst heq
      have hrest : rest.map (fun e => (e.1, if e.1 = key then v else e.2)) = rest := by
        refine (List.map_congr_left fun e he => ?_).trans (List.map_id rest)
        have hne : e.1 ≠ key := by
          rintro rfl
          exact hnodup.1 (List.mem_map.mpr ⟨e, he, rfl⟩)
        rw [if_neg hne]
        rfl
      rw [put, if_pos rfl, List.map_cons, if_pos rfl, hrest]
    · have hmem : k ∈ rest.map Prod.fst := (List.mem_cons.mp h).resolve_left (Ne.symm heq)
      rw [put, if_neg heq, List.map_cons, if_neg heq, ih hnodup.2 hmem]

/-- Setting one value and overriding the others is overriding all of them. -/
theorem overridden_put {base : Table α} (hbase : (base.map Prod.fst).Nodup) {k : Text} (v : α)
    {rest : Table α} (hk : k ∉ rest.map Prod.fst) :
    (base.put k v).overridden rest = base.overridden ((k, v) :: rest) := by
  unfold overridden
  by_cases hmem : k ∈ base.map Prod.fst
  · have hvalues : (base.put k v).map (fun e => (e.1, (rest.get? e.1).getD e.2)) =
        base.map fun e => (e.1, (get? ((k, v) :: rest) e.1).getD e.2) := by
      rw [put_of_mem hbase hmem, List.map_map]
      refine List.map_congr_left fun e _ => ?_
      dsimp only [Function.comp_apply]
      by_cases heq : e.1 = k
      · rw [if_pos heq, heq, get?_eq_none hk, get?_cons_self]
        rfl
      · rw [if_neg heq, get?_cons_of_ne heq]
    have hkeys : (base.put k v).map Prod.fst = base.map Prod.fst := by
      rw [put_of_mem hbase hmem, List.map_map]
      rfl
    rw [hvalues, hkeys, List.filter_cons_of_neg (by simpa using hmem)]
  · have hvalues : base.map (fun e => (e.1, (rest.get? e.1).getD e.2)) =
        base.map fun e => (e.1, (get? ((k, v) :: rest) e.1).getD e.2) := by
      refine List.map_congr_left fun e he => ?_
      have hne : e.1 ≠ k := by
        rintro rfl
        exact hmem (List.mem_map_of_mem he)
      rw [get?_cons_of_ne hne]
    have hnew : rest.filter (fun e => e.1 ∉ (base ++ [(k, v)]).map Prod.fst) =
        rest.filter fun e => e.1 ∉ base.map Prod.fst := by
      refine List.filter_congr fun e he => ?_
      have hne : e.1 ≠ k := by
        rintro rfl
        exact hk (List.mem_map_of_mem he)
      simp [hne]
    rw [put_of_not_mem hmem, hnew, List.map_append, hvalues,
      List.filter_cons_of_pos (by simpa using hmem), List.append_assoc, List.map_singleton,
      get?_eq_none hk]
    rfl

theorem nodup_put {entries : Table α} (h : (entries.map Prod.fst).Nodup) (k : Text) (v : α) :
    ((entries.put k v).map Prod.fst).Nodup := by
  by_cases hmem : k ∈ entries.map Prod.fst
  · rw [put_of_mem h hmem, List.map_map]
    exact h
  · rw [put_of_not_mem hmem, List.map_append, List.nodup_append]
    refine ⟨h, by simp, fun a ha b hb heq => hmem ?_⟩
    have hk : b = k := List.mem_singleton.mp hb
    rwa [← hk, ← heq]

/-- **Entries that are set one after another** override those that were there. -/
theorem update_eq_overridden {base extra : Table α} (hbase : (base.map Prod.fst).Nodup)
    (hextra : (extra.map Prod.fst).Nodup) : base.update extra = base.overridden extra := by
  induction extra generalizing base with
  | nil =>
    unfold overridden
    rw [List.filter_nil, List.append_nil]
    exact (List.map_id base).symm
  | cons e rest ih =>
    obtain ⟨k, v⟩ := e
    rw [List.map_cons, List.nodup_cons] at hextra
    rw [← overridden_put hbase v hextra.1]
    exact ih (nodup_put hbase k v) hextra.2

/-- Overriding keeps keys apart. -/
theorem nodup_overridden {base extra : Table α} (hbase : (base.map Prod.fst).Nodup)
    (hextra : (extra.map Prod.fst).Nodup) : ((base.overridden extra).map Prod.fst).Nodup := by
  unfold overridden
  rw [List.map_append, List.map_map, List.nodup_append]
  refine ⟨hbase, hextra.sublist (List.filter_sublist.map _), fun k hk k' hk' heq => ?_⟩
  obtain ⟨e, he, rfl⟩ := List.mem_map.mp hk'
  have hnew := (List.mem_filter.mp he).2
  rw [decide_eq_true_eq, ← heq] at hnew
  exact hnew hk

theorem forall_mem_overridden {p : α → Prop} {base extra : Table α} (hbase : ∀ e ∈ base, p e.2)
    (hextra : ∀ e ∈ extra, p e.2) : ∀ e ∈ base.overridden extra, p e.2 := by
  intro e he
  rcases List.mem_append.mp he with he | he
  · obtain ⟨old, hold, rfl⟩ := List.mem_map.mp he
    dsimp only
    cases hget : extra.get? old.1 with
    | none => exact hbase old hold
    | some d =>
      obtain ⟨l₁, l₂, rfl, -⟩ := List.lookup_eq_some_iff.mp hget
      exact hextra (old.1, d) (List.mem_append_right _ List.mem_cons_self)
  · exact hextra e (List.mem_of_mem_filter he)

/-- Setting values commutes with changing them. -/
theorem mapValues_put (f : α → β) (table : Table α) (k : Text) (v : α) :
    (table.put k v).mapValues f = (table.mapValues f).put k (f v) := by
  induction table with
  | nil => rfl
  | cons e rest ih =>
    obtain ⟨key, old⟩ := e
    by_cases hkey : key = k
    · simp [put, mapValues, hkey]
    · simp only [mapValues] at ih
      simp [put, mapValues, hkey, ih]

theorem mapValues_update (f : α → β) (table changes : Table α) :
    (table.update changes).mapValues f = (table.mapValues f).update (changes.mapValues f) := by
  induction changes generalizing table with
  | nil => rfl
  | cons e rest ih =>
    obtain ⟨k, v⟩ := e
    show ((table.put k v).update rest).mapValues f = _
    rw [ih, mapValues_put]
    rfl

theorem mapValues_mapValues {γ : Type} (f : α → β) (g : β → γ) (table : Table α) :
    (table.mapValues f).mapValues g = table.mapValues fun v => g (f v) := by
  unfold mapValues
  rw [List.map_map]
  rfl

end Table

/-! ### Objects made of fields -/

namespace Datum

open Text

/-- An object is written as its keys and the texts of its values are. -/
theorem json_object (entries : Entries) :
    (Datum.object entries).json = jsonObject (entries.mapValues json) := by
  have hentries : ∀ entries : Entries, jsonEntries entries = List.intercalate ", ".toList
      ((entries.mapValues json).map fun e => jsonText e.1 ++ ": ".toList ++ e.2) := by
    intro entries
    induction entries with
    | nil => rfl
    | cons e rest ih =>
      obtain ⟨k, v⟩ := e
      cases rest with
      | nil =>
        rw [jsonEntries]
        exact (List.append_nil _).symm
      | cons e' rest =>
        rw [jsonEntries, ih, List.append_assoc]
        rfl
  rw [json, hentries]
  rfl

theorem printable_jsonWide (t : WideText) : Printable (jsonWide t) := by
  have hpoint : ∀ p : CodePoint, Printable (jsonPoint p) := by
    intro p
    cases p with
    | char c => exact printable_jsonChar c
    | surrogate n =>
      refine printable_escapedUnit ?_
      show 0xd800 + n.val < 0x10000
      omega
  have hbody : Printable (t.flatMap jsonPoint) := by
    intro c hc
    obtain ⟨p, -, hc⟩ := List.mem_flatMap.mp hc
    exact hpoint p c hc
  exact Printable.append (.cons (by decide) hbody) (by decide)

/-- An object is printable if its values are. -/
theorem printable_jsonObject {values : Table Text} (h : ∀ e ∈ values, Printable e.2) :
    Printable (jsonObject values) := by
  have hentry : ∀ t ∈ values.map fun e => jsonText e.1 ++ ": ".toList ++ e.2, Printable t := by
    intro t ht
    obtain ⟨e, he, rfl⟩ := List.mem_map.mp ht
    exact ((printable_jsonText e.1).append (by decide)).append (h e he)
  have hall : ∀ texts : List Text, (∀ t ∈ texts, Printable t) →
      Printable (List.intercalate ", ".toList texts) := by
    intro texts htexts
    induction texts with
    | nil => decide
    | cons t rest ih =>
      rw [List.forall_mem_cons] at htexts
      cases rest with
      | nil => exact htexts.1.append (by decide)
      | cons t' rest =>
        rw [List.intercalate_cons_cons]
        exact (htexts.1.append (by decide)).append (ih htexts.2)
  exact Printable.append (.cons (by decide) (hall _ hentry)) (by decide)

end Datum

namespace Log

open Text

/-! ### Records -/

/-- What can be read of a value: of a message that is no text, only that it is one. -/
def Value.visible : Value → Datum
  | .datum d => d
  | .wide _ => .text []

theorem Value.visible_datum (d : Datum) : (Value.datum d).visible = d := rfl

/-- A value is printable if what can be read of it is proper. -/
theorem Value.printable_json {v : Value} (h : v.visible.Proper) : Datum.Printable v.json := by
  cases v with
  | datum d => exact (Datum.faithful_json h).printable
  | wide t => exact Datum.printable_jsonWide t

theorem Value.check_iff (room : Nat) (v : Value) :
    v.check room = .ok () ↔ v.visible.Within room := by
  cases v with
  | datum d => exact Datum.check_json_iff room d
  | wide t => exact ⟨fun _ => .text room [], fun _ => rfl⟩

/-- **The fields pass the check** exactly if what can be read of them is within the limits. -/
theorem Record.checkFields_iff (room : Nat) (fields : Table Value) :
    checkFields room fields = .ok () ↔
      (Datum.object (fields.mapValues Value.visible)).Within (room + 1) := by
  have hfields : checkFields room fields = .ok () ↔ ∀ e ∈ fields, e.2.visible.Within room := by
    induction fields with
    | nil => simp [checkFields]
    | cons e rest ih =>
      rw [checkFields, Datum.bind_eq_ok_unit_iff, Value.check_iff, ih, List.forall_mem_cons]
  rw [hfields]
  constructor
  · intro h
    refine .object fun e he => ?_
    obtain ⟨field, hfield, rfl⟩ := List.mem_map.mp he
    exact h field hfield
  · intro h e he
    cases h with
    | object h => exact h (e.1, e.2.visible) (List.mem_map_of_mem he)

/-- **The structured line of a record** is there exactly if its fields are within the limits. -/
theorem Record.structured_cases (r : Record) :
    ((Datum.object (r.fields.mapValues Value.visible)).Within r.room →
      r.structured = .ok (Datum.jsonObject (r.fields.mapValues Value.json))) ∧
    (¬(Datum.object (r.fields.mapValues Value.visible)).Within r.room →
      ∃ e, r.structured = .error e) := by
  unfold structured
  cases r.room with
  | zero => exact ⟨fun h => (by cases h), fun _ => ⟨_, rfl⟩⟩
  | succ room =>
    rw [← checkFields_iff]
    dsimp only
    cases checkFields room r.fields with
    | ok u => exact ⟨fun _ => rfl, fun h => absurd rfl h⟩
    | error e => exact ⟨fun h => absurd h (by simp), fun _ => ⟨e, rfl⟩⟩

/-! ### Calls -/

/-- The fixed fields of the structured line of a call, with its message. -/
def Call.base (c : Call) (message : Text) : Entries :=
  [("timestamp".toList, .text (c.time .structured)), ("level".toList, .text c.level.name),
    ("logger".toList, .text c.logger), ("message".toList, .text message),
    ("module".toList, .text c.origin.module),
    ("function".toList, c.origin.function.elim .null .text), ("line".toList, .int c.origin.line)] ++
    c.failure.toList.map fun f => ("exception".toList, .text f)

/-- What the structured line of a call **holds**, with the given extra data.  A message that is no
text counts as empty here. -/
def Call.object (c : Call) (extra : Entries) (message : WideText) : Datum :=
  .object ((c.base (message.narrow?.getD [])).overridden extra)

/-- The fixed fields have different names, and nothing improper in them. -/
theorem Call.proper_base (c : Call) (message : Text) : (Datum.object (c.base message)).Proper := by
  have hnames : (["timestamp".toList, "level".toList, "logger".toList, "message".toList,
      "module".toList, "function".toList, "line".toList] ++ ["exception".toList]).Nodup := by
    decide
  have hfunction : (c.origin.function.elim Datum.null Datum.text).Proper := by
    cases c.origin.function with
    | none => exact .null
    | some f => exact .text f
  unfold Call.base
  cases c.failure with
  | none =>
    refine .object (List.nodup_append.mp hnames).1 ?_
    simp [Datum.Proper.text, Datum.Proper.int, hfunction]
  | some f =>
    refine .object hnames ?_
    simp [Datum.Proper.text, Datum.Proper.int, hfunction]

section Lines

variable {c : Call} {extra : Entries}

/-- The record of a call whose arguments fit its message. -/
theorem Call.exists_record {message : WideText} (htext : c.text = .ok message)
    (hextra : c.extra = some (.object extra) ∨ c.extra = none ∧ extra = []) :
    ∃ r, c.record .structured = .ok r ∧ r.room = c.room ∧
      r.fields = (r.baseFields c.origin).update (extra.mapValues Value.datum) ∧
      (r.baseFields c.origin).mapValues Value.visible = c.base (message.narrow?.getD []) ∧
      ∀ t, message = widen t → r.baseFields c.origin = (c.base t).mapValues Value.datum := by
  -- without extra data the record is the same as with an empty object
  obtain ⟨shown, hshown, hextra⟩ :
      ∃ shown, c.extraFor .structured = .ok shown ∧ shown.getD [] = extra := by
    rcases hextra with hextra | ⟨hextra, rfl⟩
    · exact ⟨some extra, by rw [Call.extraFor, hextra]; rfl, rfl⟩
    · exact ⟨none, by rw [Call.extraFor, hextra], rfl⟩
  have hvisible : (Value.ofMessage message).visible = .text (message.narrow?.getD []) := by
    unfold Value.ofMessage
    cases message.narrow? <;> rfl
  refine ⟨_, by rw [Call.record, htext, hshown]; rfl, rfl, ?_, ?_, ?_⟩
  · rw [← hextra]
    rfl
  · unfold Call.base Record.baseFields
    cases c.failure <;>
      simp [Table.mapValues, Record.originFields, Value.visible_datum, hvisible]
  · rintro t rfl
    have hmessage : Value.ofMessage (widen t) = .datum (.text t) := by
      rw [Value.ofMessage, WideText.narrow?_widen]
      rfl
    unfold Call.base Record.baseFields
    cases c.failure <;> simp [Table.mapValues, Record.originFields, hmessage]

end Lines

/-- **A structured line can be read back and cannot be forged.**  If the arguments of a call do not
fit its message there is no line, but that error; nor is there one if what it would hold is beyond
the limits of what is written.  Otherwise there is a line, whatever the message, the names and the
texts hold, and whatever object the extra data are: it is in printable characters, and if the
message is a text, it is read as the fixed fields in their order with the extra data set in them. -/
theorem structured_line_reads_back (c : Call) (extra : Entries)
    (hextra : c.extra = some (.object extra) ∨ c.extra = none ∧ extra = [])
    (hproper : (Datum.object extra).Proper) :
    (∀ e, c.text = .error e → c.line .structured = .error (.message e)) ∧
    ∀ message, c.text = .ok message →
      (¬(c.object extra message).Within c.room → ∃ e, c.line .structured = .error (.limit e)) ∧
      ((c.object extra message).Within c.room →
        ∃ line, c.line .structured = .ok (widen line) ∧ Datum.Printable line ∧
          ∀ t, message = widen t →
            Datum.ofJson? line = some (.object ((c.base t).overridden extra))) := by
  refine ⟨fun e htext => ?_, fun message htext => ?_⟩
  · unfold Call.line Call.record
    rw [htext]
    rfl
  · obtain ⟨r, hrecord, hroom, hfields, hvisible, htexts⟩ := Call.exists_record htext hextra
    obtain ⟨hkeys, hvalues⟩ := Datum.proper_object_iff.mp hproper
    obtain ⟨hbase, hfixed⟩ := Datum.proper_object_iff.mp (c.proper_base (message.narrow?.getD []))
    have hupdate := Table.update_eq_overridden hbase hkeys
    have hobject : Datum.object (r.fields.mapValues Value.visible) = c.object extra message := by
      rw [hfields, Table.mapValues_update, hvisible, Table.mapValues_mapValues]
      exact congrArg Datum.object ((congrArg _ (List.map_id extra)).trans hupdate)
    have hall : (c.object extra message).Proper :=
      .object (Table.nodup_overridden hbase hkeys) (Table.forall_mem_overridden hfixed hvalues)
    have hline : c.line .structured = (r.structured.map widen).mapError .limit := by
      rw [Call.line, hrecord]
      rfl
    obtain ⟨hwithin, hbeyond⟩ := r.structured_cases
    rw [hobject, hroom] at hwithin hbeyond
    refine ⟨fun h => ?_, fun h => ?_⟩
    · obtain ⟨e, he⟩ := hbeyond h
      exact ⟨e, by rw [hline, he]; rfl⟩
    · refine ⟨_, by rw [hline, hwithin h]; rfl, ?_, ?_⟩
      · refine Datum.printable_jsonObject fun e he => ?_
        obtain ⟨field, hfield, rfl⟩ := List.mem_map.mp he
        rw [← hobject] at hall
        exact Value.printable_json ((Datum.proper_object_iff.mp hall).2 (field.1, field.2.visible)
          (List.mem_map_of_mem hfield))
      · rintro t rfl
        rw [Call.object, WideText.narrow?_widen] at hall
        rw [WideText.narrow?_widen] at hupdate
        rw [hfields, htexts t rfl, ← Table.mapValues_update, Table.mapValues_mapValues]
        show Datum.ofJson? (Datum.jsonObject (((c.base t).update extra).mapValues Datum.json)) = _
        rw [← Datum.json_object, show (c.base t).update extra = _ from hupdate]
        exact (Datum.faithful_json hall).ofJson?

/-- Extra data with a key of a fixed field, a binary number that has no short form in digits, and a
value of each kind. -/
def oddExtra : Entries :=
  [("level".toList, .real (.finite false 7205759403792794 1018)),
    ("new\n".toList, .list [.null, .real .nan, .object [("k".toList, .bool true)]])]

/-- A call with line breaks, a quote and characters of every plane in its texts. -/
def oddCall : Call where
  level := .info
  logger := "a\n\"".toList
  message := .text "%s\x7f".toList
  arguments := [.text "é😀\\".toList]
  extra := some (.object oddExtra)
  origin := ⟨"m".toList, none, 1⟩
  failure := some "\t".toList
  time := fun _ => "now".toList

theorem proper_oddExtra : (Datum.object oddExtra).Proper := by
  have hreal : (Binary64.finite false 7205759403792794 1018).Proper :=
    ⟨by decide, by decide, fun _ => by decide⟩
  have hobject : (Datum.object [("k".toList, .bool true)]).Proper := by
    refine .object (by decide) ?_
    rw [List.forall_mem_singleton]
    exact .bool true
  have hlist : (Datum.list [.null, .real .nan, .object [("k".toList, .bool true)]]).Proper := by
    refine .list ?_
    rw [List.forall_mem_cons, List.forall_mem_cons, List.forall_mem_singleton]
    exact ⟨.null, .real trivial, hobject⟩
  refine .object (by decide) ?_
  rw [oddExtra, List.forall_mem_cons, List.forall_mem_singleton]
  exact ⟨.real hreal, hlist⟩

/-- The line of `oddCall` is read back. -/
theorem odd_line_reads_back :
    ∃ line, oddCall.line .structured = .ok (widen line) ∧ Datum.Printable line ∧
      Datum.ofJson? line = some (.object
        [("timestamp".toList, .text "now".toList),
          ("level".toList, .real (.finite false 7205759403792794 1018)),
          ("logger".toList, .text "a\n\"".toList), ("message".toList, .text "é😀\\\x7f".toList),
          ("module".toList, .text "m".toList), ("function".toList, .null), ("line".toList, .int 1),
          ("exception".toList, .text "\t".toList),
          ("new\n".toList, .list [.null, .real .nan, .object [("k".toList, .bool true)]])]) := by
  have htext : oddCall.text = .ok (widen "é😀\\\x7f".toList) := rfl
  have hwithin : (oddCall.object oddExtra (widen "é😀\\\x7f".toList)).Within oddCall.room :=
    (Datum.check_json_iff _ _).mp rfl
  obtain ⟨line, hline, hprintable, hreads⟩ :=
    ((structured_line_reads_back oddCall oddExtra (Or.inl rfl) proper_oddExtra).2 _ htext).2 hwithin
  exact ⟨line, hline, hprintable, hreads _ rfl⟩

/-- A call with the given message, arguments and extra data. -/
def callOf (message : String) (arguments : List Datum) (extra : Entries) : Call where
  level := .warning
  logger := "gotojs.test".toList
  message := .text message.toList
  arguments := arguments
  extra := some (.object extra)
  origin := ⟨"mod".toList, some "fn".toList, 10⟩
  time := fun _ => "now".toList
  room := 2

/-- **Calls without a faithful line.**  None comes of a call with fewer arguments than its message
asks for, with a number of 4301 digits, or with data that are nested too deep.  And two surrogates
that together encode a character make the same line as that character, so that one of these two
messages is not read back. -/
theorem calls_without_faithful_line :
    ((callOf "%s %s" [.text "a".toList] []).line .structured).toOption = none ∧
    ((callOf "" [] [("n".toList, .int (10 ^ 4300))]).line .structured).toOption = none ∧
    ((callOf "" [] [("n".toList, .list [.list []])]).line .structured).toOption = none ∧
    (callOf "%c%c" [.int 0xd83d, .int 0xde00] []).text.toOption ≠
      (callOf "😀" [] []).text.toOption ∧
    ((callOf "%c%c" [.int 0xd83d, .int 0xde00] []).line .structured).toOption =
      ((callOf "😀" [] []).line .structured).toOption ∧
    ((callOf "😀" [] []).line .structured).toOption ≠ none := by
  decide +kernel

end Log

end LabelLoop
