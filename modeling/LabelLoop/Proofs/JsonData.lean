import LabelLoop.Datum.Limits
import LabelLoop.Proofs.JsonTokens

/-!
# JSON text is read as what it was written from

The text of a datum is in printable characters only, whatever the texts within the datum hold, and
it is read as that datum (`faithful_json`), provided that the datum is proper: its objects have each
key once, and its binary numbers are in normal form.  Where there are limits, `Within` says which
data are written, without the order in which the limits are looked at (`check_json_iff`).

The second pass is followed token by token: the tokens of a datum lead from the state that expects a
value to the state in which this datum is complete, with the same lists and objects still open
(`Builds`).
-/

namespace LabelLoop

/-- A key that is not there is put at the end. -/
theorem Table.put_of_not_mem {α : Type} {table : Table α} {k : Text} (h : k ∉ table.map Prod.fst)
    (v : α) : table.put k v = table ++ [(k, v)] := by
  induction table with
  | nil => rfl
  | cons e table ih =>
    obtain ⟨hne, hrest⟩ := not_or.mp (fun hor => h (List.mem_cons.mpr hor))
    rw [Table.put, if_neg (Ne.symm hne), ih hrest]
    rfl

namespace Datum

open Text

/-! ### Printable characters -/

/-- A text of **printable** characters. -/
def Printable (t : Text) : Prop :=
  ∀ c ∈ t, 0x20 ≤ c.toNat ∧ c.toNat < 0x7f

instance (t : Text) : Decidable (Printable t) :=
  decidable_of_iff (t.all fun c => decide (0x20 ≤ c.toNat ∧ c.toNat < 0x7f))
    ⟨forall_mem_of_all, fun h => List.all_eq_true.mpr fun c hc => decide_eq_true (h c hc)⟩

theorem Printable.append {t u : Text} (ht : Printable t) (hu : Printable u) : Printable (t ++ u) :=
  fun c hc => (List.mem_append.mp hc).elim (ht c) (hu c)

theorem Printable.cons {c : Char} {t : Text} (hc : 0x20 ≤ c.toNat ∧ c.toNat < 0x7f)
    (ht : Printable t) : Printable (c :: t) :=
  List.forall_mem_cons.mpr ⟨hc, ht⟩

theorem bounds_of_isWordChar {c : Char} (h : isWordChar c = true) :
    0x20 ≤ c.toNat ∧ c.toNat < 0x7f := by
  have hcases : ((c.isAlphanum = true ∨ c = '-') ∨ c = '+') ∨ c = '.' := by
    simpa [isWordChar] using h
  rcases hcases with ((halnum | rfl) | rfl) | rfl
  · rcases Bool.or_eq_true_iff.mp halnum with halpha | hdigit
    · rcases isAlpha_iff.mp halpha with hupper | hlower
      · have := isUpper_iff.mp hupper
        omega
      · have := isLower_iff.mp hlower
        omega
    · have hdigits : ∀ c ∈ "0123456789".toList, 0x20 ≤ c.toNat ∧ c.toNat < 0x7f :=
        forall_mem_of_all (by decide)
      exact hdigits c (mem_of_isDigit hdigit)
  · decide
  · decide
  · decide

theorem Spells.printable {t : Text} {d : Datum} (h : Spells t d) : Printable t :=
  fun c hc => bounds_of_isWordChar (h.isWordChar c hc)

theorem printable_escapedUnit {n : Nat} (h : n < 0x10000) : Printable (escapedUnit n) := by
  have hdigit : ∀ n < 16, 0x20 ≤ n.digitChar.toNat ∧ n.digitChar.toNat < 0x7f := by decide
  rw [escapedUnit, hex_four h]
  refine .cons (by decide) (.cons (by decide) ?_)
  exact .cons (hdigit _ (by omega)) (.cons (hdigit _ (by omega)) (.cons (hdigit _ (by omega))
    (.cons (hdigit _ (by omega)) (by simp [Printable]))))

theorem bounds_of_escaped? {letter : Char} {n : Nat}
    (h : (escaped? letter).map Char.toNat = some n) :
    0x20 ≤ letter.toNat ∧ letter.toNat < 0x7f := by
  obtain ⟨c, hc, -⟩ := Option.map_eq_some_iff.mp h
  have hletters : ∀ x ∈ ['"', '\\', '/', 'b', 'f', 'n', 'r', 't'],
      0x20 ≤ x.toNat ∧ x.toNat < 0x7f := forall_mem_of_all (by decide)
  obtain ⟨l₁, l₂, hlist, -⟩ := List.lookup_eq_some_iff.mp hc
  have hkeys := congrArg (List.map Prod.fst) hlist
  rw [List.map_append, List.map_cons] at hkeys
  exact hletters letter (hkeys ▸ List.mem_append_right _ List.mem_cons_self)

/-- A character is written in printable characters. -/
theorem printable_jsonChar (c : Char) : Printable (jsonChar c) := by
  have hform := form_jsonChar c
  generalize jsonChar c = t at hform ⊢
  cases hform with
  | letter _ _ hescaped => exact .cons (by decide) (.cons (bounds_of_escaped? hescaped) (by decide))
  | plain hle hlt _ _ => exact .cons ⟨hle, hlt⟩ (by decide)
  | unit hlt => exact printable_escapedUnit hlt
  | pair _ hhigh hlow => exact (printable_escapedUnit hhigh).append (printable_escapedUnit hlow)

/-- The text of a text is printable, whatever characters that has. -/
theorem printable_jsonText (t : Text) : Printable (jsonText t) := by
  have hbody : Printable (t.flatMap jsonChar) := by
    intro c hc
    obtain ⟨c', -, hc⟩ := List.mem_flatMap.mp hc
    exact printable_jsonChar c' c hc
  have hquote : Printable ['"'] := by decide
  exact Printable.append (.cons (by decide) hbody) hquote

/-! ### Building data -/

/-- **The tokens lead to the datum `d`**, whatever is still open around it. -/
def Builds (tokens : List Token) (d : Datum) : Prop :=
  ∀ frames, tokens.foldlM Building.step ⟨frames, .value⟩ = some ⟨frames, .next d⟩

/-- A text that is printable and can be read as a datum. -/
structure Faithful (t : Text) (d : Datum) : Prop where
  printable : Printable t
  readable : ∃ tokens, Reads t tokens ∧ Builds tokens d

/-- A faithful text is read as its datum. -/
theorem Faithful.ofJson? {t : Text} {d : Datum} (h : Faithful t d) : ofJson? t = some d := by
  obtain ⟨tokens, hreads, hbuilds⟩ := h.readable
  unfold Datum.ofJson?
  rw [hreads.tokens?]
  simp only [Option.bind_eq_bind, Option.bind_some, hbuilds []]

theorem Spells.faithful {t : Text} {d : Datum} (h : Spells t d) : Faithful t d :=
  ⟨h.printable, _, h.reads, fun _ => rfl⟩

theorem faithful_jsonText (t : Text) : Faithful (jsonText t) (.text t) :=
  ⟨printable_jsonText t, _, reads_jsonText t, fun _ => rfl⟩

/-! ### Lists -/

/-- The first item of a list is read as any value is. -/
theorem step_firstItem {frames : List Frame} {token : Token} {s : Building}
    (h : Building.step ⟨frames, .value⟩ token = some s) :
    Building.step ⟨frames, .firstItem⟩ token = some s := by
  have hvalue : beginValue? frames token = some s := h
  have hne : token ≠ .closeList := by
    rintro rfl
    simp [beginValue?] at hvalue
  simp only [Building.step]
  split <;> simp_all

/-- The items of a list, which has some, with what closes it. -/
theorem exists_items {items : List Datum} (hne : items ≠ [])
    (h : ∀ d ∈ items, Faithful (json d) d) :
    Printable (jsonItems items) ∧ ∃ tokens, Reads (jsonItems items) tokens ∧
      ∀ frames prior,
        (tokens ++ [Token.closeList]).foldlM Building.step ⟨.list prior :: frames, .value⟩ =
          some ⟨frames, .next (.list (prior.reverse ++ items))⟩ := by
  induction items with
  | nil => exact absurd rfl hne
  | cons d rest ih =>
    obtain ⟨hd, hrest⟩ := List.forall_mem_cons.mp h
    obtain ⟨tokens, hreads, hbuilds⟩ := hd.readable
    cases rest with
    | nil =>
      refine ⟨hd.printable, tokens, hreads, fun frames prior => ?_⟩
      rw [List.foldlM_append, hbuilds, ← List.reverse_cons]
      rfl
    | cons d' rest =>
      obtain ⟨hprintable, tokens', hreads', hbuilds'⟩ := ih (List.cons_ne_nil _ _) hrest
      have htext : jsonItems (d :: d' :: rest) = json d ++ ',' :: ' ' :: jsonItems (d' :: rest) :=
        List.append_assoc _ _ _
      refine ⟨?_, tokens ++ .comma :: tokens', ?_, fun frames prior => ?_⟩
      · rw [htext]
        exact hd.printable.append (.cons (by decide) (.cons (by decide) hprintable))
      · rw [htext]
        exact hreads.append_cons (by decide) (Reads.mark (fun _ => rfl) hreads'.space)
      · -- the comma puts the item to those before it
        rw [List.append_assoc, List.foldlM_append, hbuilds]
        have hitems := hbuilds' frames (d :: prior)
        rw [List.reverse_cons, List.append_assoc] at hitems
        exact hitems

theorem faithful_list {items : List Datum} (h : ∀ d ∈ items, Faithful (json d) d) :
    Faithful (json (.list items)) (.list items) := by
  by_cases hne : items = []
  · subst hne
    exact ⟨by decide, [.openList, .closeList],
      .mark (fun _ => rfl) (.mark (fun _ => rfl) reads_nil), fun _ => rfl⟩
  obtain ⟨hprintable, tokens, hreads, hbuilds⟩ := exists_items hne h
  have htext : json (.list items) = '[' :: (jsonItems items ++ [']']) := rfl
  have hclose : Reads [']'] [.closeList] := .mark (fun _ => rfl) reads_nil
  refine ⟨?_, .openList :: (tokens ++ [.closeList]), ?_, fun frames => ?_⟩
  · rw [htext]
    exact .cons (by decide) (hprintable.append (by decide))
  · rw [htext]
    exact .mark (fun _ => rfl) (hreads.append_cons (by decide) hclose)
  · have hitems := hbuilds frames []
    show (tokens ++ [Token.closeList]).foldlM Building.step ⟨.list [] :: frames, .firstItem⟩ = _
    -- only the first token is read in another way
    cases hall : tokens ++ [Token.closeList] with
    | nil => simp at hall
    | cons token rest =>
      rw [hall, List.foldlM_cons] at hitems
      obtain ⟨s, hs, hrest⟩ := Option.bind_eq_some_iff.mp hitems
      rw [List.foldlM_cons, step_firstItem hs]
      exact hrest

/-! ### Objects -/

/-- A key, a colon and a value. -/
theorem exists_entry (k : Text) {v : Datum} (h : Faithful (json v) v) :
    Printable (jsonText k ++ ": ".toList ++ json v) ∧
      ∃ tokens, Reads (jsonText k ++ ": ".toList ++ json v) (.scalar (.text k) :: tokens) ∧
        ∀ frames prior, tokens.foldlM Building.step ⟨frames, .colon prior k⟩ =
          some ⟨.object prior k :: frames, .next v⟩ := by
  obtain ⟨tokens, hreads, hbuilds⟩ := h.readable
  have htext : jsonText k ++ ": ".toList ++ json v = jsonText k ++ ':' :: ' ' :: json v :=
    List.append_assoc _ _ _
  rw [htext]
  refine ⟨?_, .colon :: tokens, ?_, fun frames prior => ?_⟩
  · exact (printable_jsonText k).append (.cons (by decide) (.cons (by decide) h.printable))
  · exact (reads_jsonText k).append_cons (by decide) (.mark (fun _ => rfl) hreads.space)
  · exact hbuilds (.object prior k :: frames)

/-- The entries of an object, which has some, with what closes it. -/
theorem exists_entries {entries : Entries} (hne : entries ≠ [])
    (h : ∀ e ∈ entries, Faithful (json e.2) e.2) :
    Printable (jsonEntries entries) ∧
      ∃ k tokens, Reads (jsonEntries entries) (.scalar (.text k) :: tokens) ∧
        ∀ frames prior, ((prior ++ entries).map Prod.fst).Nodup →
          (tokens ++ [Token.closeObject]).foldlM Building.step ⟨frames, .colon prior k⟩ =
            some ⟨frames, .next (.object (prior ++ entries))⟩ := by
  induction entries with
  | nil => exact absurd rfl hne
  | cons e rest ih =>
    obtain ⟨k, v⟩ := e
    obtain ⟨hv, hrest⟩ := List.forall_mem_cons.mp h
    obtain ⟨hentry, tokens, hreads, hbuilds⟩ := exists_entry k hv
    -- the key is none of those before it
    have hput : ∀ prior : Entries, ((prior ++ (k, v) :: rest).map Prod.fst).Nodup →
        prior.put k v = prior ++ [(k, v)] := by
      intro prior hnodup
      refine Table.put_of_not_mem (fun hmem => ?_) v
      rw [List.map_append, List.nodup_append] at hnodup
      exact hnodup.2.2 k hmem k List.mem_cons_self rfl
    cases rest with
    | nil =>
      refine ⟨hentry, k, tokens, hreads, fun frames prior hnodup => ?_⟩
      rw [List.foldlM_append, hbuilds]
      show some (⟨frames, .next (.object (prior.put k v))⟩ : Building) = _
      rw [hput prior hnodup]
    | cons e' rest =>
      obtain ⟨hprintable, k', tokens', hreads', hbuilds'⟩ := ih (List.cons_ne_nil _ _) hrest
      have htext : jsonEntries ((k, v) :: e' :: rest) =
          jsonText k ++ ": ".toList ++ json v ++ ',' :: ' ' :: jsonEntries (e' :: rest) :=
        List.append_assoc _ _ _
      refine ⟨?_, k, tokens ++ .comma :: .scalar (.text k') :: tokens', ?_,
        fun frames prior hnodup => ?_⟩
      · rw [htext]
        exact hentry.append (.cons (by decide) (.cons (by decide) hprintable))
      · rw [htext]
        exact hreads.append_cons (by decide) (.mark (fun _ => rfl) hreads'.space)
      · -- the comma puts the entry behind those before it
        have hentries := hbuilds' frames (prior ++ [(k, v)])
        rw [List.append_assoc] at hentries
        rw [List.append_assoc, List.foldlM_append, hbuilds]
        show (tokens' ++ [Token.closeObject]).foldlM Building.step
          ⟨frames, .colon (prior.put k v) k'⟩ = _
        rw [hput prior hnodup]
        exact hentries hnodup

theorem faithful_object {entries : Entries} (hkeys : (entries.map Prod.fst).Nodup)
    (h : ∀ e ∈ entries, Faithful (json e.2) e.2) :
    Faithful (json (.object entries)) (.object entries) := by
  by_cases hne : entries = []
  · subst hne
    exact ⟨by decide, [.openObject, .closeObject],
      .mark (fun _ => rfl) (.mark (fun _ => rfl) reads_nil), fun _ => rfl⟩
  obtain ⟨hprintable, k, tokens, hreads, hbuilds⟩ := exists_entries hne h
  have htext : json (.object entries) = '\x7b' :: (jsonEntries entries ++ ['\x7d']) := rfl
  have hclose : Reads ['\x7d'] [.closeObject] := .mark (fun _ => rfl) reads_nil
  refine ⟨?_, .openObject :: (.scalar (.text k) :: tokens ++ [.closeObject]), ?_, fun frames => ?_⟩
  · rw [htext]
    exact .cons (by decide) (hprintable.append (by decide))
  · rw [htext]
    exact .mark (fun _ => rfl) (hreads.append_cons (by decide) hclose)
  · exact hbuilds frames [] hkeys

/-! ### The round trip -/

/-- A **proper** datum: its objects have each key once, and its binary numbers are in normal
form. -/
inductive Proper : Datum → Prop where
  | null : Proper .null
  | bool (b : Bool) : Proper (.bool b)
  | int (n : Int) : Proper (.int n)
  | real {x : Binary64} (h : x.Proper) : Proper (.real x)
  | text (t : Text) : Proper (.text t)
  | list {items : List Datum} (h : ∀ d ∈ items, Proper d) : Proper (.list items)
  | object {entries : Entries} (hkeys : (entries.map Prod.fst).Nodup)
    (h : ∀ e ∈ entries, Proper e.2) : Proper (.object entries)

theorem proper_object_iff {entries : Entries} :
    Proper (.object entries) ↔ (entries.map Prod.fst).Nodup ∧ ∀ e ∈ entries, e.2.Proper := by
  refine ⟨fun h => ?_, fun h => .object h.1 h.2⟩
  cases h with
  | object hkeys h => exact ⟨hkeys, h⟩

/-- **The text of a proper datum** is printable, and it is read as that datum. -/
theorem faithful_json {d : Datum} (h : d.Proper) : Faithful (json d) d := by
  induction h with
  | null => exact Spells.faithful ⟨forall_mem_of_all (by decide), rfl⟩
  | bool b => cases b <;> exact Spells.faithful ⟨forall_mem_of_all (by decide), rfl⟩
  | int n => exact (spells_ofInt n).faithful
  | real h => exact (spells_written h).faithful
  | text t => exact faithful_jsonText t
  | list _ ih => exact faithful_list ih
  | object hkeys _ ih => exact faithful_object hkeys ih

/-! ### Limits -/

/-- A datum is **within** the limits of JSON text: its whole numbers have few enough digits, and
lists and objects are nested no deeper than there is room. -/
inductive Within : Nat → Datum → Prop where
  | null (room : Nat) : Within room .null
  | bool (room : Nat) (b : Bool) : Within room (.bool b)
  | int (room : Nat) {n : Int} (h : (ofNat n.natAbs).length ≤ maxDigits) : Within room (.int n)
  | real (room : Nat) (x : Binary64) : Within room (.real x)
  | text (room : Nat) (t : Text) : Within room (.text t)
  | list {room : Nat} {items : List Datum} (h : ∀ d ∈ items, Within room d) :
    Within (room + 1) (.list items)
  | object {room : Nat} {entries : Entries} (h : ∀ e ∈ entries, Within room e.2) :
    Within (room + 1) (.object entries)

theorem bind_eq_ok_unit_iff {ε : Type} {x y : Except ε Unit} :
    (x.bind fun _ => y) = .ok () ↔ x = .ok () ∧ y = .ok () := by
  cases x <;> simp [Except.bind]

theorem checkWhole_eq_ok_iff {n : Int} :
    checkWhole n = .ok () ↔ (ofNat n.natAbs).length ≤ maxDigits := by
  unfold checkWhole
  split <;> simp [*]

theorem checkLeaf_json (room : Nat) : Writing.json.checkLeaf room = .ok () := by
  simp [Writing.checkLeaf]

mutual

/-- **The check accepts** exactly the data within the limits. -/
theorem check_json_iff (room : Nat) : ∀ d : Datum, d.check .json room = .ok () ↔ d.Within room
  | .null => ⟨fun _ => .null room, fun _ => checkLeaf_json room⟩
  | .bool b => ⟨fun _ => .bool room b, fun _ => checkLeaf_json room⟩
  | .real x => ⟨fun _ => .real room x, fun _ => checkLeaf_json room⟩
  | .text t => ⟨fun _ => .text room t, fun _ => checkLeaf_json room⟩
  | .int n => by
    rw [check, checkLeaf_json]
    refine checkWhole_eq_ok_iff.trans ⟨.int room, fun h => ?_⟩
    cases h with
    | int _ h => exact h
  | .list items => by
    cases room with
    | zero => exact ⟨fun h => absurd h (by simp [check]), fun h => by cases h⟩
    | succ room =>
      rw [check, checkItems_json_iff room items]
      refine ⟨.list, fun h => ?_⟩
      cases h with
      | list h => exact h
  | .object entries => by
    cases room with
    | zero => exact ⟨fun h => absurd h (by simp [check]), fun h => by cases h⟩
    | succ room =>
      rw [check, checkEntries_json_iff room entries]
      refine ⟨.object, fun h => ?_⟩
      cases h with
      | object h => exact h

theorem checkItems_json_iff (room : Nat) : ∀ items : List Datum,
    checkItems .json room items = .ok () ↔ ∀ d ∈ items, d.Within room
  | [] => by simp [checkItems]
  | d :: rest => by
    rw [checkItems, bind_eq_ok_unit_iff, check_json_iff room d, checkItems_json_iff room rest,
      List.forall_mem_cons]

theorem checkEntries_json_iff (room : Nat) : ∀ entries : List (Text × Datum),
    checkEntries .json room entries = .ok () ↔ ∀ e ∈ entries, e.2.Within room
  | [] => by simp [checkEntries]
  | (k, v) :: rest => by
    rw [checkEntries, checkLeaf_json, bind_eq_ok_unit_iff, bind_eq_ok_unit_iff,
      check_json_iff room v, checkEntries_json_iff room rest, List.forall_mem_cons]
    simp

end

end Datum

end LabelLoop
