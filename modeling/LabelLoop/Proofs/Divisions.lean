import LabelLoop.Text.Search
import Mathlib.Data.List.Basic
import Mathlib.Data.List.Pairwise

/-!
# Texts in parts

A recogniser divides a text into parts: the items that it reads, and the single characters between
them.  Markers, literals and script elements are such items, and what they have in common is here.

* Every text can be divided (`exists_divided`), if it always begins with some part that fits before
  the rest.
* A search finds what is to be seen of the parts, at their places (`searchFrom_divided`), if it does
  so for each part that fits.  What is found stands in order and apart (`apart_foundFrom`).
* An edit says what is written for every place of a text, and then writes the parts one after
  another (`flatMap_edit`).
-/

namespace LabelLoop.Division

open Text

variable {P α β : Type} {text : P → Text} {Fits : P → Text → Prop} {view : P → Option α}

/-! ### Dividing -/

/-- The parts **divide** the text that they make up: each fits before the text of those after it. -/
inductive Divided (text : P → Text) (Fits : P → Text → Prop) : List P → Prop where
  | nil : Divided text Fits []
  | cons {p : P} {ps : List P} (h : Fits p (ps.flatMap text)) (hps : Divided text Fits ps) :
      Divided text Fits (p :: ps)

theorem divided_cons_iff {p : P} {ps : List P} :
    Divided text Fits (p :: ps) ↔ Fits p (ps.flatMap text) ∧ Divided text Fits ps := by
  constructor
  · intro h
    cases h with
    | cons h hps => exact ⟨h, hps⟩
  · intro h
    exact .cons h.1 h.2

/-- The parts after the first ones divide the rest. -/
theorem Divided.of_append {ps qs : List P} (h : Divided text Fits (ps ++ qs)) :
    Divided text Fits qs := by
  induction ps with
  | nil => exact h
  | cons p ps ih => exact ih (divided_cons_iff.mp h).2

theorem Divided.fits {ps qs : List P} {p : P} (h : Divided text Fits (ps ++ p :: qs)) :
    Fits p (qs.flatMap text) :=
  (divided_cons_iff.mp h.of_append).1

/-- **Every text can be divided.** -/
theorem exists_divided
    (hbegins : ∀ c t, ∃ p rest, c :: t = text p ++ rest ∧ text p ≠ [] ∧ Fits p rest) (t : Text) :
    ∃ ps, Divided text Fits ps ∧ ps.flatMap text = t := by
  -- the rest after a part is no tail of the text, so the induction is on the length
  induction hlen : t.length using Nat.strongRecOn generalizing t with
  | _ n ih =>
    cases t with
    | nil => exact ⟨[], .nil, rfl⟩
    | cons c t =>
      obtain ⟨p, rest, heq, hne, hfits⟩ := hbegins c t
      have hlt : rest.length < n := by
        have := List.length_pos_of_ne_nil hne
        rw [← hlen, heq, List.length_append]
        omega
      obtain ⟨ps, hps, rfl⟩ := ih rest.length hlt rest rfl
      exact ⟨p :: ps, .cons hfits hps, heq.symm⟩

/-! ### Finding -/

/-- What is to be seen of the parts, where it stands; the first part stands at `offset`. -/
def foundFrom (text : P → Text) (view : P → Option α) (offset : Nat) : List P → List (Found α)
  | [] => []
  | p :: ps =>
    ((view p).map fun a => ⟨offset, (text p).length, a⟩).toList ++
      foundFrom text view (offset + (text p).length) ps

theorem foundFrom_cons_of_none {p : P} (h : view p = none) (offset : Nat) (ps : List P) :
    foundFrom text view offset (p :: ps) =
      foundFrom text view (offset + (text p).length) ps := by
  rw [foundFrom, h]
  rfl

theorem foundFrom_cons_of_some {p : P} {a : α} (h : view p = some a) (offset : Nat) (ps : List P) :
    foundFrom text view offset (p :: ps) =
      ⟨offset, (text p).length, a⟩ :: foundFrom text view (offset + (text p).length) ps := by
  rw [foundFrom, h]
  rfl

theorem foundFrom_append (offset : Nat) (ps qs : List P) :
    foundFrom text view offset (ps ++ qs) =
      foundFrom text view offset ps ++
        foundFrom text view (offset + (ps.flatMap text).length) qs := by
  induction ps generalizing offset with
  | nil => rfl
  | cons p ps ih =>
    rw [List.cons_append, foundFrom, foundFrom, ih, List.append_assoc, List.flatMap_cons,
      List.length_append, Nat.add_assoc]

/-- **What is found** is what is to be seen of some part, and stands behind the parts before it. -/
theorem mem_foundFrom_iff {offset : Nat} {ps : List P} {f : Found α} :
    f ∈ foundFrom text view offset ps ↔
      ∃ before p after a, ps = before ++ p :: after ∧ view p = some a ∧
        f = ⟨offset + (before.flatMap text).length, (text p).length, a⟩ := by
  induction ps generalizing offset with
  | nil => simp [foundFrom]
  | cons p ps ih =>
    have hplace : ∀ before : List P, offset + (text p).length + (before.flatMap text).length =
        offset + ((p :: before).flatMap text).length := by
      intro before
      rw [List.flatMap_cons, List.length_append, Nat.add_assoc]
    rw [foundFrom, List.mem_append, ih]
    constructor
    · rintro (h | ⟨before, q, after, a, rfl, hview, rfl⟩)
      · obtain ⟨a, ha, rfl⟩ := Option.map_eq_some_iff.mp (Option.mem_toList.mp h)
        exact ⟨[], p, ps, a, rfl, ha, rfl⟩
      · exact ⟨p :: before, q, after, a, rfl, hview, by rw [hplace]⟩
    · rintro ⟨before, q, after, a, heq, hview, rfl⟩
      cases before with
      | nil =>
        obtain ⟨rfl, rfl⟩ := List.cons.inj heq
        exact Or.inl (Option.mem_toList.mpr (Option.map_eq_some_iff.mpr ⟨a, hview, rfl⟩))
      | cons b before =>
        obtain ⟨rfl, rfl⟩ := List.cons.inj heq
        exact Or.inr ⟨before, q, after, a, rfl, hview, by rw [hplace]⟩

theorem bounds_of_mem_foundFrom {offset : Nat} {ps : List P} {f : Found α}
    (h : f ∈ foundFrom text view offset ps) :
    offset ≤ f.start ∧ f.stop ≤ offset + (ps.flatMap text).length := by
  obtain ⟨before, p, after, a, rfl, -, rfl⟩ := mem_foundFrom_iff.mp h
  rw [Found.stop, List.flatMap_append, List.flatMap_cons, List.length_append, List.length_append]
  dsimp only
  omega

/-- **What is found stands in order and apart.** -/
theorem apart_foundFrom (offset : Nat) (ps : List P) :
    (foundFrom text view offset ps).Pairwise fun f g => f.stop ≤ g.start := by
  induction ps generalizing offset with
  | nil => exact .nil
  | cons p ps ih =>
    cases hview : view p with
    | none =>
      rw [foundFrom_cons_of_none hview]
      exact ih _
    | some a =>
      rw [foundFrom_cons_of_some hview]
      exact .cons (fun g hg => (bounds_of_mem_foundFrom hg).1) (ih _)

/-- No two things are found at one place, if parts are not empty. -/
theorem pairwise_foundFrom {ps : List P} (hne : ∀ p ∈ ps, text p ≠ []) (offset : Nat) :
    (foundFrom text view offset ps).Pairwise fun f g => f.start < g.start := by
  refine (apart_foundFrom offset ps).imp_of_mem fun {f g} hf _ hfg => ?_
  obtain ⟨before, p, after, a, rfl, -, rfl⟩ := mem_foundFrom_iff.mp hf
  have := List.length_pos_of_ne_nil (hne p (by simp))
  rw [Found.stop] at hfg
  dsimp only at hfg ⊢
  omega

theorem map_item_foundFrom (offset : Nat) (ps : List P) :
    (foundFrom text view offset ps).map Found.item = ps.filterMap view := by
  induction ps generalizing offset with
  | nil => rfl
  | cons p ps ih =>
    cases hview : view p with
    | none => rw [foundFrom_cons_of_none hview, ih, List.filterMap_cons_none hview]
    | some a =>
      rw [foundFrom_cons_of_some hview, List.map_cons, ih, List.filterMap_cons_some hview]

/-- To see less of the parts is to take less of what is found. -/
theorem filterMap_foundFrom (g : α → Option β) (offset : Nat) (ps : List P) :
    (foundFrom text view offset ps).filterMap
        (fun f => (g f.item).map fun b => (⟨f.start, f.length, b⟩ : Found β)) =
      foundFrom text (fun p => (view p).bind g) offset ps := by
  induction ps generalizing offset with
  | nil => rfl
  | cons p ps ih =>
    rw [foundFrom, foundFrom, List.filterMap_append, ih]
    cases view p with
    | none => rfl
    | some a => cases hg : g a <;> simp [hg]

/-! ### Searching -/

/-- A search finds an item that is read, and goes on behind it. -/
theorem searchFrom_append_of_read {read : Recogniser α} {item rest : Text} {a : α}
    (hne : item ≠ []) (h : read (item ++ rest) = some (a, item.length)) (offset : Nat) :
    searchFrom read offset 0 (item ++ rest) =
      ⟨offset, item.length, a⟩ :: searchFrom read (offset + item.length) 0 rest := by
  obtain ⟨c, cs, rfl⟩ := List.exists_cons_of_ne_nil hne
  rw [List.cons_append] at h ⊢
  rw [searchFrom, h]
  simp only [List.length_cons, Nat.add_sub_cancel]
  rw [searchFrom_skip, List.drop_left, Nat.add_assoc, Nat.add_comm 1]

/-- **A search finds what is to be seen of the parts** of a text, if it does so part by part. -/
theorem searchFrom_divided {read : Recogniser α}
    (hsees : ∀ p rest offset, Fits p rest → searchFrom read offset 0 (text p ++ rest) =
      ((view p).map fun a => ⟨offset, (text p).length, a⟩).toList ++
        searchFrom read (offset + (text p).length) 0 rest)
    {ps : List P} (h : Divided text Fits ps) (offset : Nat) :
    searchFrom read offset 0 (ps.flatMap text) = foundFrom text view offset ps := by
  induction h generalizing offset with
  | nil => rfl
  | @cons p ps hfits _ ih => rw [List.flatMap_cons, hsees p _ offset hfits, ih, foundFrom]

/-! ### Editing place by place -/

/-- What is written for the character at a place: the text of a patch if the patch begins there,
nothing inside a patch, and else the character itself. -/
def patched (patches : List (Found Text)) (t : Text) (place : Nat) : Text :=
  match patches.find? fun m => m.start ≤ place && place < m.stop with
  | some m => if place = m.start then m.item else []
  | none => t[place]?.toList

/-- In which order patches are listed does not matter, as long as they are apart. -/
theorem patched_congr {patches patches' : List (Found Text)}
    (hmem : ∀ m, m ∈ patches ↔ m ∈ patches')
    (hapart : patches'.Pairwise fun m m' => m.stop ≤ m'.start) (t : Text) (place : Nat) :
    patched patches t place = patched patches' t place := by
  -- patches that are apart do not cover a place together
  have hone : ∀ m ∈ patches', ∀ m' ∈ patches', m.start ≤ place → place < m.stop →
      m'.start ≤ place → place < m'.stop → m = m' := by
    have hsymm : Std.Symm fun m m' : Found Text => m.stop ≤ m'.start ∨ m'.stop ≤ m.start :=
      ⟨fun _ _ => Or.symm⟩
    have horder : patches'.Pairwise fun m m' => m.stop ≤ m'.start ∨ m'.stop ≤ m.start :=
      hapart.imp fun h => Or.inl h
    intro m hm m' hm' _ _ _ _
    by_contra hne
    rcases horder.forall hm hm' hne with h | h
    all_goals omega
  have hfind : patches.find? (fun m => m.start ≤ place && place < m.stop) =
      patches'.find? fun m => m.start ≤ place && place < m.stop := by
    cases hleft : patches.find? fun m => m.start ≤ place && place < m.stop with
    | none =>
      rw [List.find?_eq_none] at hleft
      exact (List.find?_eq_none.mpr fun m hm => hleft m ((hmem m).mpr hm)).symm
    | some m =>
      have hm := (hmem m).mp (List.mem_of_find?_eq_some hleft)
      have hcovers := List.find?_some hleft
      cases hright : patches'.find? fun m => m.start ≤ place && place < m.stop with
      | none => exact absurd hcovers (List.find?_eq_none.mp hright m hm)
      | some m' =>
        have hcovers' := List.find?_some hright
        simp only [Bool.and_eq_true, decide_eq_true_eq] at hcovers hcovers'
        rw [hone m hm m' (List.mem_of_find?_eq_some hright) hcovers.1 hcovers.2 hcovers'.1
          hcovers'.2]
  rw [patched, patched, hfind]

/-- What an **edit** writes for a place: first what is put in before it. -/
def edit (before : Nat → Text) (patches : List (Found Text)) (t : Text) (place : Nat) : Text :=
  before place ++ patched patches t place

/-- The parts with texts put in before them, and with new texts for some of them. -/
def insertedFrom (text : P → Text) (new : P → Option Text) (before : Nat → Text) (offset : Nat) :
    List P → Text
  | [] => []
  | p :: ps =>
    before offset ++ (new p).getD (text p) ++
      insertedFrom text new before (offset + (text p).length) ps

/-- Nothing is put in **inside** a part. -/
def Outside (text : P → Text) (before : Nat → Text) (offset : Nat) : List P → Prop
  | [] => True
  | p :: ps =>
    (∀ place, offset < place → place < offset + (text p).length → before place = []) ∧
      Outside text before (offset + (text p).length) ps

/-- If nothing is put in at all, the parts are written one by one. -/
theorem insertedFrom_nil (new : P → Option Text) (offset : Nat) (ps : List P) :
    insertedFrom text new (fun _ => []) offset ps = ps.flatMap fun p => (new p).getD (text p) := by
  induction ps generalizing offset with
  | nil => rfl
  | cons p ps ih => rw [insertedFrom, ih, List.nil_append, List.flatMap_cons]

theorem outside_nil (offset : Nat) (ps : List P) : Outside text (fun _ => []) offset ps := by
  induction ps generalizing offset with
  | nil => trivial
  | cons p ps ih => exact ⟨fun _ _ _ => rfl, ih _⟩

/-- The characters at the places of a text in the middle make up that text. -/
theorem flatMap_getElem?_middle (a b c : Text) :
    (List.range' a.length b.length).flatMap (fun i => (a ++ (b ++ c))[i]?.toList) = b := by
  induction b generalizing a with
  | nil => rfl
  | cons x b ih =>
    have hx : (a ++ (x :: b ++ c))[a.length]? = some x := by simp
    have hassoc : a ++ (x :: b ++ c) = (a ++ [x]) ++ (b ++ c) := by simp
    have hrest := ih (a ++ [x])
    rw [List.length_append, List.length_singleton] at hrest
    rw [List.length_cons, List.range'_succ, List.flatMap_cons, hx, hassoc, hrest]
    rfl

/-- What is put in before the first of several places stands before all that is written there. -/
theorem flatMap_append_first {before write : Nat → Text} {offset n : Nat} (hn : n ≠ 0)
    (h : ∀ place, offset < place → place < offset + n → before place = []) :
    (List.range' offset n).flatMap (fun place => before place ++ write place) =
      before offset ++ (List.range' offset n).flatMap write := by
  obtain ⟨n, rfl⟩ := Nat.exists_eq_succ_of_ne_zero hn
  have hrest : ∀ place ∈ List.range' (offset + 1) n, before place ++ write place = write place := by
    intro place hplace
    rw [List.mem_range'_1] at hplace
    rw [h place (by omega) (by omega), List.nil_append]
  rw [List.range'_succ, List.flatMap_cons, List.flatMap_cons, List.flatMap_congr hrest,
    List.append_assoc]

/-- What the patches of other parts are does not matter for the places of a part. -/
theorem patched_foundFrom {new : P → Option Text} {as cs : List P} {p : P} {t : Text} {place : Nat}
    (hle : (as.flatMap text).length ≤ place)
    (hlt : place < (as.flatMap text).length + (text p).length) :
    patched (foundFrom text new 0 (as ++ p :: cs)) t place =
      (new p).elim t[place]?.toList
        fun u => if place = (as.flatMap text).length then u else [] := by
  -- what is found before the part ends where it begins, and the rest begins where it ends
  have hbefore : (foundFrom text new 0 as).find?
      (fun m => m.start ≤ place && place < m.stop) = none := by
    refine List.find?_eq_none.mpr fun m hm => ?_
    have := (bounds_of_mem_foundFrom hm).2
    simp only [Bool.and_eq_true, decide_eq_true_eq, not_and]
    omega
  have hafter : ∀ offset, place < offset → (foundFrom text new offset cs).find?
      (fun m => m.start ≤ place && place < m.stop) = none := by
    intro offset hoffset
    refine List.find?_eq_none.mpr fun m hm => ?_
    have := (bounds_of_mem_foundFrom hm).1
    simp only [Bool.and_eq_true, decide_eq_true_eq, not_and]
    omega
  rw [patched, foundFrom_append, List.find?_append, hbefore, Option.none_or, Nat.zero_add]
  cases hnew : new p with
  | none =>
    rw [foundFrom_cons_of_none hnew, hafter _ hlt]
    rfl
  | some u =>
    rw [foundFrom_cons_of_some hnew, List.find?_cons_of_pos]
    · rfl
    exact Bool.and_eq_true_iff.mpr ⟨decide_eq_true hle, decide_eq_true hlt⟩

/-- Behind all parts there is nothing to write. -/
theorem patched_end {new : P → Option Text} (ps : List P) :
    patched (foundFrom text new 0 ps) (ps.flatMap text) (ps.flatMap text).length = [] := by
  have hnone : (foundFrom text new 0 ps).find? (fun m => m.start ≤ (ps.flatMap text).length &&
      (ps.flatMap text).length < m.stop) = none := by
    refine List.find?_eq_none.mpr fun m hm => ?_
    have := (bounds_of_mem_foundFrom hm).2
    simp only [Bool.and_eq_true, decide_eq_true_eq, not_and]
    omega
  rw [patched, hnone, List.getElem?_eq_none (Nat.le_refl _)]
  rfl

/-- For the places of a part, its new text is written if it has one. -/
theorem flatMap_patched {new : P → Option Text} (as : List P) {p : P} (hne : text p ≠ [])
    (cs : List P) :
    (List.range' (as.flatMap text).length (text p).length).flatMap
        (patched (foundFrom text new 0 (as ++ p :: cs)) ((as ++ p :: cs).flatMap text)) =
      (new p).getD (text p) := by
  rw [List.flatMap_congr fun place hplace =>
    patched_foundFrom (List.mem_range'_1.mp hplace).1 (List.mem_range'_1.mp hplace).2]
  cases new p with
  | none =>
    rw [List.flatMap_append, List.flatMap_cons]
    exact flatMap_getElem?_middle _ _ _
  | some u =>
    -- everything stands at the first place, and there is one
    obtain ⟨n, hn⟩ : ∃ n, (text p).length = n + 1 :=
      Nat.exists_eq_succ_of_ne_zero fun h => hne (List.eq_nil_of_length_eq_zero h)
    dsimp only [Option.elim_some]
    rw [hn, List.range'_succ, List.flatMap_cons, if_pos rfl, List.flatMap_eq_nil_iff.mpr,
      List.append_nil, Option.getD_some]
    intro place hplace
    rw [List.mem_range'_1] at hplace
    exact if_neg (by omega)

/-- **An edit writes the parts one after another**, each with its new text if it has one, and with
what is put in before it. -/
theorem flatMap_edit {new : P → Option Text} {before : Nat → Text} (as : List P) {bs : List P}
    (hne : ∀ p ∈ bs, text p ≠ []) (houtside : Outside text before (as.flatMap text).length bs)
    (cs : List P) :
    (List.range' (as.flatMap text).length (bs.flatMap text).length).flatMap
        (edit before (foundFrom text new 0 (as ++ (bs ++ cs)))
          ((as ++ (bs ++ cs)).flatMap text)) =
      insertedFrom text new before (as.flatMap text).length bs := by
  -- a part that has been written joins those before, so the induction is for all of these
  induction bs generalizing as with
  | nil => rfl
  | cons p bs ih =>
    rw [List.forall_mem_cons] at hne
    have hlength : ((as ++ [p]).flatMap text).length =
        (as.flatMap text).length + (text p).length := by
      rw [List.flatMap_append, List.length_append, List.flatMap_singleton]
    have hassoc : as ++ p :: (bs ++ cs) = (as ++ [p]) ++ (bs ++ cs) := by simp
    have hrest := ih (as ++ [p]) hne.2 (hlength ▸ houtside.2)
    rw [hlength, ← hassoc] at hrest
    have hn : (text p).length ≠ 0 := fun h => hne.1 (List.eq_nil_of_length_eq_zero h)
    rw [List.flatMap_cons, List.length_append, ← List.range'_append_1, List.flatMap_append,
      List.cons_append, hrest, insertedFrom, ← flatMap_patched as hne.1 (bs ++ cs)]
    congr 1
    exact flatMap_append_first hn houtside.1

/-- If nothing is put in, an edit of the whole text writes every part or its new text. -/
theorem flatMap_range_patched {new : P → Option Text} {ps : List P}
    (hne : ∀ p ∈ ps, text p ≠ []) :
    (List.range (ps.flatMap text).length).flatMap
        (patched (foundFrom text new 0 ps) (ps.flatMap text)) =
      ps.flatMap fun p => (new p).getD (text p) := by
  have hedit := @flatMap_edit P text new (fun _ => []) [] ps hne (outside_nil _ ps) []
  rw [insertedFrom_nil, List.nil_append, List.append_nil] at hedit
  rw [List.range_eq_range', ← hedit]
  rfl

end LabelLoop.Division
