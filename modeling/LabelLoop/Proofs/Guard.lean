import LabelLoop.Lowering.Basic
import LabelLoop.Proofs.Pieces

/-!
# The guard on the passes

Any header can be plugged in, and a header may write markers, break those that follow, or join with
the text around it to make new ones.  Without a guard the passes might go on for ever.  The guard
compares the number of label markers before and after every pass, and this is enough
(`guarded_passes_end`): the loop comes to an end after as many passes as there were markers, and it
fails exactly where a pass first leaves another number than one less.

The loop is written down twice.  `Loops` has a rule for each way a round can go and knows nothing of
a bound on their number; `passes` recurses on the number of markers left.  The two agree
(`loops_iff`), since that number is counted anew after every pass.  `textAfter?` follows the passes
alone, as if there were no guard, and so says what the guard has to find (`Loops.endsWith`).
-/

namespace LabelLoop.Lowering

open Text Marker

variable {header : Header}

/-- A text holds a label marker exactly if there is a first one. -/
theorem firstLabel?_eq_none_iff {t : Text} : firstLabel? t = none ↔ countLabels t = 0 := by
  rw [firstLabel?_eq_head?, List.head?_eq_none_iff, countLabels, List.length_eq_zero_iff]

theorem exists_firstLabel?_iff {t : Text} :
    (∃ m, firstLabel? t = some m) ↔ 0 < countLabels t := by
  rw [← Option.ne_none_iff_exists', Ne, firstLabel?_eq_none_iff, Nat.pos_iff_ne_zero]

/-! ### The loop without a bound -/

/-- **The loop over a text**, round by round: `remaining` is the number of label markers that were
counted last, and `offsets` are the places that are left for the records. -/
inductive Loops (header : Header) : Nat → List Nat → Text → Run → Prop where
  /-- There is no marker to make a pass for. -/
  | finished {remaining : Nat} {offsets : List Nat} {t : Text} (hnone : firstLabel? t = none) :
      Loops header remaining offsets t ⟨[], .ok (t, [])⟩
  /-- The pass is made, and there is no place for its record. -/
  | exhausted {remaining : Nat} {t : Text} {m : Found Text} (hfirst : firstLabel? t = some m) :
      Loops header remaining [] t ⟨[pass header t m], .error .sourceExhausted⟩
  /-- The pass leaves another number of markers than one less. -/
  | stalled {remaining offset : Nat} {offsets : List Nat} {t : Text} {m : Found Text}
      (hfirst : firstLabel? t = some m)
      (hleft : countLabels (pass header t m).code + 1 ≠ remaining) :
      Loops header remaining (offset :: offsets) t ⟨[pass header t m],
        .error (.stalled m.item (countLabels (pass header t m).code) (remaining - 1))⟩
  /-- The pass leaves one marker less, and the next round works on the text that it leaves. -/
  | again {remaining offset : Nat} {offsets : List Nat} {t : Text} {m : Found Text} {r : Run}
      (hfirst : firstLabel? t = some m)
      (hleft : countLabels (pass header t m).code + 1 = remaining)
      (hrest : Loops header (countLabels (pass header t m).code) offsets (pass header t m).code r) :
      Loops header remaining (offset :: offsets) t (r.after (pass header t m) offset)

/-- The loop comes to one end at most. -/
theorem Loops.unique {remaining : Nat} {offsets : List Nat} {t : Text} {r r' : Run}
    (h : Loops header remaining offsets t r) (h' : Loops header remaining offsets t r') :
    r = r' := by
  induction h generalizing r' with
  | finished hnone =>
    cases h' with
    | finished => rfl
    | exhausted hfirst => simp [hnone] at hfirst
    | stalled hfirst => simp [hnone] at hfirst
    | again hfirst => simp [hnone] at hfirst
  | exhausted hfirst =>
    cases h' with
    | finished hnone => simp [hnone] at hfirst
    | exhausted hfirst' =>
      obtain rfl := Option.some.inj (hfirst.symm.trans hfirst')
      rfl
  | stalled hfirst hleft =>
    cases h' with
    | finished hnone => simp [hnone] at hfirst
    | stalled hfirst' =>
      obtain rfl := Option.some.inj (hfirst.symm.trans hfirst')
      rfl
    | again hfirst' hleft' =>
      obtain rfl := Option.some.inj (hfirst.symm.trans hfirst')
      exact absurd hleft' hleft
  | again hfirst hleft _ ih =>
    cases h' with
    | finished hnone => simp [hnone] at hfirst
    | stalled hfirst' hleft' =>
      obtain rfl := Option.some.inj (hfirst.symm.trans hfirst')
      exact absurd hleft hleft'
    | again hfirst' _ hrest' =>
      obtain rfl := Option.some.inj (hfirst.symm.trans hfirst')
      rw [ih hrest']

/-- **The loop comes to an end**, with the run that `passes` makes.  The induction is on the number
of markers, and the guard is what makes it smaller. -/
theorem loops_passes {n : Nat} {t : Text} (hcount : countLabels t = n) (offsets : List Nat) :
    Loops header n offsets t (passes header n offsets t) := by
  induction n generalizing t offsets with
  | zero => exact .finished (firstLabel?_eq_none_iff.mpr hcount)
  | succ n ih =>
    obtain ⟨m, hfirst⟩ := exists_firstLabel?_iff.mpr (by rw [hcount]; exact Nat.succ_pos n)
    rw [passes]
    simp only [hfirst]
    cases offsets with
    | nil => exact .exhausted hfirst
    | cons offset offsets =>
      dsimp only
      split
      · rename_i hleft
        have hrest := ih hleft offsets
        refine .again hfirst (by rw [hleft]) ?_
        rwa [hleft]
      · rename_i hleft
        exact .stalled hfirst fun heq => hleft (Nat.succ.inj heq)

/-- **The loop and the recursion agree.** -/
theorem loops_iff {t source : Text} {r : Run} :
    Loops header (countLabels t) (labelOffsets source) t r ↔ labels header t source = r := by
  have hends : Loops header (countLabels t) (labelOffsets source) t (labels header t source) :=
    loops_passes rfl (labelOffsets source)
  constructor
  · intro h
    exact hends.unique h
  · rintro rfl
    exact hends

/-! ### Passes without the guard -/

/-- The text **after `k` passes** that nothing checks, if there is a marker for each of them. -/
def textAfter? (header : Header) (t : Text) : Nat → Option Text
  | 0 => some t
  | k + 1 => (firstLabel? t).bind fun m => textAfter? header (pass header t m).code k

/-- The pass that comes after `k` others **consumes** its marker: it leaves one less. -/
def ConsumesAt (header : Header) (t : Text) (k : Nat) : Prop :=
  ∃ u m, textAfter? header t k = some u ∧ firstLabel? u = some m ∧
    countLabels (pass header u m).code + 1 = countLabels u

/-- The pass that comes after `k` others, for a marker called `name`, **leaves** `left` markers,
where `expected` are one less than before. -/
def LeavesAt (header : Header) (t : Text) (k : Nat) (name : Text) (left expected : Nat) : Prop :=
  ∃ u m, textAfter? header t k = some u ∧ firstLabel? u = some m ∧ m.item = name ∧
    countLabels (pass header u m).code = left ∧ expected + 1 = countLabels u

section First

variable {t : Text} {m : Found Text} (hfirst : firstLabel? t = some m)

include hfirst

theorem textAfter?_succ (k : Nat) :
    textAfter? header t (k + 1) = textAfter? header (pass header t m).code k := by
  rw [textAfter?, hfirst, Option.bind_some]

theorem consumesAt_zero_iff :
    ConsumesAt header t 0 ↔ countLabels (pass header t m).code + 1 = countLabels t := by
  constructor
  · rintro ⟨u, m', hu, hm', hleft⟩
    obtain rfl := Option.some.inj hu
    obtain rfl := Option.some.inj (hfirst.symm.trans hm')
    exact hleft
  · intro hleft
    exact ⟨t, m, rfl, hfirst, hleft⟩

theorem consumesAt_succ_iff (k : Nat) :
    ConsumesAt header t (k + 1) ↔ ConsumesAt header (pass header t m).code k := by
  unfold ConsumesAt
  rw [textAfter?_succ hfirst]

theorem leavesAt_succ_iff (k : Nat) (name : Text) (left expected : Nat) :
    LeavesAt header t (k + 1) name left expected ↔
      LeavesAt header (pass header t m).code k name left expected := by
  unfold LeavesAt
  rw [textAfter?_succ hfirst]

/-- The passes before some place consume their markers if the first does and the others do. -/
theorem forall_consumesAt_succ
    (hleft : countLabels (pass header t m).code + 1 = countLabels t) {n : Nat}
    (h : ∀ k < n, ConsumesAt header (pass header t m).code k) :
    ∀ k < n + 1, ConsumesAt header t k := by
  intro k hk
  cases k with
  | zero => exact (consumesAt_zero_iff hfirst).mpr hleft
  | succ k => exact (consumesAt_succ_iff hfirst k).mpr (h k (by omega))

end First

/-- After passes that all consume their markers, as many fewer are left. -/
theorem countLabels_textAfter? {t u : Text} {k : Nat} (hu : textAfter? header t k = some u)
    (h : ∀ j < k, ConsumesAt header t j) : countLabels u + k = countLabels t := by
  induction k generalizing t with
  | zero =>
    obtain rfl := Option.some.inj hu
    rfl
  | succ k ih =>
    obtain ⟨m, hfirst, -⟩ := Option.bind_eq_some_iff.mp hu
    rw [textAfter?_succ hfirst] at hu
    have hrest : ∀ j < k, ConsumesAt header (pass header t m).code j := by
      intro j hj
      exact (consumesAt_succ_iff hfirst j).mp (h (j + 1) (by omega))
    have hcount := ih hu hrest
    have hleft := (consumesAt_zero_iff hfirst).mp (h 0 (by omega))
    omega

/-- A pass that consumes its marker leaves one less, so it leaves no other number. -/
theorem ConsumesAt.eq_of_leavesAt {t name : Text} {k left expected : Nat}
    (h : ConsumesAt header t k) (h' : LeavesAt header t k name left expected) :
    left = expected := by
  obtain ⟨u, m, hu, hm, hleft⟩ := h
  obtain ⟨u', m', hu', hm', -, hleft', hexpected⟩ := h'
  obtain rfl := Option.some.inj (hu.symm.trans hu')
  obtain rfl := Option.some.inj (hm.symm.trans hm')
  omega

/-- A pass leaves one number of markers. -/
theorem LeavesAt.unique {t name name' : Text} {k left left' expected expected' : Nat}
    (h : LeavesAt header t k name left expected) (h' : LeavesAt header t k name' left' expected') :
    name = name' ∧ left = left' ∧ expected = expected' := by
  obtain ⟨u, m, hu, hm, rfl, rfl, hexpected⟩ := h
  obtain ⟨u', m', hu', hm', rfl, rfl, hexpected'⟩ := h'
  obtain rfl := Option.some.inj (hu.symm.trans hu')
  obtain rfl := Option.some.inj (hm.symm.trans hm')
  exact ⟨rfl, rfl, by omega⟩

/-! ### How a run ends -/

/-- The **end of a run** over `t` with the given places for its records, told by the passes without
the guard. -/
def EndsWith (header : Header) (offsets : List Nat) (t : Text) (r : Run) : Prop :=
  match r.outcome with
  | .ok (code, records) =>
    countLabels t ≤ offsets.length ∧ (∀ k < countLabels t, ConsumesAt header t k) ∧
      textAfter? header t (countLabels t) = some code ∧
      records.map Label.sourceOffset = offsets.take (countLabels t)
  | .error .sourceExhausted =>
    offsets.length < countLabels t ∧ (∀ k < offsets.length, ConsumesAt header t k) ∧ r.passes ≠ []
  | .error (.stalled name left expected) =>
    ∃ k < offsets.length, (∀ j < k, ConsumesAt header t j) ∧
      LeavesAt header t k name left expected ∧ left ≠ expected ∧ r.passes.length = k + 1

/-- One more pass before the others, which consumes its marker. -/
theorem EndsWith.after {t : Text} {m : Found Text} {offset : Nat} {offsets : List Nat} {r : Run}
    (hfirst : firstLabel? t = some m)
    (hleft : countLabels (pass header t m).code + 1 = countLabels t)
    (h : EndsWith header offsets (pass header t m).code r) :
    EndsWith header (offset :: offsets) t (r.after (pass header t m) offset) := by
  unfold EndsWith at h ⊢
  rw [Run.after]
  cases houtcome : r.outcome with
  | ok result =>
    rw [houtcome] at h
    obtain ⟨hle, hconsumes, htext, hoffsets⟩ := h
    show countLabels t ≤ offsets.length + 1 ∧ _ ∧ _ ∧ _
    rw [← hleft, textAfter?_succ hfirst, List.take_succ_cons, List.map_cons, hoffsets]
    exact ⟨by omega, forall_consumesAt_succ hfirst hleft hconsumes, htext, rfl⟩
  | error f =>
    rw [houtcome] at h
    cases f with
    | sourceExhausted =>
      obtain ⟨hlt, hconsumes, -⟩ := h
      exact ⟨by rw [List.length_cons]; omega, forall_consumesAt_succ hfirst hleft hconsumes,
        List.cons_ne_nil _ _⟩
    | stalled name left expected =>
      obtain ⟨k, hk, hconsumes, hleaves, hne, hlength⟩ := h
      exact ⟨k + 1, Nat.succ_lt_succ hk, forall_consumesAt_succ hfirst hleft hconsumes,
        (leavesAt_succ_iff hfirst k name left expected).mpr hleaves, hne,
        congrArg (· + 1) hlength⟩

/-- **How a run ends.**  The induction is on the rounds of the loop. -/
theorem Loops.endsWith {remaining : Nat} {offsets : List Nat} {t : Text} {r : Run}
    (h : Loops header remaining offsets t r) (hcount : countLabels t = remaining) :
    EndsWith header offsets t r := by
  induction h with
  | @finished remaining offsets t hnone =>
    have hzero : countLabels t = 0 := firstLabel?_eq_none_iff.mp hnone
    unfold EndsWith
    rw [hzero]
    exact ⟨Nat.zero_le _, fun k hk => absurd hk (Nat.not_lt_zero k), rfl, rfl⟩
  | exhausted hfirst =>
    exact ⟨exists_firstLabel?_iff.mp ⟨_, hfirst⟩, fun k hk => absurd hk (Nat.not_lt_zero k),
      List.cons_ne_nil _ _⟩
  | @stalled remaining offset offsets t m hfirst hleft =>
    have hpos : 0 < countLabels t := exists_firstLabel?_iff.mp ⟨m, hfirst⟩
    exact ⟨0, Nat.succ_pos _, fun j hj => absurd hj (Nat.not_lt_zero j),
      ⟨t, m, rfl, hfirst, rfl, rfl, by omega⟩, by omega, rfl⟩
  | again hfirst hleft _ ih => exact (ih rfl).after hfirst (hleft.trans hcount.symm)

section EndsWith

variable {offsets : List Nat} {t : Text} {r : Run} (h : EndsWith header offsets t r)

include h

/-- **When the places for the records are used up.** -/
theorem EndsWith.exhausted_iff :
    r.outcome = .error .sourceExhausted ↔
      offsets.length < countLabels t ∧ ∀ k < offsets.length, ConsumesAt header t k := by
  unfold EndsWith at h
  constructor
  · intro houtcome
    rw [houtcome] at h
    exact ⟨h.1, h.2.1⟩
  · rintro ⟨hlt, hconsumes⟩
    cases houtcome : r.outcome with
    | ok result =>
      rw [houtcome] at h
      exact absurd h.1 (Nat.not_le_of_lt hlt)
    | error f =>
      cases f with
      | sourceExhausted => rfl
      | stalled name left expected =>
        rw [houtcome] at h
        obtain ⟨k, hk, -, hleaves, hne, -⟩ := h
        exact absurd ((hconsumes k hk).eq_of_leavesAt hleaves) hne

/-- **When a pass is found to stall**, and which one it is. -/
theorem EndsWith.stalled_iff (k : Nat) (name : Text) (left expected : Nat) :
    r.outcome = .error (.stalled name left expected) ∧ r.passes.length = k + 1 ↔
      k < offsets.length ∧ (∀ j < k, ConsumesAt header t j) ∧
        LeavesAt header t k name left expected ∧ left ≠ expected := by
  unfold EndsWith at h
  constructor
  · rintro ⟨houtcome, hlength⟩
    rw [houtcome] at h
    obtain ⟨k', hk, hconsumes, hleaves, hne, hlength'⟩ := h
    obtain rfl : k' = k := by omega
    exact ⟨hk, hconsumes, hleaves, hne⟩
  · rintro ⟨hk, hconsumes, hleaves, hne⟩
    -- no other end goes with a pass that does not consume its marker
    have hnot : ¬ConsumesAt header t k := fun hconsume => hne (hconsume.eq_of_leavesAt hleaves)
    cases houtcome : r.outcome with
    | ok result =>
      rw [houtcome] at h
      obtain ⟨u, m, hu, -, -, -, hexpected⟩ := hleaves
      have hcount := countLabels_textAfter? hu hconsumes
      exact absurd (h.2.1 k (by omega)) hnot
    | error f =>
      rw [houtcome] at h
      cases f with
      | sourceExhausted => exact absurd (h.2.1 k hk) hnot
      | stalled name' left' expected' =>
        obtain ⟨k', hk', hconsumes', hleaves', hne', hlength⟩ := h
        rcases Nat.lt_trichotomy k k' with hlt | rfl | hlt
        · exact absurd (hconsumes' k hlt) hnot
        · obtain ⟨rfl, rfl, rfl⟩ := hleaves.unique hleaves'
          exact ⟨rfl, hlength⟩
        · exact absurd ((hconsumes k' hlt).eq_of_leavesAt hleaves') hne'

/-- **When a run has a result.** -/
theorem EndsWith.ok_iff :
    (∃ result, r.outcome = .ok result) ↔
      countLabels t ≤ offsets.length ∧ ∀ k < countLabels t, ConsumesAt header t k := by
  unfold EndsWith at h
  constructor
  · rintro ⟨result, houtcome⟩
    rw [houtcome] at h
    exact ⟨h.1, h.2.1⟩
  · rintro ⟨hle, hconsumes⟩
    cases houtcome : r.outcome with
    | ok result => exact ⟨result, rfl⟩
    | error f =>
      rw [houtcome] at h
      cases f with
      | sourceExhausted => exact absurd h.1 (Nat.not_lt_of_le hle)
      | stalled name left expected =>
        obtain ⟨k, -, hbefore, hleaves, hne, -⟩ := h
        obtain ⟨u, m, hu, -, -, -, hexpected⟩ := id hleaves
        have hcount := countLabels_textAfter? hu hbefore
        exact absurd ((hconsumes k (by omega)).eq_of_leavesAt hleaves) hne

/-- **What a run that has a result has done.** -/
theorem EndsWith.of_ok {code : Text} {records : List Label}
    (houtcome : r.outcome = .ok (code, records)) :
    countLabels code = 0 ∧ records.length = countLabels t ∧
      records.map Label.sourceOffset = offsets.take (countLabels t) := by
  unfold EndsWith at h
  rw [houtcome] at h
  obtain ⟨hle, hconsumes, htext, hoffsets⟩ := h
  have hcount := countLabels_textAfter? htext hconsumes
  have hlength := congrArg List.length hoffsets
  rw [List.length_map, List.length_take, Nat.min_eq_left hle] at hlength
  exact ⟨by omega, hlength, hoffsets⟩

end EndsWith

/-- **The guard makes the passes safe, whatever header is plugged in.**  The loop over a text comes
to an end, with one run only, and that has at most as many passes as the text had label markers.  If
it has a result, then no label marker is left in the code, and there is one record for each marker
that the text had, with the places of the source in order.  If it fails, either a pass stalled, or
the source has fewer markers than the text.  It fails for want of places exactly if all passes
before consumed their markers; and it fails after the pass that comes after `k` others, with the
number of markers that this pass left, exactly if this is the first pass that leaves another number
than one less. -/
theorem guarded_passes_end (header : Header) (t source : Text) :
    ∃ r, labels header t source = r ∧
      (∀ r', Loops header (countLabels t) (labelOffsets source) t r' ↔ r' = r) ∧
      r.passes.length ≤ countLabels t ∧
      (∀ code records, r.outcome = .ok (code, records) →
        countLabels code = 0 ∧ records.length = countLabels t ∧
        records.map Label.sourceOffset = (labelOffsets source).take (countLabels t)) ∧
      (∀ f, r.outcome = .error f → r.passes ≠ [] ∧
        ((∃ name left expected, f = .stalled name left expected) ∨
          f = .sourceExhausted ∧ countLabels source < countLabels t)) ∧
      ((∃ result, r.outcome = .ok result) ↔
        countLabels t ≤ countLabels source ∧ ∀ k < countLabels t, ConsumesAt header t k) ∧
      (r.outcome = .error .sourceExhausted ↔
        countLabels source < countLabels t ∧ ∀ k < countLabels source, ConsumesAt header t k) ∧
      ∀ k name left expected,
        r.outcome = .error (.stalled name left expected) ∧ r.passes.length = k + 1 ↔
          k < countLabels source ∧ (∀ j < k, ConsumesAt header t j) ∧
            LeavesAt header t k name left expected ∧ left ≠ expected := by
  have hloops := loops_iff.mpr (rfl : labels header t source = _)
  have hends := hloops.endsWith rfl
  have hlength : (labelOffsets source).length = countLabels source := List.length_map _
  have hok := hends.ok_iff
  have hexhausted := hends.exhausted_iff
  have hstalled := hends.stalled_iff
  rw [hlength] at hok hexhausted
  simp only [hlength] at hstalled
  refine ⟨_, rfl, fun r' => ⟨fun h => ?_, ?_⟩, length_passes_le header _ _ t,
    fun code records => hends.of_ok, fun f houtcome => ?_, hok, hexhausted, hstalled⟩
  · exact h.unique hloops
  · rintro rfl
    exact hloops
  · unfold EndsWith at hends
    rw [houtcome] at hends
    cases f with
    | stalled name left expected =>
      obtain ⟨k, -, -, -, -, hpasses⟩ := hends
      exact ⟨List.ne_nil_of_length_eq_add_one hpasses, Or.inl ⟨name, left, expected, rfl⟩⟩
    | sourceExhausted =>
      exact ⟨hends.2.2, Or.inr ⟨rfl, (hexhausted.mp houtcome).1⟩⟩

/-- A header that writes its own marker again is found out at once. -/
example :
    (labels (fun name => "[lbl] ".toList ++ name ++ ": ".toList) "[lbl] a: [lbl] b:".toList
      "[lbl] a: [lbl] b:".toList).outcome = .error (.stalled "a".toList 2 1) := by
  rfl

end LabelLoop.Lowering
