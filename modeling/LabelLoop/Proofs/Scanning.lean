import LabelLoop.Proofs.RoundTrip

/-!
# Where a literal ends

The scanner by quotes stands for a pattern with alternatives that are tried in order and taken back:
a literal ends at its quote, or goes on behind a backslash and that quote, or goes on behind any
character of the line.  `attempts` lists, in the order in which they are tried, all places at which
the pattern can end, and the scanner takes the first of them (`head?_attempts`).

What it comes to can be said without any trying (`quote_scan_is_direct`).  Look at all places where
the quote comes again in its line (`placesOf`).  The literal ends at the first of them that does not
follow a backslash, and at the last one if all of them do (`chosen?`).  `directFrom` is the scan
that does so from one place of the source to the next.
-/

namespace LabelLoop.Literal

open Text

/-! ### All ways in which a literal can end -/

/-- The lengths of all texts that begin here and end a literal, in the order in which they are
tried: up to the quote itself, over a backslash and the quote, over any character of the line. -/
def attempts (quote : Char) : Text → List Nat
  | [] => []
  | c :: cs =>
    (if c = quote then [1] else []) ++
      ((match cs with
        | [] => []
        | d :: rest => if c = '\\' ∧ d = quote then (attempts quote rest).map (· + 2) else []) ++
      if c = '\n' then [] else (attempts quote cs).map (· + 1))

/-- **The first attempt that succeeds** decides where the literal ends. -/
theorem head?_attempts {q : Char} (hq : IsQuote q) (t : Text) :
    (attempts q t).head? = closing? q t := by
  fun_induction closing? q t with
  | case1 => rfl
  | case2 => simp [attempts]
  | case3 c hc => simp [attempts, hc]
  | case4 d rest => simp [attempts]
  | case5 d rest hne => simp [attempts, hne]
  | case6 c d rest hne hline hescaped ih =>
    obtain ⟨rfl, rfl⟩ := hescaped
    -- first over both characters, and if that leads nowhere, up to the quote after the backslash
    have hquote : (attempts d (d :: rest)).head? = some 1 := by cases rest <;> simp [attempts]
    rw [attempts, if_neg hne, if_neg hline, List.nil_append, List.head?_append]
    simp only [true_and, if_true, List.head?_map, ih, hquote]
    cases closing? d rest <;> rfl
  | case7 c d rest hne hline hescaped ih =>
    rw [attempts, if_neg hne, if_neg hline]
    simp only [if_neg hescaped, List.nil_append, List.head?_map, ih]

/-- The literal at the front of a text, by trying. -/
def tried? : Recogniser Unit
  | [] => none
  | c :: cs => if IsQuote c then (attempts c cs).head?.map fun n => ((), n + 1) else none

theorem tried?_eq_read? : tried? = read? := by
  funext t
  cases t with
  | nil => rfl
  | cons c cs =>
    by_cases hc : IsQuote c
    · rw [tried?, if_pos hc, head?_attempts hc, read?_of_isQuote hc]
    · rw [tried?, if_neg hc, read?_eq_none_of_not_isQuote hc]

/-! ### The direct scan -/

/-- The places of `q` from `start` on, up to the next line break. -/
def placesOf (q : Char) (s : Text) (start : Nat) : List Nat :=
  (List.range' start (firstLine (s.drop start)).length).filter fun r => s[r]? = some q

/-- The place at which a literal ends, out of those at which its quote comes again: the first one
that does not follow a backslash, and the last one if all do. -/
def chosen? (s : Text) (places : List Nat) : Option Nat :=
  (places.find? fun r => s[r - 1]? ≠ some '\\').or places.getLast?

/-- The place at which the literal ends that begins at `p`. -/
def literalEnd? (s : Text) (p : Nat) : Option Nat :=
  match s[p]? with
  | none => none
  | some q => if IsQuote q then chosen? s (placesOf q s (p + 1)) else none

theorem mem_of_chosen? {s : Text} {places : List Nat} {r : Nat} (h : chosen? s places = some r) :
    r ∈ places := by
  rcases Option.or_eq_some_iff.mp h with h | ⟨-, h⟩
  · exact List.mem_of_find?_eq_some h
  · exact List.mem_of_getLast? h

theorem lt_of_literalEnd? {s : Text} {p r : Nat} (h : literalEnd? s p = some r) : p < r := by
  unfold literalEnd? at h
  split at h
  · exact absurd h (by simp)
  · split at h
    · exact (List.mem_range'_1.mp (List.mem_filter.mp (mem_of_chosen? h)).1).1
    · exact absurd h (by simp)

/-- **The direct scan** from the place `p` on. -/
def directFrom (s : Text) (p : Nat) : List Span :=
  if _hlt : p < s.length then
    match hend : literalEnd? s p with
    | none => directFrom s (p + 1)
    | some r => ⟨p, r + 1⟩ :: directFrom s (r + 1)
  else []
termination_by s.length - p
decreasing_by
  · omega
  · have := lt_of_literalEnd? hend
    omega

/-! ### The places of a quote, one character at a time -/

theorem placesOf_nil {q : Char} {s : Text} {start : Nat} (h : s.drop start = []) :
    placesOf q s start = [] := by
  rw [placesOf, h]
  rfl

theorem placesOf_newline {q : Char} {s t : Text} {start : Nat} (h : s.drop start = '\n' :: t) :
    placesOf q s start = [] := by
  rw [placesOf, h]
  rfl

theorem placesOf_cons {q c : Char} {s t : Text} {start : Nat} (h : s.drop start = c :: t)
    (hline : c ≠ '\n') :
    placesOf q s start =
      if c = q then start :: placesOf q s (start + 1) else placesOf q s (start + 1) := by
  have ht : s.drop (start + 1) = t := drop_of_drop_eq (a := [c]) h
  rw [placesOf, placesOf, h, ht, firstLine_cons hline, List.length_cons, List.range'_succ,
    List.filter_cons, getElem?_of_drop_eq h]
  simp only [Option.some.injEq, decide_eq_true_eq]

theorem chosen?_cons_of_ne {s : Text} {r : Nat} (h : s[r - 1]? ≠ some '\\') (places : List Nat) :
    chosen? s (r :: places) = some r := by
  rw [chosen?, List.find?_cons_of_pos (by simpa using h)]
  rfl

/-- A place after a backslash is taken only if there is no other. -/
theorem chosen?_cons_of_eq {s : Text} {r : Nat} (h : s[r - 1]? = some '\\') (places : List Nat) :
    chosen? s (r :: places) = some ((chosen? s places).getD r) := by
  rw [chosen?, chosen?, List.find?_cons_of_neg (by simp [h]), List.getLast?_cons]
  cases places.find? fun r => s[r - 1]? ≠ some '\\' <;> rfl

/-- **The place that is chosen is the one found by reading on.**  The text is read from `start`, and
it must not begin there with a quote that follows a backslash. -/
theorem chosen?_placesOf {q : Char} (hq : IsQuote q) {s t : Text} {start : Nat}
    (ht : s.drop start = t) (hstart : s[start - 1]? = some '\\' → t.head? ≠ some q) :
    chosen? s (placesOf q s start) = (closing? q t).map fun n => start + n - 1 := by
  have hquote : q ≠ '\n' := Ne.symm (hq.ne (by decide))
  have hescape : q ≠ '\\' := Ne.symm (hq.ne (by decide))
  fun_induction closing? q t generalizing start with
  | case1 => rw [placesOf_nil ht]; rfl
  | case2 =>
    rw [placesOf_cons ht hquote, if_pos rfl]
    exact chosen?_cons_of_ne (fun h => hstart h rfl) _
  | case3 c hc =>
    by_cases hline : c = '\n'
    · rw [placesOf_newline (hline ▸ ht)]
      rfl
    · have hend : s.drop (start + 1) = [] := drop_of_drop_eq (a := [c]) ht
      rw [placesOf_cons ht hline, if_neg hc, placesOf_nil hend]
      rfl
  | case4 d rest =>
    rw [placesOf_cons ht hquote, if_pos rfl]
    exact chosen?_cons_of_ne (fun h => hstart h rfl) _
  | case5 d rest hne => rw [placesOf_newline ht]; rfl
  | case6 c d rest hne hline hescaped ih =>
    obtain ⟨rfl, rfl⟩ := hescaped
    have hnext : s.drop (start + 1) = d :: rest := drop_of_drop_eq (a := ['\\']) ht
    have hrest : s.drop (start + 1 + 1) = rest := drop_of_drop_eq (a := [d]) hnext
    have hbackslash : s[start + 1 - 1]? = some '\\' := getElem?_of_drop_eq ht
    have hbefore : s[start + 1 + 1 - 1]? = some d := getElem?_of_drop_eq hnext
    have hread := ih hrest fun h => absurd (Option.some.inj (hbefore.symm.trans h)) hescape
    rw [placesOf_cons ht hline, if_neg hne, placesOf_cons hnext hquote, if_pos rfl,
      chosen?_cons_of_eq hbackslash, hread]
    cases closing? d rest with
    | none => rfl
    | some n =>
      simp only [Option.map_some, Option.getD_some, Option.some.injEq]
      omega
  | case7 c d rest hne hline hescaped ih =>
    have hnext : s.drop (start + 1) = d :: rest := drop_of_drop_eq (a := [c]) ht
    have hbefore : s[start + 1 - 1]? = some c := getElem?_of_drop_eq ht
    have hread := ih hnext fun h hd =>
      hescaped ⟨Option.some.inj (hbefore.symm.trans h), Option.some.inj hd⟩
    rw [placesOf_cons ht hline, if_neg hne, hread, Option.map_map]
    congr 1
    funext n
    simp only [Function.comp_apply]
    omega

/-! ### The two scans agree -/

theorem literalEnd?_of_isQuote {q : Char} (hq : IsQuote q) {s t : Text} {p : Nat}
    (h : s.drop p = q :: t) : literalEnd? s p = (closing? q t).map (p + ·) := by
  have hquote := getElem?_of_drop_eq h
  have hescape : q ≠ '\\' := Ne.symm (hq.ne (by decide))
  have hnext : s.drop (p + 1) = t := drop_of_drop_eq (a := [q]) h
  have hchosen := chosen?_placesOf hq hnext fun hbefore =>
    absurd (Option.some.inj (hquote.symm.trans hbefore)) hescape
  simp only [literalEnd?, hquote, if_pos hq, hchosen]
  congr 1
  funext n
  omega

theorem literalEnd?_of_read? {c : Char} {s t : Text} {p : Nat} (h : s.drop p = c :: t)
    (hread : read? (c :: t) = none) : literalEnd? s p = none := by
  by_cases hc : IsQuote c
  · rw [read?_of_isQuote hc, Option.map_eq_none_iff] at hread
    rw [literalEnd?_of_isQuote hc h, hread]
    rfl
  · simp only [literalEnd?, getElem?_of_drop_eq h, if_neg hc]

theorem directFrom_of_none {s : Text} {p : Nat} (hlt : p < s.length) (h : literalEnd? s p = none) :
    directFrom s p = directFrom s (p + 1) := by
  rw [directFrom, dif_pos hlt]
  split
  · rfl
  · rename_i r hr
    rw [h] at hr
    exact absurd hr (by simp)

theorem directFrom_of_some {s : Text} {p r : Nat} (hlt : p < s.length)
    (h : literalEnd? s p = some r) : directFrom s p = ⟨p, r + 1⟩ :: directFrom s (r + 1) := by
  rw [directFrom, dif_pos hlt]
  split
  · rename_i hnone
    rw [h] at hnone
    exact absurd hnone (by simp)
  · rename_i r' hr
    rw [h] at hr
    rw [Option.some.inj hr]

/-- **The direct scan finds the literals of the bits**, from any of them on. -/
theorem directFrom_source {bits : List Bit} (hbits : Scanned bits) {s : Text} {p : Nat}
    (h : s.drop p = source bits) : directFrom s p = spansFrom p bits := by
  induction hbits using Scanned.induct generalizing p with
  | nil =>
    rw [directFrom, dif_neg (Nat.not_lt.mpr (List.drop_eq_nil_iff.mp h))]
    rfl
  | @char c bits hread _ ih =>
    obtain ⟨hlt, -⟩ := List.getElem?_eq_some_iff.mp (getElem?_of_drop_eq h)
    have hnext : s.drop (p + 1) = source bits := drop_of_drop_eq (a := [c]) h
    rw [directFrom_of_none hlt (literalEnd?_of_read? h hread), ih hnext]
    rfl
  | @literal q body bits hq hclosing _ ih =>
    obtain ⟨hlt, -⟩ := List.getElem?_eq_some_iff.mp (getElem?_of_drop_eq h)
    have hend : literalEnd? s p = some (p + body.length) := by
      refine (literalEnd?_of_isQuote hq h).trans ?_
      exact congrArg (Option.map (p + ·)) hclosing
    have hnext : s.drop (p + body.length + 1) = source bits :=
      drop_of_drop_eq (a := q :: body) h
    rw [directFrom_of_some hlt hend, ih hnext]
    rfl

/-! ### What the scan leaves -/

/-- Every span holds a literal: a quote, text of the same line, and the quote again. -/
theorem exists_of_mem_spansFrom {bits : List Bit} (hbits : Scanned bits) {s : Text} {offset : Nat}
    (h : s.drop offset = source bits) {span : Span} (hspan : span ∈ spansFrom offset bits) :
    ∃ q inner, IsQuote q ∧ '\n' ∉ inner ∧ slice s span.start span.stop = q :: (inner ++ [q]) := by
  obtain ⟨before, l, after, rfl, rfl⟩ := exists_literal_of_mem_spansFrom hspan
  obtain ⟨q, body, rfl, hq, hclosing⟩ := hbits.fits
  obtain ⟨inner, rfl, hinner⟩ := exists_of_closing?_eq_length hq hclosing
  rw [source_append, source_literal] at h
  exact ⟨q, inner, hq, hinner, slice_of_drop_eq (drop_of_drop_eq h)⟩

/-- A quote outside of all spans does not come again in its line. -/
theorem not_mem_of_outside {bits : List Bit} (hbits : Scanned bits) {s : Text} {offset p : Nat}
    (h : s.drop offset = source bits) (hle : offset ≤ p) {q : Char} (hq : IsQuote q)
    (hp : s[p]? = some q)
    (houtside : ∀ span ∈ spansFrom offset bits, ¬(span.start ≤ p ∧ p < span.stop)) :
    q ∉ firstLine (s.drop (p + 1)) := by
  induction hbits using Scanned.induct generalizing offset with
  | nil =>
    have hnone := List.getElem?_eq_none (Nat.le_trans (List.drop_eq_nil_iff.mp h) hle)
    exact absurd (hp.symm.trans hnone) (by simp)
  | @char c bits hread _ ih =>
    have hnext : s.drop (offset + 1) = source bits := drop_of_drop_eq (a := [c]) h
    rcases Nat.eq_or_lt_of_le hle with rfl | hlt
    · rw [← List.head?_drop, h] at hp
      obtain rfl : c = q := Option.some.inj hp
      rw [read?_of_isQuote hq, Option.map_eq_none_iff] at hread
      rw [hnext]
      exact (closing?_eq_none_iff hq _).mp hread
    · exact ih hnext hlt houtside
  | @literal q' body bits _ _ _ ih =>
    -- the place does not lie in this literal
    have hbehind : offset + (q' :: body).length ≤ p :=
      Nat.le_of_not_lt fun hlt => houtside _ List.mem_cons_self ⟨hle, hlt⟩
    exact ih (drop_of_drop_eq h) hbehind fun span hspan =>
      houtside span (List.mem_cons_of_mem _ hspan)

/-- **The scan by quotes is a direct scan.**  Trying all ways to end a literal and taking the first
that succeeds finds the same literals as choosing among the later quotes of the line.  So the
literals lie in the source one after another and without overlap, each of them is a quote, text of
the same line and that quote again, and no quote outside of all literals comes again in its line. -/
theorem quote_scan_is_direct (s : Text) :
    byQuotes s = (search tried? s).map (fun f => ⟨f.start, f.stop⟩) ∧
    byQuotes s = directFrom s 0 ∧
    Tidy s (byQuotes s) ∧
    (∀ span ∈ byQuotes s, ∃ q inner, IsQuote q ∧ '\n' ∉ inner ∧
      slice s span.start span.stop = q :: (inner ++ [q])) ∧
    ∀ p q, s[p]? = some q → IsQuote q →
      (∀ span ∈ byQuotes s, ¬(span.start ≤ p ∧ p < span.stop)) →
        q ∉ firstLine (s.drop (p + 1)) := by
  obtain ⟨bits, hbits, rfl⟩ := exists_scanned s
  have hspans := byQuotes_source hbits
  have hdrop : (source bits).drop 0 = source bits := List.drop_zero
  refine ⟨by rw [tried?_eq_read?]; rfl, ?_, tidy_byQuotes _, ?_, ?_⟩
  · rw [hspans, directFrom_source hbits hdrop]
  · rw [hspans]
    exact fun span => exists_of_mem_spansFrom hbits hdrop
  · rw [hspans]
    exact fun p q hp hq => not_mem_of_outside hbits hdrop (Nat.zero_le p) hq hp

end LabelLoop.Literal
