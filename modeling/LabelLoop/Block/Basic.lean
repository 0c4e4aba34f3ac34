import LabelLoop.Field.Basic

/-!
# Blocks

The block around a place in a source is found by counting braces alone.  Backwards from the place,
the first opening brace that no closing brace has answered starts the block; forwards, the first
closing brace that answers no opening brace ends it.  The two scans know nothing of each other:
either may run off its end of the source.
-/

namespace LabelLoop

/-! ### The span of a block -/

/-- The **span of a block**. -/
structure Block where
  /-- The position of the opening brace; none when there is none. -/
  opening : Option Nat
  /-- The position of the closing brace, or the end of the source when there is none. -/
  stop : Nat
  deriving DecidableEq, Repr

namespace Block

open Text

/-- The position of the opening brace as a number, `-1` when there is none. -/
def start (b : Block) : Int :=
  match b.opening with
  | none => -1
  | some n => n

/-- The block has an opening brace. -/
def hasOpening (b : Block) : Bool :=
  b.opening.isSome

/-- The block has a closing brace in `source`. -/
def hasClosing (b : Block) (source : Text) : Bool :=
  b.stop < source.length

/-- The block lies between two braces of `source`. -/
def enclosed (b : Block) (source : Text) : Bool :=
  b.hasOpening && b.hasClosing source

/-- The text between the braces. -/
def inner (b : Block) (source : Text) : Text :=
  slice source (b.start + 1).toNat b.stop

/-- The text of the block with its braces. -/
def outer (b : Block) (source : Text) : Text :=
  slice source b.start.toNat (b.stop + 1)

/-- A span from two numbers: the first must be at least `-1`, the second at least `0`. -/
def ofBounds (start stop : Except Field.Issue Int) : Except (List Field.Issue) Block :=
  match start, stop with
  | .ok a, .ok b => .ok ⟨if a < 0 then none else some a.toNat, b.toNat⟩
  | a, b => .error (Field.issues a ++ Field.issues b)

/-- A span from the fields `start` and `end`. -/
def ofEntries (entries : Entries) : Except (List Field.Issue) Block :=
  ofBounds (Field.required entries "start".toList (Field.wholeFrom (-1)))
    (Field.required entries "end".toList (Field.wholeFrom 0))

/-- Assigning to a field of a span is refused.  A name that begins with a low line is never that of
a field, and assigning to it leaves the span as it is. -/
def assign (b : Block) : Entries → Except (List Field.Issue) Block
  | [] => .ok b
  | (name, _) :: rest =>
    if beginsWith name ['_'] then assign b rest else .error [⟨name, .frozen⟩]

/-! ### The block around a place -/

/-- Looks for the first `sought` brace that answers none of the `other` braces passed on the way,
`depth` of which are waiting for an answer.  The result is the number of characters after it. -/
def unanswered? (other sought : Char) (depth : Nat) : Text → Option Nat
  | [] => none
  | c :: cs =>
    if c = other then unanswered? other sought (depth + 1) cs
    else if c = sought then
      match depth with
      | 0 => some cs.length
      | d + 1 => unanswered? other sought d cs
    else unanswered? other sought depth cs

/-- What is found lies inside the text. -/
theorem unanswered?_lt {other sought : Char} {depth rest : Nat} {t : Text}
    (h : unanswered? other sought depth t = some rest) : rest < t.length := by
  induction t generalizing depth with
  | nil => simp [unanswered?] at h
  | cons c cs ih =>
    rw [List.length_cons]
    unfold unanswered? at h
    split at h
    · exact Nat.lt_succ_of_lt (ih h)
    · split at h
      · split at h
        · -- the brace found is the first character of the text
          injection h with h
          omega
        · exact Nat.lt_succ_of_lt (ih h)
      · exact Nat.lt_succ_of_lt (ih h)

/-- The opening brace of the block around position `place`. -/
def opening? (source : Text) (place : Nat) : Option Nat :=
  unanswered? '\x7d' '\x7b' 0 (source.take place).reverse

/-- The closing brace of the block around position `place`. -/
def closing? (source : Text) (place : Nat) : Option Nat :=
  (unanswered? '\x7b' '\x7d' 0 (source.drop (place + 1))).map fun rest => source.length - rest - 1

/-- **The block around** a position of `source`, or its end. -/
def around (source : Text) (place : Nat) : Block where
  opening := opening? source place
  stop := (closing? source place).getD source.length

/-- The opening brace stands before the place. -/
theorem opening?_lt {source : Text} {place position : Nat}
    (h : opening? source place = some position) : position < place := by
  have := unanswered?_lt h
  simp only [List.length_reverse, List.length_take] at this
  omega

/-- A block ends at the end of the source at the latest. -/
theorem around_stop_le (source : Text) (place : Nat) :
    (around source place).stop ≤ source.length := by
  rw [around, closing?]
  cases unanswered? '\x7b' '\x7d' 0 (source.drop (place + 1)) with
  | none => simp
  | some rest => simp only [Option.map_some, Option.getD_some]; omega

end Block

end LabelLoop
