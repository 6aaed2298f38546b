import BundleServer.Pattern.Expression
import BundleServer.Text.Ranges

/-!
# Sets of characters

A set is kept as ranges of code points, ascending and apart from each other. Sets are made by putting ranges into them,
one by one, and `contains_insert` says that this adds the characters of the range.
-/

namespace BundleServer.Pattern

open Text

/-- A set of characters. -/
abbrev CharSet := Ranges

namespace CharSet

/-- The greatest code point. -/
def last : Nat := 0x10FFFF

/-- All characters. -/
def everything : CharSet := [(0, last)]

/-- Puts a range into a set. Ranges that it meets or touches become part of it. -/
def insert (low high : Nat) : CharSet → CharSet
  | [] => [(low, high)]
  | (a, b) :: rest =>
    if high + 1 < a then (low, high) :: (a, b) :: rest
    else if b + 1 < low then (a, b) :: insert low high rest
    else insert (min low a) (max high b) rest

/-- The set of some ranges in any order. -/
def ofRanges (ranges : Ranges) : CharSet := ranges.foldl (fun set (low, high) => insert low high set) []

/-- The characters of either set. -/
def union (first second : CharSet) : CharSet := second.foldl (fun set (low, high) => insert low high set) first

/-- The code points from `start` on that lie in none of the ranges. -/
def gaps (start : Nat) : Ranges → CharSet
  | [] => if start ≤ last then [(start, last)] else []
  | (low, high) :: rest =>
    if start < low then (start, low - 1) :: gaps (max start (high + 1)) rest
    else gaps (max start (high + 1)) rest

/-- The characters that are not in the set. -/
def complement (set : CharSet) : CharSet := gaps 0 set

/-- The characters of both sets. -/
def intersection (first second : CharSet) : CharSet := complement (union (complement first) (complement second))

/-- The characters of the first set that are not in the second. -/
def difference (first second : CharSet) : CharSet := intersection first (complement second)

/-- The combination of two sets. -/
def combine (operation : SetOperation) (first second : CharSet) : CharSet :=
  match operation with
  | .intersection => intersection first second
  | .difference => difference first second
  | .symmetricDifference => union (difference first second) (difference second first)

/-- The set of one character. -/
def single (c : Char) : CharSet := [(c.toNat, c.toNat)]

/-- The part of a range that lies in `[low, high]`, moved to the range that starts at `other`. -/
def moved (low high other : Nat) (range : Nat × Nat) : Ranges :=
  let start := max low range.1
  let stop := min high range.2
  if start ≤ stop then [(start - low + other, stop - low + other)] else []

/-- The set with the ASCII letters of the other case for those it has. -/
def withOtherCase (set : CharSet) : CharSet :=
  union set (ofRanges (set.flatMap fun range => moved 0x41 0x5A 0x61 range ++ moved 0x61 0x7A 0x41 range))

/-- The characters of a class with a name. -/
def ofNamed : NamedClass → CharSet
  | .alnum => [(0x30, 0x39), (0x41, 0x5A), (0x61, 0x7A)]
  | .alpha => [(0x41, 0x5A), (0x61, 0x7A)]
  | .ascii => [(0x00, 0x7F)]
  | .blank => [(0x09, 0x09), (0x20, 0x20)]
  | .cntrl => [(0x00, 0x1F), (0x7F, 0x7F)]
  | .digit => [(0x30, 0x39)]
  | .graph => [(0x21, 0x7E)]
  | .lower => [(0x61, 0x7A)]
  | .print => [(0x20, 0x7E)]
  | .punct => [(0x21, 0x2F), (0x3A, 0x40), (0x5B, 0x60), (0x7B, 0x7E)]
  | .space => [(0x09, 0x0D), (0x20, 0x20)]
  | .upper => [(0x41, 0x5A)]
  | .word => [(0x30, 0x39), (0x41, 0x5A), (0x5F, 0x5F), (0x61, 0x7A)]
  | .xdigit => [(0x30, 0x39), (0x41, 0x46), (0x61, 0x66)]

/-- The ranges of a set as far as they lie in ASCII. -/
def asciiPart (set : CharSet) : Ranges := set.filter fun range => range.1 < 0x80

/-- Has the set ASCII characters only? -/
def isAscii (set : CharSet) : Bool := set.all fun range => range.2 < 0x80

/-- A range put into a set adds its own characters and no others. -/
theorem contains_insert {low high : Nat} {set : CharSet} (c : Char) (filled : low ≤ high)
    (allFilled : ∀ range ∈ set, range.1 ≤ range.2) :
    Ranges.contains (insert low high set) c = ((low ≤ c.toNat && c.toNat ≤ high) || Ranges.contains set c) := by
  induction set generalizing low high with
  | nil => simp [insert, Ranges.contains]
  | cons range rest ih =>
    obtain ⟨a, b⟩ := range
    have ab : a ≤ b := allFilled (a, b) (by simp)
    have restFilled : ∀ range ∈ rest, range.1 ≤ range.2 := fun range h => allFilled range (List.mem_cons_of_mem _ h)
    unfold insert
    split
    · simp [Ranges.contains]
    · split
      · have := ih filled restFilled
        simp only [Ranges.contains, List.any_cons] at this ⊢
        rw [this, Bool.or_left_comm]
      · have merged := @ih (min low a) (max high b) (by omega) restFilled
        simp only [Ranges.contains, List.any_cons] at merged ⊢
        rw [merged, ← Bool.or_assoc]
        congr 1
        rw [Bool.eq_iff_iff]
        simp only [Bool.and_eq_true, Bool.or_eq_true, decide_eq_true_eq]
        omega

end CharSet

end BundleServer.Pattern
