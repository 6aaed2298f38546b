import BundleServer.Pattern.Meaning

/-!
# How large a pattern is

Patterns that would take too much room are refused. The measure is the room for a machine that reads a text byte by
byte, in either direction: its states are counted in bytes of memory, and a repetition takes a copy of its part for
every time. The count is exact for ASCII; a set beyond it is counted as if it held all characters there.
-/

namespace BundleServer.Pattern

/-- The way in which a machine reads. -/
inductive Direction where
  | forward
  | backward
  deriving DecidableEq, Repr

/-- The room of a state that leads on to one other. -/
def stateSize : Nat := 32

/-- The room of a state from which so many ways lead on. -/
def forkSize (ways : Nat) : Nat := stateSize + 4 * ways

/-- The room of a state that takes a byte from one of so many ranges. -/
def tableSize (ranges : Nat) : Nat := stateSize + 8 * ranges

/-- The room for the characters of a set. Beyond ASCII the first bytes of characters make eight ranges. Reading forward,
seven states take what may follow; reading backward, the eight ranges end sequences of twenty-six bytes in all. -/
def CharSet.size (direction : Direction) (set : CharSet) : Nat :=
  match set with
  | [(low, high)] =>
    if low = high then stateSize * String.utf8ByteSize (String.singleton (Char.ofNat low)) else general
  | _ => general
where
  /-- The room for a set of several characters. -/
  general : Nat :=
    let ranges := (CharSet.asciiPart set).length
    if CharSet.isAscii set then stateSize + tableSize ranges
    else match direction with
      | .forward => stateSize + tableSize (ranges + 8) + 7 * tableSize 1
      | .backward => stateSize + forkSize (ranges + 8) + stateSize * (ranges + 26)

/-- The room for a part that is repeated so often. -/
def repeatSize (least : Nat) (most? : Option Nat) (canBeEmpty : Bool) (part : Nat) : Nat :=
  let required := if least = 0 then stateSize else least * part
  match least, most? with
  | 0, some 1 => forkSize 2 + part + stateSize
  | 0, none => if canBeEmpty then part + 2 * forkSize 2 + stateSize else forkSize 2 + part
  | least, none => least * part + forkSize 2
  | least, some most => if least = most then required else required + stateSize + (most - least) * (forkSize 2 + part)

namespace Meaning

mutual

/-- The room for a meaning. -/
def size (direction : Direction) : Meaning → Nat
  | .empty | .look _ => stateSize
  | .char set => set.size direction
  | .repeated least most? part => repeatSize least most? part.canBeEmpty (part.size direction)
  | .captured inside => inside.size direction + if direction = .forward then 2 * stateSize else 0
  | .alternation branches => totalSize direction branches + forkSize branches.length + stateSize
  | .sequence parts => totalSize direction parts

/-- The room for all parts together. -/
def totalSize (direction : Direction) : List Meaning → Nat
  | [] => 0
  | part :: rest => part.size direction + totalSize direction rest

end

/-- The room for a pattern that may match anywhere in a text. -/
def machineSize (direction : Direction) (meaning : Meaning) : Nat :=
  let start := forkSize 2 + stateSize + tableSize 1
  let stop := if direction = .forward then 3 * stateSize else stateSize
  start + meaning.size direction + stop

/-- The greatest room that a pattern may take. -/
def sizeLimit : Nat := 10485760

/-- Is the pattern too large to be read in a direction? -/
def isTooLarge (direction : Direction) (meaning : Meaning) : Bool := sizeLimit < meaning.machineSize direction

end Meaning

end BundleServer.Pattern
