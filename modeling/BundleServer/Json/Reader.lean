import BundleServer.Json.Fault

/-!
# Readers

A reader takes a value from the front of the bytes and leaves the rest, or finds a fault. Every reader takes at
least one byte when it succeeds. This fact is part of the type, and repetition ends because of it.
-/

namespace BundleServer.Json

/-- A reader of values of type `α`. -/
structure Reader (α : Type) where
  run : Bytes → Except Fault (α × Bytes)
  shrinks : ∀ {bytes value rest}, run bytes = .ok (value, rest) → rest.length < bytes.length

namespace Reader

variable {α β : Type}

/-- A reader whose values are changed by `f`. -/
def map (f : α → β) (reader : Reader α) : Reader β where
  run bytes := match reader.run bytes with
    | .ok (value, rest) => .ok (f value, rest)
    | .error fault => .error fault
  shrinks := by
    intro bytes value rest h
    split at h
    · rename_i found
      simp only [Except.ok.injEq, Prod.mk.injEq] at h
      exact h.2 ▸ reader.shrinks found
    · simp at h

/-- One reader, then another that may depend on the value. -/
def bind (first : Reader α) (next : α → Reader β) : Reader β where
  run bytes := match first.run bytes with
    | .ok (value, rest) => (next value).run rest
    | .error fault => .error fault
  shrinks := by
    intro bytes value rest h
    split at h
    · rename_i found
      exact Nat.lt_trans ((next _).shrinks h) (first.shrinks found)
    · simp at h

end Reader

/-- The bytes between tokens: space, tab and the ends of lines. -/
def isBlank (b : UInt8) : Bool := b = 0x20 || b = 0x09 || b = 0x0A || b = 0x0D

/-- The bytes from the first one that is not blank. -/
def skipBlank (bytes : Bytes) : Bytes := bytes.dropWhile isBlank

theorem length_skipBlank_le (bytes : Bytes) : (skipBlank bytes).length ≤ bytes.length := by
  unfold skipBlank
  exact (List.dropWhile_suffix _).length_le

/-- Reads the remaining letters of a word whose first letter has been taken. -/
def readWord : Bytes → Bytes → Except Fault Bytes
  | [], bytes => .ok bytes
  | _ :: _, [] => .error (.behind .endInValue [])
  | letter :: letters, b :: rest =>
    if b = letter then readWord letters rest else .error (.behind .noSuchWord rest)

theorem length_readWord_le {letters bytes rest : Bytes} (h : readWord letters bytes = .ok rest) :
    rest.length ≤ bytes.length := by
  induction letters generalizing bytes with
  | nil =>
    simp only [readWord, Except.ok.injEq] at h
    simp [h]
  | cons letter letters ih =>
    cases bytes with
    | nil => simp [readWord] at h
    | cons b bytes =>
      unfold readWord at h
      split at h
      · exact Nat.le_succ_of_le (ih h)
      · simp at h

end BundleServer.Json
