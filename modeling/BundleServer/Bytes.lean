/-!
# Byte strings

File names, paths, file contents and answer bodies are arbitrary bytes. They are kept as plain lists, so
that every fact about them is a fact about lists. This module holds the few list operations that the rest
of the library shares: dropping a suffix and cutting at a separator. Nothing here looks at text encodings.
-/

namespace BundleServer

/-- A finite sequence of bytes. -/
abbrev Bytes := List UInt8

namespace Bytes

/-- What stands in front of `suffix`, if the bytes end with it. -/
def dropSuffix? (suffix bytes : Bytes) : Option Bytes :=
  if suffix.isSuffixOf bytes then some (bytes.take (bytes.length - suffix.length)) else none

/-- The pieces between the occurrences of `separator`. There is always at least one piece. -/
def split (separator : UInt8) : Bytes → List Bytes
  | [] => [[]]
  | b :: rest =>
    if b = separator then [] :: split separator rest
    else match split separator rest with
      | [] => [[b]]
      | piece :: pieces => (b :: piece) :: pieces

/-- Byte-wise lexicographic comparison: a proper initial part comes first. -/
def compare : Bytes → Bytes → Ordering
  | [], [] => .eq
  | [], _ :: _ => .lt
  | _ :: _, [] => .gt
  | a :: s, b :: t => (Ord.compare a b).then (compare s t)

theorem dropSuffix?_append (front suffix : Bytes) :
    dropSuffix? suffix (front ++ suffix) = some front := by
  simp [dropSuffix?]

theorem split_ne_nil (separator : UInt8) (bytes : Bytes) : split separator bytes ≠ [] := by
  cases bytes with
  | nil => simp [split]
  | cons b rest =>
    unfold split
    split
    · simp
    · split <;> simp

theorem split_append (separator : UInt8) (front rest : Bytes) :
    split separator (front ++ separator :: rest) = split separator front ++ split separator rest := by
  induction front with
  | nil => simp [split]
  | cons b front ih =>
    simp only [List.cons_append, split]
    split
    · rw [ih]; rfl
    · rw [ih]
      cases pieces : split separator front with
      | nil => exact absurd pieces (split_ne_nil separator front)
      | cons piece pieces => rfl

theorem split_of_not_mem {separator : UInt8} {bytes : Bytes} (h : separator ∉ bytes) :
    split separator bytes = [bytes] := by
  induction bytes with
  | nil => rfl
  | cons b rest ih =>
    simp only [List.mem_cons, not_or] at h
    simp [split, ih h.2, Ne.symm h.1]

/-- No piece holds the separator. -/
theorem not_mem_of_mem_split {separator : UInt8} {bytes piece : Bytes} (member : piece ∈ split separator bytes) :
    separator ∉ piece := by
  induction bytes generalizing piece with
  | nil =>
    rw [List.mem_singleton.1 member]
    exact List.not_mem_nil
  | cons b rest ih =>
    unfold split at member
    split at member
    · rcases List.mem_cons.1 member with rfl | later
      · exact List.not_mem_nil
      · exact ih later
    · rename_i differs
      cases pieces : split separator rest with
      | nil => exact absurd pieces (split_ne_nil separator rest)
      | cons first others =>
        rw [pieces] at member ih
        rcases List.mem_cons.1 member with rfl | later
        · rw [List.mem_cons, not_or]
          exact ⟨fun same => differs same.symm, ih List.mem_cons_self⟩
        · exact ih (List.mem_cons_of_mem first later)

end Bytes

end BundleServer
