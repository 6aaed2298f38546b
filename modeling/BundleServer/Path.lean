import BundleServer.Text.Utf8

/-!
# Paths

A path is a byte string in which `/` separates the parts. It is kept exactly as written, since messages and
answers show it so. This module gives its components, the name and extension of what it leads to, and
joining.
-/

namespace BundleServer

/-- A path as it was written. -/
structure Path where
  bytes : Bytes
  deriving DecidableEq, Repr

namespace Path

/-- The byte `/`. -/
def separator : UInt8 := 0x2F

/-- The byte `.`. -/
def dot : UInt8 := 0x2E

/-- The path that is written as the given text. -/
def ofString (text : String) : Path := ⟨Utf8.encode text⟩

/-- The path as people see it: what is not UTF-8 shows as U+FFFD. -/
def display (path : Path) : String := Utf8.lossy path.bytes

/-- Does the path start at the top, whatever it is joined to? -/
def isAbsolute (path : Path) : Bool := path.bytes.head? = some separator

/-- The path that leads on by `child`. A separator is put between unless the front is empty or already ends
in one; an absolute `child` stands for itself. -/
def join (path : Path) (child : Bytes) : Path :=
  if child.head? = some separator then ⟨child⟩
  else if path.bytes = [] ∨ path.bytes.getLast? = some separator then ⟨path.bytes ++ child⟩
  else ⟨path.bytes ++ separator :: child⟩

/-- One component of a path. -/
inductive Component where
  | root
  | current
  | parent
  | normal (name : Bytes)
  deriving DecidableEq, Repr

/-- The component that a piece between separators stands for, behind the first one. -/
def Component.ofPiece? (piece : Bytes) : Option Component :=
  if piece = [] ∨ piece = [dot] then none
  else if piece = [dot, dot] then some .parent
  else some (.normal piece)

/-- The components. Doubled and trailing separators mean nothing, and `.` counts only in front. -/
def components (path : Path) : List Component :=
  let pieces := Bytes.split separator path.bytes
  let front : List Component :=
    if path.isAbsolute then [.root] else if pieces.head? = some [dot] then [.current] else []
  front ++ pieces.filterMap Component.ofPiece?

/-- The last component, if it is a name. -/
def fileName? (path : Path) : Option Bytes :=
  match path.components.getLast? with
  | some (.normal name) => some name
  | _ => none

/-- What follows the last dot of the file name. A name whose only dot stands in front has no extension. -/
def extension? (path : Path) : Option Bytes := do
  let name ← path.fileName?
  let pieces := Bytes.split dot name
  match pieces.dropLast with
  | [] | [[]] => none
  | _ => pieces.getLast?

theorem mem_join {path : Path} {child : Bytes} {b : UInt8} (h : b ∈ (path.join child).bytes) :
    b ∈ path.bytes ∨ b = separator ∨ b ∈ child := by
  unfold join at h
  split at h
  · exact .inr (.inr h)
  · split at h
    · exact (List.mem_append.1 h).imp_right .inr
    · exact (List.mem_append.1 h).imp_right List.mem_cons.1

theorem join_ne_nil (path : Path) {child : Bytes} (filled : child ≠ []) : (path.join child).bytes ≠ [] := by
  unfold join
  split
  · exact filled
  · split <;> simp [filled]

/-- The pieces of a joined path. A separator at the end of the front makes an empty piece, which the child takes
over. -/
theorem split_join {path : Path} (filled : path.bytes ≠ []) {child : Bytes} (plain : separator ∉ child) :
    (path.join child).isAbsolute = path.isAbsolute ∧ ∃ first others,
      Bytes.split separator (path.join child).bytes = first :: others ++ [child] ∧
      Bytes.split separator path.bytes =
        first :: others ++ (if path.bytes.getLast? = some separator then [[]] else []) := by
  have relative : child.head? ≠ some separator := fun h => plain (List.mem_of_head? h)
  by_cases last : path.bytes.getLast? = some separator
  · obtain ⟨front, whole⟩ : ∃ front, path.bytes = front ++ [separator] := List.getLast?_eq_some_iff.1 last
    have joined : (path.join child).bytes = front ++ separator :: child := by
      simp [join, relative, whole]
    obtain ⟨first, others, pieces⟩ := List.exists_cons_of_ne_nil (Bytes.split_ne_nil separator front)
    refine ⟨?_, first, others, ?_, ?_⟩
    · simp only [isAbsolute, joined, whole]
      cases front <;> rfl
    · rw [joined, Bytes.split_append, Bytes.split_of_not_mem plain, pieces]
    · rw [if_pos last, whole, Bytes.split_append, pieces]
      rfl
  · have joined : (path.join child).bytes = path.bytes ++ separator :: child := by
      simp [join, relative, filled, last]
    obtain ⟨first, others, pieces⟩ := List.exists_cons_of_ne_nil (Bytes.split_ne_nil separator path.bytes)
    refine ⟨?_, first, others, ?_, ?_⟩
    · simp only [isAbsolute, joined]
      cases h : path.bytes with
      | nil => exact absurd h filled
      | cons => rfl
    · rw [joined, Bytes.split_append, Bytes.split_of_not_mem plain, pieces]
    · rw [if_neg last, pieces, List.append_nil]

/-- The components of a joined path. -/
theorem components_join {path : Path} (filled : path.bytes ≠ []) {child : Bytes} (plain : separator ∉ child) :
    (path.join child).components = path.components ++ (Component.ofPiece? child).toList := by
  obtain ⟨absolute, first, others, joined, pieces⟩ := split_join filled plain
  have nothing : Component.ofPiece? [] = none := rfl
  have single : List.filterMap Component.ofPiece? [child] = (Component.ofPiece? child).toList := by
    cases piece : Component.ofPiece? child <;> simp [piece]
  have rest : List.filterMap Component.ofPiece? (if path.bytes.getLast? = some separator then [[]] else []) = [] := by
    split <;> simp [nothing]
  simp only [components, absolute, joined, pieces, List.cons_append, List.head?_cons]
  rw [← List.cons_append, ← List.cons_append, List.filterMap_append, List.filterMap_append, single, rest]
  simp only [List.append_assoc, List.append_nil]

end Path

end BundleServer
