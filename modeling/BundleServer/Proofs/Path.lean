import BundleServer.FileTree.Lemmas

/-!
# Plain paths

A plain path is relative and made of names only, doubled and trailing separators aside. Its steps go down, by its
names in their order. Joining names to a path, plain or not, adds them to its components (`components_foldl_join`), so
one more name keeps a path plain.
-/

namespace BundleServer

namespace Path

/-- The name that a component is. -/
def Component.name? : Component → Option Bytes
  | .normal name => some name
  | _ => none

/-- The names among the components of a path. -/
def names (path : Path) : List Bytes := path.components.filterMap Component.name?

/-- Is the path relative and made of names only? -/
structure IsPlain (path : Path) : Prop where
  filled : path.bytes ≠ []
  components : path.components = path.names.map .normal

/-- Do the bytes stand for a name when they are joined to a path? -/
structure IsSegment (piece : Bytes) : Prop where
  whole : separator ∉ piece
  component : Component.ofPiece? piece = some (.normal piece)

/-- A joined path ends with a separator and the child. -/
theorem exists_front_of_join {path : Path} (filled : path.bytes ≠ []) {child : Bytes} (plain : separator ∉ child) :
    ∃ front, (path.join child).bytes = front ++ separator :: child := by
  have relative : child.head? ≠ some separator := fun first => plain (List.mem_of_head? first)
  by_cases last : path.bytes.getLast? = some separator
  · obtain ⟨front, whole⟩ := List.getLast?_eq_some_iff.1 last
    exact ⟨front, by simp [join, relative, whole]⟩
  · exact ⟨path.bytes, by simp [join, relative, filled, last]⟩

/-- What a joined path ends with, if no separator is in it, is what the child ends with. -/
theorem suffix_of_suffix_join {path : Path} (filled : path.bytes ≠ []) {child suffix : Bytes}
    (plain : separator ∉ child) (whole : separator ∉ suffix) (ends : suffix <:+ (path.join child).bytes) :
    suffix <:+ child := by
  obtain ⟨front, joined⟩ := exists_front_of_join filled plain
  rw [joined] at ends
  rcases List.suffix_or_suffix_of_suffix ends (List.suffix_append front _) with short | long
  · rcases List.suffix_cons_iff.1 short with same | inner
    · exact absurd (same ▸ List.mem_cons_self) whole
    · exact inner
  · exact absurd (long.subset List.mem_cons_self) whole

theorem IsSegment.ne_nil {piece : Bytes} (segment : IsSegment piece) : piece ≠ [] := by
  rintro rfl
  cases segment.component

theorem isSegment_of_ne {piece : Bytes} (whole : separator ∉ piece) (filled : piece ≠ []) (current : piece ≠ [dot])
    (parent : piece ≠ [dot, dot]) : IsSegment piece := by
  constructor
  · exact whole
  · unfold Component.ofPiece?
    rw [if_neg (not_or.2 ⟨filled, current⟩), if_neg parent]

/-- What can be the name of an entry is a name in a path. -/
theorem isSegment_of_isName {name : Bytes} (named : FileTree.isName name = true) : IsSegment name := by
  obtain ⟨filled, current, parent, whole, -⟩ := FileTree.isName_iff.1 named
  exact isSegment_of_ne whole filled current parent

theorem filterMap_name?_map (names : List Bytes) :
    (names.map Component.normal).filterMap Component.name? = names := by
  induction names with
  | nil => rfl
  | cons name names ih =>
    rw [List.map_cons, List.filterMap_cons, ih]
    rfl

/-- A name that is joined to a path is one more component, whatever the path is. -/
theorem components_join_segment (path : Path) {piece : Bytes} (segment : IsSegment piece) :
    (path.join piece).components = path.components ++ [.normal piece] := by
  by_cases filled : path.bytes = []
  · have relative : piece.head? ≠ some separator := fun first => segment.whole (List.mem_of_head? first)
    have other : piece ≠ [dot] := by
      rintro rfl
      cases segment.component
    have joined : path.join piece = ⟨piece⟩ := by simp [join, relative, filled]
    have nothing : path.components = [] := by simp [components, filled, isAbsolute, Bytes.split, Component.ofPiece?]
    rw [nothing, joined]
    simp [components, isAbsolute, relative, Bytes.split_of_not_mem segment.whole, other, segment.component]
  · rw [Path.components_join filled segment.whole, segment.component]
    rfl

/-- Names that are joined to a path one after the other are its further components. -/
theorem components_foldl_join (path : Path) {pieces : List Bytes} (segments : ∀ piece ∈ pieces, IsSegment piece) :
    (pieces.foldl Path.join path).components = path.components ++ pieces.map .normal := by
  induction pieces generalizing path with
  | nil => exact (List.append_nil _).symm
  | cons piece pieces ih =>
    obtain ⟨first, rest⟩ := List.forall_mem_cons.1 segments
    rw [List.foldl_cons, ih (path.join piece) rest, components_join_segment path first, List.append_assoc]
    rfl

/-- Names that are joined to a path are written behind it. -/
theorem prefix_foldl_join (path : Path) {pieces : List Bytes} (segments : ∀ piece ∈ pieces, IsSegment piece) :
    path.bytes <+: (pieces.foldl Path.join path).bytes := by
  induction pieces generalizing path with
  | nil => exact List.prefix_rfl
  | cons piece pieces ih =>
    obtain ⟨first, rest⟩ := List.forall_mem_cons.1 segments
    refine List.IsPrefix.trans ?_ (ih (path.join piece) rest)
    have relative : piece.head? ≠ some separator := fun absolute => first.whole (List.mem_of_head? absolute)
    unfold join
    rw [if_neg relative]
    split <;> exact List.prefix_append _ _

theorem fileName?_join (path : Path) {piece : Bytes} (segment : IsSegment piece) :
    (path.join piece).fileName? = some piece := by
  rw [fileName?, components_join_segment path segment, List.getLast?_concat]

section Joining

variable {path : Path} {piece : Bytes}

theorem IsPlain.components_join (plain : path.IsPlain) (segment : IsSegment piece) :
    (path.join piece).components = (path.names ++ [piece]).map .normal := by
  rw [components_join_segment path segment, plain.components, List.map_append]
  rfl

theorem IsPlain.names_join (plain : path.IsPlain) (segment : IsSegment piece) :
    (path.join piece).names = path.names ++ [piece] := by
  unfold names
  rw [plain.components_join segment, filterMap_name?_map]
  rfl

theorem IsPlain.join (plain : path.IsPlain) (segment : IsSegment piece) : (path.join piece).IsPlain := by
  constructor
  · exact path.join_ne_nil segment.ne_nil
  · rw [plain.names_join segment]
    exact plain.components_join segment

end Joining

end Path

namespace FileTree

/-- The name that a step is. -/
def Step.name? : Step → Option Bytes
  | .name taken => some taken
  | _ => none

/-- Does the step stay where it is or go down? -/
def Step.isDownward : Step → Bool
  | .outermost => false
  | .up => false
  | _ => true

/-- The names that steps take. -/
def namesOf (steps : List Step) : List Bytes := steps.filterMap Step.name?

section Pieces

open BundleServer.Path

theorem isDownward_of_mem_ofPiece {piece : Bytes} (level : Component.ofPiece? piece ≠ some .parent) {step : Step}
    (member : step ∈ Step.ofPiece piece) : step.isDownward = true := by
  unfold Step.ofPiece at member
  split at member
  · cases member
  · rename_i filled
    split at member
    · rw [List.mem_singleton.1 member]
      rfl
    · rename_i current
      split at member
      · rename_i parent
        subst parent
        exact absurd rfl level
      · rw [List.mem_singleton.1 member]
        rfl

theorem namesOf_ofPiece (piece : Bytes) :
    namesOf (Step.ofPiece piece) = (Component.ofPiece? piece).toList.filterMap Component.name? := by
  unfold Step.ofPiece Component.ofPiece?
  by_cases filled : piece = []
  · simp [filled, namesOf]
  by_cases current : piece = [dot]
  · simp [current, namesOf, Step.name?]
  by_cases parent : piece = [dot, dot]
  · subst parent
    rfl
  · simp [filled, current, parent, namesOf, Step.name?, Component.name?]

theorem namesOf_append (front behind : List Step) : namesOf (front ++ behind) = namesOf front ++ namesOf behind :=
  List.filterMap_append

theorem namesOf_enter (steps : List Step) : namesOf (.enter :: steps) = namesOf steps := rfl

/-- The names among the components that pieces stand for. -/
theorem filterMap_ofPiece?_cons (piece : Bytes) (pieces : List Bytes) :
    ((piece :: pieces).filterMap Component.ofPiece?).filterMap Component.name? =
      namesOf (Step.ofPiece piece) ++ (pieces.filterMap Component.ofPiece?).filterMap Component.name? := by
  rw [namesOf_ofPiece, ← List.filterMap_append]
  congr 1
  rw [List.filterMap_cons]
  cases Component.ofPiece? piece <;> rfl

theorem namesOf_flatMap_ofPiece (pieces : List Bytes) :
    namesOf (pieces.flatMap fun piece => .enter :: Step.ofPiece piece) =
      (pieces.filterMap Component.ofPiece?).filterMap Component.name? := by
  induction pieces with
  | nil => rfl
  | cons piece pieces ih => rw [List.flatMap_cons, namesOf_append, namesOf_enter, ih, filterMap_ofPiece?_cons]

/-- The names that the steps of a path take are those of the path. -/
theorem namesOf_steps (path : Path) : namesOf (steps path) = path.names := by
  obtain ⟨first, others, pieces⟩ := List.exists_cons_of_ne_nil (Bytes.split_ne_nil separator path.bytes)
  have front : (if path.isAbsolute then [.root] else if (first :: others).head? = some [dot] then [.current] else
      ([] : List Component)).filterMap Component.name? = [] := by
    split
    · rfl
    · split <;> rfl
  have begins : namesOf (if path.isAbsolute then [.outermost] else Step.ofPiece first) =
      namesOf (Step.ofPiece first) := by
    split
    · rename_i absolute
      have outermost : first = [] := by
        cases whole : path.bytes with
        | nil => simp [isAbsolute, whole] at absolute
        | cons b rest =>
          have slash : b = separator := by simpa [isAbsolute, whole] using absolute
          rw [whole, Bytes.split, if_pos slash] at pieces
          exact (List.cons.inj pieces).1.symm
      rw [outermost]
      rfl
    · rfl
  unfold names components steps
  rw [pieces]
  simp only
  rw [namesOf_append, begins, namesOf_flatMap_ofPiece, List.filterMap_append, front, List.nil_append,
    filterMap_ofPiece?_cons]

/-- The steps of a plain path go down by its names. -/
theorem steps_of_isPlain {path : Path} (plain : path.IsPlain) :
    (∀ step ∈ steps path, step.isDownward = true) ∧ namesOf (steps path) = path.names := by
  obtain ⟨first, others, pieces⟩ := List.exists_cons_of_ne_nil (Bytes.split_ne_nil separator path.bytes)
  have named : ∀ component ∈ path.components, ∃ name, component = .normal name := by
    intro component member
    rw [plain.components] at member
    obtain ⟨name, -, rfl⟩ := List.mem_map.1 member
    exact ⟨name, rfl⟩
  have relative : path.isAbsolute = false := by
    cases absolute : path.isAbsolute with
    | false => rfl
    | true =>
      obtain ⟨name, same⟩ := named .root (by simp [components, absolute])
      cases same
  have level : ∀ piece ∈ first :: others, Component.ofPiece? piece ≠ some .parent := by
    intro piece member parent
    have inside : Component.parent ∈ path.components := by
      unfold components
      rw [pieces]
      exact List.mem_append_right _ (List.mem_filterMap.2 ⟨piece, member, parent⟩)
    obtain ⟨name, same⟩ := named .parent inside
    cases same
  have whole : steps path = Step.ofPiece first ++ others.flatMap fun piece => .enter :: Step.ofPiece piece := by
    unfold steps
    rw [pieces]
    simp only [relative, Bool.false_eq_true, if_false]
  constructor
  · intro step member
    rw [whole, List.mem_append, List.mem_flatMap] at member
    rcases member with inFirst | ⟨piece, inOthers, inPiece⟩
    · exact isDownward_of_mem_ofPiece (level first List.mem_cons_self) inFirst
    · rcases List.mem_cons.1 inPiece with rfl | inPiece
      · rfl
      · exact isDownward_of_mem_ofPiece (level piece (List.mem_cons_of_mem first inOthers)) inPiece
  · exact namesOf_steps path

end Pieces

end FileTree

end BundleServer
