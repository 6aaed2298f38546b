import BundleServer.Layout
import BundleServer.Proofs.Path
import BundleServer.Proofs.Text.Utf8

/-!
# Application names as components of a path

A text is taken for the name of an application exactly if, as a path, it is one component that is the text itself, and
no backslash and no NUL stands in it (`isSafe_iff`). Whatever the directory of all applications is and however it is
written, such a name adds one component to it. So the directories of two applications lie side by side: neither is the
other, and none stands inside another.
-/

namespace BundleServer

namespace Path

theorem eq_of_ofPiece? {piece name : Bytes} (component : Component.ofPiece? piece = some (.normal name)) :
    piece = name := by
  unfold Component.ofPiece? at component
  split at component
  · cases component
  · split at component
    · cases component
    · cases component
      rfl

/-- Bytes that are read as a path give themselves as the only component exactly if they are a name wherever they are
joined. -/
theorem components_eq_singleton_iff {piece : Bytes} :
    (Path.mk piece).components = [.normal piece] ↔ IsSegment piece := by
  constructor
  · intro single
    have member : Component.normal piece ∈ (Path.mk piece).components := single ▸ List.mem_cons_self
    rcases List.mem_append.1 member with front | inside
    · split at front
      · cases List.mem_singleton.1 front
      · split at front
        · cases List.mem_singleton.1 front
        · cases front
    · obtain ⟨own, among, component⟩ := List.mem_filterMap.1 inside
      obtain rfl : own = piece := eq_of_ofPiece? component
      exact ⟨Bytes.not_mem_of_mem_split among, component⟩
  · intro segment
    have relative : piece.head? ≠ some separator := fun absolute => segment.whole (List.mem_of_head? absolute)
    have joined : (Path.mk []).join piece = ⟨piece⟩ := by simp [join, relative]
    rw [← joined, components_join_segment _ segment]
    rfl

end Path

namespace Namespace

/-- Is the text one component of a path, as it stands, without a backslash and a NUL? -/
structure IsOneComponent (raw : String) : Prop where
  component : (Path.ofString raw).components = [.normal (Utf8.encode raw)]
  backslash : '\\' ∉ raw.toList
  nul : '\x00' ∉ raw.toList

/-- A text without separators that is neither empty nor `.` nor `..` is a name when it is joined to a path. -/
theorem isSegment_encode_iff {raw : String} :
    Path.IsSegment (Utf8.encode raw) ↔ raw ≠ "" ∧ raw ≠ "." ∧ raw ≠ ".." ∧ '/' ∉ raw.toList := by
  constructor
  · intro segment
    refine ⟨?_, ?_, ?_, fun slash => segment.whole (Utf8.mem_encodeList_of_ascii (by decide) slash)⟩
    · rintro rfl
      exact absurd segment.component (by decide)
    · rintro rfl
      exact absurd segment.component (by decide)
    · rintro rfl
      exact absurd segment.component (by decide)
  · rintro ⟨filled, current, parent, whole⟩
    have differs (text : String) (other : raw ≠ text) : Utf8.encode raw ≠ Utf8.encode text :=
      fun same => other (Utf8.encode_inj same)
    apply Path.isSegment_of_ne
    · intro member
      obtain ⟨c, inside, byte⟩ := List.mem_flatMap.1 member
      have slash : c = '/' := Char.toNat_inj.mp (Utf8.toNat_of_mem_encodeChar byte (by decide))
      exact whole (slash ▸ inside)
    · exact differs "" filled
    · exact differs "." current
    · exact differs ".." parent

theorem isSafe_iff {raw : String} : isSafe raw = true ↔ IsOneComponent raw := by
  have characters : (raw.toList.any fun c => c = '/' || c = '\\' || c = '\x00') = false ↔
      '/' ∉ raw.toList ∧ '\\' ∉ raw.toList ∧ '\x00' ∉ raw.toList := by
    simp only [List.any_eq_false, Bool.or_eq_true, decide_eq_true_eq]
    constructor
    · intro none
      exact ⟨fun slash => none _ slash (.inl (.inl rfl)), fun back => none _ back (.inl (.inr rfl)),
        fun nul => none _ nul (.inr rfl)⟩
    · rintro ⟨slash, back, nul⟩ c member ((rfl | rfl) | rfl)
      · exact slash member
      · exact back member
      · exact nul member
  have segment : Path.IsSegment (Utf8.encode raw) ↔ (Path.ofString raw).components = [.normal (Utf8.encode raw)] :=
    Path.components_eq_singleton_iff.symm
  simp only [isSafe, Bool.and_eq_true, decide_eq_true_eq, Bool.not_eq_true', characters]
  constructor
  · rintro ⟨⟨⟨filled, current⟩, parent⟩, slash, back, nul⟩
    exact ⟨segment.1 (isSegment_encode_iff.2 ⟨filled, current, parent, slash⟩), back, nul⟩
  · intro one
    obtain ⟨filled, current, parent, slash⟩ := isSegment_encode_iff.1 (segment.2 one.component)
    exact ⟨⟨⟨filled, current⟩, parent⟩, slash, one.backslash, one.nul⟩

/-- A namespace is a name when it is joined to a path. -/
theorem isSegment (name : Namespace) : Path.IsSegment name.path.bytes :=
  Path.components_eq_singleton_iff.1 (isSafe_iff.1 name.safe).component

theorem parse_eq_ok_iff {raw : String} {name : Namespace} : parse raw = .ok name ↔ name.text = raw := by
  unfold parse ofString?
  constructor
  · intro parsed
    split at parsed
    · rename_i own found
      cases parsed
      split at found
      · cases found
        rfl
      · cases found
    · cases parsed
  · rintro rfl
    rw [dif_pos name.safe]

/-- A text is accepted as the name of an application exactly if it is one component of a path, as it stands, without a
backslash and a NUL; the name is then the text. The directory of an application has the components of the directory of
all applications, whatever that is, and its name behind them. So two applications have the same directory, by its bytes
or by its components, only if they are the same, and otherwise neither directory is inside the other. -/
theorem parse_and_root_components :
    (∀ raw, (∃ name, parse raw = .ok name) ↔ IsOneComponent raw) ∧
      (∀ raw name, parse raw = .ok name ↔ name.text = raw) ∧
      ∀ (apps : Path) (one two : Namespace), ∃ root root',
        (Layout.multi apps).root (some one) = .ok root ∧ (Layout.multi apps).root (some two) = .ok root' ∧
        root.components = apps.components ++ [.normal (Utf8.encode one.text)] ∧
        root'.components = apps.components ++ [.normal (Utf8.encode two.text)] ∧
        (root = root' ↔ one = two) ∧ (root.components = root'.components ↔ one = two) ∧
        (root.components <+: root'.components ↔ one = two) := by
  refine ⟨fun raw => ?_, fun raw name => parse_eq_ok_iff, fun apps one two => ?_⟩
  · rw [← isSafe_iff]
    constructor
    · rintro ⟨name, parsed⟩
      exact parse_eq_ok_iff.1 parsed ▸ name.safe
    · intro safe
      exact ⟨⟨raw, safe⟩, parse_eq_ok_iff.2 rfl⟩
  · have first := Path.components_join_segment apps one.isSegment
    have second := Path.components_join_segment apps two.isSegment
    have inside : (apps.join one.path.bytes).components <+: (apps.join two.path.bytes).components → one = two := by
      intro leads
      rw [first, second, List.prefix_append_right_inj, List.cons_prefix_cons] at leads
      have same : one.text = two.text := Utf8.encode_inj (Path.Component.normal.inj leads.1)
      cases one
      cases two
      cases same
      rfl
    refine ⟨_, _, rfl, rfl, first, second, ?_, ?_, inside, ?_⟩
    · exact ⟨fun same => inside (same ▸ List.prefix_rfl), fun same => same ▸ rfl⟩
    · exact ⟨fun same => inside (same ▸ List.prefix_rfl), fun same => same ▸ rfl⟩
    · rintro rfl
      exact List.prefix_rfl

end Namespace

end BundleServer
