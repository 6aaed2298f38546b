import BundleServer.Proofs.Bundle.Outcome
import BundleServer.Proofs.Bundle.Passes
import BundleServer.Proofs.Bundle.Template
import BundleServer.Proofs.Walk.Session

/-!
# Markers tell keys apart

A key can be read back from a marker. How long it is follows from the length of the marker, since the pieces of the
template are the same for all keys and at least one key stands between them. Then the bytes behind the first piece are
the key (`key_eq_of_render_eq`), whatever pieces of the template it may hold itself. So in a concatenated bundle two
blocks have the same opening marker exactly if their fragments have the same key.
-/

namespace BundleServer

namespace Template

variable {template : Bytes}

theorem length_flatMap_append (key : Bytes) (others : List Bytes) :
    (others.flatMap (key ++ ·)).length = others.flatten.length + others.length * key.length := by
  induction others with
  | nil => simp
  | cons next others ih =>
    rw [List.flatMap_cons, List.length_append, List.length_append, ih, List.flatten_cons, List.length_append,
      List.length_cons, Nat.succ_mul]
    omega

/-- A template with a placeholder has a second piece. -/
theorem exists_pieces_of_infix (present : placeholder <:+: template) :
    ∃ first next others, pieces template = first :: next :: others := by
  have splits := splits_pieces template
  cases cut : pieces template with
  | nil => exact absurd cut splits.filled
  | cons first others =>
    cases others with
    | nil =>
      have alone : first = template := by rw [← splits.whole, cut, List.intercalate_singleton]
      exact absurd (alone ▸ present) (splits.free first (cut ▸ List.mem_cons_self))
    | cons next others => exact ⟨first, next, others, rfl⟩

/-- Keys with which a template is rendered alike are the same. Their lengths are compared first, so that the key behind
the first piece can be told from what follows it. -/
theorem key_eq_of_render_eq (present : placeholder <:+: template) {key other : Bytes}
    (same : render template key = render template other) : key = other := by
  obtain ⟨first, next, others, cut⟩ := exists_pieces_of_infix present
  have rendered (key : Bytes) : render template key = first ++ (next :: others).flatMap (key ++ ·) := by
    rw [render, cut, intercalate_cons]
  have behind := List.append_cancel_left ((rendered key).symm.trans (same.trans (rendered other)))
  have lengths := congrArg List.length behind
  rw [length_flatMap_append, length_flatMap_append, Nat.add_left_cancel_iff] at lengths
  have long : key.length = other.length := Nat.eq_of_mul_eq_mul_left (Nat.succ_pos others.length) lengths
  rw [List.flatMap_cons, List.flatMap_cons, List.append_assoc, List.append_assoc] at behind
  exact (List.append_inj behind long).1

end Template

/-- The opening marker of every kind holds the key. -/
theorem Kind.placeholder_infix_opening {kind : Kind} {markers : Markers}
    (concatenated : kind.composition = .concatenate markers) : placeholder <:+: markers.opening := by
  cases kind with
  | json => cases concatenated
  | script =>
    cases concatenated
    exact ⟨Utf8.encode "/* ", Utf8.encode ".js */", rfl⟩
  | stylesheet =>
    cases concatenated
    exact ⟨Utf8.encode "/* ", Utf8.encode ".css */", rfl⟩
  | template =>
    cases concatenated
    exact ⟨Utf8.encode "<!-- \x7b\x7b>", Utf8.encode "\x7d\x7d -->", rfl⟩

namespace Composer

open Concatenation (fragments newline)

/-- A bundle is composed of the items of a walk that was started. -/
theorem exists_walk_of_composeRoot {composer : Composer} {tree : FileTree} {root : Path} {kind : Kind} {bundle : Bundle}
    (composed : (composer.composeRoot tree root kind).result = .ok bundle) :
    ∃ walk, Walk.start tree root (Utf8.encode kind.suffix) composer.order = .ok walk ∧
      bundle = (composeItems kind root (walk.items tree)).result := by
  unfold composeRoot at composed
  cases started : Walk.start tree root (Utf8.encode kind.suffix) composer.order with
  | error fault =>
    rw [started] at composed
    cases composed
  | ok walk =>
    rw [started] at composed
    cases composed
    exact ⟨walk, rfl, rfl⟩

/-- Markers tell keys apart. A template with a placeholder is rendered alike for two keys only if they are the same. So
whatever items are concatenated, two of the blocks that follow one another have the same opening marker exactly if their
fragments have the same key. The bundles of all kinds that are concatenated are of this form, whatever stands in the
tree. -/
theorem opening_eq_iff_key_eq :
    (∀ template first second : Bytes, placeholder <:+: template →
      Template.render template first = Template.render template second → first = second) ∧
    (∀ (suffix : Bytes) (markers : Markers) (items : List Item), placeholder <:+: markers.opening →
      ((Concatenation.ofItems suffix markers items).body = (fragments items).flatMap fun fragment =>
        markers.renderOpening (fragment.key suffix) ++ newline :: fragment.content ++
          markers.renderClosing (fragment.key suffix) ++ [newline, newline]) ∧
      ∀ first ∈ fragments items, ∀ second ∈ fragments items,
        (markers.renderOpening (first.key suffix) = markers.renderOpening (second.key suffix) ↔
          first.key suffix = second.key suffix)) ∧
    ∀ (composer : Composer) (tree : FileTree) (root : Path) (kind : Kind) (markers : Markers) (bundle : Bundle),
      kind.composition = .concatenate markers → (composer.composeRoot tree root kind).result = .ok bundle →
      placeholder <:+: markers.opening ∧
        ∃ walk, Walk.start tree root (Utf8.encode kind.suffix) composer.order = .ok walk ∧
          bundle.body = (Concatenation.ofItems (Utf8.encode kind.suffix) markers (walk.items tree)).body := by
  refine ⟨fun template first second present same => Template.key_eq_of_render_eq present same, ?_, ?_⟩
  · intro suffix markers items present
    refine ⟨?_, fun first _ second _ => ⟨fun same => ?_, fun same => by rw [same]⟩⟩
    · rw [Concatenation.ofItems_eq]
      rfl
    · exact Template.key_eq_of_render_eq present same
  · intro composer tree root kind markers bundle concatenated composed
    obtain ⟨walk, started, rfl⟩ := exists_walk_of_composeRoot composed
    exact ⟨Kind.placeholder_infix_opening concatenated, walk, started, body_composeItems_of_concatenate concatenated⟩

/-- Two files of one name in different directories, and one whose name holds what follows the key in a marker. -/
def twinTree : FileTree where
  top := .directory .ofDirectory
    [(Utf8.encode "r", .directory .ofDirectory
        [(Utf8.encode "a", .directory .ofDirectory [(Utf8.encode "x.js", .file .ofFile (Utf8.encode "1"))]),
         (Utf8.encode "b", .directory .ofDirectory [(Utf8.encode "x.js", .file .ofFile (Utf8.encode "2"))]),
         (Utf8.encode "x.js *.js", .file .ofFile (Utf8.encode "3"))])]
  wellFormed := by
    simp only [FileTree.Node.WellFormed, FileTree.Node.WellFormedEntries]
    decide

theorem opening_eq_iff_key_eq_twinTree :
    let composer : Composer := ⟨.single (.ofString "r"), .lexicographic⟩
    let suffix := Utf8.encode Kind.script.suffix
    let template := Utf8.encode "\x7bkey\x7d \x7b\x7bkey\x7d\x7d"
    placeholder <:+: template ∧
      (∀ first second, Template.render template first = Template.render template second → first = second) ∧
      ∃ markers bundle walk, Kind.script.composition = .concatenate markers ∧
        (composer.composeRoot twinTree (.ofString "r") .script).result = .ok bundle ∧
        Walk.start twinTree (.ofString "r") suffix .lexicographic = .ok walk ∧ placeholder <:+: markers.opening ∧
        bundle.body = (Concatenation.ofItems suffix markers (walk.items twinTree)).body ∧
        (fragments (walk.items twinTree)).map (·.key suffix) =
          [Utf8.encode "x", Utf8.encode "x", Utf8.encode "x.js *"] ∧
        ∀ first ∈ fragments (walk.items twinTree), ∀ second ∈ fragments (walk.items twinTree),
          (markers.renderOpening (first.key suffix) = markers.renderOpening (second.key suffix) ↔
            first.key suffix = second.key suffix) := by
  intro composer suffix template
  obtain ⟨injective, apart, composes⟩ := opening_eq_iff_key_eq
  have present : placeholder <:+: template := ⟨[], Utf8.encode " \x7b\x7bkey\x7d\x7d", rfl⟩
  have directory : twinTree.kind (.ofString "r") = .ok .directory := rfl
  have composed := composer.composeRoot_of_directory directory .script
  obtain ⟨opens, walk, started, body⟩ := composes composer twinTree _ .script _ _ rfl composed
  have total : SiblingOrder.lexicographic.IsTotal := trivial
  refine ⟨present, fun first second => injective template first second present, _, _, walk, rfl, composed, started,
    opens, body, ?_, (apart suffix _ _ opens).2⟩
  rw [Walk.items_of_start started, Walk.traversal_congr (Walk.agree_sorted total)]
  decide +kernel

end Composer

end BundleServer
