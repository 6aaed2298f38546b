import BundleServer.Proofs.Bundle.Outcome
import BundleServer.Proofs.Bundle.Passes
import BundleServer.Proofs.Walk.Ascent
import BundleServer.Proofs.Walk.OneFile

/-!
# A fragment that is spoiled

A file can lose the permission to be read, and a fragment of the merged bundle can be replaced by text that cannot be
parsed. The next pass still gives a bundle. What the walk meets in place of the fragment is one item that adds an error
(`traversal_of_spoils`), so the errors and the body follow item by item. What is said holds for trees without symbolic
links, in which a file is met once and under one path only.
-/

namespace BundleServer

/-- What spoils a fragment for a kind of bundle, and the error to which this leads: its file cannot be read any more,
or it was well-formed and is replaced by what cannot be parsed. -/
inductive Spoils (kind : Kind) (fragment : Fragment) : FileTree.Change → FragmentError → Prop where
  | unreadable {access : FileTree.Access} (closed : access.read = false) :
    Spoils kind fragment (.setAccess fragment.path access) (.read fragment.path (.access .permissionDenied))
  | malformed {value : Json.Value} {text : Bytes} {error : Json.SyntaxError} (merged : kind = .json)
    (parsed : Json.parse fragment.content = .ok value) (refused : Json.parse text = .error error) :
    Spoils kind fragment (.make fragment.path (.file text)) (.parse fragment.path error)

theorem Spoils.path_eq {kind : Kind} {fragment : Fragment} {change : FileTree.Change} {error : FragmentError}
    (spoils : Spoils kind fragment change error) : error.path = fragment.path := by
  cases spoils <;> rfl

namespace Composition

theorem error?_error (composition : Composition) (error : FragmentError) :
    composition.error? (.error error) = some error := by
  cases composition <;> rfl

/-- An item adds no error but one for its own path. -/
theorem path_of_error? {composition : Composition} {item : Item} {error : FragmentError}
    (failed : composition.error? item = some error) : error.path = item.path := by
  cases item with
  | error own =>
    rw [error?_error] at failed
    cases failed
    rfl
  | ok fragment =>
    cases composition with
    | concatenate markers => cases failed
    | merge =>
      cases parsed : Json.parse fragment.content with
      | ok value =>
        rw [error?, Merge.error?, Merge.readValue_of_parse parsed] at failed
        cases failed
      | error fault =>
        rw [error?, Merge.error?, Merge.readValue_of_refused parsed] at failed
        cases failed
        rfl

end Composition

namespace Walk

variable {tree : FileTree} {arrange : Path → List (Bytes × FileTree.Kind) → List (Bytes × FileTree.Kind)}

/-- In place of a spoiled fragment a walk meets what adds its error. -/
theorem traversal_of_spoils (ordered : ∀ path entries, (arrange path entries).Perm entries)
    (free : tree.top.linkFree = true) {root : Path} (directory : tree.kind root = .ok .directory) {suffix : Bytes}
    {before after : List Item} {fragment : Fragment}
    (whole : traversal tree suffix arrange root = before ++ .ok fragment :: after) {kind : Kind}
    {change : FileTree.Change} {error : FragmentError} (spoils : Spoils kind fragment change error) :
    (tree.apply change).kind root = .ok .directory ∧ ∃ item, kind.composition.error? item = some error ∧
      traversal (tree.apply change) suffix arrange root = before ++ item :: after := by
  cases spoils with
  | @unreadable access closed =>
    obtain ⟨stays, items⟩ := traversal_setAccess ordered free directory whole access
    have refused : itemOf fragment access fragment.content =
        .error (.read fragment.path (.access .permissionDenied)) := by
      rw [itemOf, closed]
      rfl
    rw [refused] at items
    exact ⟨stays, _, kind.composition.error?_error _, items⟩
  | @malformed value text error merged parsed refused =>
    obtain ⟨stays, items⟩ := traversal_make ordered free directory whole text
    refine ⟨stays, _, ?_, items⟩
    have failed : Merge.readValue (.ok { fragment with content := text }) = .error (.parse fragment.path error) :=
      Merge.readValue_of_refused refused
    rw [merged, Kind.composition, Composition.error?, Merge.error?, failed]

end Walk

/-- Two bundles of one kind: the first composed of a fragment with other items in front of it and behind it, the second
after the fragment has been spoiled. -/
structure Isolated (kind : Kind) (before : List Item) (fragment : Fragment) (after : List Item)
    (error : FragmentError) (first second : Bundle) : Prop where
  /-- The new error stands where the fragment stood, and is the only one for its path. -/
  errors : second.errors =
    before.filterMap kind.composition.error? ++ error :: after.filterMap kind.composition.error?
  path : error.path = fragment.path
  others : ∀ other ∈ before.filterMap kind.composition.error? ++ after.filterMap kind.composition.error?,
    other.path ≠ fragment.path
  /-- It is inserted among the errors there were, if the fragment did not add one itself. -/
  inserted : (kind = .json → ∃ value, Json.parse fragment.content = .ok value) →
    first.errors = before.filterMap kind.composition.error? ++ after.filterMap kind.composition.error?
  /-- If the fragment could be read but not parsed, the new error takes the place of that one. -/
  replaced : kind = .json → ∀ fault, Json.parse fragment.content = .error fault → first.errors =
    before.filterMap kind.composition.error? ++ .parse fragment.path fault ::
      after.filterMap kind.composition.error?
  /-- From a concatenated bundle the block of the fragment is taken. -/
  block : ∀ markers, kind.composition = .concatenate markers →
    first.body = (Concatenation.ofItems (Utf8.encode kind.suffix) markers before).body ++
        Concatenation.block (Utf8.encode kind.suffix) markers fragment ++
        (Concatenation.ofItems (Utf8.encode kind.suffix) markers after).body ∧
      second.body = (Concatenation.ofItems (Utf8.encode kind.suffix) markers before).body ++
        (Concatenation.ofItems (Utf8.encode kind.suffix) markers after).body
  /-- The merged bundle is that of the other items. -/
  merged : kind = .json →
    first.body = (Merge.ofItems (Utf8.encode kind.suffix) (before ++ .ok fragment :: after)).body ∧
      second.body = (Merge.ofItems (Utf8.encode kind.suffix) (before ++ after)).body
  /-- The last fragment in front with the same key, which was overridden, is there again. -/
  reappears : ∀ {earlier later : List Item} {other : Fragment} {own value : Json.Value},
    before = earlier ++ .ok other :: later →
    Json.parse fragment.content = .ok own → Json.parse other.content = .ok value →
    Merge.nameOf (Utf8.encode kind.suffix) other = Merge.nameOf (Utf8.encode kind.suffix) fragment →
    (∀ member ∈ (later ++ after).filterMap (Merge.member? (Utf8.encode kind.suffix)),
      member.1 ≠ Merge.nameOf (Utf8.encode kind.suffix) fragment) →
    (Merge.ofItems (Utf8.encode kind.suffix) (before ++ .ok fragment :: after)).members.get?
        (Merge.nameOf (Utf8.encode kind.suffix) fragment) = some own ∧
      (Merge.ofItems (Utf8.encode kind.suffix) (before ++ after)).members.get?
        (Merge.nameOf (Utf8.encode kind.suffix) fragment) = some value

namespace Composer

variable {kind : Kind} {root : Path} {before after : List Item} {fragment : Fragment} {item : Item}
  {error : FragmentError}

/-- The last item with a key decides what the key stands for. -/
theorem get?_ofItems_of_last {suffix : Bytes} {front behind : List Item} {value : Json.Value}
    (parsed : Json.parse fragment.content = .ok value)
    (last : ∀ member ∈ behind.filterMap (Merge.member? suffix), member.1 ≠ Merge.nameOf suffix fragment) :
    (Merge.ofItems suffix (front ++ .ok fragment :: behind)).members.get? (Merge.nameOf suffix fragment) =
      some value := by
  have member : Merge.member? suffix (.ok fragment) = some (Merge.nameOf suffix fragment, value) := by
    rw [Merge.member?, Merge.readValue_of_parse parsed]
  rw [Merge.members_ofItems, List.filterMap_append, List.filterMap_cons_some member]
  exact Json.Members.get?_ofList_of_last _ last

/-- An item that adds an error in place of a fragment changes nothing else. -/
theorem isolated_composeItems (failed : kind.composition.error? item = some error) (path : error.path = fragment.path)
    (distinct : ((before ++ .ok fragment :: after).map Item.path).Nodup) :
    Isolated kind before fragment after error (composeItems kind root (before ++ .ok fragment :: after)).result
      (composeItems kind root (before ++ item :: after)).result where
  errors := by
    rw [errors_composeItems, List.filterMap_append, List.filterMap_cons_some failed]
  path := path
  others := by
    intro other member same
    rw [← List.filterMap_append] at member
    obtain ⟨origin, among, adds⟩ := List.mem_filterMap.1 member
    rw [List.map_append, List.map_cons, List.nodup_middle, List.nodup_cons, ← List.map_append] at distinct
    refine distinct.1 (List.mem_map.2 ⟨origin, among, ?_⟩)
    rw [← Composition.path_of_error? adds, same]
    rfl
  inserted := by
    intro sound
    have nothing : kind.composition.error? (.ok fragment) = none := by
      cases kind with
      | json =>
        obtain ⟨value, parsed⟩ := sound rfl
        rw [Kind.composition, Composition.error?, Merge.error?, Merge.readValue_of_parse parsed]
      | _ => rfl
    rw [errors_composeItems, List.filterMap_append, List.filterMap_cons_none nothing]
  replaced := by
    rintro rfl fault refused
    have own : Kind.json.composition.error? (.ok fragment) = some (.parse fragment.path fault) := by
      rw [Kind.composition, Composition.error?, Merge.error?, Merge.readValue_of_refused refused]
    rw [errors_composeItems, List.filterMap_append, List.filterMap_cons_some own]
  block := by
    intro markers concatenated
    rw [body_composeItems_of_error failed, body_composeItems_of_concatenate concatenated,
      body_composeItems_of_concatenate concatenated, Concatenation.body_ofItems_append,
      Concatenation.body_ofItems_append, Concatenation.body_ofItems_cons, List.append_assoc]
    exact ⟨rfl, rfl⟩
  merged := by
    rintro rfl
    rw [body_composeItems_of_error failed]
    exact ⟨body_composeItems_of_merge rfl, body_composeItems_of_merge rfl⟩
  reappears := by
    rintro earlier later other own value rfl ownParsed parsed sameName last
    constructor
    · refine get?_ofItems_of_last ownParsed fun member among => last member ?_
      rw [List.filterMap_append]
      exact List.mem_append_right _ among
    · rw [← sameName] at last ⊢
      rw [List.append_assoc, List.cons_append]
      exact get?_ofItems_of_last parsed last

/-- A pass over a tree in which one fragment has been spoiled still gives a bundle. In the errors of the bundle the
error of the fragment stands where the fragment stood, all others are as they were, and the body is that of all other
fragments. -/
theorem composeRoot_of_spoils (composer : Composer) (lexicographic : composer.order = .lexicographic)
    {tree : FileTree} (free : tree.top.linkFree = true) {walk : Walk}
    (started : Walk.start tree root (Utf8.encode kind.suffix) .lexicographic = .ok walk)
    (reached : walk.items tree = before ++ .ok fragment :: after) {change : FileTree.Change}
    (spoils : Spoils kind fragment change error) :
    ∃ first second, (composer.composeRoot tree root kind).result = .ok first ∧
      (composer.composeRoot (tree.apply change) root kind).result = .ok second ∧
      Isolated kind before fragment after error first second := by
  obtain ⟨-, directory, -⟩ := Walk.start_eq_ok_iff.1 started
  have items := reached
  rw [Walk.items_of_start started] at items
  obtain ⟨stays, item, failed, items'⟩ :=
    Walk.traversal_of_spoils (SiblingOrder.arrange_perm .lexicographic) free directory items spoils
  have first := composer.composeRoot_of_directory directory kind
  have second := composer.composeRoot_of_directory stays kind
  rw [lexicographic] at first second
  rw [items] at first
  rw [items'] at second
  refine ⟨_, _, first, second, isolated_composeItems failed spoils.path_eq ?_⟩
  rw [← reached]
  exact Walk.nodup_path_items started

/-- A directory in which a fragment overrides another one with the same key, beside what is no fragment. -/
def overridingTree : FileTree where
  top := .directory .ofDirectory [(Utf8.encode "r", .directory .ofDirectory
    [(Utf8.encode "b", .directory .ofDirectory [(Utf8.encode "a.json", .file .ofFile (Utf8.encode "2"))]),
     (Utf8.encode "a.json", .file .ofFile (Utf8.encode "1")),
     (Utf8.encode "c.js", .file .ofFile (Utf8.encode "3"))])]
  wellFormed := by
    simp only [FileTree.Node.WellFormed, FileTree.Node.WellFormedEntries]
    decide

/-- A composer that takes siblings by the bytes of their names. -/
def orderly : Composer := ⟨.multi (.ofString "apps"), .lexicographic⟩

theorem composeRoot_of_spoils_overriding :
    let overridden : Fragment := ⟨.ofString "r/a.json", Utf8.encode "a.json", Utf8.encode "1"⟩
    let overriding : Fragment := ⟨.ofString "r/b/a.json", Utf8.encode "a.json", Utf8.encode "2"⟩
    let walk : Walk := ⟨Utf8.encode Kind.json.suffix, .lexicographic, [.root (.ofString "r")]⟩
    let change : FileTree.Change := .make (.ofString "r/b/a.json") (.file (Utf8.encode "\x7b"))
    orderly.order = .lexicographic ∧ overridingTree.top.linkFree = true ∧
      Walk.start overridingTree (.ofString "r") (Utf8.encode Kind.json.suffix) .lexicographic = .ok walk ∧
      walk.items overridingTree = [.ok overridden] ++ .ok overriding :: [] ∧
      ∃ fault, Spoils .json overriding change (.parse (.ofString "r/b/a.json") fault) ∧
        ∃ first second, (orderly.composeRoot overridingTree (.ofString "r") .json).result = .ok first ∧
          (orderly.composeRoot (overridingTree.apply change) (.ofString "r") .json).result = .ok second ∧
          Isolated .json [.ok overridden] overriding [] (.parse (.ofString "r/b/a.json") fault) first second := by
  intro overridden overriding walk change
  have started : Walk.start overridingTree (.ofString "r") (Utf8.encode Kind.json.suffix) .lexicographic =
      .ok walk := rfl
  have total : SiblingOrder.lexicographic.IsTotal := trivial
  have items : walk.items overridingTree = [.ok overridden] ++ .ok overriding :: [] := by
    rw [Walk.items_of_start started, Walk.traversal_congr (Walk.agree_sorted total)]
    rfl
  have refused : ∃ fault, Json.parse (Utf8.encode "\x7b") = .error fault := ⟨_, rfl⟩
  have parsed : ∃ value, Json.parse overriding.content = .ok value := ⟨_, rfl⟩
  obtain ⟨fault, refused⟩ := refused
  obtain ⟨value, parsed⟩ := parsed
  have spoils : Spoils .json overriding change (.parse (.ofString "r/b/a.json") fault) :=
    .malformed rfl parsed refused
  exact ⟨rfl, rfl, started, items, fault, spoils, composeRoot_of_spoils orderly rfl rfl started items spoils⟩

/-- A directory with a fragment that cannot be parsed. -/
def malformedTree : FileTree where
  top := .directory .ofDirectory [(Utf8.encode "r", .directory .ofDirectory
    [(Utf8.encode "a.json", .file .ofFile (Utf8.encode "\x7b"))])]
  wellFormed := by
    simp only [FileTree.Node.WellFormed, FileTree.Node.WellFormedEntries]
    decide

/-- When the file of a fragment that cannot be parsed loses the permission to be read, no error is inserted: one takes
the place of another. -/
theorem not_inserted_of_malformed :
    let fragment : Fragment := ⟨.ofString "r/a.json", Utf8.encode "a.json", Utf8.encode "\x7b"⟩
    let walk : Walk := ⟨Utf8.encode Kind.json.suffix, .lexicographic, [.root (.ofString "r")]⟩
    let change : FileTree.Change := .setAccess (.ofString "r/a.json") ⟨false, false⟩
    malformedTree.top.linkFree = true ∧
      Walk.start malformedTree (.ofString "r") (Utf8.encode Kind.json.suffix) .lexicographic = .ok walk ∧
      walk.items malformedTree = [.ok fragment] ∧
      ∃ first second, (orderly.composeRoot malformedTree (.ofString "r") .json).result = .ok first ∧
        (orderly.composeRoot (malformedTree.apply change) (.ofString "r") .json).result = .ok second ∧
        ¬ ∃ front behind error, first.errors = front ++ behind ∧ second.errors = front ++ error :: behind := by
  intro fragment walk change
  have started : Walk.start malformedTree (.ofString "r") (Utf8.encode Kind.json.suffix) .lexicographic =
      .ok walk := rfl
  have directory : malformedTree.kind (.ofString "r") = .ok .directory := rfl
  have total : SiblingOrder.lexicographic.IsTotal := trivial
  have whole : Walk.traversal malformedTree (Utf8.encode Kind.json.suffix) orderly.order.arrange (.ofString "r") =
      [] ++ .ok fragment :: [] :=
    (Walk.traversal_congr (Walk.agree_sorted total) _).trans rfl
  obtain ⟨stays, whole'⟩ := Walk.traversal_setAccess orderly.order.arrange_perm rfl directory whole
    ⟨false, false⟩
  have first := orderly.composeRoot_of_directory directory .json
  have second := orderly.composeRoot_of_directory stays .json
  rw [whole] at first
  rw [whole'] at second
  refine ⟨rfl, started, (Walk.items_of_start started).trans whole, _, _, first, second, ?_⟩
  rintro ⟨front, behind, error, shorter, longer⟩
  rw [errors_composeItems] at shorter longer
  have one : 1 = (front ++ behind).length := congrArg List.length shorter
  have two : 1 = (front ++ error :: behind).length := congrArg List.length longer
  rw [List.length_append] at one
  rw [List.length_append, List.length_cons] at two
  omega

end Composer

end BundleServer
