import BundleServer.Proofs.Bundle.Passes
import BundleServer.Proofs.Bundle.Prevailing

/-!
# Every item is accounted for

A pass fails for its root and for nothing else: an application must be named where each has a directory of its own, and
the root must lead to a directory. From any directory a bundle is composed, and every item of the walk is either used
for the body or adds an error (`isSome_error?`), so none is lost and none counts twice.
-/

namespace BundleServer

/-- The fragment of an item that is used for the body: for a merged bundle it must be one that can be parsed. -/
def Composition.used? : Composition → Item → Option Fragment
  | .merge, item => item.parsed?.map Prod.fst
  | .concatenate _, .ok fragment => some fragment
  | .concatenate _, .error _ => none

/-- An item adds an error exactly if it is not used. -/
theorem Composition.isSome_error? (composition : Composition) (item : Item) :
    (composition.error? item).isSome = !(composition.used? item).isSome := by
  cases composition with
  | merge =>
    rw [error?, used?, Merge.error?_eq_fault?]
    rcases Merge.readValue_cases item with ⟨fragment, value, -, parsed, sound⟩ | ⟨error, -, unparsed, fault⟩
    · rw [parsed, sound]
      rfl
    · rw [unparsed, fault]
      rfl
  | concatenate markers => cases item <;> rfl

theorem Composition.length_eq (composition : Composition) (items : List Item) :
    items.length = (items.filterMap composition.error?).length + (items.filterMap composition.used?).length := by
  rw [List.length_filterMap_eq_countP, List.length_filterMap_eq_countP, Nat.add_comm,
    List.length_eq_countP_add_countP fun item => (composition.used? item).isSome]
  congr 1
  refine List.countP_congr fun item _ => ?_
  rw [composition.isSome_error?]
  simp

/-- A bundle in which every item is accounted for once. -/
structure Accounted (kind : Kind) (items : List Item) (bundle : Bundle) : Prop where
  ofKind : bundle.kind = kind
  errors : bundle.errors = items.filterMap kind.composition.error?
  total : items.length = bundle.errors.length + (items.filterMap kind.composition.used?).length
  /-- In a concatenated bundle there is a block for each fragment that is used. -/
  blocks : ∀ markers, kind.composition = .concatenate markers →
    bundle.body = (items.filterMap kind.composition.used?).flatMap
      (Concatenation.block (Utf8.encode kind.suffix) markers)
  /-- A merged bundle is that of the fragments that are used, each of which can be parsed. -/
  merged : kind.composition = .merge →
    bundle.body = (Merge.ofItems (Utf8.encode kind.suffix) ((items.filterMap kind.composition.used?).map .ok)).body ∧
      ∀ fragment ∈ items.filterMap kind.composition.used?, ∃ value, Json.parse fragment.content = .ok value

theorem Concatenation.fragments_eq (markers : Markers) (items : List Item) :
    fragments items = items.filterMap (Composition.used? (.concatenate markers)) := by
  refine List.filterMap_congr fun item _ => ?_
  cases item <;> rfl

/-- What is merged are the fragments that are used. -/
theorem Merge.members_ofItems_used (suffix : Bytes) (items : List Item) :
    (ofItems suffix ((items.filterMap (Composition.used? .merge)).map .ok)).members =
      (ofItems suffix items).members := by
  rw [members_ofItems, members_ofItems, List.filterMap_map, List.filterMap_filterMap]
  congr 1
  refine List.filterMap_congr fun item _ => ?_
  rw [Composition.used?]
  rcases readValue_cases item with ⟨fragment, value, -, parsed, -⟩ | ⟨error, -, unparsed, -⟩
  · obtain ⟨rfl, -⟩ := parsed?_eq_some_iff.1 parsed
    rw [parsed]
    rfl
  · rw [member?_eq, unparsed]
    rfl

namespace Composer

theorem accounted_composeItems (kind : Kind) (root : Path) (items : List Item) :
    Accounted kind items (composeItems kind root items).result where
  ofKind := by
    unfold composeItems
    cases kind.composition <;> rfl
  errors := errors_composeItems
  total := by
    rw [errors_composeItems]
    exact kind.composition.length_eq items
  blocks := by
    intro markers concatenated
    rw [body_composeItems_of_concatenate concatenated, concatenated, ← Concatenation.fragments_eq,
      Concatenation.ofItems_eq]
  merged := by
    intro merge
    rw [body_composeItems_of_merge merge, merge, Merge.body, Merge.body, Merge.members_ofItems_used]
    refine ⟨rfl, fun fragment used => ?_⟩
    obtain ⟨item, -, taken⟩ := List.mem_filterMap.1 used
    rw [Composition.used?, Option.map_eq_some_iff] at taken
    obtain ⟨found, parsed, rfl⟩ := taken
    exact ⟨found.2, (Merge.parsed?_eq_some_iff.1 parsed).2⟩

/-- The root of an application is known, unless each has a directory of its own and none is named. -/
theorem root_cases (layout : Layout) (name? : Option Namespace) :
    (((∃ apps, layout = .multi apps) ∧ name? = none) ∧ layout.root name? = .error (.invalidNamespace "<missing>")) ∨
      (¬ ((∃ apps, layout = .multi apps) ∧ name? = none) ∧ ∃ root, layout.root name? = .ok root) := by
  cases layout with
  | multi apps =>
    cases name? with
    | none => exact .inl ⟨⟨⟨apps, rfl⟩, rfl⟩, rfl⟩
    | some name =>
      refine .inr ⟨?_, _, rfl⟩
      rintro ⟨-, unnamed⟩
      cases unnamed
  | single data =>
    refine .inr ⟨?_, data, rfl⟩
    rintro ⟨⟨apps, other⟩, -⟩
    cases other

theorem compose_of_root (composer : Composer) (tree : FileTree) {name? : Option Namespace} {root : Path}
    (rooted : composer.layout.root name? = .ok root) (kind : Kind) :
    composer.compose tree name? kind = composer.composeRoot tree root kind := by
  rw [compose, rooted]

theorem compose_of_unrooted (composer : Composer) (tree : FileTree) {name? : Option Namespace} {error : BundleError}
    (unrooted : composer.layout.root name? = .error error) (kind : Kind) :
    (composer.compose tree name? kind).result = .error error := by
  rw [compose, unrooted]
  rfl

section Outcome

variable {composer : Composer} {tree : FileTree} {name? : Option Namespace} {kind : Kind}

/-- All that can come of a pass for an application. -/
theorem outcome_cases (composer : Composer) (tree : FileTree) (name? : Option Namespace) (kind : Kind) :
    (((∃ apps, composer.layout = .multi apps) ∧ name? = none) ∧
        composer.layout.root name? = .error (.invalidNamespace "<missing>") ∧
        (composer.compose tree name? kind).result = .error (.invalidNamespace "<missing>")) ∨
      (¬ ((∃ apps, composer.layout = .multi apps) ∧ name? = none) ∧
        ∃ root, composer.layout.root name? = .ok root ∧
          ((∃ fault, tree.Refuses root fault ∧
              (composer.compose tree name? kind).result = .error (.invalidRoot root fault)) ∨
            ∃ walk, tree.kind root = .ok .directory ∧
              Walk.start tree root (Utf8.encode kind.suffix) composer.order = .ok walk ∧
              (composer.compose tree name? kind).result = .ok (composeItems kind root (walk.items tree)).result)) := by
  rcases root_cases composer.layout name? with ⟨unnamed, unrooted⟩ | ⟨named, root, rooted⟩
  · exact .inl ⟨unnamed, unrooted, composer.compose_of_unrooted tree unrooted kind⟩
  · refine .inr ⟨named, root, rooted, ?_⟩
    rw [composer.compose_of_root tree rooted kind]
    rcases tree.directory_or_refuses root with directory | ⟨fault, refuses⟩
    · have started : Walk.start tree root (Utf8.encode kind.suffix) composer.order =
          .ok ⟨Utf8.encode kind.suffix, composer.order, [.root root]⟩ :=
        Walk.start_eq_ok_iff.2 ⟨kind.suffix_ne_nil, directory, rfl⟩
      refine .inr ⟨_, directory, started, ?_⟩
      rw [composer.composeRoot_of_directory directory kind, Walk.items_of_start started]
    · exact .inl ⟨fault, refuses, composer.composeRoot_of_refuses refuses kind⟩

/-- A pass fails in two ways only. -/
theorem cases_of_compose_error {error : BundleError}
    (failed : (composer.compose tree name? kind).result = .error error) :
    (∃ raw, error = .invalidNamespace raw) ∨ ∃ root fault, error = .invalidRoot root fault := by
  rcases outcome_cases composer tree name? kind with
    ⟨-, -, result⟩ | ⟨-, root, -, ⟨fault, -, result⟩ | ⟨walk, -, -, result⟩⟩
  · exact .inl ⟨_, Except.error.inj (failed.symm.trans result)⟩
  · exact .inr ⟨root, fault, Except.error.inj (failed.symm.trans result)⟩
  · cases failed.symm.trans result

theorem exists_compose_invalidNamespace_iff :
    (∃ raw, (composer.compose tree name? kind).result = .error (.invalidNamespace raw)) ↔
      (∃ apps, composer.layout = .multi apps) ∧ name? = none := by
  rcases outcome_cases composer tree name? kind with
    ⟨unnamed, -, result⟩ | ⟨named, root, -, ⟨fault, -, result⟩ | ⟨walk, -, -, result⟩⟩
  · exact ⟨fun _ => unnamed, fun _ => ⟨_, result⟩⟩
  · exact ⟨fun ⟨raw, failed⟩ => (nomatch failed.symm.trans result), fun unnamed => absurd unnamed named⟩
  · exact ⟨fun ⟨raw, failed⟩ => (nomatch failed.symm.trans result), fun unnamed => absurd unnamed named⟩

theorem compose_eq_invalidRoot_iff {root : Path} {fault : RootFault} :
    (composer.compose tree name? kind).result = .error (.invalidRoot root fault) ↔
      composer.layout.root name? = .ok root ∧ tree.Refuses root fault := by
  constructor
  · intro failed
    rcases outcome_cases composer tree name? kind with
      ⟨-, -, result⟩ | ⟨-, own, rooted, ⟨reason, refuses, result⟩ | ⟨walk, -, -, result⟩⟩
    · cases failed.symm.trans result
    · cases failed.symm.trans result
      exact ⟨rooted, refuses⟩
    · cases failed.symm.trans result
  · rintro ⟨rooted, refuses⟩
    rw [composer.compose_of_root tree rooted kind]
    exact composer.composeRoot_of_refuses refuses kind

theorem exists_compose_ok_iff : (∃ bundle, (composer.compose tree name? kind).result = .ok bundle) ↔
    ∃ root, composer.layout.root name? = .ok root ∧ tree.kind root = .ok .directory := by
  constructor
  · rintro ⟨bundle, composed⟩
    rcases outcome_cases composer tree name? kind with
      ⟨-, -, result⟩ | ⟨-, root, rooted, ⟨fault, -, result⟩ | ⟨walk, directory, -, -⟩⟩
    · cases composed.symm.trans result
    · cases composed.symm.trans result
    · exact ⟨root, rooted, directory⟩
  · rintro ⟨root, rooted, directory⟩
    rw [composer.compose_of_root tree rooted kind]
    exact ⟨_, composer.composeRoot_of_directory directory kind⟩

theorem accounted_of_compose {bundle : Bundle} (composed : (composer.compose tree name? kind).result = .ok bundle) :
    ∃ root walk, composer.layout.root name? = .ok root ∧
      Walk.start tree root (Utf8.encode kind.suffix) composer.order = .ok walk ∧
      Accounted kind (walk.items tree) bundle := by
  rcases outcome_cases composer tree name? kind with
    ⟨-, -, result⟩ | ⟨-, root, rooted, ⟨fault, -, result⟩ | ⟨walk, -, started, result⟩⟩
  · cases composed.symm.trans result
  · cases composed.symm.trans result
  · refine ⟨root, walk, rooted, started, ?_⟩
    rw [Except.ok.inj (composed.symm.trans result)]
    exact accounted_composeItems kind root (walk.items tree)

end Outcome

/-- A pass says that no application is named exactly if each has a directory of its own and none is named. Otherwise it
says what is wrong with the root, which is then the root that is looked at, exactly if the root cannot be resolved or
does not lead to a directory, and gives a bundle in all other cases. In a bundle every item of the walk counts once. -/
theorem compose_outcome (composer : Composer) (tree : FileTree) (name? : Option Namespace) (kind : Kind) :
    ((∃ raw, (composer.compose tree name? kind).result = .error (.invalidNamespace raw)) ↔
        (∃ apps, composer.layout = .multi apps) ∧ name? = none) ∧
      (∀ root fault, (composer.compose tree name? kind).result = .error (.invalidRoot root fault) ↔
        composer.layout.root name? = .ok root ∧ tree.Refuses root fault) ∧
      (composer.compose tree name? kind).result ≠ .error .emptySuffix ∧
      (∀ error, (composer.compose tree name? kind).result ≠ .error (.unwritable error)) ∧
      ((∃ bundle, (composer.compose tree name? kind).result = .ok bundle) ↔
        ∃ root, composer.layout.root name? = .ok root ∧ tree.kind root = .ok .directory) ∧
      ∀ bundle, (composer.compose tree name? kind).result = .ok bundle → ∃ root walk,
        composer.layout.root name? = .ok root ∧
          Walk.start tree root (Utf8.encode kind.suffix) composer.order = .ok walk ∧
          Accounted kind (walk.items tree) bundle := by
  refine ⟨exists_compose_invalidNamespace_iff, fun root fault => compose_eq_invalidRoot_iff, ?_, ?_,
    exists_compose_ok_iff, fun bundle => accounted_of_compose⟩
  · intro failed
    rcases cases_of_compose_error failed with ⟨raw, other⟩ | ⟨root, fault, other⟩ <;> cases other
  · intro error failed
    rcases cases_of_compose_error failed with ⟨raw, other⟩ | ⟨root, fault, other⟩ <;> cases other

/-- A directory with fragments of two kinds. Of those to be merged one cannot be parsed, one cannot be read, and one is
a link back to the directory; of those to be concatenated one cannot be read. -/
def spoiledTree : FileTree where
  top := .directory .ofDirectory [(Utf8.encode "r", .directory .ofDirectory
    [(Utf8.encode "c.json", .file ⟨false, false⟩ (Utf8.encode "2")),
     (Utf8.encode "b.json", .file .ofFile (Utf8.encode "\x7b")),
     (Utf8.encode "d.json", .link (.ofString ".")),
     (Utf8.encode "a.json", .file .ofFile (Utf8.encode "1")),
     (Utf8.encode "a.js", .file .ofFile (Utf8.encode "f()")),
     (Utf8.encode "b.js", .file ⟨false, false⟩ (Utf8.encode "g()")),
     (Utf8.encode "c.js", .file .ofFile [])])]
  wellFormed := by
    simp only [FileTree.Node.WellFormed, FileTree.Node.WellFormedEntries]
    decide

/-- Of three items one is merged, and of three others two are put one behind the other, each in a block of its own. -/
theorem compose_outcome_spoiledTree :
    let composer : Composer := ⟨.single (.ofString "r"), .filesystem⟩
    (∃ bundle walk, (composer.compose spoiledTree none .json).result = .ok bundle ∧
      Walk.start spoiledTree (.ofString "r") (Utf8.encode Kind.json.suffix) .filesystem = .ok walk ∧
      Accounted .json (walk.items spoiledTree) bundle ∧
      (walk.items spoiledTree).length = 3 ∧ bundle.errors.length = 2) ∧
    ∃ bundle walk, (composer.compose spoiledTree none .script).result = .ok bundle ∧
      Walk.start spoiledTree (.ofString "r") (Utf8.encode Kind.script.suffix) .filesystem = .ok walk ∧
      Accounted .script (walk.items spoiledTree) bundle ∧
      (walk.items spoiledTree).length = 3 ∧ bundle.errors.length = 1 ∧
      bundle.body = Utf8.encode "/* a.js */\nf()/* a.js */\n\n/* c.js */\n/* c.js */\n\n" := by
  intro composer
  have pass (kind : Kind) : ∃ bundle walk, (composer.compose spoiledTree none kind).result = .ok bundle ∧
      Walk.start spoiledTree (.ofString "r") (Utf8.encode kind.suffix) .filesystem = .ok walk ∧
      Accounted kind (walk.items spoiledTree) bundle ∧
      walk.items spoiledTree = Walk.traversal spoiledTree (Utf8.encode kind.suffix)
        (SiblingOrder.arrange .filesystem) (.ofString "r") := by
    obtain ⟨-, -, -, -, composed, accounted⟩ := compose_outcome composer spoiledTree none kind
    obtain ⟨bundle, result⟩ := composed.2 ⟨.ofString "r", rfl, rfl⟩
    obtain ⟨root, walk, rooted, started, counts⟩ := accounted bundle result
    cases rooted
    exact ⟨bundle, walk, result, started, counts, Walk.items_of_start started⟩
  constructor
  · obtain ⟨bundle, walk, result, started, counts, items⟩ := pass .json
    refine ⟨bundle, walk, result, started, counts, ?_, ?_⟩
    · rw [items]
      decide +kernel
    · rw [counts.errors, items]
      decide +kernel
  · obtain ⟨bundle, walk, result, started, counts, items⟩ := pass .script
    refine ⟨bundle, walk, result, started, counts, ?_, ?_, ?_⟩
    · rw [items]
      decide +kernel
    · rw [counts.errors, items]
      decide +kernel
    · rw [counts.blocks _ rfl, items]
      decide +kernel

end Composer

end BundleServer
