import BundleServer.Proofs.Bundle.Outcome
import BundleServer.Proofs.Bundle.Passes
import BundleServer.Proofs.Walk.Files

/-!
# The merged bundle as a mapping

If all fragments below an open directory can be read and parsed, and no two of them have the same stem, then the merged
bundle maps the stem of each of them to its value, and is nothing more. Members are kept in order, so there is one list
of members for one mapping, and with it one body: the sequence in which siblings are taken, or in which the file system
lists them, leaves no trace.
-/

namespace BundleServer

open FileTree (Access Node)

/-- A fragment with its stem, which is UTF-8, and the value of its content. -/
structure Fragment.Holds (suffix : Bytes) (fragment : Fragment) (stem : String) (value : Json.Value) : Prop where
  stem : fragment.key suffix = Utf8.encode stem
  value : Json.parse fragment.content = .ok value

/-- Can every fragment below a node be read and parsed, and do different ones have different stems, which are UTF-8? -/
structure FileTree.Node.IsSound (node : Node) (root : Path) (suffix : Bytes) : Prop where
  readable : ∀ {names access fragment}, node.Offers root suffix names access fragment → access.read = true
  holds : ∀ {names access fragment}, node.Offers root suffix names access fragment →
    ∃ stem value, fragment.Holds suffix stem value
  distinct : ∀ {names access fragment names' access' fragment'}, node.Offers root suffix names access fragment →
    node.Offers root suffix names' access' fragment' → fragment.key suffix = fragment'.key suffix → names = names'

section Mapping

variable {suffix : Bytes} {fragment : Fragment} {stem : String} {value : Json.Value}

theorem Fragment.Holds.readValue (holds : fragment.Holds suffix stem value) :
    Merge.readValue (.ok fragment) = .ok (fragment, value) := Merge.readValue_of_parse holds.value

theorem Fragment.Holds.member? (holds : fragment.Holds suffix stem value) :
    Merge.member? suffix (.ok fragment) = some (stem, value) := by
  rw [Merge.member?, holds.readValue]
  simp only [Merge.nameOf, holds.stem, Utf8.lossy_encode]

theorem Fragment.Holds.error? (holds : fragment.Holds suffix stem value) : Merge.error? (.ok fragment) = none := by
  rw [Merge.error?, holds.readValue]

variable {tree : FileTree} {root : Path} {node : Node} (opens : tree.Opens root node)
  (sound : node.IsSound root suffix) {order : SiblingOrder} {walk : Walk}
  (started : Walk.start tree root suffix order = .ok walk)

include opens sound started

/-- The items of a walk over sound files are their fragments. -/
theorem Walk.mem_items_iff_of_sound {item : Item} : item ∈ walk.items tree ↔
    ∃ names access fragment, node.Offers root suffix names access fragment ∧ item = .ok fragment :=
  Walk.mem_items_iff_of_readable opens (fun _ _ _ offers => sound.readable offers) started

/-- What the items add are the stems of the files with their values. -/
theorem Walk.mem_filterMap_member?_iff : (stem, value) ∈ (walk.items tree).filterMap (Merge.member? suffix) ↔
    ∃ names access fragment, node.Offers root suffix names access fragment ∧ fragment.Holds suffix stem value := by
  rw [List.mem_filterMap]
  constructor
  · rintro ⟨item, member, adds⟩
    obtain ⟨names, access, fragment, offers, rfl⟩ := (Walk.mem_items_iff_of_sound opens sound started).1 member
    obtain ⟨stem', value', holds⟩ := sound.holds offers
    rw [holds.member?] at adds
    cases adds
    exact ⟨names, access, fragment, offers, holds⟩
  · rintro ⟨names, access, fragment, offers, holds⟩
    exact ⟨.ok fragment, (Walk.mem_items_iff_of_sound opens sound started).2 ⟨names, access, fragment, offers, rfl⟩,
      holds.member?⟩

theorem Merge.errors_eq_nil : (Merge.ofItems suffix (walk.items tree)).errors = [] := by
  rw [Merge.errors_ofItems, List.filterMap_eq_nil_iff]
  intro item member
  obtain ⟨names, access, fragment, offers, rfl⟩ := (Walk.mem_items_iff_of_sound opens sound started).1 member
  obtain ⟨stem, value, holds⟩ := sound.holds offers
  exact holds.error?

/-- The members are the stems of the files with their values. -/
theorem Merge.mem_members_iff : (stem, value) ∈ (Merge.ofItems suffix (walk.items tree)).members ↔
    ∃ names access fragment, node.Offers root suffix names access fragment ∧ fragment.Holds suffix stem value := by
  rw [Merge.members_ofItems, Json.Members.mem_ofList_iff, Walk.mem_filterMap_member?_iff opens sound started]
  intro stem value value' member member'
  obtain ⟨names, access, fragment, offers, holds⟩ := (Walk.mem_filterMap_member?_iff opens sound started).1 member
  obtain ⟨names', access', fragment', offers', holds'⟩ :=
    (Walk.mem_filterMap_member?_iff opens sound started).1 member'
  obtain rfl := sound.distinct offers offers' (holds.stem.trans holds'.stem.symm)
  have same : fragment.content = fragment'.content :=
    (Node.file.inj (Option.some.inj (offers.held.symm.trans offers'.held))).2
  have read := holds.value
  rw [same, holds'.value] at read
  exact (Except.ok.inj read).symm

end Mapping

/-- If the fragments below an open directory are sound, the merged bundle is the mapping of their stems to their values,
without errors, in whatever order siblings are taken. The bytes are the same for all trees that offer the same files,
whatever their directories list first. -/
theorem Composer.composeRoot_of_sound {tree : FileTree} {root : Path} {node : Node} (opens : tree.Opens root node)
    (sound : node.IsSound root (Utf8.encode Kind.json.suffix)) :
    ∃ mapping : Json.Members Json.Value, mapping.Ascending ∧
      (∀ stem value, (stem, value) ∈ mapping ↔ ∃ names access fragment,
        node.Offers root (Utf8.encode Kind.json.suffix) names access fragment ∧
        fragment.Holds (Utf8.encode Kind.json.suffix) stem value) ∧
      ∀ (other : FileTree) (node' : Node), other.Opens root node' →
        (∀ names access fragment, node'.Offers root (Utf8.encode Kind.json.suffix) names access fragment ↔
          node.Offers root (Utf8.encode Kind.json.suffix) names access fragment) →
        ∀ composer : Composer, ∃ walk,
          Walk.start other root (Utf8.encode Kind.json.suffix) composer.order = .ok walk ∧
          (Merge.ofItems (Utf8.encode Kind.json.suffix) (walk.items other)).members = mapping ∧
          (composer.composeRoot other root .json).result = .ok ⟨.json, (Json.Value.object mapping).write, []⟩ := by
  have starts {other : FileTree} {node' : Node} (opens' : other.Opens root node') (order : SiblingOrder) :
      ∃ walk, Walk.start other root (Utf8.encode Kind.json.suffix) order = .ok walk := by
    obtain ⟨above, reached⟩ := opens'.reached
    refine ⟨_, Walk.start_eq_ok_iff.2 ⟨Kind.json.suffix_ne_nil, ?_, rfl⟩⟩
    rw [FileTree.kind, reached, Except.map, opens'.directory]
  obtain ⟨walk, started⟩ := starts opens .lexicographic
  refine ⟨(Merge.ofItems _ (walk.items tree)).members, (Merge.stemsFrom_ofItems _ _).ascending,
    fun _ _ => Merge.mem_members_iff opens sound started, fun other node' opens' same composer => ?_⟩
  have sound' : node'.IsSound root (Utf8.encode Kind.json.suffix) :=
    ⟨fun offers => sound.readable ((same _ _ _).1 offers), fun offers => sound.holds ((same _ _ _).1 offers),
      fun offers offers' => sound.distinct ((same _ _ _).1 offers) ((same _ _ _).1 offers')⟩
  obtain ⟨walk', started'⟩ := starts opens' composer.order
  have members : (Merge.ofItems (Utf8.encode Kind.json.suffix) (walk'.items other)).members =
      (Merge.ofItems (Utf8.encode Kind.json.suffix) (walk.items tree)).members := by
    refine Json.Members.eq_of_mem_iff (Merge.stemsFrom_ofItems _ _).ascending (Merge.stemsFrom_ofItems _ _).ascending
      fun pair => ?_
    obtain ⟨stem, value⟩ := pair
    rw [Merge.mem_members_iff opens' sound' started', Merge.mem_members_iff opens sound started]
    simp only [same]
  refine ⟨walk', started', members, ?_⟩
  rw [composeRoot, started']
  simp only [composeItems, Kind.composition]
  rw [Merge.errors_eq_nil opens' sound' started', Merge.body, members]

/-- A directory that is named as a fragment, with a fragment and with a file that nobody may read but that is none. -/
def innerNode : Node :=
  .directory .ofDirectory
    [(Utf8.encode "b.json", .file .ofFile (Utf8.encode "2")), (Utf8.encode "d.js", .file ⟨false, false⟩ [])]

/-- The directory beside another fragment and a fifo that is named as one. -/
def outerNode : Node :=
  .directory .ofDirectory
    [(Utf8.encode "x.json", innerNode), (Utf8.encode "p.json", .fifo .ofFile),
     (Utf8.encode "a.json", .file .ofFile (Utf8.encode "1"))]

def mappedTree : FileTree where
  top := .directory .ofDirectory [(Utf8.encode "r", outerNode)]
  wellFormed := by
    simp only [outerNode, innerNode, Node.WellFormed, Node.WellFormedEntries]
    decide

theorem cases_of_at?_outerNode {names : List Bytes} {target : Node} (held : outerNode.at? names = some target) :
    target = outerNode ∨ target = innerNode ∨ target = .fifo .ofFile ∨
      names = [Utf8.encode "x.json", Utf8.encode "b.json"] ∧ target = .file .ofFile (Utf8.encode "2") ∨
      names = [Utf8.encode "x.json", Utf8.encode "d.js"] ∧ target = .file ⟨false, false⟩ [] ∨
      names = [Utf8.encode "a.json"] ∧ target = .file .ofFile (Utf8.encode "1") := by
  have listed := Node.mem_descendants_of_at? held
  simp only [outerNode, innerNode, Node.descendants, Node.descendantsOfEntries, List.map_cons, List.map_nil,
    List.append_nil, List.cons_append, List.nil_append, List.mem_cons, List.not_mem_nil, or_false,
    Prod.mk.injEq] at listed
  rcases listed with ⟨-, rfl⟩ | ⟨-, rfl⟩ | found | found | ⟨-, rfl⟩ | found
  · exact .inl rfl
  · exact .inr (.inl rfl)
  · simp [found]
  · simp [found]
  · simp
  · simp [found]

theorem isOpen_outerNode : outerNode.IsOpen := Node.isOpen_of_descendants (by decide)

theorem eq_of_offers_outerNode {names : List Bytes} {access : Access} {fragment : Fragment}
    (offers : outerNode.Offers (.ofString "r") (Utf8.encode Kind.json.suffix) names access fragment) :
    access = .ofFile ∧
      (names = [Utf8.encode "x.json", Utf8.encode "b.json"] ∧
          fragment = ⟨.ofString "r/x.json/b.json", Utf8.encode "b.json", Utf8.encode "2"⟩ ∨
        names = [Utf8.encode "a.json"] ∧
          fragment = ⟨.ofString "r/a.json", Utf8.encode "a.json", Utf8.encode "1"⟩) := by
  obtain ⟨path, name, content⟩ := fragment
  obtain ⟨held, named, rfl, selected⟩ := offers
  rcases cases_of_at?_outerNode held with same | same | same | ⟨rfl, same⟩ | ⟨rfl, same⟩ | ⟨rfl, same⟩ <;> cases same
  · cases named
    exact ⟨rfl, .inl ⟨rfl, rfl⟩⟩
  · have ignored : Walk.selects (Utf8.encode Kind.json.suffix)
        ([Utf8.encode "x.json", Utf8.encode "d.js"].foldl Path.join (.ofString "r")) = false := by decide
    exact absurd (ignored.symm.trans selected) Bool.false_ne_true
  · cases named
    exact ⟨rfl, .inr ⟨rfl, rfl⟩⟩

theorem composeRoot_of_sound_mappedTree :
    mappedTree.Opens (.ofString "r") outerNode ∧
      outerNode.IsSound (.ofString "r") (Utf8.encode Kind.json.suffix) ∧
      ∃ mapping : Json.Members Json.Value, ("a", .number (.integer 1)) ∈ mapping ∧
        ("b", .number (.integer 2)) ∈ mapping ∧
        ∀ composer : Composer, (composer.composeRoot mappedTree (.ofString "r") .json).result =
          .ok ⟨.json, (Json.Value.object mapping).write, []⟩ := by
  have opens : mappedTree.Opens (.ofString "r") outerNode := ⟨rfl, ⟨_, rfl⟩, rfl, isOpen_outerNode⟩
  have inside : Fragment.Holds (Utf8.encode Kind.json.suffix)
      ⟨.ofString "r/x.json/b.json", Utf8.encode "b.json", Utf8.encode "2"⟩ "b" (.number (.integer 2)) := ⟨rfl, rfl⟩
  have beside : Fragment.Holds (Utf8.encode Kind.json.suffix)
      ⟨.ofString "r/a.json", Utf8.encode "a.json", Utf8.encode "1"⟩ "a" (.number (.integer 1)) := ⟨rfl, rfl⟩
  have sound : outerNode.IsSound (.ofString "r") (Utf8.encode Kind.json.suffix) := by
    constructor
    · intro names access fragment offers
      obtain ⟨rfl, -⟩ := eq_of_offers_outerNode offers
      rfl
    · intro names access fragment offers
      obtain ⟨-, ⟨-, rfl⟩ | ⟨-, rfl⟩⟩ := eq_of_offers_outerNode offers
      · exact ⟨_, _, inside⟩
      · exact ⟨_, _, beside⟩
    · intro names access fragment names' access' fragment' offers offers' same
      obtain ⟨-, ⟨rfl, rfl⟩ | ⟨rfl, rfl⟩⟩ := eq_of_offers_outerNode offers
      · obtain ⟨-, ⟨rfl, rfl⟩ | ⟨rfl, rfl⟩⟩ := eq_of_offers_outerNode offers'
        · rfl
        · exact absurd same (by decide)
      · obtain ⟨-, ⟨rfl, rfl⟩ | ⟨rfl, rfl⟩⟩ := eq_of_offers_outerNode offers'
        · exact absurd same (by decide)
        · rfl
  obtain ⟨mapping, -, members, composed⟩ := Composer.composeRoot_of_sound opens sound
  refine ⟨opens, sound, mapping, ?_, ?_, fun composer => ?_⟩
  · exact (members _ _).2 ⟨[Utf8.encode "a.json"], .ofFile, _, ⟨rfl, rfl, rfl, rfl⟩, beside⟩
  · exact (members _ _).2
      ⟨[Utf8.encode "x.json", Utf8.encode "b.json"], .ofFile, _, ⟨rfl, rfl, rfl, rfl⟩, inside⟩
  · obtain ⟨walk, -, -, result⟩ := composed mappedTree outerNode opens (fun _ _ _ => Iff.rfl) composer
    exact result

end BundleServer
