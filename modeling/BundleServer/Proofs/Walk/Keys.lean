import BundleServer.Proofs.FileTree.Descent
import BundleServer.Proofs.Walk.Ascent

/-!
# The keys that a walk gives out

A walk selects by the whole path, and a key is made from the name. Both agree for every fragment that a walk gives,
however its root is spelled and whatever the root has become since the walk was started. A path that ends with the
suffix while its name does not ends with a single dot, and such a path leads to directories only (`Path.suffix_name`,
`FileTree.kind_of_resolve_join_dot`).

In a run the places of what has been reported and what is pending stay separate: none of them leads on from another one.
So no two fragments have the same place, and within one directory they have different names and different keys
(`Session.answers_have_keys`).
-/

namespace BundleServer

namespace Path

/-- The components of the directory in which the path stands. -/
def directory (path : Path) : List Component := path.components.dropLast

theorem components_of_fileName? {path : Path} {name : Bytes} (found : path.fileName? = some name) :
    path.components = path.directory ++ [.normal name] := by
  unfold fileName? at found
  split at found
  · rename_i last
    obtain ⟨front, whole⟩ := List.getLast?_eq_some_iff.1 last
    rw [directory, whole, List.dropLast_concat, Option.some.inj found]
  · cases found

/-- Either a path has no separator, or it can be cut at the last one. -/
theorem not_mem_or_exists_join (path : Path) :
    separator ∉ path.bytes ∨ ∃ (parent : Path) (child : Bytes),
      parent.bytes ≠ [] ∧ separator ∉ child ∧ path = parent.join child := by
  by_cases member : separator ∈ path.bytes.reverse
  · obtain ⟨behind, front, backwards, clear⟩ := List.eq_append_cons_of_mem member
    have whole : path.bytes = front.reverse ++ [separator] ++ behind.reverse := by
      rw [← List.reverse_reverse path.bytes, backwards]
      simp
    have plain : separator ∉ behind.reverse := fun inside => clear (List.mem_reverse.1 inside)
    have relative : behind.reverse.head? ≠ some separator := fun first => plain (List.mem_of_head? first)
    refine .inr ⟨⟨front.reverse ++ [separator]⟩, behind.reverse, by simp, plain, ?_⟩
    rw [join, if_neg relative, if_pos (.inr List.getLast?_concat), ← whole]
  · exact .inl fun inside => member (List.mem_reverse.2 inside)

/-- A path without a separator is its own name. -/
theorem name_of_not_mem {path : Path} (plain : separator ∉ path.bytes) :
    path.fileName?.getD path.bytes = path.bytes := by
  obtain ⟨bytes⟩ := path
  by_cases filled : bytes = []
  · subst filled
    rfl
  by_cases current : bytes = [dot]
  · subst current
    rfl
  by_cases parent : bytes = [dot, dot]
  · subst parent
    rfl
  · -- Behind the empty path it is the only component.
    have segment : IsSegment bytes := isSegment_of_ne plain filled current parent
    have joined : Path.join ⟨[]⟩ bytes = ⟨bytes⟩ := by
      have relative : bytes.head? ≠ some separator := fun first => plain (List.mem_of_head? first)
      simp [join, relative]
    rw [← joined, fileName?_join _ segment, Option.getD_some, joined]

/-- What a path ends with, its name ends with, unless the path ends with a single dot. A path that has no file name, as
one that ends with two dots, stands for its own name. -/
theorem suffix_name {path : Path} {suffix : Bytes} (filled : suffix ≠ []) (whole : separator ∉ suffix)
    (ends : suffix <:+ path.bytes) :
    suffix <:+ path.fileName?.getD path.bytes ∨
      ∃ parent : Path, parent.bytes ≠ [] ∧ path = parent.join [dot] := by
  rcases path.not_mem_or_exists_join with plain | ⟨parent, child, above, plain, rfl⟩
  · rw [name_of_not_mem plain]
    exact .inl ends
  have inside : suffix <:+ child := suffix_of_suffix_join above plain whole ends
  by_cases current : child = [dot]
  · exact .inr ⟨parent, above, by rw [current]⟩
  by_cases up : child = [dot, dot]
  · have nameless : (parent.join child).fileName? = none := by
      rw [fileName?, components_join above plain, up]
      simp [Component.ofPiece?, dot]
    rw [nameless]
    exact .inl ends
  · have childFilled : child ≠ [] := fun empty => filled (List.suffix_nil.1 (empty ▸ inside))
    rw [fileName?_join parent (isSegment_of_ne plain childFilled current up)]
    exact .inl inside

end Path

/-- Does neither list of names lead on from the other? -/
structure Separate (first second : List Bytes) : Prop where
  left : ¬first <+: second
  right : ¬second <+: first

namespace Separate

variable {first second : List Bytes}

theorem symm (separate : Separate first second) : Separate second first := ⟨separate.right, separate.left⟩

theorem extend_left (separate : Separate first second) (name : Bytes) : Separate (first ++ [name]) second := by
  refine ⟨fun longer => separate.left ((List.prefix_append first [name]).trans longer), fun shorter => ?_⟩
  rcases List.prefix_concat_iff.1 shorter with same | shorter
  · exact separate.left (same ▸ List.prefix_append first [name])
  · exact separate.right shorter

theorem extend_right (separate : Separate first second) (name : Bytes) : Separate first (second ++ [name]) :=
  (separate.symm.extend_left name).symm

theorem of_ne {place : List Bytes} {a b : Bytes} (differs : a ≠ b) : Separate (place ++ [a]) (place ++ [b]) := by
  constructor <;> simp [List.prefix_append_right_inj, differs, differs.symm]

end Separate

/-- Is the visit one that a walk from the root makes: that of the root, or that of an entry below it? -/
inductive Visit.Listed (root : Path) : Visit → Prop
  | root (filled : root.bytes ≠ []) : Listed root (.root root)
  | entry {parent : Path} {name : Bytes} {kind : FileTree.Kind} (stands : Path.StandsBelow root parent)
      (named : FileTree.isName name = true) : Listed root (.entry (parent.join name) name kind)

namespace Visit.Listed

variable {root : Path} {v : Visit}

theorem stands (listed : v.Listed root) : Path.StandsBelow root v.path := by
  cases listed with
  | root filled => exact Path.standsBelow_self filled
  | entry stands named => exact stands.join named

/-- A visit below the root goes by the name of its path. -/
theorem fileName? (listed : v.Listed root) : root.place v.path = [] ∨ v.path.fileName? = some v.name := by
  cases listed with
  | root filled => exact .inl (Path.place_self root)
  | entry stands named => exact .inr (Path.fileName?_join _ (Path.isSegment_of_isName named))

end Visit.Listed

namespace Walk

variable {tree : FileTree} {suffix : Bytes} {order : SiblingOrder} {root : Path} {v : Visit} {fragment : Fragment}

/-- A visit that gives a fragment gives that of its own path and name, and the path is selected and can be read. -/
theorem of_visit_ok (outcome : visit tree suffix order v = .item (.ok fragment)) :
    fragment.path = v.path ∧ fragment.name = v.name ∧ suffix <:+ v.path.bytes ∧
      tree.read v.path = .content fragment.content := by
  rcases visit_cases tree suffix order v with same | ⟨selected, same⟩ | ⟨fault, same⟩ | same
  · simp [same] at outcome
  · rw [same, readFile] at outcome
    split at outcome
    · rename_i content found
      cases outcome
      exact ⟨rfl, rfl, List.isSuffixOf_iff_suffix.1 selected, found⟩
    · cases outcome
    · cases outcome
  · simp [same] at outcome
  · rw [same, visitDirectory] at outcome
    split at outcome <;> simp [notOpened] at outcome

/-- A path that can be read does not end with a single dot. -/
theorem ne_join_dot_of_read {path : Path} {content : Bytes} (found : tree.read path = .content content) {parent : Path}
    (filled : parent.bytes ≠ []) : path ≠ parent.join [Path.dot] := by
  rintro rfl
  rw [FileTree.read] at found
  split at found
  · rename_i spot reached
    have directory := FileTree.kind_of_resolve_join_dot filled reached
    cases node : spot.node with
    | directory access entries => simp [node, FileTree.Node.reading] at found
    | _ => simp [node, FileTree.Node.kind] at directory
  · cases found

/-- The name of a fragment ends with the suffix that its path ends with. -/
theorem suffix_name_of_visit_ok (filled : suffix ≠ []) (whole : Path.separator ∉ suffix) (listed : v.Listed root)
    (outcome : visit tree suffix order v = .item (.ok fragment)) : suffix <:+ fragment.name := by
  obtain ⟨-, name, ends, found⟩ := of_visit_ok outcome
  rw [name]
  cases listed with
  | root =>
    rcases Path.suffix_name filled whole ends with inside | ⟨parent, above, dotted⟩
    · exact inside
    · exact absurd dotted (ne_join_dot_of_read found above)
  | entry stands named =>
    exact Path.suffix_of_suffix_join stands.filled (Path.isSegment_of_isName named).whole whole ends

end Walk

/-- Is the fragment one that a walk from the root may give out? -/
structure Fragment.Found (root : Path) (suffix : Bytes) (fragment : Fragment) : Prop where
  ends : suffix <:+ fragment.name
  named : root.place fragment.path = [] ∨ fragment.path.fileName? = some fragment.name

namespace Fragment.Found

variable {root : Path} {suffix : Bytes} {first second fragment : Fragment}

/-- The key of a fragment is its name without the suffix. -/
theorem key_append (found : fragment.Found root suffix) : fragment.key suffix ++ suffix = fragment.name := by
  obtain ⟨front, whole⟩ := found.ends
  rw [key, ← whole, keyOf_append]

/-- Separate fragments in the same directory have different keys. -/
theorem key_ne (found : first.Found root suffix) (other : second.Found root suffix)
    (separate : Separate (root.place first.path) (root.place second.path))
    (together : first.path.directory = second.path.directory) : first.key suffix ≠ second.key suffix := by
  intro sameKey
  have named {fragment : Fragment} (found : fragment.Found root suffix) (below : root.place fragment.path ≠ []) :
      fragment.path.components = fragment.path.directory ++ [.normal fragment.name] :=
    Path.components_of_fileName? (found.named.resolve_left below)
  -- Every place leads on from that of the root, so neither fragment is the root itself.
  have firstBelow : root.place first.path ≠ [] := fun top => separate.left (top ▸ List.nil_prefix)
  have secondBelow : root.place second.path ≠ [] := fun top => separate.right (top ▸ List.nil_prefix)
  have sameName : first.name = second.name := by rw [← found.key_append, ← other.key_append, sameKey]
  have sameComponents : first.path.components = second.path.components := by
    rw [named found firstBelow, named other secondBelow, together, sameName]
  have samePlace : root.place first.path = root.place second.path := by
    rw [Path.place, Path.place, Path.namesBelow?, Path.namesBelow?, sameComponents]
  exact separate.left (samePlace ▸ List.prefix_rfl)

end Fragment.Found

/-- What is known of a run: the places of what has been reported and what is pending are separate, what is pending is
the root or stands below it, and the fragments have names that end with the suffix. -/
structure Apportioned (root : Path) (suffix : Bytes) (given : List Item) (pending : List Visit) : Prop where
  separate : (given.map Item.path ++ pending.map Visit.path).Pairwise fun first second =>
    Separate (root.place first) (root.place second)
  listed : ∀ v ∈ pending, v.Listed root
  found : ∀ fragment, Except.ok fragment ∈ given → fragment.Found root suffix

/-- Of what has been reported, any two items have separate places. -/
theorem Apportioned.separate_of_ne {root : Path} {suffix : Bytes} {given : List Item} {pending : List Visit}
    (apportioned : Apportioned root suffix given pending) {i j : Nat} (differ : i ≠ j) {first second : Item}
    (atFirst : given[i]? = some first) (atSecond : given[j]? = some second) :
    Separate (root.place first.path) (root.place second.path) := by
  have inGiven := List.pairwise_map.1 (List.pairwise_append.1 apportioned.separate).1
  rw [List.pairwise_iff_getElem] at inGiven
  obtain ⟨i_lt, rfl⟩ := List.getElem?_eq_some_iff.1 atFirst
  obtain ⟨j_lt, rfl⟩ := List.getElem?_eq_some_iff.1 atSecond
  rcases Nat.lt_or_gt_of_ne differ with before | behind
  · exact inGiven i j i_lt j_lt before
  · exact (inGiven j i j_lt i_lt behind).symm

namespace Walk

variable {suffix : Bytes}

/-- Whatever tree is looked at, a visit leaves the places separate, and a fragment that it gives has its name from the
visit. -/
theorem keeps_apportioned (filled : suffix ≠ []) (whole : Path.separator ∉ suffix) (root : Path)
    (order : SiblingOrder) : Keeps suffix order (Apportioned root suffix) where
  nothing {tree given v rest} apportioned _ := by
    refine ⟨apportioned.separate.sublist ?_, (List.forall_mem_cons.1 apportioned.listed).2, apportioned.found⟩
    exact (List.Sublist.refl _).append (List.sublist_cons_self v.path _)
  item {tree given v rest item} apportioned outcome := by
    obtain ⟨listed, others⟩ := List.forall_mem_cons.1 apportioned.listed
    refine ⟨by simpa [path_of_visit_item outcome] using apportioned.separate, others, fun fragment member => ?_⟩
    rcases List.mem_append.1 member with member | member
    · exact apportioned.found fragment member
    · obtain rfl := List.mem_singleton.1 member
      obtain ⟨path, name, -⟩ := of_visit_ok outcome
      exact ⟨suffix_name_of_visit_ok filled whole listed outcome, path ▸ name ▸ listed.fileName?⟩
  inside {tree given v rest visits} apportioned outcome := by
    obtain ⟨listed, others⟩ := List.forall_mem_cons.1 apportioned.listed
    obtain ⟨entries, rfl, named, distinct⟩ := listing_of_visit_inside outcome
    have differ : ((order.arrange v.path entries).map Prod.fst).Nodup :=
      ((order.arrange_perm v.path entries).map Prod.fst).nodup_iff.2 distinct
    refine ⟨?_, ?_, apportioned.found⟩
    · have opened := listed.stands.pairwise_opened apportioned.separate (List.forall_mem_map.2 named)
        (fun separate => separate.extend_left) (fun separate => separate.extend_right)
        (differ.imp fun differs => Separate.of_ne differs)
      simpa [List.map_append, List.map_map, Function.comp_def, Visit.path] using opened
    · intro other member
      rcases List.mem_append.1 member with member | member
      · obtain ⟨entry, arranged, rfl⟩ := List.mem_map.1 member
        exact .entry listed.stands (named entry arranged)
      · exact others other member

end Walk

namespace Session

/-- Every fragment of a walk has a name that is its key followed by the suffix, and two fragments of one walk in the
same directory have different keys, whatever changes of the tree come between two items. -/
theorem answers_have_keys {tree : FileTree} {root : Path} {suffix : Bytes} {order : SiblingOrder} {walk : Walk}
    (started : Walk.start tree root suffix order = .ok walk) (whole : Path.separator ∉ suffix) (turns : List Turn) :
    (∀ fragment, some (.ok fragment) ∈ answers ⟨tree, walk⟩ turns →
      suffix <:+ fragment.name ∧ fragment.name = fragment.key suffix ++ suffix) ∧
    ∀ (i j : Nat) (first second : Fragment), i ≠ j →
      (answers ⟨tree, walk⟩ turns)[i]? = some (some (.ok first)) →
      (answers ⟨tree, walk⟩ turns)[j]? = some (some (.ok second)) →
      first.path.directory = second.path.directory → first.key suffix ≠ second.key suffix := by
  obtain ⟨filled, directory, rfl⟩ := Walk.start_eq_ok_iff.1 started
  have first : Apportioned root suffix [] [.root root] := by
    refine ⟨List.pairwise_singleton _ root, ?_, by simp⟩
    simpa using Visit.Listed.root (Walk.filled_of_directory directory)
  obtain ⟨items, ends, rest, same, apportioned⟩ :=
    (Walk.keeps_apportioned filled whole root order).answers first tree turns
  rw [List.nil_append] at apportioned
  have item {i : Nat} {fragment : Fragment}
      (answered : (items.map some ++ List.replicate ends none)[i]? = some (some (.ok fragment))) :
      items[i]? = some (.ok fragment) := by
    rw [List.getElem?_append] at answered
    split at answered
    · simpa using answered
    · simp [List.getElem?_replicate] at answered
  rw [same]
  constructor
  · intro fragment member
    obtain ⟨i, answered⟩ := List.mem_iff_getElem?.1 member
    have found := apportioned.found fragment (List.mem_of_getElem? (item answered))
    exact ⟨found.ends, found.key_append.symm⟩
  · intro i j first second differ atFirst atSecond
    have found := apportioned.found first (List.mem_of_getElem? (item atFirst))
    have other := apportioned.found second (List.mem_of_getElem? (item atSecond))
    exact found.key_ne other (apportioned.separate_of_ne differ (item atFirst) (item atSecond))

/-- A file that takes the place of another one is given twice with different keys. A root that has become a file since
the walk was started is given with its key. -/
theorem answers_have_keys_while_files_are_replaced :
    (let suffix := Utf8.encode ".js"
      let walk : Walk := ⟨suffix, .filesystem, [.root (.ofString "link")]⟩
      let turns : List Turn :=
        [.ask, .change (.rename (.ofString "app/b.js") (.ofString "app/c.js")), .ask, .ask, .ask]
      let b : Fragment := ⟨.ofString "link/b.js", Utf8.encode "b.js", Utf8.encode "2"⟩
      let c : Fragment := ⟨.ofString "link/c.js", Utf8.encode "c.js", Utf8.encode "2"⟩
      Walk.start linkedTree (.ofString "link") suffix .filesystem = .ok walk ∧ Path.separator ∉ suffix ∧
        (answers ⟨linkedTree, walk⟩ turns)[0]? = some (some (.ok b)) ∧
        (answers ⟨linkedTree, walk⟩ turns)[3]? = some (some (.ok c)) ∧
        b.path.directory = c.path.directory ∧ b.key suffix ≠ c.key suffix) ∧
    (let suffix := Utf8.encode ".js"
      let root : Path := .ofString "./app//main.js"
      let walk : Walk := ⟨suffix, .lexicographic, [.root root]⟩
      let tree := linkedTree.apply (.make root .directory)
      let turns : List Turn := [.change (.remove root), .change (.make root (.file [])), .ask, .ask]
      let main : Fragment := ⟨root, Utf8.encode "main.js", []⟩
      Walk.start tree root suffix .lexicographic = .ok walk ∧ Path.separator ∉ suffix ∧
        answers ⟨tree, walk⟩ turns = [some (.ok main), none] ∧ suffix <:+ main.name ∧
        main.name = main.key suffix ++ suffix) := by
  have plain : Path.separator ∉ Utf8.encode ".js" := by decide
  constructor
  · have started : Walk.start linkedTree (.ofString "link") (Utf8.encode ".js") .filesystem =
        .ok ⟨Utf8.encode ".js", .filesystem, [.root (.ofString "link")]⟩ := rfl
    have keys := (answers_have_keys started plain
      [.ask, .change (.rename (.ofString "app/b.js") (.ofString "app/c.js")), .ask, .ask, .ask]).2
    refine ⟨started, plain, by decide +kernel, by decide +kernel, by decide, ?_⟩
    exact keys 0 3 _ _ (by decide) (by decide +kernel) (by decide +kernel) (by decide)
  · have directory : (linkedTree.apply (.make (.ofString "./app//main.js") .directory)).kind
        (.ofString "./app//main.js") = .ok .directory := by decide +kernel
    have started : Walk.start _ _ _ .lexicographic = .ok _ :=
      Walk.start_eq_ok_iff.2 ⟨(by decide : Utf8.encode ".js" ≠ []), directory, rfl⟩
    have keys := (answers_have_keys started plain
      [.change (.remove (.ofString "./app//main.js")), .change (.make (.ofString "./app//main.js") (.file [])),
        .ask, .ask]).1
    refine ⟨started, plain, by decide +kernel, ?_⟩
    exact keys _ (by decide +kernel)

end Session

end BundleServer
