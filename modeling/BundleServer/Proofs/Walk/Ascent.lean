import BundleServer.Proofs.Path
import BundleServer.Proofs.Walk.Invariant

/-!
# Walks only go up

A walk in lexicographic order reports ascending places, also when the tree changes between two items. The invariant
speaks of what has been reported and what is pending together: in this sequence every place stands apart in front of
every later one, that is, below some common directory the two go on by different names in ascending order. Opening a
directory puts its entries in its place, and what stood apart from the directory stands apart from them
(`Ascending.opened`). Neither the tree nor the moment at which it is looked at matters for this.
-/

namespace BundleServer

namespace Path

/-- The names that lead down from a root to a path, if they lead there. -/
def namesBelow? (root path : Path) : Option (List Bytes) :=
  if root.components.isPrefixOf path.components then
    (path.components.drop root.components.length).mapM Component.name?
  else none

/-- The place of a path below a root: the names that lead there. -/
def place (root path : Path) : List Bytes := (root.namesBelow? path).getD []

/-- Does the path stand below the root at its place? -/
structure StandsBelow (root path : Path) : Prop where
  filled : path.bytes ≠ []
  components : path.components = root.components ++ (root.place path).map .normal

theorem namesBelow?_of_components {root path : Path} {names : List Bytes}
    (components : path.components = root.components ++ names.map .normal) : root.namesBelow? path = some names := by
  have taken (names : List Bytes) : (names.map Component.normal).mapM Component.name? = some names := by
    induction names with
    | nil => rfl
    | cons name rest ih =>
      rw [List.map_cons, List.mapM_cons, ih]
      rfl
  simp [namesBelow?, components, taken]

theorem place_of_components {root path : Path} {names : List Bytes}
    (components : path.components = root.components ++ names.map .normal) : root.place path = names := by
  rw [place, namesBelow?_of_components components, Option.getD_some]

theorem place_self (root : Path) : root.place root = [] :=
  place_of_components (by rw [List.map_nil, List.append_nil])

theorem standsBelow_self {root : Path} (filled : root.bytes ≠ []) : StandsBelow root root := by
  refine ⟨filled, ?_⟩
  rw [place_self, List.map_nil, List.append_nil]

section Joining

variable {root path : Path} (stands : StandsBelow root path) {name : Bytes} (named : FileTree.isName name = true)

include stands named

theorem StandsBelow.components_join :
    (path.join name).components = root.components ++ (root.place path ++ [name]).map .normal := by
  rw [components_join_segment path (isSegment_of_isName named), stands.components, List.append_assoc, List.map_append]
  rfl

theorem StandsBelow.place_join : root.place (path.join name) = root.place path ++ [name] :=
  place_of_components (stands.components_join named)

theorem StandsBelow.join : StandsBelow root (path.join name) := by
  obtain ⟨filled, -⟩ := FileTree.isName_iff.1 named
  refine ⟨path.join_ne_nil filled, ?_⟩
  rw [stands.place_join named]
  exact stands.components_join named

end Joining

/-- Names joined one after the other lead on from a place. -/
theorem StandsBelow.foldl_join {root path : Path} (stands : StandsBelow root path) {names : List Bytes}
    (named : ∀ name ∈ names, FileTree.isName name = true) :
    StandsBelow root (names.foldl Path.join path) ∧
      root.place (names.foldl Path.join path) = root.place path ++ names := by
  induction names generalizing path with
  | nil => exact ⟨stands, (List.append_nil _).symm⟩
  | cons name names ih =>
    obtain ⟨first, rest⟩ := List.forall_mem_cons.1 named
    obtain ⟨below, placed⟩ := ih (stands.join first) rest
    rw [List.foldl_cons]
    refine ⟨below, ?_⟩
    rw [placed, stands.place_join first, List.append_assoc, List.singleton_append]

/-- In a sequence in which places stand in some relation to all later ones, the paths of entries can take that of their
directory. The relation must hold between the entries, and must not be lost when a place goes on by a name. -/
theorem StandsBelow.pairwise_opened {root path : Path} (stands : StandsBelow root path)
    {related : List Bytes → List Bytes → Prop} {front rest : List Path} {names : List Bytes}
    (whole : (front ++ path :: rest).Pairwise fun first second => related (root.place first) (root.place second))
    (named : ∀ name ∈ names, FileTree.isName name = true)
    (left : ∀ {other}, related (root.place path) other → ∀ name, related (root.place path ++ [name]) other)
    (right : ∀ {other}, related other (root.place path) → ∀ name, related other (root.place path ++ [name]))
    (entries : names.Pairwise fun a b => related (root.place path ++ [a]) (root.place path ++ [b])) :
    (front ++ (names.map path.join ++ rest)).Pairwise fun first second =>
      related (root.place first) (root.place second) := by
  simp only [List.pairwise_append, List.pairwise_cons] at whole
  obtain ⟨inFront, ⟨behindPath, behind⟩, across⟩ := whole
  have entry {other : Path} (member : other ∈ names.map path.join) :
      ∃ name, root.place other = root.place path ++ [name] := by
    obtain ⟨name, listed, rfl⟩ := List.mem_map.1 member
    exact ⟨name, stands.place_join (named name listed)⟩
  rw [List.pairwise_append, List.pairwise_append]
  refine ⟨inFront, ⟨List.pairwise_map.2 (entries.imp_of_mem fun {a b} memA memB apart => ?_), behind, ?_⟩, ?_⟩
  · rwa [stands.place_join (named a memA), stands.place_join (named b memB)]
  · intro first memFirst second memSecond
    obtain ⟨name, placed⟩ := entry memFirst
    exact placed ▸ left (behindPath second memSecond) name
  · intro first memFirst second memSecond
    rcases List.mem_append.1 memSecond with memSecond | memSecond
    · obtain ⟨name, placed⟩ := entry memSecond
      exact placed ▸ right (across first memFirst path List.mem_cons_self) name
    · exact across first memFirst second (List.mem_cons_of_mem _ memSecond)

end Path

/-- Do two lists of names go on differently behind what they share, the first by a name in front of the other's? -/
def Apart (first second : List Bytes) : Prop :=
  ∃ shared a b firstRest secondRest, first = shared ++ a :: firstRest ∧ second = shared ++ b :: secondRest ∧
    Bytes.compare a b = .lt

namespace Apart

variable {first second : List Bytes}

theorem extend_left (apart : Apart first second) (more : List Bytes) : Apart (first ++ more) second := by
  obtain ⟨shared, a, b, firstRest, secondRest, rfl, rfl, less⟩ := apart
  exact ⟨shared, a, b, firstRest ++ more, secondRest, by simp, rfl, less⟩

theorem extend_right (apart : Apart first second) (more : List Bytes) : Apart first (second ++ more) := by
  obtain ⟨shared, a, b, firstRest, secondRest, rfl, rfl, less⟩ := apart
  exact ⟨shared, a, b, firstRest, secondRest ++ more, rfl, by simp, less⟩

/-- What stands apart in front is less, component by component. -/
theorem compareLex_eq_lt (apart : Apart first second) : List.compareLex Bytes.compare first second = .lt := by
  obtain ⟨shared, a, b, firstRest, secondRest, rfl, rfl, less⟩ := apart
  induction shared with
  | nil => simp [List.compareLex_cons_cons, less]
  | cons name shared ih =>
    have same : Bytes.compare name name = .eq := Std.ReflCmp.compare_self
    rw [List.cons_append, List.cons_append, List.compareLex_cons_cons, same, ih]
    rfl

end Apart

/-- Do the places of the paths ascend, each apart in front of all those behind it? -/
structure Ascending (root : Path) (paths : List Path) : Prop where
  stand : ∀ path ∈ paths, Path.StandsBelow root path
  apart : paths.Pairwise fun first second => Apart (root.place first) (root.place second)

namespace Ascending

variable {root path : Path} {front rest : List Path}

theorem sublist {paths : List Path} (ascending : Ascending root paths) {fewer : List Path}
    (sub : fewer.Sublist paths) : Ascending root fewer :=
  ⟨fun path member => ascending.stand path (sub.subset member), ascending.apart.sublist sub⟩

/-- Ascending names joined to a path can take its place. -/
theorem opened (ascending : Ascending root (front ++ path :: rest)) {names : List Bytes}
    (named : ∀ name ∈ names, FileTree.isName name = true)
    (sorted : names.Pairwise fun a b => Bytes.compare a b = .lt) :
    Ascending root (front ++ (names.map path.join ++ rest)) := by
  have stands : Path.StandsBelow root path := ascending.stand path (by simp)
  constructor
  · intro other member
    simp only [List.mem_append, List.mem_map] at member
    rcases member with member | ⟨name, listed, rfl⟩ | member
    · exact ascending.stand other (List.mem_append_left _ member)
    · exact stands.join (named name listed)
    · exact ascending.stand other (List.mem_append_right _ (List.mem_cons_of_mem _ member))
  · refine stands.pairwise_opened ascending.apart named (fun apart name => apart.extend_left [name])
      (fun apart name => apart.extend_right [name]) (sorted.imp fun {a b} less => ?_)
    exact ⟨root.place path, a, b, [], [], rfl, rfl, less⟩

/-- The places that paths have are strictly ascending lists of names. -/
theorem exists_places {paths : List Path} (ascending : Ascending root paths) :
    ∃ places : List (List Bytes), paths.map root.namesBelow? = places.map some ∧
      places.Pairwise fun a b => List.compareLex Bytes.compare a b = .lt := by
  refine ⟨paths.map root.place, ?_, ?_⟩
  · rw [List.map_map]
    refine List.map_congr_left fun path member => ?_
    exact Path.namesBelow?_of_components (ascending.stand path member).components
  · rw [List.pairwise_map]
    exact ascending.apart.imp Apart.compareLex_eq_lt

/-- No path stands twice among ascending ones. -/
theorem nodup {paths : List Path} (ascending : Ascending root paths) : paths.Nodup := by
  refine ascending.apart.imp fun {first second} apart same => ?_
  have less := apart.compareLex_eq_lt
  have self : List.compareLex Bytes.compare (root.place second) (root.place second) = .eq :=
    Std.ReflCmp.compare_self
  rw [same, self] at less
  cases less

end Ascending

/-- The path that an item reports. -/
def Item.path : Item → Path
  | .ok fragment => fragment.path
  | .error error => error.path

namespace Walk

variable {tree : FileTree} {suffix : Bytes} {order : SiblingOrder}

theorem path_of_visit_item {v : Visit} {item : Item} (outcome : visit tree suffix order v = .item item) :
    item.path = v.path := by
  rcases visit_cases tree suffix order v with same | ⟨-, same⟩ | ⟨fault, same⟩ | same
  · simp [same] at outcome
  · rw [same, readFile] at outcome
    split at outcome
    · cases outcome
      rfl
    · cases outcome
      rfl
    · cases outcome
  · rw [same, Visited.item.injEq] at outcome
    exact outcome ▸ rfl
  · rw [same, visitDirectory] at outcome
    split at outcome
    · cases outcome
    · rw [notOpened, Visited.item.injEq] at outcome
      exact outcome ▸ rfl

/-- A visit opens a directory into its entries, which have different names. -/
theorem listing_of_visit_inside {v : Visit} {visits : List Visit}
    (outcome : visit tree suffix order v = .inside visits) :
    ∃ entries : List (Bytes × FileTree.Kind),
      visits = (order.arrange v.path entries).map (fun entry => .entry (v.path.join entry.1) entry.1 entry.2) ∧
      (∀ entry ∈ order.arrange v.path entries, FileTree.isName entry.1 = true) ∧ (entries.map Prod.fst).Nodup := by
  obtain ⟨spot, access, entries, reached, directory, rfl⟩ :=
    eq_of_visitDirectory_inside (visitDirectory_of_visit_inside outcome)
  have formed := (FileTree.wellFormed_of_resolve reached).1
  rw [directory, FileTree.Node.wellFormed_directory] at formed
  refine ⟨listing entries, rfl, fun listed arranged => ?_, by rw [map_fst_listing]; exact formed.1⟩
  obtain ⟨entry, held, rfl⟩ := List.mem_map.1 ((SiblingOrder.arrange_perm _ _ _).mem_iff.1 arranged)
  exact (formed.2 entry held).1

/-- In lexicographic order a visit opens a directory into ascending names joined to its path. -/
theorem names_of_visit_inside {v : Visit} {visits : List Visit}
    (outcome : visit tree suffix .lexicographic v = .inside visits) :
    ∃ names : List Bytes, visits.map Visit.path = names.map v.path.join ∧
      (∀ name ∈ names, FileTree.isName name = true) ∧ names.Pairwise fun a b => Bytes.compare a b = .lt := by
  obtain ⟨entries, rfl, named, distinct⟩ := listing_of_visit_inside outcome
  refine ⟨(SiblingOrder.arrange .lexicographic v.path entries).map Prod.fst, ?_, List.forall_mem_map.2 named,
    SiblingOrder.pairwise_arrange_lexicographic distinct⟩
  rw [List.map_map, List.map_map]
  rfl

/-- In lexicographic order what has been reported and what is pending stay ascending, whatever tree is looked at. -/
theorem keeps_ascending (suffix : Bytes) (root : Path) : Keeps suffix .lexicographic fun given pending =>
    Ascending root (given.map Item.path ++ pending.map Visit.path) where
  nothing {tree given v rest} ascending _ :=
    ascending.sublist ((List.Sublist.refl (given.map Item.path)).append (List.sublist_cons_self v.path _))
  item {tree given v rest item} ascending outcome := by
    simpa [path_of_visit_item outcome] using ascending
  inside {tree given v rest visits} ascending outcome := by
    obtain ⟨names, joined, named, sorted⟩ := names_of_visit_inside outcome
    rw [List.map_append, joined]
    exact ascending.opened named sorted

/-- A path that leads somewhere is not empty. -/
theorem filled_of_directory {root : Path} (directory : tree.kind root = .ok .directory) : root.bytes ≠ [] := by
  intro empty
  simp [FileTree.kind, FileTree.resolve, FileTree.checkedSteps, empty, bind, Except.bind, Except.map] at directory

/-- Before the first item only the root is pending. -/
theorem ascending_root {root : Path} (directory : tree.kind root = .ok .directory) : Ascending root [root] :=
  ⟨by simpa using Path.standsBelow_self (filled_of_directory directory), List.pairwise_singleton _ root⟩

/-- On a tree that does not change the items of a walk ascend. -/
theorem ascending_items {root : Path} {walk : Walk} (started : start tree root suffix .lexicographic = .ok walk) :
    Ascending root ((walk.items tree).map Item.path) := by
  obtain ⟨-, directory, rfl⟩ := start_eq_ok_iff.1 started
  have first : Ascending root (([] : List Item).map Item.path ++ [Visit.root root].map Visit.path) :=
    ascending_root directory
  obtain ⟨rest, ascending⟩ := (keeps_ascending suffix root).itemsOf tree first
  rw [List.map_append, List.map_nil, List.nil_append] at ascending
  exact ascending.sublist (List.sublist_append_left _ _)

/-- On a tree that does not change no path is reported twice. -/
theorem nodup_path_items {root : Path} {walk : Walk} (started : start tree root suffix .lexicographic = .ok walk) :
    ((walk.items tree).map Item.path).Nodup := (ascending_items started).nodup

end Walk

namespace Session

/-- The answers of a walk in lexicographic order are items in ascending places, and then nothing, as far as its calls
return. -/
theorem ascending_answers (session : Session) {root : Path} (order : session.walk.order = .lexicographic)
    (ascending : Ascending root (session.walk.pending.map Visit.path)) (turns : List Turn) :
    ∃ (items : List Item) (ends : Nat), session.answers turns = items.map some ++ List.replicate ends none ∧
      Ascending root (items.map Item.path) := by
  obtain ⟨tree, suffix, siblings, pending⟩ := session
  simp only at order ascending
  subst order
  have first : Ascending root (([] : List Item).map Item.path ++ pending.map Visit.path) := ascending
  obtain ⟨items, ends, rest, same, goesOn⟩ := (Walk.keeps_ascending suffix root).answers first tree turns
  exact ⟨items, ends, same, goesOn.sublist (List.sublist_append_left _ _)⟩

/-- A walk in lexicographic order reports strictly ascending places below its root, whatever changes of the tree come
between two items. So it reports no path twice, and once it has ended it never gives an item again. -/
theorem answers_ascend {tree : FileTree} {root : Path} {suffix : Bytes} {walk : Walk}
    (started : Walk.start tree root suffix .lexicographic = .ok walk) (turns : List Turn) :
    ∃ (items : List Item) (ends : Nat) (places : List (List Bytes)),
      answers ⟨tree, walk⟩ turns = items.map some ++ List.replicate ends none ∧
      items.map (fun item => root.namesBelow? item.path) = places.map some ∧
      (places.Pairwise fun a b => List.compareLex Bytes.compare a b = .lt) ∧
      (items.map Item.path).Nodup := by
  obtain ⟨-, directory, rfl⟩ := Walk.start_eq_ok_iff.1 started
  have first : Ascending root ([] ++ [root]) :=
    ⟨by simpa using Path.standsBelow_self (Walk.filled_of_directory directory), List.pairwise_singleton _ root⟩
  obtain ⟨items, ends, same, ascending⟩ :=
    ascending_answers ⟨tree, ⟨suffix, .lexicographic, [.root root]⟩⟩ rfl first turns
  obtain ⟨places, found, sorted⟩ := ascending.exists_places
  refine ⟨items, ends, places, same, ?_, sorted, ascending.nodup⟩
  simpa [List.map_map, Function.comp_def] using found

/-- A walk whose files move, vanish and come back between its items. -/
theorem answers_ascend_while_files_move :
    let walk : Walk := ⟨Utf8.encode ".js", .lexicographic, [.root (.ofString "link")]⟩
    let turns : List Turn :=
      [.ask, .change (.rename (.ofString "app/b.js") (.ofString "app/a/b.js")), .ask,
        .change (.remove (.ofString "app/c.js")), .change (.make (.ofString "app/b.js") .directory), .ask, .ask, .ask,
        .change (.make (.ofString "app/e.js") (.file [])), .ask]
    Walk.start linkedTree (.ofString "link") walk.suffix .lexicographic = .ok walk ∧
      ∃ (items : List Item) (ends : Nat) (places : List (List Bytes)),
        answers ⟨linkedTree, walk⟩ turns = items.map some ++ List.replicate ends none ∧
        items.map (fun item => (Path.ofString "link").namesBelow? item.path) = places.map some ∧
        (places.Pairwise fun a b => List.compareLex Bytes.compare a b = .lt) ∧
        (items.map Item.path).Nodup :=
  have started : Walk.start linkedTree (.ofString "link") (Utf8.encode ".js") .lexicographic =
      .ok ⟨Utf8.encode ".js", .lexicographic, [.root (.ofString "link")]⟩ := rfl
  ⟨started, answers_ascend started _⟩

end Session

end BundleServer
