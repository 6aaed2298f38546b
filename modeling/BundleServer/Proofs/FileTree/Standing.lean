import BundleServer.Proofs.FileTree.Places
import BundleServer.Proofs.FileTree.Skeleton

/-!
# Where a node stands

Whatever a path leads to stands in the tree at its address (`Spot.Stands`, `at?_of_stands`). With this a change of one
file can be followed through a lookup: the path of a directory above the file leads to the same address as before, and
there to the directory with the file changed in it (`resolve_modifyAt`). It is also what the owner of the tree changes
when the file is given other permissions or other content by its path (`setAccess_eq`, `make_file_eq`).
-/

namespace BundleServer.FileTree

namespace Node

/-- The node to which names lead down from here. -/
def at? : List Bytes → Node → Option Node
  | [], node => some node
  | name :: rest, .directory _ entries => (Entries.find? name entries).bind (at? rest)
  | _ :: _, _ => none

theorem at?_append (front rest : List Bytes) (node : Node) :
    node.at? (front ++ rest) = (node.at? front).bind (at? rest) := by
  induction front generalizing node with
  | nil => rfl
  | cons name front ih =>
    cases node with
    | directory access entries =>
      rw [List.cons_append, at?, at?]
      cases Entries.find? name entries with
      | none => rfl
      | some child => exact ih child
    | _ => rfl

/-- A change further down shows in the node on the way as the change below that node. -/
theorem at?_modifyAt (change : Node → Node) (front rest : List Bytes) (node : Node) :
    (node.modifyAt change (front ++ rest)).at? front = (node.at? front).map (modifyAt change rest) := by
  induction front generalizing node with
  | nil => rfl
  | cons name front ih =>
    cases node with
    | directory access entries =>
      rw [List.cons_append, modifyAt_cons, mapEntries_directory, at?, at?, Entries.find?_modify]
      cases Entries.find? name entries with
      | none => rfl
      | some child => exact ih child
    | _ => rfl

theorem skeletonEntries_modify {name : Bytes} {change : Node → Node} {entries : Entries} {child : Node}
    (distinct : (entries.map Prod.fst).Nodup) (held : Entries.find? name entries = some child)
    (same : (change child).skeleton = child.skeleton) :
    skeletonEntries (Entries.modify name change entries) = skeletonEntries entries := by
  have each : ∀ entry ∈ entries, entry.1 = name → (change entry.2).skeleton = entry.2.skeleton := by
    intro entry member named
    have found := Entries.find?_of_mem distinct member
    rw [named, held] at found
    cases found
    exact same
  clear held distinct
  induction entries with
  | nil => rfl
  | cons entry rest ih =>
    obtain ⟨other, node⟩ := entry
    rw [List.forall_mem_cons] at each
    have others := ih each.2
    unfold Entries.modify at others ⊢
    rw [List.map_cons]
    by_cases named : other = name
    · rw [if_pos named, skeletonEntries, skeletonEntries, others, each.1 named]
    · rw [if_neg named, skeletonEntries, skeletonEntries, others]

/-- A change that keeps the skeleton of the node at which it takes place keeps the skeleton of the whole. -/
theorem skeleton_modifyAt {change : Node → Node} {names : List Bytes} {node target : Node} (formed : node.WellFormed)
    (held : node.at? names = some target) (same : (change target).skeleton = target.skeleton) :
    (node.modifyAt change names).skeleton = node.skeleton := by
  induction names generalizing node with
  | nil =>
    cases held
    exact same
  | cons name names ih =>
    cases node with
    | directory access entries =>
      rw [wellFormed_directory] at formed
      rw [at?] at held
      obtain ⟨child, found, further⟩ := Option.bind_eq_some_iff.1 held
      have inner : (child.modifyAt change names).skeleton = child.skeleton :=
        ih (formed.2 _ (Entries.mem_of_find? found)).2 further
      rw [modifyAt_cons, mapEntries_directory, skeleton, skeleton, skeletonEntries_modify formed.1 found inner]
    | _ => cases held

/-- Do names lead from a node to another one, through directories that can be searched? -/
inductive Leads : Node → List Bytes → Node → Prop where
  | here (node : Node) : Leads node [] node
  | down {access : Access} {entries : Entries} {name : Bytes} {child target : Node} {rest : List Bytes}
    (opened : access.search = true) (held : Entries.find? name entries = some child)
    (further : Leads child rest target) : Leads (.directory access entries) (name :: rest) target

theorem Leads.at?_eq {node target : Node} {names : List Bytes} (leads : Leads node names target) :
    node.at? names = some target := by
  induction leads with
  | here => rfl
  | down opened held further ih => rw [at?, held, Option.bind_some, ih]

theorem Leads.of_nil {node target : Node} (leads : Leads node [] target) : node = target := by
  cases leads
  rfl

theorem Leads.of_cons {node target : Node} {name : Bytes} {rest : List Bytes}
    (leads : Leads node (name :: rest) target) : ∃ access entries child, node = .directory access entries ∧
      access.search = true ∧ Entries.find? name entries = some child ∧ Leads child rest target := by
  cases leads with
  | down opened held further => exact ⟨_, _, _, rfl, opened, held, further⟩

/-- What leads to something else than a link is no link itself. -/
theorem Leads.not_link {node target : Node} {names : List Bytes} (leads : Leads node names target)
    (plain : target.kind ≠ .link) : node.kind ≠ .link := by
  cases leads with
  | here => exact plain
  | down => exact fun link => by cases link

/-- The last of some names is that of an entry in the directory to which the others lead. -/
theorem Leads.exists_last {node target : Node} {names : List Bytes} (leads : Leads node names target)
    (below : names ≠ []) : ∃ front last access entries, names = front ++ [last] ∧
      Leads node front (.directory access entries) ∧ access.search = true ∧
      Entries.find? last entries = some target := by
  induction leads with
  | here => exact absurd rfl below
  | @down access entries name child target rest opened held further ih =>
    cases rest with
    | nil =>
      cases further
      exact ⟨[], name, access, entries, rfl, .here _, opened, held⟩
    | cons next rest =>
      obtain ⟨front, last, access', entries', whole, leads, opened', held'⟩ := ih (List.cons_ne_nil next rest)
      refine ⟨name :: front, last, access', entries', ?_, .down opened held leads, opened', held'⟩
      rw [whole, List.cons_append]

end Node

section Owner

variable {spot : Spot} {links : Nat}

/-- A visitor searches like the owner, or is refused. -/
theorem Spot.search_visitor_cases (spot : Spot) :
    spot.search .visitor = spot.search .owner ∨ spot.search .visitor = .error .permissionDenied := by
  obtain ⟨node, above⟩ := spot
  cases node with
  | directory access entries =>
    by_cases opened : access.search = true
    · exact .inl (by simp [Spot.search, opened])
    · exact .inr (by simp [Spot.search, opened])
  | _ => exact .inl rfl

theorem Spot.child_visitor_cases (spot : Spot) (name : Bytes) :
    spot.child .visitor name = spot.child .owner name ∨ spot.child .visitor name = .error .permissionDenied := by
  unfold Spot.child
  rcases spot.search_visitor_cases with same | refused
  · exact .inl (by rw [same])
  · exact .inr (by rw [refused]; rfl)

theorem advance_visitor_cases {follow followOwner : Spot → List Step → Except Fault (Spot × Nat)}
    (more : ∀ spot steps, follow spot steps = followOwner spot steps ∨ follow spot steps = .error .permissionDenied)
    (spot : Spot) (steps : List Step) :
    advance .visitor links follow spot steps = advance .owner links followOwner spot steps ∨
      advance .visitor links follow spot steps = .error .permissionDenied := by
  induction steps generalizing spot with
  | nil => exact .inl rfl
  | cons step rest ih =>
    cases step with
    | outermost => exact ih spot.outermost
    | enter =>
      simp only [advance, bind, Except.bind]
      cases spot.enter with
      | error fault => exact .inl rfl
      | ok target => exact ih target
    | here =>
      simp only [advance, bind, Except.bind]
      rcases spot.search_visitor_cases with same | refused
      · rw [same]
        cases spot.search .owner with
        | error fault => exact .inl rfl
        | ok entries => exact ih spot
      · rw [refused]
        exact .inr rfl
    | up =>
      simp only [advance, bind, Except.bind]
      rcases spot.search_visitor_cases with same | refused
      · rw [same]
        cases spot.search .owner with
        | error fault => exact .inl rfl
        | ok entries => exact ih spot.up
      · rw [refused]
        exact .inr rfl
    | name name =>
      simp only [advance, bind, Except.bind]
      rcases spot.child_visitor_cases name with same | refused
      · rw [same]
        cases spot.child .owner name with
        | error fault => exact .inl rfl
        | ok child =>
          obtain ⟨node, above⟩ := child
          cases node with
          | link target =>
            simp only
            by_cases empty : target.bytes = []
            · rw [if_pos empty, if_pos empty]
              exact .inl rfl
            · rw [if_neg empty, if_neg empty]
              exact more spot _
          | _ => exact ih _
      · rw [refused]
        exact .inr rfl

theorem descend_visitor_cases (links : Nat) (spot : Spot) (steps : List Step) :
    descend .visitor links spot steps = descend .owner links spot steps ∨
      descend .visitor links spot steps = .error .permissionDenied := by
  induction links generalizing spot steps with
  | zero => exact advance_visitor_cases (fun _ _ => .inl rfl) spot steps
  | succ links ih => exact advance_visitor_cases ih spot steps

/-- A path leads a visitor where it leads the owner, or the visitor is refused on the way. -/
theorem resolve_visitor_cases (tree : FileTree) (path : Path) :
    tree.resolve .visitor path = tree.resolve .owner path ∨
      tree.resolve .visitor path = .error .permissionDenied := by
  unfold resolve
  cases checkedSteps path with
  | error fault => exact .inl rfl
  | ok taken =>
    simp only [bind, Except.bind, walkFromTop]
    rcases descend_visitor_cases linkLimit tree.start taken with same | refused
    · exact .inl (by rw [same])
    · exact .inr (by rw [refused]; rfl)

/-- What a visitor finds the owner finds. -/
theorem Spot.child_owner {name : Bytes} {child : Spot} (found : spot.child .visitor name = .ok child) :
    spot.child .owner name = .ok child := by
  rcases spot.child_visitor_cases name with same | refused
  · exact same.symm.trans found
  · rw [refused] at found
    cases found

theorem resolve_owner {tree : FileTree} {path : Path} (reached : tree.resolve .visitor path = .ok spot) :
    tree.resolve .owner path = .ok spot := by
  rcases tree.resolve_visitor_cases path with same | refused
  · exact same.symm.trans reached
  · rw [refused] at reached
    cases reached

end Owner

/-- Does the spot stand in the tree, in its surroundings or further down? -/
inductive Spot.Stands (tree : FileTree) : Spot → Prop where
  | outside : Stands tree ⟨surroundings, []⟩
  | top : Stands tree tree.start
  | inside {spot child : Spot} {name : Bytes} (stands : Stands tree spot) (found : spot.child .owner name = .ok child) :
    Stands tree child

section Standing

variable {tree : FileTree} {spot : Spot}

theorem Spot.Stands.rooted (stands : spot.Stands tree) : spot.Rooted := by
  induction stands with
  | outside => rfl
  | top => exact rooted_start tree
  | inside stands found ih => exact (Spot.kept_rooted .owner).child ih found

theorem Spot.kept_stands (tree : FileTree) (caller : Caller) : Spot.Kept caller (Spot.Stands tree) where
  outermost {spot} stands := by
    have rooted : spot.outermost = ⟨surroundings, []⟩ := stands.rooted
    rw [rooted]
    exact .outside
  up {spot} stands := by
    cases stands with
    | outside => exact .outside
    | top => exact .outside
    | inside stands found =>
      obtain ⟨access, entries, node, directory, held, rfl⟩ := Spot.eq_of_child found
      exact stands
  child {spot name target} stands found := by
    cases caller with
    | owner => exact .inside stands found
    | visitor => exact .inside stands (Spot.child_owner found)

theorem stands_of_resolve {caller : Caller} {path : Path} (reached : tree.resolve caller path = .ok spot) :
    spot.Stands tree := by
  obtain ⟨-, -, links, arrived⟩ := resolve_eq_ok_iff.1 reached
  exact (Spot.kept_stands tree caller).of_descend .top arrived

/-- A spot with a place holds the node that is found there. -/
theorem at?_of_stands (stands : spot.Stands tree) {place : List Bytes} (placed : spot.place? = some place) :
    tree.top.at? place = some spot.node := by
  induction stands generalizing place with
  | outside => cases placed
  | top =>
    cases placed
    rfl
  | @inside spot child name stands found ih =>
    rw [stands.rooted.place?_child found] at placed
    obtain ⟨front, placedAbove, rfl⟩ := Option.map_eq_some_iff.1 placed
    obtain ⟨access, entries, node, directory, held, rfl⟩ := Spot.eq_of_child found
    rw [Node.at?_append, ih placedAbove, directory, Option.bind_some, Node.at?, held]
    rfl

/-- In a tree without links nothing that stands there has a link in it. -/
theorem linkFree_of_stands (free : tree.top.linkFree = true) (stands : spot.Stands tree) :
    spot.node.linkFree = true := by
  induction stands with
  | outside => rfl
  | top => exact free
  | inside stands found ih =>
    obtain ⟨access, entries, node, directory, held, rfl⟩ := Spot.eq_of_child found
    rw [directory] at ih
    exact Node.linkFree_of_mem ih (Entries.mem_of_find? held)

end Standing

section Joining

variable {tree : FileTree} {root : Path} {spot : Spot} {names : List Bytes} {target : Node}

/-- Names joined to the path of a directory lead where they lead from the directory. -/
theorem resolve_foldl_join (reached : tree.resolve .visitor root = .ok spot) (leads : spot.node.Leads names target)
    (plain : target.kind ≠ .link) : ∃ found, tree.resolve .visitor (names.foldl Path.join root) = .ok found ∧
      found.node = target ∧ found.address = spot.address ++ names := by
  induction names generalizing root spot with
  | nil =>
    exact ⟨spot, reached, leads.of_nil, (List.append_nil _).symm⟩
  | cons name names ih =>
    obtain ⟨access, entries, child, directory, opened, held, further⟩ := leads.of_cons
    have formed := (wellFormed_of_resolve reached).1
    rw [directory, Node.wellFormed_directory] at formed
    have named := (formed.2 _ (Entries.mem_of_find? held)).1
    have found := child_of_searchable directory opened named held
    have arrived := resolve_join_of_child reached named found (further.not_link plain)
    obtain ⟨last, resolved, same, address⟩ := ih arrived further
    refine ⟨last, resolved, same, ?_⟩
    rw [address, Spot.address_child found, List.append_assoc]
    rfl

end Joining

section Changing

variable {tree : FileTree} {root : Path} {spot : Spot} {names : List Bytes}

/-- What holds something further down has a place in the tree. -/
theorem Spot.Stands.exists_place (stands : spot.Stands tree) {target : Node}
    (held : spot.node.at? names = some target) (below : names ≠ []) : ∃ place, spot.place? = some place := by
  cases stands with
  | outside =>
    cases names with
    | nil => exact absurd rfl below
    | cons name rest => cases held
  | top => exact ⟨[], rfl⟩
  | @inside spot child name stands found =>
    obtain ⟨first, more, address⟩ := stands.rooted.exists_address found
    refine ⟨more ++ [name], ?_⟩
    rw [stands.rooted.place?_child found, placeOf?, place?, address]
    rfl

/-- A path still leads to the same directory when something below it is changed that no lookup sees. What it then leads
to is the directory with the change below it. -/
theorem resolve_modifyAt {caller : Caller} (reached : tree.resolve caller root = .ok spot) {target : Node}
    (held : spot.node.at? names = some target) (below : names ≠ []) {change : Node → Node}
    (same : (change target).skeleton = target.skeleton)
    (keeps : ∀ node : Node, node.WellFormed → (change node).WellFormed) :
    ∃ other, (tree.modifyAt (spot.address ++ names) change keeps).resolve caller root = .ok other ∧
      other.node = spot.node.modifyAt change names := by
  have stands := stands_of_resolve reached
  obtain ⟨place, placed⟩ := stands.exists_place held below
  have above : tree.top.at? place = some spot.node := at?_of_stands stands placed
  have changed : (tree.modifyAt (spot.address ++ names) change keeps).top =
      tree.top.modifyAt change (place ++ names) := by
    unfold Spot.place? at placed
    cases address : spot.address with
    | nil =>
      rw [address] at placed
      cases placed
    | cons first more =>
      rw [address] at placed
      cases placed
      rfl
  have inside : tree.top.at? (place ++ names) = some target := by
    rw [Node.at?_append, above, Option.bind_some, held]
  have unseen : tree.top.skeleton = (tree.modifyAt (spot.address ++ names) change keeps).top.skeleton := by
    rw [changed, Node.skeleton_modifyAt tree.wellFormed inside same]
  obtain ⟨other, reached', alike⟩ := resolve_of_skeleton_eq unseen reached
  have placed' : other.place? = some place := by
    rw [← placed, Spot.place?, Spot.place?, ← Spot.address_skeleton other, alike, Spot.address_skeleton]
  have there := at?_of_stands (stands_of_resolve reached') placed'
  rw [changed, Node.at?_modifyAt, above, Option.map_some, Option.some.injEq] at there
  exact ⟨other, reached', there.symm⟩

/-- The permissions of a file below a directory are set where it stands. -/
theorem setAccess_below (reached : tree.resolve .visitor root = .ok spot) {access : Access} {content : Bytes}
    (leads : spot.node.Leads names (.file access content)) (other : Access) :
    tree.apply (.setAccess (names.foldl Path.join root) other) =
      tree.modifyAt (spot.address ++ names) (Node.withAccess other) fun _ formed => formed.withAccess other := by
  obtain ⟨found, resolved, -, address⟩ := resolve_foldl_join reached leads (by simp [Node.kind])
  rw [apply, setAccess, resolve_owner resolved, ← address]

/-- The directory part and the last name of a joined path. -/
theorem splitLast?_join {path : Path} (filled : path.bytes ≠ []) {name : Bytes} (named : isName name = true) :
    splitLast? (path.join name) =
      some (steps path ++ (if path.bytes.getLast? = some Path.separator then [] else [.enter]), name) := by
  rw [splitLast?, steps_join filled named, ← List.append_assoc, List.reverse_append]
  simp

/-- The steps to a directory, with or without a separator at their end. -/
theorem descend_to_directory {caller : Caller} {links left : Nat} {start : Spot} {taken : List Step}
    (arrived : descend caller links start taken = .ok (spot, left)) (directory : spot.node.kind = .directory)
    {more : List Step} (ending : more = [] ∨ more = [.enter]) :
    descend caller links start (taken ++ more) = .ok (spot, left) := by
  rw [descend_append, arrived, Except.bind]
  rcases ending with rfl | rfl
  · exact descend_nil
  · rw [descend_enter directory, descend_nil]

/-- The steps to the directory of a joined name, with the separator that the joining may put behind them. -/
theorem directoryAt_join {directory : Path} {place : Spot} (reached : tree.resolve .owner directory = .ok place)
    (isDirectory : place.node.kind = .directory) {name : Bytes} (named : isName name = true) :
    ∃ front links, splitLast? (directory.join name) = some (front, name) ∧
      descend .owner linkLimit tree.start front = .ok (place, links) ∧ tree.directoryAt front = .ok place := by
  obtain ⟨-, filled, links, arrived⟩ := resolve_eq_ok_iff.1 reached
  have walked : descend .owner linkLimit tree.start (steps directory ++
      (if directory.bytes.getLast? = some Path.separator then [] else [.enter])) = .ok (place, links) := by
    refine descend_to_directory arrived isDirectory ?_
    split
    · exact .inl rfl
    · exact .inr rfl
  have entered : place.enter = .ok place := if_pos isDirectory
  refine ⟨_, links, splitLast?_join filled named, walked, ?_⟩
  simp only [directoryAt, walkFromTop, walked, Except.map, bind, Except.bind, entered]

/-- A file is made in the directory that its path names if there is nothing yet, and overwritten if it is there. -/
theorem make_file_join {directory : Path} {place : Spot} (reached : tree.resolve .owner directory = .ok place)
    (isDirectory : place.node.kind = .directory) {name : Bytes} (named : isName name = true)
    (regular : place.child .owner name = .error .notFound ∨
      ∃ child, place.child .owner name = .ok child ∧ child.node.kind = .file) (bytes : Bytes) :
    tree.apply (.make (directory.join name) (.file bytes)) = match place.child .owner name with
      | .ok child => tree.modifyAt child.address (Node.withContent bytes) fun _ formed => formed.withContent bytes
      | .error _ =>
        tree.putAt place.address name (Content.file bytes).node (Content.file bytes).wellFormed_node := by
  obtain ⟨front, links, split, walked, stands⟩ := directoryAt_join reached isDirectory named
  have entered : place.enter = .ok place := if_pos isDirectory
  have placed : placeOfFile linkLimit tree.start (front ++ [.name name]) = .ok (place, name) := by
    unfold placeOfFile
    rw [List.reverse_append]
    simp only [List.reverse_cons, List.reverse_nil, List.nil_append, List.singleton_append, List.reverse_reverse,
      walked, bind, Except.bind, entered]
    rcases regular with missing | ⟨child, found, file⟩
    · rw [missing]
      rfl
    · rw [found]
      obtain ⟨node, above⟩ := child
      cases node with
      | file access content => rfl
      | _ => cases file
  rw [apply, make, split]
  simp only [makeParents_of_exists stands, writeFile, placed]
  rcases regular with missing | ⟨child, found, file⟩
  · rw [missing]
  · rw [found]
    obtain ⟨node, above⟩ := child
    cases node with
    | file access content => rfl
    | _ => cases file

/-- The content of a file below a directory is written where the file stands. -/
theorem make_below (reached : tree.resolve .visitor root = .ok spot) {access : Access} {content : Bytes}
    (leads : spot.node.Leads names (.file access content)) (below : names ≠ []) (bytes : Bytes) :
    tree.apply (.make (names.foldl Path.join root) (.file bytes)) =
      tree.modifyAt (spot.address ++ names) (Node.withContent bytes) fun _ formed => formed.withContent bytes := by
  obtain ⟨front, last, opened, entries, rfl, further, searchable, held⟩ := leads.exists_last below
  obtain ⟨parent, resolved, directory, address⟩ := resolve_foldl_join reached further (by simp [Node.kind])
  have formed := (wellFormed_of_resolve resolved).1
  rw [directory, Node.wellFormed_directory] at formed
  have named := (formed.2 _ (Entries.mem_of_find? held)).1
  have found := Spot.child_owner (child_of_searchable directory searchable named held)
  have isDirectory : parent.node.kind = .directory := by rw [directory]; rfl
  rw [List.foldl_append, List.foldl_cons, List.foldl_nil,
    make_file_join (resolve_owner resolved) isDirectory named (.inr ⟨_, found, rfl⟩) bytes, found]
  simp only [Spot.address_child found, address, List.append_assoc]

end Changing

end BundleServer.FileTree
