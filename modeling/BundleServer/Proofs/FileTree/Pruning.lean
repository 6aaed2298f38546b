import BundleServer.Proofs.FileTree.Absence

/-!
# What is seen by who looks for a suffix

A node is pruned of all regular files whose names do not end with a suffix. Directories stay, so two trees that are the
same once they are pruned send a path that leads to a directory to the same place (`resolve_of_pruned_eq`). Making,
changing or removing a file that is pruned anyway leaves the pruned tree as it is (`pruned_apply`).
-/

namespace BundleServer.FileTree

variable {suffix : Bytes}

namespace Node

/-- Is an entry seen? Only a regular file whose name does not end with the suffix is not. -/
def isSeen (suffix name : Bytes) (kind : Kind) : Bool := kind ≠ .file || suffix.isSuffixOf name

mutual

/-- The node without the files that are not seen. -/
def pruned (suffix : Bytes) : Node → Node
  | .file access content => .file access content
  | .directory access entries => .directory access (prunedEntries suffix entries)
  | .link target => .link target
  | .fifo access => .fifo access

/-- The entries without the files that are not seen. -/
def prunedEntries (suffix : Bytes) : List (Bytes × Node) → List (Bytes × Node)
  | [] => []
  | (name, node) :: rest =>
    if isSeen suffix name node.kind then (name, node.pruned suffix) :: prunedEntries suffix rest
    else prunedEntries suffix rest

end

theorem kind_pruned (node : Node) : (node.pruned suffix).kind = node.kind := by
  cases node <;> simp only [pruned, kind]

mutual

/-- Links are always seen. -/
theorem linkFree_pruned (node : Node) : (node.pruned suffix).linkFree = node.linkFree := by
  cases node with
  | directory access entries =>
    have inside := linkFreeEntries_pruned entries
    rw [pruned]
    exact inside
  | _ => rw [pruned]

theorem linkFreeEntries_pruned (entries : List (Bytes × Node)) :
    linkFreeEntries (prunedEntries suffix entries) = linkFreeEntries entries := by
  match entries with
  | [] => rfl
  | (name, node) :: rest =>
    have here := linkFree_pruned node
    have others := linkFreeEntries_pruned rest
    rw [prunedEntries, linkFreeEntries]
    split
    · rw [linkFreeEntries, here, others]
    · rename_i unseen
      have file : node.kind = .file := by
        simp only [isSeen, Bool.or_eq_true, not_or, decide_eq_true_eq, not_not] at unseen
        exact unseen.1
      cases node with
      | file access content => exact others
      | _ => cases file

end

variable {name : Bytes} {node : Node} {entries rest : Entries}

theorem prunedEntries_cons_of_seen (seen : isSeen suffix name node.kind = true) :
    prunedEntries suffix ((name, node) :: rest) = (name, node.pruned suffix) :: prunedEntries suffix rest := by
  rw [prunedEntries, if_pos seen]

theorem prunedEntries_cons_of_unseen (unseen : isSeen suffix name node.kind = false) :
    prunedEntries suffix ((name, node) :: rest) = prunedEntries suffix rest := by
  rw [prunedEntries, if_neg (by simp [unseen])]

theorem find?_prunedEntries (suffix : Bytes) (distinct : (entries.map Prod.fst).Nodup) (name : Bytes) :
    Entries.find? name (prunedEntries suffix entries) =
      ((Entries.find? name entries).filter (isSeen suffix name ·.kind)).map (pruned suffix) := by
  induction entries with
  | nil => rfl
  | cons entry rest ih =>
    obtain ⟨other, node⟩ := entry
    rw [List.map_cons, List.nodup_cons] at distinct
    have others := ih distinct.2
    rw [Entries.find?_cons]
    by_cases same : other = name
    · subst same
      rw [if_pos rfl]
      cases seen : isSeen suffix other node.kind with
      | true =>
        rw [prunedEntries_cons_of_seen seen, Entries.find?_cons, if_pos rfl]
        simp [Option.filter, seen]
      | false =>
        have absent : Entries.find? other rest = none := by
          cases held : Entries.find? other rest with
          | none => rfl
          | some again => exact absurd (List.mem_map.2 ⟨_, Entries.mem_of_find? held, rfl⟩) distinct.1
        rw [prunedEntries_cons_of_unseen seen, others, absent]
        simp [Option.filter, seen]
    · rw [if_neg same]
      cases seen : isSeen suffix other node.kind with
      | true => rw [prunedEntries_cons_of_seen seen, Entries.find?_cons, if_neg same, others]
      | false => rw [prunedEntries_cons_of_unseen seen, others]

/-- An entry may be changed unseen, or in what is not seen of it. -/
theorem prunedEntries_modify {change : Node → Node}
    (each : ∀ entry ∈ entries, entry.1 = name → (change entry.2).kind = entry.2.kind ∧
      (isSeen suffix name entry.2.kind = true → (change entry.2).pruned suffix = entry.2.pruned suffix)) :
    prunedEntries suffix (Entries.modify name change entries) = prunedEntries suffix entries := by
  induction entries with
  | nil => rfl
  | cons entry rest ih =>
    obtain ⟨other, node⟩ := entry
    obtain ⟨first, later⟩ := List.forall_mem_cons.1 each
    have others := ih later
    unfold Entries.modify at others ⊢
    rw [List.map_cons]
    by_cases same : other = name
    · obtain ⟨kind, shown⟩ := first same
      simp only at same kind shown
      rw [if_pos same, prunedEntries, prunedEntries, others, kind]
      split
      · rename_i seen
        rw [shown (same ▸ seen)]
      · rfl
    · rw [if_neg same, prunedEntries, prunedEntries, others]

/-- A file that is not seen may be put in the place of another one. -/
theorem prunedEntries_put (unseen : isSeen suffix name node.kind = false)
    (each : ∀ entry ∈ entries, entry.1 = name → isSeen suffix name entry.2.kind = false) :
    prunedEntries suffix (Entries.put name node entries) = prunedEntries suffix entries := by
  induction entries with
  | nil =>
    rw [Entries.put, prunedEntries_cons_of_unseen unseen]
  | cons entry rest ih =>
    obtain ⟨other, held⟩ := entry
    obtain ⟨first, later⟩ := List.forall_mem_cons.1 each
    unfold Entries.put
    by_cases same : other = name
    · rw [if_pos same, prunedEntries_cons_of_unseen unseen, same, prunedEntries_cons_of_unseen (first same)]
    · rw [if_neg same, prunedEntries, prunedEntries, ih later]

theorem prunedEntries_erase (each : ∀ entry ∈ entries, entry.1 = name → isSeen suffix name entry.2.kind = false) :
    prunedEntries suffix (Entries.erase name entries) = prunedEntries suffix entries := by
  induction entries with
  | nil => rfl
  | cons entry rest ih =>
    obtain ⟨other, held⟩ := entry
    obtain ⟨first, later⟩ := List.forall_mem_cons.1 each
    have others := ih later
    unfold Entries.erase at others ⊢
    by_cases same : other = name
    · rw [List.filter_cons_of_neg (by simp [same]), others, same, prunedEntries_cons_of_unseen (first same)]
    · rw [List.filter_cons_of_pos (by simp [same]), prunedEntries, prunedEntries, others]

/-- A change that keeps what is seen of the node at which it takes place keeps what is seen of the whole. -/
theorem pruned_modifyAt {change : Node → Node} {names : List Bytes} {target : Node} (formed : node.WellFormed)
    (held : node.at? names = some target) (same : (change target).pruned suffix = target.pruned suffix) :
    (node.modifyAt change names).pruned suffix = node.pruned suffix := by
  induction names generalizing node with
  | nil =>
    cases held
    exact same
  | cons name names ih =>
    cases node with
    | directory access entries =>
      rw [wellFormed_directory] at formed
      rw [at?] at held
      obtain ⟨child, found, further⟩ := Option.bind_eq_some_iff.1 held
      have inner := ih (formed.2 _ (Entries.mem_of_find? found)).2 further
      have each : ∀ entry ∈ entries, entry.1 = name →
          (entry.2.modifyAt change names).kind = entry.2.kind ∧
            (isSeen suffix name entry.2.kind = true →
              (entry.2.modifyAt change names).pruned suffix = entry.2.pruned suffix) := by
        intro entry member named
        have again := Entries.find?_of_mem formed.1 member
        rw [named, found] at again
        cases again
        refine ⟨?_, fun _ => inner⟩
        rw [← kind_pruned, inner, kind_pruned]
      rw [modifyAt_cons, mapEntries_directory, pruned, pruned, prunedEntries_modify each]
    | _ => cases held

end Node

namespace Spot

/-- The spot without the files that are not seen. -/
def pruned (suffix : Bytes) (spot : Spot) : Spot :=
  ⟨spot.node.pruned suffix, spot.above.map fun entry => (entry.1, entry.2.pruned suffix)⟩

theorem up_pruned (spot : Spot) : (spot.pruned suffix).up = spot.up.pruned suffix := by
  obtain ⟨node, above⟩ := spot
  cases above <;> rfl

variable {first second : Spot}

theorem kind_eq_of_pruned_eq (same : first.pruned suffix = second.pruned suffix) :
    first.node.kind = second.node.kind := by
  have nodes : first.node.pruned suffix = second.node.pruned suffix := congrArg Spot.node same
  rw [← Node.kind_pruned, nodes, Node.kind_pruned]

theorem up_eq_of_pruned_eq (same : first.pruned suffix = second.pruned suffix) :
    first.up.pruned suffix = second.up.pruned suffix := by
  rw [← up_pruned, same, up_pruned]

/-- Directories of which the same is seen may be searched alike, and hold the same directories. -/
theorem directory_of_pruned_eq (same : first.pruned suffix = second.pruned suffix)
    (directory : first.node.kind = .directory) :
    ∃ access entries entries', first.node = .directory access entries ∧ second.node = .directory access entries' ∧
      Node.prunedEntries suffix entries = Node.prunedEntries suffix entries' := by
  have nodes : first.node.pruned suffix = second.node.pruned suffix := congrArg Spot.node same
  cases one : first.node with
  | directory access entries =>
    rw [one, Node.pruned] at nodes
    cases other : second.node with
    | directory access' entries' =>
      rw [other, Node.pruned, Node.directory.injEq] at nodes
      obtain ⟨rfl, alike⟩ := nodes
      exact ⟨access, entries, entries', rfl, rfl, alike⟩
    | _ =>
      rw [other, Node.pruned] at nodes
      cases nodes
  | _ =>
    rw [one] at directory
    cases directory

theorem search_of_pruned_eq {caller : Caller} (same : first.pruned suffix = second.pruned suffix) {entries : Entries}
    (searched : first.search caller = .ok entries) :
    ∃ entries', second.search caller = .ok entries' ∧
      Node.prunedEntries suffix entries = Node.prunedEntries suffix entries' := by
  obtain ⟨access, own⟩ := eq_of_search searched
  have directory : first.node.kind = .directory := by
    rw [own]
    rfl
  obtain ⟨access', held, entries', one, other, alike⟩ := directory_of_pruned_eq same directory
  rw [own] at one
  cases one
  refine ⟨entries', ?_, alike⟩
  unfold search at searched ⊢
  rw [own] at searched
  rw [other]
  simp only at searched ⊢
  split at searched
  · rename_i allowed
    rw [if_pos allowed]
  · cases searched

theorem child_eq_ok_iff {caller : Caller} {spot child : Spot} {name : Bytes} :
    spot.child caller name = .ok child ↔ ∃ entries node, spot.search caller = .ok entries ∧
      name.length ≤ nameLimit ∧ Entries.find? name entries = some node ∧
      child = ⟨node, (name, spot.node) :: spot.above⟩ := by
  unfold Spot.child
  cases searched : spot.search caller with
  | error fault => simp [bind, Except.bind]
  | ok entries =>
    by_cases within : nameLimit < name.length
    · simp [bind, Except.bind, within, Nat.not_le.2 within]
    · cases held : Entries.find? name entries with
      | none => simp [bind, Except.bind, within, held]
      | some node => simp [bind, Except.bind, within, Nat.not_lt.1 within, held, eq_comm]

/-- A directory that one of them holds is held by the other. -/
theorem child_of_pruned_eq {caller : Caller} {name : Bytes} {child : Spot}
    (same : first.pruned suffix = second.pruned suffix) (formed : first.WellFormed) (formed' : second.WellFormed)
    (found : first.child caller name = .ok child) (directory : child.node.kind = .directory) :
    ∃ child', second.child caller name = .ok child' ∧ child.pruned suffix = child'.pruned suffix := by
  obtain ⟨entries, node, searched, short, held, rfl⟩ := child_eq_ok_iff.1 found
  obtain ⟨entries', searched', alike⟩ := search_of_pruned_eq same searched
  obtain ⟨access, own⟩ := eq_of_search searched
  obtain ⟨access', own'⟩ := eq_of_search searched'
  have distinct := formed.1
  have distinct' := formed'.1
  rw [own, Node.wellFormed_directory] at distinct
  rw [own', Node.wellFormed_directory] at distinct'
  have seen : Node.isSeen suffix name node.kind = true := by
    simp only at directory
    rw [directory]
    rfl
  have shown : Entries.find? name (Node.prunedEntries suffix entries) = some (node.pruned suffix) := by
    rw [Node.find?_prunedEntries suffix distinct.1, held]
    simp [Option.filter, seen]
  rw [alike, Node.find?_prunedEntries suffix distinct'.1] at shown
  obtain ⟨node', kept, pruned⟩ := Option.map_eq_some_iff.1 shown
  have held' := (Option.filter_eq_some_iff.1 kept).1
  refine ⟨_, child_eq_ok_iff.2 ⟨entries', node', searched', short, held', rfl⟩, ?_⟩
  injection same with nodes above
  simp only [Spot.pruned, List.map_cons, pruned, nodes, above]

end Spot

theorem Spot.Stands.wellFormed {tree : FileTree} {spot : Spot} (stands : spot.Stands tree) : spot.WellFormed := by
  induction stands with
  | outside => exact ⟨by simp [surroundings, Node.WellFormed, Node.WellFormedEntries], List.forall_mem_nil _⟩
  | top => exact wellFormed_start tree
  | inside stands found ih => exact ih.child found

section Lookup

variable {tree other : FileTree} {caller : Caller} {links : Nat} {first second : Spot} {taken : List Step}

/-- Steps that lead to a directory start from one, unless they first go to the outermost. -/
theorem directory_of_descend {arrival : Spot × Nat} (within : ∀ step ∈ taken, step ≠ .outermost)
    (arrived : descend caller links first taken = .ok arrival) (directory : arrival.1.node.kind = .directory) :
    first.node.kind = .directory := by
  cases taken with
  | nil =>
    rw [descend_nil] at arrived
    cases arrived
    exact directory
  | cons step rest =>
    by_contra plain
    cases step with
    | outermost => exact within .outermost List.mem_cons_self rfl
    | enter =>
      rw [descend_enter_of_ne plain] at arrived
      cases arrived
    | here =>
      rw [descend_here_of_refused (search_of_ne plain)] at arrived
      cases arrived
    | up =>
      rw [descend_up_of_refused (search_of_ne plain)] at arrived
      cases arrived
    | name name =>
      rw [descend_name_of_refused (child_of_ne plain name)] at arrived
      cases arrived

/-- Steps that lead to a directory in one tree do so in the other one. -/
theorem descend_of_pruned_eq (free : tree.top.linkFree = true) (stands : first.Stands tree)
    (stands' : second.Stands other) (same : first.pruned suffix = second.pruned suffix)
    (within : ∀ step ∈ taken, step ≠ .outermost) {arrival : Spot × Nat}
    (arrived : descend caller links first taken = .ok arrival) (directory : arrival.1.node.kind = .directory) :
    ∃ last, descend caller links second taken = .ok (last, arrival.2) ∧
      arrival.1.pruned suffix = last.pruned suffix := by
  induction taken generalizing first second with
  | nil =>
    rw [descend_nil] at arrived
    cases arrived
    exact ⟨second, descend_nil, same⟩
  | cons step rest ih =>
    have start := directory_of_descend within arrived directory
    have later := (List.forall_mem_cons.1 within).2
    have start' : second.node.kind = .directory := Spot.kind_eq_of_pruned_eq same ▸ start
    cases step with
    | outermost => exact absurd rfl (within .outermost List.mem_cons_self)
    | enter =>
      rw [descend_enter start] at arrived
      rw [descend_enter start']
      exact ih stands stands' same later arrived
    | here =>
      cases searched : first.search caller with
      | error fault =>
        rw [descend_here_of_refused searched] at arrived
        cases arrived
      | ok entries =>
        obtain ⟨entries', searched', -⟩ := Spot.search_of_pruned_eq same searched
        rw [descend_here searched] at arrived
        rw [descend_here searched']
        exact ih stands stands' same later arrived
    | up =>
      cases searched : first.search caller with
      | error fault =>
        rw [descend_up_of_refused searched] at arrived
        cases arrived
      | ok entries =>
        obtain ⟨entries', searched', -⟩ := Spot.search_of_pruned_eq same searched
        rw [descend_up searched] at arrived
        rw [descend_up searched']
        exact ih ((Spot.kept_stands tree caller).up stands) ((Spot.kept_stands other caller).up stands')
          (Spot.up_eq_of_pruned_eq same) later arrived
    | name name =>
      cases found : first.child caller name with
      | error fault =>
        rw [descend_name_of_refused found] at arrived
        cases arrived
      | ok child =>
        have childStands := (Spot.kept_stands tree caller).child stands found
        rw [descend_name found (Node.kind_ne_link (linkFree_of_stands free childStands))] at arrived
        have inside := directory_of_descend later arrived directory
        obtain ⟨child', found', alike⟩ :=
          Spot.child_of_pruned_eq same stands.wellFormed stands'.wellFormed found inside
        have plain : child'.node.kind ≠ .link := by
          rw [← Spot.kind_eq_of_pruned_eq alike, inside]
          decide
        rw [descend_name found' plain]
        exact ih childStands ((Spot.kept_stands other caller).child stands' found') alike later arrived

/-- Only the first step of a path can lead to the outermost directory. -/
theorem exists_steps_within (path : Path) :
    ∃ rest, (∀ step ∈ rest, step ≠ Step.outermost) ∧ (steps path = rest ∨ steps path = .outermost :: rest) := by
  obtain ⟨first, others, pieces⟩ := List.exists_cons_of_ne_nil (Bytes.split_ne_nil Path.separator path.bytes)
  have piecewise (piece : Bytes) : ∀ step ∈ Step.ofPiece piece, step ≠ Step.outermost := by
    intro step member
    unfold Step.ofPiece at member
    repeat' split at member
    all_goals simp_all
  have behind : ∀ step ∈ others.flatMap fun piece => .enter :: Step.ofPiece piece, step ≠ Step.outermost := by
    intro step member
    obtain ⟨piece, -, inside⟩ := List.mem_flatMap.1 member
    rcases List.mem_cons.1 inside with rfl | inPiece
    · exact fun impossible => by cases impossible
    · exact piecewise piece step inPiece
  unfold steps
  rw [pieces]
  by_cases absolute : path.isAbsolute = true
  · exact ⟨_, behind, .inr (by simp [absolute])⟩
  · refine ⟨Step.ofPiece first ++ others.flatMap fun piece => .enter :: Step.ofPiece piece, ?_,
      .inl (by simp [absolute])⟩
    intro step member
    rcases List.mem_append.1 member with inFirst | later
    · exact piecewise first step inFirst
    · exact behind step later

/-- A path that leads to a directory in a tree without links leads to one in every tree of which the same is seen. -/
theorem resolve_of_pruned_eq (free : tree.top.linkFree = true) (same : tree.top.pruned suffix = other.top.pruned suffix)
    {path : Path} {spot : Spot} (reached : tree.resolve caller path = .ok spot)
    (directory : spot.node.kind = .directory) :
    ∃ spot', other.resolve caller path = .ok spot' ∧ spot.pruned suffix = spot'.pruned suffix := by
  obtain ⟨clean, filled, links, arrived⟩ := resolve_eq_ok_iff.1 reached
  have starts : tree.start.pruned suffix = other.start.pruned suffix := by
    simp only [Spot.pruned, start, same]
  obtain ⟨rest, within, whole | whole⟩ := exists_steps_within path
  · rw [whole] at arrived
    obtain ⟨last, arrived', alike⟩ := descend_of_pruned_eq free .top .top starts within arrived directory
    exact ⟨last, resolve_eq_ok_iff.2 ⟨clean, filled, links, whole ▸ arrived'⟩, alike⟩
  · rw [whole, descend_outermost] at arrived
    have stands : Spot.Stands other ⟨surroundings, []⟩ := .outside
    obtain ⟨last, arrived', alike⟩ := descend_of_pruned_eq free .outside stands rfl within arrived directory
    refine ⟨last, resolve_eq_ok_iff.2 ⟨clean, filled, links, ?_⟩, alike⟩
    rw [whole, descend_outermost]
    exact arrived'

end Lookup

/-- Is the change one of the file at the path? It is made or overwritten, its permissions are set, or it is removed. -/
inductive Change.OfFile (path : Path) : Change → Prop where
  | make (bytes : Bytes) : OfFile path (.make path (.file bytes))
  | setAccess (access : Access) : OfFile path (.setAccess path access)
  | remove : OfFile path (.remove path)

section Changes

variable {tree : FileTree} {place child : Spot} {access : Access} {entries : Entries} {name : Bytes}

theorem pruned_modifyAt_place (stands : place.Stands tree) (own : place.node = .directory access entries)
    {change : Entries → Entries}
    (same : Node.prunedEntries suffix (change entries) = Node.prunedEntries suffix entries)
    (keeps : ∀ node : Node, node.WellFormed → (node.mapEntries change).WellFormed) :
    (tree.modifyAt place.address (Node.mapEntries change) keeps).top.pruned suffix = tree.top.pruned suffix := by
  cases address : place.address with
  | nil => rfl
  | cons first names =>
    have placed : place.place? = some names := by
      rw [Spot.place?, address, List.tail?_cons]
    refine Node.pruned_modifyAt tree.wellFormed (at?_of_stands stands placed) ?_
    rw [own, Node.mapEntries_directory, Node.pruned, Node.pruned, same]

/-- A file that is not seen may be changed where it stands. -/
theorem pruned_modifyAt_child (stands : place.Stands tree) (own : place.node = .directory access entries)
    (found : place.child .owner name = .ok child) (unseen : Node.isSeen suffix name child.node.kind = false)
    {change : Node → Node} (kind : (change child.node).kind = child.node.kind)
    (keeps : ∀ node : Node, node.WellFormed → (change node).WellFormed) :
    (tree.modifyAt child.address change keeps).top.pruned suffix = tree.top.pruned suffix := by
  have distinct := stands.wellFormed.1
  rw [own, Node.wellFormed_directory] at distinct
  obtain ⟨first, names, address⟩ := stands.rooted.exists_address found
  have placed : place.place? = some names := by
    rw [Spot.place?, address, List.tail?_cons]
  obtain ⟨entries', node, searched, -, held, rfl⟩ := Spot.child_eq_ok_iff.1 found
  obtain ⟨access', own'⟩ := Spot.eq_of_search searched
  rw [own] at own'
  cases own'
  have each : ∀ entry ∈ entries, entry.1 = name → (change entry.2).kind = entry.2.kind ∧
      (Node.isSeen suffix name entry.2.kind = true → (change entry.2).pruned suffix = entry.2.pruned suffix) := by
    intro entry member named
    have again := Entries.find?_of_mem distinct.1 member
    rw [named, held] at again
    cases again
    refine ⟨kind, fun seen => ?_⟩
    rw [unseen] at seen
    cases seen
  rw [Spot.address_child found, address]
  refine (congrArg (Node.pruned suffix) (Node.modifyAt_concat change names name tree.top)).trans ?_
  refine Node.pruned_modifyAt tree.wellFormed (at?_of_stands stands placed) ?_
  rw [own, Node.mapEntries_directory, Node.pruned, Node.pruned, Node.prunedEntries_modify each]

variable {directory : Path}

/-- A change of a file that is not seen leaves all that is seen as it is. There may be no such file, but nothing else
stands at its path. -/
theorem pruned_apply (reached : tree.resolve .owner directory = .ok place)
    (own : place.node = .directory access entries) (named : isName name = true)
    (regular : ∀ node, Entries.find? name entries = some node → node.kind = .file)
    (unseen : suffix.isSuffixOf name = false) {change : Change} (ofFile : change.OfFile (directory.join name)) :
    (tree.apply change).top.pruned suffix = tree.top.pruned suffix := by
  have stands := stands_of_resolve reached
  have isDirectory : place.node.kind = .directory := by
    rw [own]
    rfl
  have unseenFile : Node.isSeen suffix name .file = false := by
    simp [Node.isSeen, unseen]
  have distinct := stands.wellFormed.1
  rw [own, Node.wellFormed_directory] at distinct
  have each : ∀ entry ∈ entries, entry.1 = name → Node.isSeen suffix name entry.2.kind = false := by
    intro entry member same
    rw [regular entry.2 (same ▸ Entries.find?_of_mem distinct.1 member)]
    exact unseenFile
  have outcome : place.child .owner name = .error .notFound ∨
      ∃ child, place.child .owner name = .ok child ∧ child.node.kind = .file := by
    obtain ⟨-, -, -, -, -, short⟩ := isName_iff.1 named
    cases held : Entries.find? name entries with
    | none => exact .inl (child_of_missing (search_owner own) short held)
    | some node => exact .inr ⟨_, child_of_held (search_owner own) short held, regular node held⟩
  cases ofFile with
  | make bytes =>
    rw [make_file_join reached isDirectory named outcome bytes]
    rcases outcome with missing | ⟨child, found, file⟩
    · rw [missing]
      simp only [putAt, named, dite_true]
      exact pruned_modifyAt_place stands own (Node.prunedEntries_put unseenFile each) _
    · rw [found]
      refine pruned_modifyAt_child stands own found (file ▸ unseenFile) ?_ _
      obtain ⟨node, above⟩ := child
      cases node <;> rfl
  | setAccess other =>
    rw [apply, setAccess]
    rcases outcome with missing | ⟨child, found, file⟩
    · rw [resolve_join_of_refused reached isDirectory named missing]
    · rw [resolve_join_of_child reached named found (by rw [file]; decide)]
      refine pruned_modifyAt_child stands own found (file ▸ unseenFile) ?_ _
      obtain ⟨node, above⟩ := child
      cases node <;> rfl
  | remove =>
    obtain ⟨front, links, split, -, within⟩ := directoryAt_join reached isDirectory named
    rw [apply, remove, split]
    simp only [within]
    exact pruned_modifyAt_place stands own (Node.prunedEntries_erase each) _

end Changes

end BundleServer.FileTree
