import BundleServer.Proofs.Bundle.Scope
import BundleServer.Proofs.FileTree.Standing
import Mathlib.Data.List.Nodup

/-!
# What one file gives

A fragment among the items of the plain recursion is that of one file, and names lead down to this file. When the file
is changed and stays a file, the item of the file changes, and all items in front of it and behind it stay as they are
(`traverse_modifyAt`). The induction is on the size of the node: a directory finds the fragment among the items of one
of its entries, and the other entries do not have the name of that one.
-/

namespace BundleServer.Walk

open FileTree (Node Entries)

variable {tree : FileTree} {suffix : Bytes}
  {arrange : Path → List (Bytes × FileTree.Kind) → List (Bytes × FileTree.Kind)}

/-- An element of lists put one behind the other is one of some list. -/
theorem exists_of_flatMap_eq {α β : Type} {give : α → List β} {list : List α} {before after : List β} {item : β}
    (whole : list.flatMap give = before ++ item :: after) :
    ∃ front giver behind inner rest, list = front ++ giver :: behind ∧ give giver = inner ++ item :: rest ∧
      before = front.flatMap give ++ inner ∧ after = rest ++ behind.flatMap give := by
  induction list generalizing before with
  | nil => simp at whole
  | cons giver list ih =>
    rw [List.flatMap_cons] at whole
    have later {fewer : List β} (same : list.flatMap give = fewer ++ item :: after)
        (ended : before = give giver ++ fewer) :
        ∃ front giver' behind inner rest, giver :: list = front ++ giver' :: behind ∧
          give giver' = inner ++ item :: rest ∧ before = front.flatMap give ++ inner ∧
          after = rest ++ behind.flatMap give := by
      obtain ⟨front, giver', behind, inner, rest, rfl, given, rfl, rfl⟩ := ih same
      exact ⟨giver :: front, giver', behind, inner, rest, rfl, given, by simp [ended], rfl⟩
    rcases List.append_eq_append_iff.1 whole with ⟨fewer, ended, same⟩ | ⟨more, given, same⟩
    · exact later same ended
    · cases more with
      | nil =>
        have ended : before = give giver ++ [] := by rw [given, List.append_nil, List.append_nil]
        have here : list.flatMap give = [] ++ item :: after := same.symm
        exact later here ended
      | cons other rest =>
        obtain ⟨rfl, rfl⟩ := List.cons.inj same
        exact ⟨[], giver, list, before, rest, rfl, given, rfl, rfl⟩

/-- What a directory lists is not seen to change when no lookup sees the change. -/
theorem listing_skeletonEntries (entries : Entries) : listing (Node.skeletonEntries entries) = listing entries := by
  induction entries with
  | nil => rfl
  | cons entry rest ih =>
    obtain ⟨name, node⟩ := entry
    unfold listing at ih ⊢
    rw [Node.skeletonEntries, List.map_cons, List.map_cons, ih, Node.kind_skeleton]

theorem lookup_traverseEntries_modify (other : FileTree) {reachable : Bool} {path : Path} {entries : Entries}
    (free : Node.linkFreeEntries entries = true) {changed name : Bytes} (differs : name ≠ changed)
    (change : Node → Node) :
    (traverseEntries other suffix arrange reachable path (Entries.modify changed change entries)).lookup name =
      (traverseEntries tree suffix arrange reachable path entries).lookup name := by
  induction entries with
  | nil => rfl
  | cons entry rest ih =>
    obtain ⟨here, node⟩ := entry
    rw [Node.linkFreeEntries, Bool.and_eq_true] at free
    have others := ih free.2
    unfold Entries.modify at others ⊢
    rw [List.map_cons]
    by_cases same : here = changed
    · have unlike : (name == here) = false := beq_eq_false_iff_ne.2 (same ▸ differs)
      rw [if_pos same, traverseEntries, traverseEntries, List.lookup_cons, List.lookup_cons, unlike]
      exact others
    · rw [if_neg same, traverseEntries, traverseEntries, List.lookup_cons, List.lookup_cons, others,
        traverse_of_linkFree other tree reachable (path.join here) here node free.1]

/-- A fragment among the items of a file is the only one. -/
theorem fragment_of_itemsOfFile {readable : Bool} {path : Path} {name content : Bytes} {before after : List Item}
    {fragment : Fragment} (whole : itemsOfFile suffix readable path name content = before ++ .ok fragment :: after) :
    selects suffix path = true ∧ readable = true ∧ fragment = ⟨path, name, content⟩ ∧ before = [] ∧ after = [] := by
  unfold itemsOfFile at whole
  by_cases selected : selects suffix path = true
  · rw [if_pos selected] at whole
    rcases List.singleton_eq_append_iff.1 whole with ⟨rfl, single⟩ | ⟨-, none⟩
    · obtain ⟨same, rfl⟩ := List.cons.inj single
      cases readable with
      | false => cases same
      | true =>
        cases same
        exact ⟨selected, rfl, rfl, rfl, rfl⟩
    · cases none
  · rw [if_neg selected] at whole
    cases before <;> cases whole

/-- The items of a directory in which one entry changes: those of the other entries stay. -/
theorem traverse_directory_modify (tree other : FileTree)
    (ordered : ∀ path entries, (arrange path entries).Perm entries) {access : FileTree.Access} {entries : Entries}
    (formed : (Node.directory access entries).WellFormed)
    (free : (Node.directory access entries).linkFree = true) {reachable : Bool}
    (readable : (reachable && access.read) = true) {path : Path} (name : Bytes) {entry : Bytes × Node}
    (held : entry ∈ entries) {change : Node → Node} (same : (change entry.2).skeleton = entry.2.skeleton)
    {front behind : List (Bytes × FileTree.Kind)}
    (arranged : arrange path (listing entries) = front ++ (entry.1, entry.2.kind) :: behind) :
    traverse other suffix arrange reachable path name (.directory access (Entries.modify entry.1 change entries)) =
      (front.flatMap fun listed =>
          ((traverseEntries tree suffix arrange access.search path entries).lookup listed.1).getD []) ++
        (traverse other suffix arrange access.search (path.join entry.1) entry.1 (change entry.2) ++
          behind.flatMap fun listed =>
            ((traverseEntries tree suffix arrange access.search path entries).lookup listed.1).getD []) := by
  rw [Node.wellFormed_directory] at formed
  have listed : listing (Entries.modify entry.1 change entries) = listing entries := by
    rw [← listing_skeletonEntries,
      Node.skeletonEntries_modify formed.1 (Entries.find?_of_mem formed.1 held) same, listing_skeletonEntries]
  have others : entry.1 ∉ (front ++ behind).map Prod.fst := by
    have distinct : ((front ++ (entry.1, entry.2.kind) :: behind).map Prod.fst).Nodup := by
      rw [← arranged, ((ordered path (listing entries)).map Prod.fst).nodup_iff, map_fst_listing]
      exact formed.1
    rw [List.map_append, List.map_cons, List.nodup_middle, List.nodup_cons, ← List.map_append] at distinct
    exact distinct.1
  have elsewhere : ∀ listed ∈ front ++ behind,
      ((traverseEntries other suffix arrange access.search path (Entries.modify entry.1 change entries)).lookup
          listed.1).getD [] =
        ((traverseEntries tree suffix arrange access.search path entries).lookup listed.1).getD [] := by
    intro listed member
    have differs : listed.1 ≠ entry.1 := fun same => others (List.mem_map.2 ⟨listed, member, same⟩)
    rw [lookup_traverseEntries_modify other free differs]
  have here : (traverseEntries other suffix arrange access.search path (Entries.modify entry.1 change entries)).lookup
      entry.1 = some (traverse other suffix arrange access.search (path.join entry.1) entry.1 (change entry.2)) := by
    have distinct : ((Entries.modify entry.1 change entries).map Prod.fst).Nodup := by
      rw [Entries.map_fst_modify]
      exact formed.1
    have changed : (entry.1, change entry.2) ∈ Entries.modify entry.1 change entries :=
      List.mem_map.2 ⟨entry, held, if_pos rfl⟩
    exact lookup_traverseEntries distinct changed
  rw [traverse, if_pos readable, listed, arranged, List.flatMap_append, List.flatMap_cons, here, Option.getD_some,
    List.flatMap_congr fun listed member => elsewhere listed (List.mem_append_left _ member),
    List.flatMap_congr fun listed member => elsewhere listed (List.mem_append_right _ member)]

/-- What is read of a fragment's file when it has these permissions and this content. -/
def itemOf (fragment : Fragment) (access : FileTree.Access) (content : Bytes) : Item :=
  if access.read then .ok { fragment with content } else .error (.read fragment.path (.access .permissionDenied))

/-- A fragment is that of one file, and a change of that file changes its item alone. -/
theorem traverse_modifyAt (ordered : ∀ path entries, (arrange path entries).Perm entries) {node : Node}
    (formed : node.WellFormed) (free : node.linkFree = true) {reachable : Bool} {path : Path} {name : Bytes}
    {before after : List Item} {fragment : Fragment}
    (whole : traverse tree suffix arrange reachable path name node = before ++ .ok fragment :: after) :
    reachable = true ∧ ∃ names access, node.Leads names (.file access fragment.content) ∧ access.read = true ∧
      fragment.path = names.foldl Path.join path ∧
      ∀ (other : FileTree) {change : Node → Node} {access' : FileTree.Access} {content : Bytes},
        change (.file access fragment.content) = .file access' content →
        traverse other suffix arrange reachable path name (node.modifyAt change names) =
          before ++ itemOf fragment access' content :: after := by
  induction size : node.size using Nat.strongRecOn generalizing node reachable path name before after with
  | ind bound ih =>
    cases node with
    | link target => cases free
    | fifo access => cases before <;> cases whole
    | file access content =>
      rw [traverse] at whole
      obtain ⟨selected, readable, rfl, rfl, rfl⟩ := fragment_of_itemsOfFile whole
      obtain ⟨rfl, allowed⟩ := Bool.and_eq_true_iff.1 readable
      refine ⟨rfl, [], access, .here _, allowed, rfl, fun other change access' content' becomes => ?_⟩
      rw [Node.modifyAt, becomes, traverse, itemsOfFile, if_pos selected, Bool.true_and]
      rfl
    | directory access entries =>
      have members := formed
      rw [Node.wellFormed_directory] at members
      rw [traverse] at whole
      by_cases readable : (reachable && access.read) = true
      · rw [if_pos readable] at whole
        obtain ⟨front, listed, behind, inner, rest, arranged, given, rfl, rfl⟩ := exists_of_flatMap_eq whole
        obtain ⟨entry, held, rfl⟩ : ∃ entry ∈ entries, (entry.1, entry.2.kind) = listed := by
          have among : listed ∈ arrange path (listing entries) := by simp [arranged]
          exact List.mem_map.1 ((ordered path _).mem_iff.1 among)
        rw [lookup_traverseEntries members.1 held, Option.getD_some] at given
        have smaller : entry.2.size < bound := size ▸ Node.size_lt_of_mem held
        obtain ⟨opened, names, access', leads, allowed, joined, changes⟩ :=
          ih entry.2.size smaller (members.2 entry held).2 (Node.linkFree_of_mem free held) given rfl
        have found := Entries.find?_of_mem members.1 held
        refine ⟨(Bool.and_eq_true_iff.1 readable).1, entry.1 :: names, access', .down opened found leads, allowed,
          joined, fun other change access'' content becomes => ?_⟩
        have same : (Node.modifyAt change names entry.2).skeleton = entry.2.skeleton := by
          refine Node.skeleton_modifyAt (members.2 entry held).2 leads.at?_eq ?_
          rw [becomes]
          rfl
        rw [Node.modifyAt_cons, Node.mapEntries_directory,
          traverse_directory_modify tree other ordered formed free readable name held same arranged,
          changes other becomes]
        simp only [List.append_assoc, List.cons_append]
      · rw [if_neg readable] at whole
        rcases List.singleton_eq_append_iff.1 whole with ⟨-, single⟩ | ⟨-, none⟩
        · cases single
        · cases none

section FromRoot

variable {root : Path} {before after : List Item} {fragment : Fragment}

/-- Where the file of a fragment stands below the root of a walk, and what becomes of the items when it is changed. -/
theorem traversal_modifyAt (ordered : ∀ path entries, (arrange path entries).Perm entries)
    (free : tree.top.linkFree = true) (directory : tree.kind root = .ok .directory)
    (whole : traversal tree suffix arrange root = before ++ .ok fragment :: after) :
    ∃ spot names access, tree.resolve .visitor root = .ok spot ∧
      spot.node.Leads names (.file access fragment.content) ∧ names ≠ [] ∧ access.read = true ∧
      fragment.path = names.foldl Path.join root ∧
      ∀ {change : Node → Node} (keeps : ∀ node : Node, node.WellFormed → (change node).WellFormed)
        {access' : FileTree.Access} {content : Bytes},
        change (.file access fragment.content) = .file access' content →
        (tree.modifyAt (spot.address ++ names) change keeps).kind root = .ok .directory ∧
          traversal (tree.modifyAt (spot.address ++ names) change keeps) suffix arrange root =
            before ++ itemOf fragment access' content :: after := by
  unfold FileTree.kind at directory
  cases reached : tree.resolve .visitor root with
  | error fault =>
    rw [reached] at directory
    cases directory
  | ok spot =>
    rw [reached, Except.map, Except.ok.injEq] at directory
    rw [traversal, reached] at whole
    obtain ⟨-, names, access, leads, allowed, joined, changes⟩ := traverse_modifyAt ordered
      (FileTree.wellFormed_of_resolve reached).1
      (FileTree.linkFree_of_stands free (FileTree.stands_of_resolve reached)) whole
    have below : names ≠ [] := by
      rintro rfl
      rw [leads.of_nil] at directory
      cases directory
    refine ⟨spot, names, access, rfl, leads, below, allowed, joined, fun {change} keeps access' content becomes => ?_⟩
    have unseen : (change (.file access fragment.content)).skeleton =
        (Node.file access fragment.content).skeleton := by
      rw [becomes]
      rfl
    obtain ⟨other, reached', changed⟩ := FileTree.resolve_modifyAt reached leads.at?_eq below unseen keeps
    have alike : other.node.kind = spot.node.kind := by
      rw [changed, ← Node.kind_skeleton, Node.skeleton_modifyAt (FileTree.wellFormed_of_resolve reached).1
        leads.at?_eq unseen, Node.kind_skeleton]
    constructor
    · rw [FileTree.kind, reached', Except.map, alike, directory]
    · rw [traversal, reached']
      simp only [changed]
      exact changes _ becomes

variable (ordered : ∀ path entries, (arrange path entries).Perm entries) (free : tree.top.linkFree = true)
  (directory : tree.kind root = .ok .directory)
  (whole : traversal tree suffix arrange root = before ++ .ok fragment :: after)

include ordered free directory whole

/-- A walk meets a file with other permissions at the place of its fragment. -/
theorem traversal_setAccess (access : FileTree.Access) :
    (tree.apply (.setAccess fragment.path access)).kind root = .ok .directory ∧
      traversal (tree.apply (.setAccess fragment.path access)) suffix arrange root =
        before ++ itemOf fragment access fragment.content :: after := by
  obtain ⟨spot, names, _, reached, leads, -, -, joined, changes⟩ := traversal_modifyAt ordered free directory whole
  rw [joined, FileTree.setAccess_below reached leads]
  exact changes _ rfl

/-- A walk meets a file that is written anew at the place of its fragment. -/
theorem traversal_make (content : Bytes) :
    (tree.apply (.make fragment.path (.file content))).kind root = .ok .directory ∧
      traversal (tree.apply (.make fragment.path (.file content))) suffix arrange root =
        before ++ .ok { fragment with content } :: after := by
  obtain ⟨spot, names, access, reached, leads, below, allowed, joined, changes⟩ :=
    traversal_modifyAt ordered free directory whole
  have readable : itemOf fragment access content = .ok { fragment with content } := if_pos allowed
  rw [joined, FileTree.make_below reached leads below, ← joined, ← readable]
  exact changes _ rfl

end FromRoot

end BundleServer.Walk
