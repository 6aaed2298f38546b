import BundleServer.Proofs.FileTree.Descent
import BundleServer.Proofs.FileTree.Restriction

/-!
# Where a change takes place

A change names paths, and paths may lead through links. What counts for others is where they lead: the place of a node
is given by the names from the top down to it. A change whose parent directories exist alters the tree at its places
only (`restrict_apply`).
-/

namespace BundleServer.FileTree

/-- The names that lead from the top to a spot. The surroundings of the tree have no place. -/
def Spot.place? (spot : Spot) : Option (List Bytes) := spot.address.tail?

/-- The place of an entry, whether it is there or not. -/
def Spot.placeOf? (spot : Spot) (name : Bytes) : Option (List Bytes) := spot.place?.map (· ++ [name])

/-- The place of what a path leads to. -/
def placeOfNode? (tree : FileTree) (path : Path) : Option (List Bytes) := do
  (← (tree.resolve .owner path).toOption).place?

/-- The place of the entry that a path names. -/
def placeOfEntry? (tree : FileTree) (path : Path) : Option (List Bytes) := do
  let (front, name) ← splitLast? path
  (← (tree.directoryAt front).toOption).placeOf? name

/-- The place where a file is written. -/
def placeOfWritten? (tree : FileTree) (path : Path) : Option (List Bytes) := do
  let (front, name) ← splitLast? path
  let (spot, name) ← (placeOfFile linkLimit tree.start (front ++ [.name name])).toOption
  spot.placeOf? name

namespace Change

/-- The paths that a change names. -/
def paths : Change → List Path
  | .make path _ => [path]
  | .setAccess path _ => [path]
  | .remove path => [path]
  | .rename path target => [path, target]

/-- The places to which the paths of a change lead. -/
def places (tree : FileTree) : Change → List (List Bytes)
  | .make path (.file _) => (tree.placeOfWritten? path).toList
  | .make path _ => (tree.placeOfEntry? path).toList
  | .setAccess path _ => (tree.placeOfNode? path).toList
  | .remove path => (tree.placeOfEntry? path).toList
  | .rename path target => (tree.placeOfEntry? path).toList ++ (tree.placeOfEntry? target).toList

end Change

/-- Does the directory exist in which a path names its last entry? -/
def parentExists (tree : FileTree) (path : Path) : Bool :=
  match splitLast? path with
  | some (front, _) => (tree.directoryAt front).isOk
  | none => true

/-- Is the place neither on the way to the scope nor in it? -/
def Outside (scope place : List Bytes) : Prop := ¬ place <+: scope ∧ ¬ scope <+: place

instance (scope place : List Bytes) : Decidable (Outside scope place) := inferInstanceAs (Decidable (_ ∧ _))

/-- Below one entry of a directory nothing meets another entry. -/
theorem outside_of_sibling {front place : List Bytes} {inside other : Bytes} (differs : inside ≠ other)
    (within : front ++ [inside] <+: place) : Outside (front ++ [other]) place := by
  obtain ⟨more, rfl⟩ := within
  rw [List.append_assoc]
  constructor
  · intro above
    rw [List.prefix_append_right_inj, List.cons_append, List.cons_prefix_cons] at above
    exact differs above.1
  · intro beneath
    rw [List.prefix_append_right_inj, List.cons_append, List.cons_prefix_cons] at beneath
    exact differs beneath.1.symm

section Frame

variable {tree : FileTree} {scope : List Bytes} {spot : Spot} {name : Bytes}

/-- A change of one entry of a directory shows only along names that meet the place of the entry. -/
theorem restrict_modifyAt_entry {change : Entries → Entries}
    (keeps : ∀ other ≠ name, ∀ entries, Entries.find? other (change entries) = Entries.find? other entries)
    (formed : ∀ node : Node, node.WellFormed → (node.mapEntries change).WellFormed)
    (outside : ∀ place ∈ spot.placeOf? name, Outside scope place) :
    (tree.modifyAt spot.address (Node.mapEntries change) formed).top.restrict scope = tree.top.restrict scope := by
  unfold Spot.placeOf? Spot.place? at outside
  cases address : spot.address with
  | nil => rfl
  | cons first names =>
    rw [address] at outside
    obtain ⟨notAbove, notBeneath⟩ := outside (names ++ [name]) rfl
    exact Node.restrict_modifyAt_entry keeps notAbove notBeneath tree.top

theorem restrict_putAt {node : Node} (inner : node.WellFormed)
    (outside : ∀ place ∈ spot.placeOf? name, Outside scope place) :
    (tree.putAt spot.address name node inner).top.restrict scope = tree.top.restrict scope := by
  unfold putAt
  split
  · apply restrict_modifyAt_entry _ _ outside
    intro other differs entries
    exact Entries.find?_put_of_ne differs node entries
  · rfl

theorem restrict_eraseAt (outside : ∀ place ∈ spot.placeOf? name, Outside scope place) :
    (tree.eraseAt spot.address name).top.restrict scope = tree.top.restrict scope := by
  unfold eraseAt
  apply restrict_modifyAt_entry _ _ outside
  intro other differs entries
  exact Entries.find?_erase_of_ne differs entries

/-- A change of a node shows only along names that meet its place. -/
theorem restrict_modifyAt_node {change : Node → Node}
    (formed : ∀ node : Node, node.WellFormed → (change node).WellFormed)
    (outside : ∀ place ∈ spot.place?, Outside scope place) :
    (tree.modifyAt spot.address change formed).top.restrict scope = tree.top.restrict scope := by
  unfold Spot.place? at outside
  cases address : spot.address with
  | nil => rfl
  | cons first names =>
    rw [address] at outside
    obtain ⟨notAbove, notBeneath⟩ := outside names rfl
    exact Node.restrict_modifyAt notAbove notBeneath change tree.top

/-- What is outermost of a spot are the surroundings of the tree. -/
def Spot.Rooted (spot : Spot) : Prop := spot.outermost = ⟨surroundings, []⟩

theorem Spot.kept_rooted (caller : Caller) : Spot.Kept caller Spot.Rooted where
  outermost {spot} rooted := by
    unfold Rooted at rooted ⊢
    rw [rooted]
    rfl
  up {spot} rooted := by
    obtain ⟨node, above⟩ := spot
    cases above with
    | nil => exact rooted
    | cons parent above =>
      cases above with
      | nil => exact rooted
      | cons next above =>
        unfold Rooted outermost at rooted ⊢
        rw [List.getLast?_cons_cons] at rooted
        exact rooted
  child {spot name target} rooted found := by
    obtain ⟨access, entries, node, directory, held, rfl⟩ := Spot.eq_of_child found
    obtain ⟨own, above⟩ := spot
    cases above with
    | nil =>
      unfold Rooted outermost at rooted ⊢
      exact rooted
    | cons parent above =>
      unfold Rooted outermost at rooted ⊢
      rw [List.getLast?_cons_cons]
      exact rooted

theorem rooted_start (tree : FileTree) : tree.start.Rooted := rfl

/-- In the surroundings of the tree there is no entry, so what holds one has a place. -/
theorem Spot.Rooted.exists_address (rooted : spot.Rooted) {caller : Caller} {child : Spot}
    (found : spot.child caller name = .ok child) : ∃ first names, spot.address = first :: names := by
  obtain ⟨access, entries, node, directory, held, -⟩ := Spot.eq_of_child found
  cases address : spot.address with
  | cons first names => exact ⟨first, names, rfl⟩
  | nil =>
    have above : spot.above = [] := by
      unfold Spot.address at address
      simpa using address
    have alone : spot.outermost = spot := by
      unfold Spot.outermost
      rw [above]
      rfl
    have bare : spot.node = surroundings := by
      unfold Rooted at rooted
      rw [← alone, rooted]
    rw [bare] at directory
    cases directory
    cases held

/-- One round of looking for the place of a file. -/
theorem placeOfFile_cases {links : Nat} {steps : List Step} {result : Spot × Bytes}
    (found : placeOfFile links spot steps = .ok result) :
    ∃ front arrival name, descend .owner linkLimit spot front = .ok arrival ∧
      (result = (arrival.1, name) ∨
        ∃ fewer target, links = fewer + 1 ∧ placeOfFile fewer arrival.1 (FileTree.steps target) = .ok result) := by
  unfold placeOfFile at found
  split at found
  · rename_i name front _
    cases arrived : descend .owner linkLimit spot front.reverse with
    | error fault =>
      rw [arrived] at found
      cases found
    | ok arrival =>
      rw [arrived] at found
      cases entered : arrival.1.enter with
      | error fault =>
        simp only [bind, Except.bind, entered] at found
        cases found
      | ok directory =>
        obtain ⟨rfl, -⟩ := Spot.eq_of_enter entered
        simp only [bind, Except.bind, entered] at found
        refine ⟨front.reverse, arrival, name, arrived, ?_⟩
        repeat' split at found
        all_goals first | cases found; exact .inl rfl | cases found | skip
        rename_i fewer
        exact .inr ⟨fewer, _, rfl, found⟩
  · cases found

/-- The directory in which a file is written stands in the tree. -/
theorem rooted_of_placeOfFile {links : Nat} {steps : List Step} (rooted : spot.Rooted) {result : Spot × Bytes}
    (found : placeOfFile links spot steps = .ok result) : result.1.Rooted := by
  induction links generalizing spot steps with
  | zero =>
    obtain ⟨front, arrival, name, arrived, rfl | ⟨fewer, _, none, _⟩⟩ := placeOfFile_cases found
    · exact (Spot.kept_rooted .owner).of_descend rooted arrived
    · cases none
  | succ links ih =>
    obtain ⟨front, arrival, name, arrived, rfl | ⟨fewer, target, same, later⟩⟩ := placeOfFile_cases found
    · exact (Spot.kept_rooted .owner).of_descend rooted arrived
    · cases same
      exact ih ((Spot.kept_rooted .owner).of_descend rooted arrived) later

/-- The address of an entry is that of its directory and its name. -/
theorem Spot.address_child {caller : Caller} {child : Spot} (found : spot.child caller name = .ok child) :
    child.address = spot.address ++ [name] := by
  obtain ⟨access, entries, node, directory, held, rfl⟩ := Spot.eq_of_child found
  unfold Spot.address
  rw [List.map_cons, List.reverse_cons]

theorem Spot.Rooted.place?_child (rooted : spot.Rooted) {caller : Caller} {child : Spot}
    (found : spot.child caller name = .ok child) : child.place? = spot.placeOf? name := by
  obtain ⟨first, names, address⟩ := rooted.exists_address found
  unfold Spot.placeOf? Spot.place?
  rw [Spot.address_child found, address]
  rfl

theorem restrict_writeFile {steps : List Step} (bytes : Bytes)
    (outside : ∀ spot name, placeOfFile linkLimit tree.start steps = .ok (spot, name) →
      ∀ place ∈ spot.placeOf? name, Outside scope place) :
    (tree.writeFile steps bytes).top.restrict scope = tree.top.restrict scope := by
  unfold writeFile
  cases written : placeOfFile linkLimit tree.start steps with
  | error fault => rfl
  | ok result =>
    obtain ⟨spot, name⟩ := result
    have away := outside spot name written
    have rooted : spot.Rooted := rooted_of_placeOfFile (rooted_start tree) written
    simp only
    cases found : spot.child .owner name with
    | error fault => exact restrict_putAt _ away
    | ok child =>
      simp only
      split
      · rw [← rooted.place?_child found] at away
        exact restrict_modifyAt_node _ away
      · exact restrict_putAt _ away
      · rfl

theorem restrict_place {front : List Step} (content : Content)
    (outside : ∀ spot, tree.directoryAt front = .ok spot → ∀ place ∈ spot.placeOf? name, Outside scope place) :
    (tree.place front name content).top.restrict scope = tree.top.restrict scope := by
  unfold FileTree.place
  cases reached : tree.directoryAt front with
  | error fault => rfl
  | ok spot =>
    have put : (tree.putAt spot.address name content.node content.wellFormed_node).top.restrict scope =
        tree.top.restrict scope := restrict_putAt _ (outside spot reached)
    simp only
    split
    · exact put
    · rfl
    · split
      · rfl
      · exact put

/-- Where all parents exist none is made. -/
theorem makeParentsFrom_of_reached {done rest : List Step} {arrival : Spot × Nat}
    (reached : descend .owner linkLimit tree.start (done ++ rest) = .ok arrival) :
    makeParentsFrom done tree rest = tree := by
  induction rest generalizing done with
  | nil => rfl
  | cons step rest ih =>
    have further : makeParentsFrom (done ++ [step]) tree rest = tree := by
      apply ih
      rw [List.append_assoc]
      exact reached
    cases step with
    | name name =>
      have made : tree.makeDirectory done name = tree := by
        unfold makeDirectory directoryAt walkFromTop
        rw [descend_append] at reached
        cases halfway : descend .owner linkLimit tree.start done with
        | error fault => rfl
        | ok between =>
          rw [halfway] at reached
          simp only [Except.map, bind, Except.bind] at reached ⊢
          cases entered : between.1.enter with
          | error fault => rfl
          | ok directory =>
            obtain ⟨rfl, -⟩ := Spot.eq_of_enter entered
            simp only
            cases found : between.1.child .owner name with
            | ok child => rfl
            | error fault =>
              rw [descend_name_of_refused found] at reached
              cases reached
      rw [makeParentsFrom, made]
      exact further
    | _ => exact further

theorem makeParents_of_exists {front : List Step} (reached : tree.directoryAt front = .ok spot) :
    tree.makeParents front = tree := by
  unfold directoryAt walkFromTop at reached
  cases arrived : descend .owner linkLimit tree.start front with
  | error fault =>
    rw [arrived] at reached
    cases reached
  | ok arrival => exact makeParentsFrom_of_reached arrived

theorem placeOfEntry?_eq {path : Path} {front : List Step} (parts : splitLast? path = some (front, name))
    (reached : tree.directoryAt front = .ok spot) : tree.placeOfEntry? path = spot.placeOf? name := by
  unfold placeOfEntry?
  rw [parts]
  simp only [bind, Option.bind, reached, Except.toOption]

theorem restrict_make {path : Path} {content : Content} (parent : tree.parentExists path = true)
    (outside : ∀ place ∈ (Change.make path content).places tree, Outside scope place) :
    (tree.make path content).top.restrict scope = tree.top.restrict scope := by
  unfold make
  unfold parentExists at parent
  cases parts : splitLast? path with
  | none => rfl
  | some pair =>
    obtain ⟨front, name⟩ := pair
    rw [parts] at parent
    cases reached : tree.directoryAt front with
    | error fault =>
      simp only [reached] at parent
      cases parent
    | ok spot =>
      simp only [makeParents_of_exists reached]
      have placed (content : Content) (away : ∀ place ∈ tree.placeOfEntry? path, Outside scope place) :
          (tree.place front name content).top.restrict scope = tree.top.restrict scope := by
        apply restrict_place
        intro directory same
        rw [← placeOfEntry?_eq parts same]
        exact away
      cases content with
      | file bytes =>
        apply restrict_writeFile
        intro directory last written
        have away : ∀ place ∈ tree.placeOfWritten? path, Outside scope place := by
          simpa [Change.places] using outside
        unfold placeOfWritten? at away
        rw [parts] at away
        simp only [bind, Option.bind, written, Except.toOption] at away
        exact away
      | directory =>
        cases tree.directoryAt (front ++ [.name name]) with
        | ok directory => rfl
        | error fault => exact placed .directory (by simpa [Change.places] using outside)
      | link target => exact placed (.link target) (by simpa [Change.places] using outside)
      | fifo => exact placed .fifo (by simpa [Change.places] using outside)

theorem restrict_setAccess {path : Path} {access : Access}
    (outside : ∀ place ∈ (Change.setAccess path access).places tree, Outside scope place) :
    (tree.setAccess path access).top.restrict scope = tree.top.restrict scope := by
  unfold setAccess
  cases reached : tree.resolve .owner path with
  | error fault => rfl
  | ok spot =>
    apply restrict_modifyAt_node
    simpa [Change.places, placeOfNode?, reached, Except.toOption] using outside

theorem restrict_remove {path : Path} (outside : ∀ place ∈ (Change.remove path).places tree, Outside scope place) :
    (tree.remove path).top.restrict scope = tree.top.restrict scope := by
  unfold remove
  cases parts : splitLast? path with
  | none => rfl
  | some pair =>
    obtain ⟨front, name⟩ := pair
    simp only
    cases reached : tree.directoryAt front with
    | error fault => rfl
    | ok spot =>
      apply restrict_eraseAt
      rw [← placeOfEntry?_eq parts reached]
      simpa [Change.places] using outside

theorem restrict_rename {path target : Path}
    (outside : ∀ place ∈ (Change.rename path target).places tree, Outside scope place) :
    (tree.rename path target).top.restrict scope = tree.top.restrict scope := by
  have away : (∀ place ∈ tree.placeOfEntry? path, Outside scope place) ∧
      ∀ place ∈ tree.placeOfEntry? target, Outside scope place := by
    constructor
    · intro place member
      exact outside place (by simp [Change.places, Option.mem_def.1 member])
    · intro place member
      exact outside place (by simp [Change.places, Option.mem_def.1 member])
  unfold rename
  split
  · rename_i front name targetFront targetName parts targetParts
    split
    · rename_i source destination reached targetReached
      rw [placeOfEntry?_eq parts reached, placeOfEntry?_eq targetParts targetReached] at away
      have moved (node : Node) (inner : node.WellFormed) :
          ((tree.eraseAt source.address name).putAt destination.address targetName node inner).top.restrict scope =
            tree.top.restrict scope := by
        rw [restrict_putAt inner away.2, restrict_eraseAt away.1]
      split
      · rfl
      · simp only
        split
        · split
          · exact moved _ _
          · rfl
        · split
          · exact moved _ _
          · rfl
    · rfl
  · rfl

/-- A change leaves everything as it is but what meets its places. -/
theorem restrict_apply {change : Change} (parents : ∀ path ∈ change.paths, tree.parentExists path = true)
    (outside : ∀ place ∈ change.places tree, Outside scope place) :
    (tree.apply change).top.restrict scope = tree.top.restrict scope := by
  cases change with
  | make path content => exact restrict_make (parents path List.mem_cons_self) outside
  | setAccess path access => exact restrict_setAccess outside
  | remove path => exact restrict_remove outside
  | rename path target => exact restrict_rename outside

end Frame

end BundleServer.FileTree
