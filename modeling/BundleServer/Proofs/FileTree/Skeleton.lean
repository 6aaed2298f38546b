import BundleServer.Proofs.FileTree.Descent

/-!
# What lookup does not see

The skeleton of a node is what remains when nothing is known of its files but that they are there. No step of a lookup
asks what a file holds or who may read it, so taking the skeleton and taking steps can be done in either order
(`descend_skeleton`). Two trees with the same skeleton thus send every path to the same address.
-/

namespace BundleServer.FileTree

namespace Node

mutual

/-- The node with nothing known of its files. -/
def skeleton : Node → Node
  | .file _ _ => .file .ofFile []
  | .directory access entries => .directory access (skeletonEntries entries)
  | .link target => .link target
  | .fifo access => .fifo access

/-- The entries with nothing known of their files. -/
def skeletonEntries : List (Bytes × Node) → List (Bytes × Node)
  | [] => []
  | (name, node) :: rest => (name, node.skeleton) :: skeletonEntries rest

end

theorem kind_skeleton (node : Node) : node.skeleton.kind = node.kind := by
  cases node <;> rw [skeleton] <;> rfl

theorem find?_skeletonEntries (name : Bytes) (entries : Entries) :
    Entries.find? name (skeletonEntries entries) = (Entries.find? name entries).map skeleton := by
  induction entries with
  | nil => rfl
  | cons head rest ih =>
    obtain ⟨other, held⟩ := head
    rw [skeletonEntries, Entries.find?, Entries.find?]
    by_cases same : other = name
    · rw [if_pos same, if_pos same, Option.map_some]
    · rw [if_neg same, if_neg same, ih]

end Node

namespace Spot

variable {caller : Caller}

/-- The spot with nothing known of the files in the tree. -/
def skeleton (spot : Spot) : Spot :=
  ⟨spot.node.skeleton, spot.above.map fun entry => (entry.1, entry.2.skeleton)⟩

theorem address_skeleton (spot : Spot) : spot.skeleton.address = spot.address := by
  unfold address skeleton
  rw [List.map_map]
  rfl

theorem up_skeleton (spot : Spot) : spot.skeleton.up = spot.up.skeleton := by
  obtain ⟨node, above⟩ := spot
  cases above <;> rfl

theorem outermost_skeleton (spot : Spot) : spot.skeleton.outermost = spot.outermost.skeleton := by
  unfold outermost
  simp only [skeleton, List.getLast?_map]
  cases spot.above.getLast? <;> rfl

theorem enter_skeleton (spot : Spot) : spot.skeleton.enter = spot.enter.map skeleton := by
  unfold enter
  simp only [skeleton, Node.kind_skeleton]
  by_cases directory : spot.node.kind = .directory
  · rw [if_pos directory, if_pos directory]
    rfl
  · rw [if_neg directory, if_neg directory]
    rfl

theorem search_skeleton (spot : Spot) :
    spot.skeleton.search caller = (spot.search caller).map Node.skeletonEntries := by
  obtain ⟨node, above⟩ := spot
  unfold search skeleton
  cases node with
  | directory access entries =>
    simp only [Node.skeleton]
    by_cases allowed : (caller = .owner || access.search) = true
    · rw [if_pos allowed, if_pos allowed]
      rfl
    · rw [if_neg allowed, if_neg allowed]
      rfl
  | _ => rfl

theorem child_skeleton (spot : Spot) (name : Bytes) :
    spot.skeleton.child caller name = (spot.child caller name).map skeleton := by
  unfold child
  rw [search_skeleton]
  cases spot.search caller with
  | error fault => rfl
  | ok entries =>
    simp only [Except.map, bind, Except.bind, Node.find?_skeletonEntries]
    by_cases long : nameLimit < name.length
    · rw [if_pos long, if_pos long]
    · rw [if_neg long, if_neg long]
      cases Entries.find? name entries <;> rfl

end Spot

/-- The spot of an arrival with nothing known of the files. -/
def skeletonOf (arrival : Spot × Nat) : Spot × Nat := (arrival.1.skeleton, arrival.2)

section Lookup

variable {caller : Caller} {links : Nat}

theorem advance_skeleton {follow : Spot → List Step → Except Fault (Spot × Nat)}
    (commutes : ∀ spot steps, follow spot.skeleton steps = (follow spot steps).map skeletonOf) (spot : Spot)
    (steps : List Step) :
    advance caller links follow spot.skeleton steps = (advance caller links follow spot steps).map skeletonOf := by
  induction steps generalizing spot with
  | nil => rfl
  | cons step rest ih =>
    cases step with
    | outermost =>
      rw [advance, advance, Spot.outermost_skeleton]
      exact ih spot.outermost
    | enter =>
      simp only [advance, bind, Except.bind, Spot.enter_skeleton]
      cases spot.enter with
      | error fault => rfl
      | ok entered => exact ih entered
    | here =>
      simp only [advance, bind, Except.bind, Spot.search_skeleton]
      cases spot.search caller with
      | error fault => rfl
      | ok entries => exact ih spot
    | up =>
      simp only [advance, bind, Except.bind, Spot.search_skeleton, Spot.up_skeleton]
      cases spot.search caller with
      | error fault => rfl
      | ok entries => exact ih spot.up
    | name name =>
      simp only [advance, bind, Except.bind, Spot.child_skeleton]
      cases spot.child caller name with
      | error fault => rfl
      | ok child =>
        obtain ⟨node, above⟩ := child
        cases node with
        | link target =>
          simp only [Except.map, Spot.skeleton, Node.skeleton]
          by_cases empty : target.bytes = []
          · rw [if_pos empty, if_pos empty]
          · rw [if_neg empty, if_neg empty]
            exact commutes spot _
        | _ => exact ih _

/-- Taking steps commutes with taking the skeleton. -/
theorem descend_skeleton (caller : Caller) (links : Nat) (spot : Spot) (steps : List Step) :
    descend caller links spot.skeleton steps = (descend caller links spot steps).map skeletonOf := by
  induction links generalizing spot steps with
  | zero => exact advance_skeleton (fun _ _ => rfl) spot steps
  | succ links ih => exact advance_skeleton ih spot steps

/-- Trees with the same skeleton send a path to spots with the same skeleton. -/
theorem resolve_of_skeleton_eq {first second : FileTree} (same : first.top.skeleton = second.top.skeleton)
    {path : Path} {spot : Spot} (reached : first.resolve caller path = .ok spot) :
    ∃ other, second.resolve caller path = .ok other ∧ other.skeleton = spot.skeleton := by
  obtain ⟨clean, filled, links, arrived⟩ := resolve_eq_ok_iff.1 reached
  have starts : first.start.skeleton = second.start.skeleton := by
    simp only [Spot.skeleton, start, same]
  have alike := descend_skeleton caller linkLimit second.start (steps path)
  rw [← starts, descend_skeleton, arrived] at alike
  cases found : descend caller linkLimit second.start (steps path) with
  | error fault =>
    rw [found] at alike
    cases alike
  | ok arrival =>
    rw [found] at alike
    obtain ⟨other, otherLinks⟩ := arrival
    simp only [Except.map, skeletonOf, Except.ok.injEq, Prod.mk.injEq] at alike
    exact ⟨other, resolve_eq_ok_iff.2 ⟨clean, filled, otherLinks, found⟩, alike.1.symm⟩

end Lookup

end BundleServer.FileTree
