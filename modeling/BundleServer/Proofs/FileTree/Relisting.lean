import BundleServer.Proofs.FileTree.Standing
import Mathlib.Data.List.Forall2

/-!
# The sequence in which directories list

A file system lists the entries of a directory in whatever sequence it likes. Two nodes relist one another if the same
stands below both wherever names lead (`Node.Relists`). No step of a lookup depends on the sequence of entries, so it
leads to nodes that relist one another, or fails alike (`descend_alike`). Trees that relist one another thus answer
alike what a path leads to and what is read there; they differ only in what they list first.
-/

namespace BundleServer.FileTree

namespace Node

/-- What a node is by itself, without what stands below it. -/
def surface : Node → Node
  | .directory access _ => .directory access []
  | node => node

/-- Does the same stand below both nodes wherever names lead? The sequence of the entries may differ. -/
def Relists (first second : Node) : Prop :=
  ∀ names, (first.at? names).map surface = (second.at? names).map surface

theorem Relists.refl (node : Node) : node.Relists node := fun _ => rfl

variable {first second third : Node}

theorem Relists.trans (relists : first.Relists second) (further : second.Relists third) : first.Relists third :=
  fun names => (relists names).trans (further names)

theorem Relists.surface_eq (relists : first.Relists second) : first.surface = second.surface :=
  Option.some.inj (relists [])

theorem kind_surface (node : Node) : node.surface.kind = node.kind := by
  cases node <;> rfl

theorem Relists.kind_eq (relists : first.Relists second) : first.kind = second.kind := by
  rw [← kind_surface, relists.surface_eq, kind_surface]

/-- Nodes that relist one another are the same node, or directories with the same permissions. -/
theorem Relists.cases (relists : first.Relists second) :
    (first = second ∧ first.kind ≠ .directory) ∨
      ∃ access entries entries', first = .directory access entries ∧ second = .directory access entries' := by
  have same := relists.surface_eq
  cases first with
  | directory access entries =>
    cases second with
    | directory access' entries' =>
      cases same
      exact .inr ⟨access, entries, entries', rfl, rfl⟩
    | _ => cases same
  | _ =>
    cases second with
    | directory access' entries' => cases same
    | _ => exact .inl ⟨same, by simp [kind]⟩

/-- Does a name stand for nothing in two directories, or for nodes that relist one another? -/
def RelistsAt (entries entries' : Entries) (name : Bytes) : Prop :=
  (Entries.find? name entries = none ∧ Entries.find? name entries' = none) ∨
    ∃ node node', Entries.find? name entries = some node ∧ Entries.find? name entries' = some node' ∧
      node.Relists node'

/-- An entry of one directory stands in the other one as well. -/
theorem RelistsAt.exists_of_mem {entries entries' : Entries} (distinct : (entries.map Prod.fst).Nodup)
    {entry : Bytes × Node} (relists : RelistsAt entries entries' entry.1) (held : entry ∈ entries) :
    ∃ node', (entry.1, node') ∈ entries' ∧ entry.2.Relists node' := by
  have found := Entries.find?_of_mem distinct held
  rcases relists with ⟨missing, -⟩ | ⟨node, node', held, held', alike⟩
  · rw [missing] at found
    cases found
  · rw [held] at found
    cases found
    exact ⟨node', Entries.mem_of_find? held', alike⟩

theorem relists_directory_iff {access access' : Access} {entries entries' : Entries} :
    (directory access entries).Relists (directory access' entries') ↔
      access = access' ∧ ∀ name, RelistsAt entries entries' name := by
  constructor
  · intro relists
    refine ⟨?_, fun name => ?_⟩
    · cases relists.surface_eq
      rfl
    · have below (rest : List Bytes) : ((Entries.find? name entries).bind (at? rest)).map surface =
          ((Entries.find? name entries').bind (at? rest)).map surface := relists (name :: rest)
      cases held : Entries.find? name entries with
      | none =>
        cases held' : Entries.find? name entries' with
        | none => exact .inl ⟨held, held'⟩
        | some node' =>
          have missing := below []
          rw [held, held'] at missing
          cases missing
      | some node =>
        cases held' : Entries.find? name entries' with
        | none =>
          have missing := below []
          rw [held, held'] at missing
          cases missing
        | some node' =>
          rw [held, held'] at below
          exact .inr ⟨node, node', held, held', below⟩
  · rintro ⟨rfl, each⟩ names
    cases names with
    | nil => rfl
    | cons name rest =>
      rw [at?, at?]
      rcases each name with ⟨missing, missing'⟩ | ⟨node, node', held, held', relists⟩
      · rw [missing, missing']
      · rw [held, held']
        exact relists rest

/-- A directory may list its entries in any sequence. -/
theorem relists_of_perm {access : Access} {entries entries' : Entries} (distinct : (entries.map Prod.fst).Nodup)
    (permuted : entries.Perm entries') : (directory access entries).Relists (directory access entries') := by
  have distinct' := (permuted.map Prod.fst).nodup_iff.1 distinct
  have same (name : Bytes) : Entries.find? name entries = Entries.find? name entries' := by
    refine Option.ext fun node => ⟨fun held => ?_, fun held => ?_⟩
    · exact Entries.find?_of_mem distinct' (permuted.mem_iff.1 (Entries.mem_of_find? held))
    · exact Entries.find?_of_mem distinct (permuted.mem_iff.2 (Entries.mem_of_find? held))
  intro names
  cases names with
  | nil => rfl
  | cons name rest => rw [at?, at?, same]

/-- Entries may be relisted below a directory. -/
theorem relists_cons {access : Access} {entries entries' : Entries} {name : Bytes} {node node' : Node}
    (relists : node.Relists node') (others : (directory access entries).Relists (directory access entries')) :
    (directory access ((name, node) :: entries)).Relists (directory access ((name, node') :: entries')) := by
  refine relists_directory_iff.2 ⟨rfl, fun wanted => ?_⟩
  rw [RelistsAt, Entries.find?, Entries.find?]
  by_cases same : name = wanted
  · rw [if_pos same, if_pos same]
    exact .inr ⟨node, node', rfl, rfl, relists⟩
  · rw [if_neg same, if_neg same]
    exact (relists_directory_iff.1 others).2 wanted

end Node

/-- Do two lookups fail alike, or arrive at related places? -/
inductive Alike {α : Type} (related : α → α → Prop) : Except Fault α → Except Fault α → Prop where
  | error (fault : Fault) : Alike related (.error fault) (.error fault)
  | ok {first second : α} (arrived : related first second) : Alike related (.ok first) (.ok second)

namespace Alike

variable {α β : Type} {related : α → α → Prop} {related' : β → β → Prop} {first second : Except Fault α}

theorem bind (alike : Alike related first second) {further further' : α → Except Fault β}
    (each : ∀ {one other}, related one other → Alike related' (further one) (further' other)) :
    Alike related' (first >>= further) (second >>= further') := by
  cases alike with
  | error fault => exact .error fault
  | ok arrived => exact each arrived

theorem map (alike : Alike related first second) {give give' : α → β}
    (each : ∀ {one other}, related one other → related' (give one) (give' other)) :
    Alike related' (first.map give) (second.map give') := by
  cases alike with
  | error fault => exact .error fault
  | ok arrived => exact .ok (each arrived)

theorem refl (outcome : Except Fault α) : Alike Eq outcome outcome := by
  cases outcome with
  | error fault => exact .error fault
  | ok value => exact .ok rfl

theorem eq (alike : Alike Eq first second) : first = second := by
  cases alike with
  | error fault => rfl
  | ok arrived => rw [arrived]

end Alike

namespace Spot

/-- Do the nodes of two spots relist one another, and the directories above them? -/
structure Relists (first second : Spot) : Prop where
  node : first.node.Relists second.node
  above : List.Forall₂ (fun entry other => entry.1 = other.1 ∧ entry.2.Relists other.2) first.above second.above

variable {first second : Spot} (relists : first.Relists second) (caller : Caller)

include relists

theorem Relists.up : first.up.Relists second.up := by
  obtain ⟨node, above⟩ := first
  obtain ⟨node', above'⟩ := second
  cases relists.above with
  | nil => exact relists
  | cons parent others => exact ⟨parent.2, others⟩

theorem Relists.outermost : first.outermost.Relists second.outermost := by
  have turned := List.forall₂_reverse_iff.2 relists.above
  unfold Spot.outermost
  rw [← List.head?_reverse, ← List.head?_reverse]
  generalize first.above.reverse = inward at turned ⊢
  generalize second.above.reverse = inward' at turned ⊢
  cases turned with
  | nil => exact relists
  | cons last _ => exact ⟨last.2, .nil⟩

theorem Relists.enter : Alike Relists first.enter second.enter := by
  unfold Spot.enter
  rw [relists.node.kind_eq]
  split
  · exact .ok relists
  · exact .error _

theorem Relists.search : Alike (fun entries entries' => ∀ name, Node.RelistsAt entries entries' name)
    (first.search caller) (second.search caller) := by
  unfold Spot.search
  rcases relists.node.cases with ⟨same, plain⟩ | ⟨access, entries, entries', directory, directory'⟩
  · rw [← same]
    cases node : first.node with
    | directory access entries =>
      rw [node] at plain
      exact absurd rfl plain
    | _ => exact .error _
  · have each := relists.node
    rw [directory, directory', Node.relists_directory_iff] at each
    rw [directory, directory']
    simp only
    split
    · exact .ok each.2
    · exact .error _

theorem Relists.child (name : Bytes) : Alike Relists (first.child caller name) (second.child caller name) := by
  unfold Spot.child
  refine (relists.search caller).bind fun {entries entries'} each => ?_
  split
  · exact .error _
  · rcases each name with ⟨missing, missing'⟩ | ⟨node, node', held, held', further⟩
    · rw [missing, missing']
      exact .error _
    · rw [held, held']
      exact .ok ⟨further, .cons ⟨rfl, relists.node⟩ relists.above⟩

end Spot

/-- Are the spots of two arrivals relistings of one another, with as many links left? -/
def RelistedArrival (first second : Spot × Nat) : Prop := first.1.Relists second.1 ∧ first.2 = second.2

section Lookup

variable {caller : Caller} {links : Nat} {first second : Spot}

theorem advance_alike {follow follow' : Spot → List Step → Except Fault (Spot × Nat)}
    (follows : ∀ {first second : Spot}, first.Relists second → ∀ steps,
      Alike RelistedArrival (follow first steps) (follow' second steps))
    (relists : first.Relists second) (steps : List Step) :
    Alike RelistedArrival (advance caller links follow first steps) (advance caller links follow' second steps) := by
  induction steps generalizing first second with
  | nil => exact .ok ⟨relists, rfl⟩
  | cons step rest ih =>
    cases step with
    | outermost => exact ih relists.outermost
    | enter => exact relists.enter.bind fun entered => ih entered
    | here => exact (relists.search caller).bind fun _ => ih relists
    | up => exact (relists.search caller).bind fun _ => ih relists.up
    | name name =>
      refine (relists.child caller name).bind fun {child child'} alike => ?_
      obtain ⟨node, above⟩ := child
      obtain ⟨node', above'⟩ := child'
      rcases alike.node.cases with ⟨rfl, -⟩ | ⟨access, entries, entries', rfl, rfl⟩
      · cases node with
        | link target =>
          -- Relisted links are the same link, so the same steps are put in front of the rest.
          simp only
          split
          · exact .error _
          · exact follows relists _
        | _ => exact ih alike
      · exact ih alike

/-- Steps from spots that relist one another fail alike, or lead to such spots. -/
theorem descend_alike (caller : Caller) (links : Nat) (relists : first.Relists second) (steps : List Step) :
    Alike RelistedArrival (descend caller links first steps) (descend caller links second steps) := by
  induction links generalizing first second steps with
  | zero => exact advance_alike (fun _ _ => .error _) relists steps
  | succ links ih => exact advance_alike (fun relists steps => ih relists steps) relists steps

end Lookup

section Trees

variable {tree other : FileTree} (relists : tree.top.Relists other.top) (path : Path)

include relists

theorem resolve_alike (caller : Caller) :
    Alike Spot.Relists (tree.resolve caller path) (other.resolve caller path) := by
  have starts : tree.start.Relists other.start := ⟨relists, .cons ⟨rfl, .refl _⟩ .nil⟩
  unfold resolve
  cases checkedSteps path with
  | error fault => exact .error fault
  | ok steps => exact (descend_alike caller linkLimit starts steps).map fun arrived => arrived.1

theorem kind_eq_of_relists : tree.kind path = other.kind path :=
  ((resolve_alike relists path .visitor).map fun alike => alike.node.kind_eq).eq

theorem read_eq_of_relists : tree.read path = other.read path := by
  have alike := resolve_alike relists path .visitor
  unfold read
  generalize tree.resolve .visitor path = outcome at alike ⊢
  generalize other.resolve .visitor path = outcome' at alike ⊢
  cases alike with
  | error fault => rfl
  | ok arrived =>
    rcases arrived.node.cases with ⟨same, -⟩ | ⟨access, entries, entries', directory, directory'⟩
    · simp only [same]
    · simp only [directory, directory', Node.reading]

end Trees

end BundleServer.FileTree
