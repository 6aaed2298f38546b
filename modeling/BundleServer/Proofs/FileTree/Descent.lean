import BundleServer.FileTree.Lemmas

/-!
# Lookup, step by step

Equations for the first step of a lookup, whatever number of links may still be followed. From them follows what a
path leads to when the name of an entry is joined to it: the entry, if the directory can be searched and the entry is
no link (`resolve_join_of_child`), and the directory's own fault otherwise (`resolve_join_of_refused`). A path to which
a single dot is joined leads to directories only (`kind_of_resolve_join_dot`).
-/

namespace BundleServer.FileTree

variable {caller : Caller} {links : Nat} {spot child : Spot} {steps : List Step} {name : Bytes} {fault : Fault}

theorem descend_nil : descend caller links spot [] = .ok (spot, links) := by
  cases links <;> rfl

theorem descend_enter (directory : spot.node.kind = .directory) :
    descend caller links spot (.enter :: steps) = descend caller links spot steps := by
  obtain ⟨follow, same⟩ := exists_descend_eq_advance caller links
  simp [same, advance, Spot.enter, directory, bind, Except.bind]

theorem descend_enter_of_ne (other : spot.node.kind ≠ .directory) :
    descend caller links spot (.enter :: steps) = .error .notDirectory := by
  obtain ⟨follow, same⟩ := exists_descend_eq_advance caller links
  simp [same, advance, Spot.enter, other, bind, Except.bind]

theorem descend_here {entries : Entries} (searched : spot.search caller = .ok entries) :
    descend caller links spot (.here :: steps) = descend caller links spot steps := by
  obtain ⟨follow, same⟩ := exists_descend_eq_advance caller links
  simp [same, advance, searched, bind, Except.bind]

theorem descend_here_of_refused (refused : spot.search caller = .error fault) :
    descend caller links spot (.here :: steps) = .error fault := by
  obtain ⟨follow, same⟩ := exists_descend_eq_advance caller links
  simp [same, advance, refused, bind, Except.bind]

theorem descend_name (found : spot.child caller name = .ok child) (plain : child.node.kind ≠ .link) :
    descend caller links spot (.name name :: steps) = descend caller links child steps := by
  obtain ⟨follow, same⟩ := exists_descend_eq_advance caller links
  simp only [same, advance, found, bind, Except.bind]
  cases node : child.node with
  | link target =>
    rw [node] at plain
    exact absurd rfl plain
  | _ => rfl

theorem descend_name_of_refused (refused : spot.child caller name = .error fault) :
    descend caller links spot (.name name :: steps) = .error fault := by
  obtain ⟨follow, same⟩ := exists_descend_eq_advance caller links
  simp [same, advance, refused, bind, Except.bind]

section Entries

variable {access : Access} {entries : Entries} {node : Node}

theorem search_owner (directory : spot.node = .directory access entries) : spot.search .owner = .ok entries := by
  rw [Spot.search, directory]
  rfl

theorem search_visitor (directory : spot.node = .directory access entries) :
    spot.search .visitor = if access.search then .ok entries else .error .permissionDenied := by
  simp [Spot.search, directory]

/-- A directory that cannot be searched gives nobody an entry. -/
theorem child_of_not_searchable (directory : spot.node = .directory access entries)
    (closed : access.search = false) : spot.child .visitor name = .error .permissionDenied := by
  simp [Spot.child, search_visitor directory, closed, bind, Except.bind]

theorem child_of_held (searched : spot.search caller = .ok entries) (short : name.length ≤ nameLimit)
    (held : Entries.find? name entries = some node) :
    spot.child caller name = .ok ⟨node, (name, spot.node) :: spot.above⟩ := by
  simp [Spot.child, searched, Nat.not_lt.2 short, held, bind, Except.bind]

theorem child_of_missing (searched : spot.search caller = .ok entries) (short : name.length ≤ nameLimit)
    (missing : Entries.find? name entries = none) : spot.child caller name = .error .notFound := by
  simp [Spot.child, searched, Nat.not_lt.2 short, missing, bind, Except.bind]

theorem child_of_searchable (directory : spot.node = .directory access entries) (opened : access.search = true)
    (named : isName name = true) (held : Entries.find? name entries = some node) :
    spot.child .visitor name = .ok ⟨node, (name, spot.node) :: spot.above⟩ := by
  obtain ⟨-, -, -, -, -, short⟩ := isName_iff.1 named
  exact child_of_held (by rw [search_visitor directory, if_pos opened]) short held

end Entries

section Joining

variable {tree : FileTree} {path : Path}

/-- A joined name is looked up behind the steps of the path. -/
theorem checkedSteps_join (clean : 0 ∉ path.bytes) (filled : path.bytes ≠ []) (named : isName name = true) :
    checkedSteps (path.join name) = .ok (FileTree.steps path ++
      ((if path.bytes.getLast? = some Path.separator then [] else [.enter]) ++ [.name name])) := by
  obtain ⟨nameFilled, -, -, -, nameClean, -⟩ := isName_iff.1 named
  refine checkedSteps_eq_ok_iff.2 ⟨fun nul => ?_, path.join_ne_nil nameFilled, (steps_join filled named).symm⟩
  rcases Path.mem_join nul with inPath | isSeparator | inName
  · exact clean inPath
  · exact absurd isSeparator (by decide)
  · exact nameClean inName

/-- Below a directory the lookup of a joined name goes on where that of the directory ended. -/
theorem resolve_join (reached : tree.resolve caller path = .ok spot) (directory : spot.node.kind = .directory)
    (named : isName name = true) :
    ∃ links, tree.resolve caller (path.join name) = (descend caller links spot [.name name]).map Prod.fst := by
  obtain ⟨clean, filled, links, arrived⟩ := resolve_eq_ok_iff.1 reached
  refine ⟨links, ?_⟩
  simp only [resolve, checkedSteps_join clean filled named, bind, Except.bind, walkFromTop]
  rw [descend_append, arrived, Except.bind]
  split
  · rfl
  · rw [List.singleton_append, descend_enter directory]

theorem resolve_join_of_child (reached : tree.resolve caller path = .ok spot) (named : isName name = true)
    (found : spot.child caller name = .ok child) (plain : child.node.kind ≠ .link) :
    tree.resolve caller (path.join name) = .ok child := by
  obtain ⟨access, entries, node, directory, -⟩ := Spot.eq_of_child found
  obtain ⟨links, same⟩ := resolve_join reached (by rw [directory]; rfl) named
  rw [same, descend_name found plain, descend_nil]
  rfl

theorem resolve_join_of_refused (reached : tree.resolve caller path = .ok spot)
    (directory : spot.node.kind = .directory) (named : isName name = true)
    (refused : spot.child caller name = .error fault) : tree.resolve caller (path.join name) = .error fault := by
  obtain ⟨links, same⟩ := resolve_join reached directory named
  rw [same, descend_name_of_refused refused]
  rfl

/-- A path that ends with a single dot leads to directories only. -/
theorem kind_of_resolve_join_dot (filled : path.bytes ≠ [])
    (reached : tree.resolve caller (path.join [Path.dot]) = .ok spot) : spot.node.kind = .directory := by
  obtain ⟨-, -, links, arrives⟩ := resolve_eq_ok_iff.1 reached
  have here : Step.ofPiece [Path.dot] = [.here] := rfl
  rw [steps_join_piece filled (by decide), here, ← List.append_assoc, descend_append] at arrives
  cases before : descend caller linkLimit tree.start
      (steps path ++ if path.bytes.getLast? = some Path.separator then [] else [.enter]) with
  | error fault => simp [before, Except.bind] at arrives
  | ok arrival =>
    have last : descend caller arrival.2 arrival.1 [.here] = .ok (spot, links) := by
      simpa [before, Except.bind] using arrives
    cases searched : arrival.1.search caller with
    | error fault => simp [descend_here_of_refused searched] at last
    | ok entries =>
      obtain ⟨access, directory⟩ := Spot.eq_of_search searched
      rw [descend_here searched, descend_nil, Except.ok.injEq, Prod.mk.injEq] at last
      rw [← last.1, directory]
      rfl

/-- What a path names is a link, or what the path leads to. -/
theorem resolveLast_of_resolve (reached : tree.resolve caller path = .ok spot) :
    ∃ last, tree.resolveLast caller path = .ok last ∧ (last.node.kind = .link ∨ last = spot) := by
  obtain ⟨clean, filled, links, arrived⟩ := resolve_eq_ok_iff.1 reached
  have checked := checkedSteps_eq_ok_iff.2 ⟨clean, filled, rfl⟩
  simp only [resolveLast, checked, bind, Except.bind]
  split
  · rename_i name named
    obtain ⟨front, whole⟩ := List.getLast?_eq_some_iff.1 named
    rw [whole, descend_append] at arrived
    cases halfway : descend caller linkLimit tree.start front with
    | error fault => simp [halfway, Except.bind] at arrived
    | ok arrival =>
      simp only [halfway, Except.bind] at arrived
      simp only [whole, List.dropLast_concat, walkFromTop, halfway, Except.map]
      cases found : arrival.1.child caller name with
      | error fault => simp [descend_name_of_refused found] at arrived
      | ok child =>
        refine ⟨child, rfl, ?_⟩
        by_cases link : child.node.kind = .link
        · exact .inl link
        · rw [descend_name found link, descend_nil] at arrived
          simp only [Except.ok.injEq, Prod.mk.injEq] at arrived
          exact .inr arrived.1
  · refine ⟨spot, ?_, .inr rfl⟩
    simp [walkFromTop, arrived, Except.map]

end Joining

end BundleServer.FileTree
