import BundleServer.Proofs.FileTree.Absence
import BundleServer.Proofs.Http.Scope

/-!
# Requests for what is not there

A request for a static file asks for one path (`staticPath?`). If nothing stands at the path, either a directory on the
way has no entry of the next name, or what stands on the way is no directory. Only the first is answered with 404. The
second is taken for a fault of the service: it is answered with 500, and an error is logged (`respond_of_absent`).
-/

namespace BundleServer

open FileTree (Fault)

/-- A segment that is a name can be the name of an entry, if it is short and has no NUL in it. -/
theorem FileTree.isName_of_isSegment {name : Bytes} (segment : Path.IsSegment name) (clean : 0 ∉ name)
    (short : name.length ≤ FileTree.nameLimit) : FileTree.isName name = true := by
  refine FileTree.isName_iff.2 ⟨segment.ne_nil, ?_, ?_, segment.whole, clean, short⟩
  · rintro rfl
    cases segment.component
  · rintro rfl
    cases segment.component

namespace Service

variable {service : Service} {tree : FileTree} {request : Request} {path : Path}

/-- The path of the static file that a request is for, if it is for one and the path is accepted. -/
def staticPath? (service : Service) (request : Request) : Option Path :=
  match Route.ofPath (Utf8.encode request.path) with
  | .shell app => match decodePart "app" app with
    | .ok _ => some (service.staticRoot.join StaticFiles.indexFile)
    | .error _ => none
  | .file app file => match decodePart "app" app, decodePart "file" file with
    | .ok _, .ok file => match Kind.ofRouteFile? file with
      | some _ => none
      | none => StaticFiles.locate? service.staticRoot request.path
    | _, _ => none
  | .other => StaticFiles.locate? service.staticRoot request.path

theorem serve_of_locate? {root : Path} {requestPath : String}
    (located : StaticFiles.locate? root requestPath = some path) :
    StaticFiles.serve tree root requestPath = StaticFiles.serveFile tree path := by
  rw [StaticFiles.serve, located]

/-- A request for a static file is answered from its path. -/
theorem respond_of_staticPath? (tree : FileTree) (get : request.method = "GET")
    (static : service.staticPath? request = some path) :
    service.respond tree request = StaticFiles.serveFile tree path := by
  unfold staticPath? at static
  unfold respond
  cases route : Route.ofPath (Utf8.encode request.path) with
  | shell app =>
    rw [route] at static
    simp only [readingOnly, get, if_true, serveShell]
    cases decoded : decodePart "app" app with
    | error response => simp [decoded] at static
    | ok text =>
      simp only [decoded, Option.some.injEq] at static
      rw [← static]
  | file app file =>
    rw [route] at static
    simp only [readingOnly, get, if_true, serveAppFile]
    cases decoded : decodePart "app" app with
    | error response => simp [decoded] at static
    | ok text =>
      cases decodedFile : decodePart "file" file with
      | error response => simp [decoded, decodedFile] at static
      | ok fileText =>
        cases served : Kind.ofRouteFile? fileText with
        | some kind => simp [decoded, decodedFile, served] at static
        | none =>
          simp only [decoded, decodedFile, served] at static
          simp only [served]
          exact serve_of_locate? static
  | other =>
    rw [route] at static
    exact serve_of_locate? static

/-- The path of a static file is that of the root with names joined to it. -/
theorem exists_names_of_staticPath? (static : service.staticPath? request = some path) :
    ∃ names : List Bytes, (∀ name ∈ names, Path.IsSegment name ∧ 0 ∉ name) ∧
      path = names.foldl Path.join service.staticRoot := by
  have located (found : StaticFiles.locate? service.staticRoot request.path = some path) :
      ∃ names : List Bytes, (∀ name ∈ names, Path.IsSegment name ∧ 0 ∉ name) ∧
        path = names.foldl Path.join service.staticRoot := by
    obtain ⟨decoded, -, safe, same⟩ := StaticFiles.locate?_eq_some_iff.1 found
    refine ⟨StaticFiles.busySegments decoded, fun name member => ?_, same.symm⟩
    exact ⟨StaticFiles.isSegment_of_safe safe name member, (safe name (List.mem_filter.1 member).1).2.2⟩
  unfold staticPath? at static
  split at static
  · split at static
    · cases static
      refine ⟨[StaticFiles.indexFile], List.forall_mem_singleton.2 ⟨StaticFiles.isSegment_indexFile, ?_⟩, rfl⟩
      decide
    · cases static
  · split at static
    · split at static
      · cases static
      · exact located static
    · cases static
  · exact located static

theorem clean_foldl_join {root : Path} {names : List Bytes} (clean : 0 ∉ root.bytes)
    (each : ∀ name ∈ names, 0 ∉ name) : 0 ∉ (names.foldl Path.join root).bytes := by
  induction names generalizing root with
  | nil => exact clean
  | cons name names ih =>
    obtain ⟨first, rest⟩ := List.forall_mem_cons.1 each
    refine ih (fun nul => ?_) rest
    rcases Path.mem_join nul with inRoot | isSeparator | inName
    · exact clean inRoot
    · exact absurd isSeparator (by decide)
    · exact first inName

theorem serveFile_of_failed {fault : Fault} (failed : tree.resolve .visitor path = .error fault) :
    StaticFiles.serveFile tree path = StaticFiles.refuse path fault := by
  have kind : tree.kind path = .error fault := by
    rw [FileTree.kind, failed, Except.map]
  rw [StaticFiles.serveFile, kind]

/-- Is the answer that nothing is there, with no error logged? -/
def IsUnknown (answer : Logged Response) : Prop :=
  answer.result.status = 404 ∧ ∀ event ∈ answer.events, event.level ≠ .error

/-- How a request is answered at whose path nothing stands, in a tree without links in which a visitor is refused
neither at the static files nor below them. It is answered with 404, and nothing is logged, exactly if a name is missing
in a directory on the way. Where something on the way is no directory, it is answered with 500 and an error is logged.
There is no other case. -/
theorem respond_of_absent (service : Service) (tree : FileTree) (free : tree.top.linkFree = true)
    (filled : service.staticRoot.bytes ≠ []) (clean : 0 ∉ service.staticRoot.bytes)
    (admits : tree.Admits service.staticRoot) (get : request.method = "GET")
    (static : service.staticPath? request = some path) (short : ∀ name ∈ path.names, name.length ≤ FileTree.nameLimit)
    (absent : ∀ spot, tree.resolve .owner path ≠ .ok spot) :
    let answer := service.respond tree request
    (IsUnknown answer ↔ tree.Lacks path .missing) ∧
      (tree.Lacks path .missing ∧ answer = .silent (.ofStatus 404) ∨
        tree.Lacks path .blocked ∧ answer = ⟨.ofStatus 500, [.notServed path .notDirectory]⟩) := by
  intro answer
  have served : answer = StaticFiles.serveFile tree path := respond_of_staticPath? tree get static
  obtain ⟨names, each, rfl⟩ := exists_names_of_staticPath? static
  have segments : ∀ name ∈ names, Path.IsSegment name := fun name member => (each name member).1
  have named : ∀ name ∈ names, FileTree.isName name = true := by
    intro name member
    refine FileTree.isName_of_isSegment (segments name member) (each name member).2 (short name ?_)
    rw [Path.names, Path.components_foldl_join _ segments, List.filterMap_append, Path.filterMap_name?_map]
    exact List.mem_append_right _ member
  have whole := (Path.prefix_foldl_join service.staticRoot segments).ne_nil filled
  have cleanPath := clean_foldl_join clean fun name member => (each name member).2
  have reaches := (admits.foldl_join free filled named).reaches
  have told {why : FileTree.Absence} (lacks : tree.Lacks (names.foldl Path.join service.staticRoot) why) :
      answer = StaticFiles.refuse (names.foldl Path.join service.staticRoot) why.fault := by
    rw [served, serveFile_of_failed (FileTree.resolve_visitor_of_lacks reaches short lacks)]
  obtain ⟨why, lacks⟩ := (FileTree.exists_lacks_iff free cleanPath whole short).2 absent
  cases why with
  | missing =>
    have unknown : answer = .silent (.ofStatus 404) := told lacks
    refine ⟨iff_of_true ?_ lacks, .inl ⟨lacks, unknown⟩⟩
    rw [unknown]
    exact ⟨rfl, List.forall_mem_nil _⟩
  | blocked =>
    have failed : answer = ⟨.ofStatus 500, [.notServed _ .notDirectory]⟩ := told lacks
    refine ⟨iff_of_false ?_ ?_, .inr ⟨lacks, failed⟩⟩
    · intro unknown
      rw [failed] at unknown
      have status : 500 = 404 := unknown.1
      exact absurd status (by decide)
    · intro missing
      have unknown : answer = .silent (.ofStatus 404) := told missing
      rw [failed] at unknown
      cases unknown

/-- The static files of `twoApplications`. -/
def texts : FileTree.Node := .directory .ofDirectory [(Utf8.encode "a.txt", .file .ofFile (Utf8.encode "text"))]

theorem resolve_texts : twoApplications.resolve .visitor usualService.staticRoot =
    .ok ⟨texts, [(Utf8.encode "static", twoApplications.top), ([], FileTree.surroundings)]⟩ := rfl

theorem isOpen_texts : texts.IsOpen := FileTree.Node.isOpen_of_descendants (by decide)

theorem admits_texts : twoApplications.Admits usualService.staticRoot := by
  constructor
  · rw [resolve_texts]
    exact fun impossible => by cases impossible
  · intro spot reached
    rw [resolve_texts] at reached
    cases reached
    exact isOpen_texts

theorem resolve_missing : twoApplications.resolve .owner (.ofString "static/b.txt") = .error .notFound := rfl

theorem resolve_below : twoApplications.resolve .owner (.ofString "static/a.txt/b") = .error .notDirectory := rfl

/-- A file that is not there, and one below a file. -/
theorem respond_of_absent_texts :
    usualService.staticPath? ⟨"GET", "/b.txt"⟩ = some (.ofString "static/b.txt") ∧
      usualService.respond twoApplications ⟨"GET", "/b.txt"⟩ = .silent (.ofStatus 404) ∧
      usualService.staticPath? ⟨"GET", "/a.txt/b"⟩ = some (.ofString "static/a.txt/b") ∧
      usualService.respond twoApplications ⟨"GET", "/a.txt/b"⟩ =
        ⟨.ofStatus 500, [.notServed (.ofString "static/a.txt/b") .notDirectory]⟩ := by
  have missing : usualService.staticPath? ⟨"GET", "/b.txt"⟩ = some (.ofString "static/b.txt") := by decide +kernel
  have below : usualService.staticPath? ⟨"GET", "/a.txt/b"⟩ = some (.ofString "static/a.txt/b") := by decide +kernel
  have shortMissing : ∀ name ∈ (Path.ofString "static/b.txt").names, name.length ≤ FileTree.nameLimit := by
    decide +kernel
  have shortBelow : ∀ name ∈ (Path.ofString "static/a.txt/b").names, name.length ≤ FileTree.nameLimit := by
    decide +kernel
  have first := (respond_of_absent usualService twoApplications rfl (by decide +kernel) (by decide +kernel)
    admits_texts rfl missing shortMissing (fun spot found => by rw [resolve_missing] at found; cases found)).2
  have second := (respond_of_absent usualService twoApplications rfl (by decide +kernel) (by decide +kernel)
    admits_texts rfl below shortBelow (fun spot found => by rw [resolve_below] at found; cases found)).2
  refine ⟨missing, ?_, below, ?_⟩
  · rcases first with ⟨-, unknown⟩ | ⟨lacks, -⟩
    · exact unknown
    · have fault := FileTree.resolve_of_lacks shortMissing lacks
      rw [resolve_missing] at fault
      cases fault
  · rcases second with ⟨lacks, -⟩ | ⟨-, failed⟩
    · have fault := FileTree.resolve_of_lacks shortBelow lacks
      rw [resolve_below] at fault
      cases fault
    · exact failed

/-- All that a visitor needs may be searched and read, and still a request for something below a file is taken for a
fault of the service. -/
theorem not_isUnknown_below_file :
    twoApplications.top.linkFree = true ∧ twoApplications.Admits usualService.staticRoot ∧
      (∀ found ∈ texts.descendants, found.2.allows = true) ∧
      usualService.staticPath? ⟨"GET", "/a.txt/b"⟩ = some (.ofString "static/a.txt/b") ∧
      (∀ name ∈ (Path.ofString "static/a.txt/b").names, name.length ≤ FileTree.nameLimit) ∧
      twoApplications.Lacks (.ofString "static/a.txt/b") .blocked ∧
      (usualService.respond twoApplications ⟨"GET", "/a.txt/b"⟩).result.status = 500 ∧
      ¬ IsUnknown (usualService.respond twoApplications ⟨"GET", "/a.txt/b"⟩) := by
  have status : (usualService.respond twoApplications ⟨"GET", "/a.txt/b"⟩).result.status = 500 := by decide +kernel
  refine ⟨rfl, admits_texts, by decide, by decide +kernel, by decide +kernel, ?_, status, ?_⟩
  · exact ⟨[.name (Utf8.encode "static"), .enter, .name (Utf8.encode "a.txt")], .enter, [.name (Utf8.encode "b")], _,
      rfl, rfl, .blocked (by decide) (by decide)⟩
  · intro unknown
    rw [IsUnknown, status] at unknown
    exact absurd unknown.1 (by decide)

end Service

end BundleServer
