import BundleServer.Http.Service
import BundleServer.Proofs.Bundle.Scope
import BundleServer.Proofs.FileTree.Places
import BundleServer.Proofs.Http.Location
import BundleServer.Proofs.Namespace

/-!
# The scope of a request

A request is answered out of one directory: the directory of an application if a bundle is asked for, and that of the
static files otherwise. Neither escapes in the target nor the name of an application lead out of it. So the answer
depends on nothing else of the tree, and a change that takes place elsewhere does not alter it.
-/

namespace BundleServer

namespace StaticFiles

theorem isPlain_foldl_join {root : Path} (plain : root.IsPlain) {segments : List Bytes}
    (each : ∀ segment ∈ segments, Path.IsSegment segment) :
    (segments.foldl Path.join root).IsPlain ∧ root.names <+: (segments.foldl Path.join root).names := by
  induction segments generalizing root with
  | nil => exact ⟨plain, List.prefix_rfl⟩
  | cons segment segments ih =>
    rw [List.forall_mem_cons] at each
    obtain ⟨joined, leads⟩ := ih (plain.join each.1) each.2
    refine ⟨joined, List.IsPrefix.trans ?_ leads⟩
    rw [plain.names_join each.1]
    exact List.prefix_append _ _

/-- Whatever a request path is made of, the file it stands for is below the root. -/
theorem isPlain_of_locate? {root path : Path} (plain : root.IsPlain) {requestPath : String}
    (located : locate? root requestPath = some path) : path.IsPlain ∧ root.names <+: path.names := by
  obtain ⟨decoded, -, safe, rfl⟩ := locate?_eq_some_iff.1 located
  exact isPlain_foldl_join plain (isSegment_of_safe safe)

theorem isSegment_indexFile : Path.IsSegment indexFile := ⟨by decide, by decide⟩

section Serving

variable {first second : FileTree} {scope : List Bytes} (same : first.SameTree scope second)

include same

theorem serveFile_eq {path : Path} (plain : path.IsPlain) (into : scope <+: path.names) :
    serveFile first path = serveFile second path := by
  have index : scope <+: (path.join indexFile).names := by
    rw [plain.names_join isSegment_indexFile]
    exact into.trans (List.prefix_append _ _)
  unfold serveFile
  rw [same.kind_eq plain into]
  cases second.kind path with
  | error fault => rfl
  | ok kind =>
    by_cases directory : kind = .directory
    · simp only [if_pos directory, same.read_eq (plain.join isSegment_indexFile) index]
    · simp only [if_neg directory, same.read_eq plain into]

theorem serve_eq {root : Path} (plain : root.IsPlain) (into : scope <+: root.names) (requestPath : String) :
    serve first root requestPath = serve second root requestPath := by
  unfold serve
  cases located : locate? root requestPath with
  | none => rfl
  | some path =>
    obtain ⟨pathPlain, leads⟩ := isPlain_of_locate? plain located
    exact serveFile_eq same pathPlain (into.trans leads)

end Serving

end StaticFiles

/-- The directory that a layout sets apart for fragments. -/
def Layout.base : Layout → Path
  | .multi apps => apps
  | .single data => data

namespace Service

/-- The directory out of which a request is answered: that of an application's fragments for a bundle, and that of the
static files for everything else. -/
def scope (service : Service) (request : Request) : Path :=
  match Route.ofPath (Utf8.encode request.path) with
  | .file app file => match decodePart "app" app, decodePart "file" file with
    | .ok app, .ok file => match Kind.ofRouteFile? file, Namespace.ofString? app with
      | some _, some name => match service.composer.layout with
        | .multi apps => apps.join name.path.bytes
        | .single data => data
      | _, _ => service.staticRoot
    | _, _ => service.staticRoot
  | _ => service.staticRoot

section Answering

variable {service : Service} {first second : FileTree}

theorem serveShell_eq (static : service.staticRoot.IsPlain) (same : first.SameTree service.staticRoot.names second)
    (app : Bytes) : service.serveShell first app = service.serveShell second app := by
  have index : service.staticRoot.names <+: (service.staticRoot.join StaticFiles.indexFile).names := by
    rw [static.names_join StaticFiles.isSegment_indexFile]
    exact List.prefix_append _ _
  unfold serveShell
  rw [StaticFiles.serveFile_eq same (static.join StaticFiles.isSegment_indexFile) index]

/-- A bundle is composed alike from trees that show the same of the application's directory. -/
theorem compose_eq {composer : Composer} {name : Namespace} {root : Path}
    (rooted : composer.layout.root (some name) = .ok root) (plain : root.IsPlain)
    (same : first.SameTree root.names second) (kind : Kind) :
    composer.compose first (some name) kind = composer.compose second (some name) kind := by
  unfold Composer.compose
  rw [rooted]
  exact Composer.composeRoot_eq same plain composer kind

theorem serveBundle_eq {app : String} {name : Namespace} (named : Namespace.ofString? app = some name) {root : Path}
    (rooted : service.composer.layout.root (some name) = .ok root) (plain : root.IsPlain)
    (same : first.SameTree root.names second) (kind : Kind) :
    service.serveBundle first app kind = service.serveBundle second app kind := by
  have parsed : Namespace.parse app = .ok name := by
    unfold Namespace.parse
    rw [named]
  unfold serveBundle
  rw [parsed]
  simp only [compose_eq rooted plain same]

/-- The answer shows nothing of the tree but the scope of the request. -/
theorem respond_eq (static : service.staticRoot.IsPlain) (layout : service.composer.layout.base.IsPlain)
    {request : Request} (same : first.SameTree (service.scope request).names second) :
    service.respond first request = service.respond second request := by
  unfold scope at same
  unfold respond
  cases route : Route.ofPath (Utf8.encode request.path) with
  | other =>
    rw [route] at same
    exact StaticFiles.serve_eq same static List.prefix_rfl request.path
  | shell app =>
    rw [route] at same
    simp only [serveShell_eq static same app]
  | file app file =>
    rw [route] at same
    have alike : service.serveAppFile first app file request.path =
        service.serveAppFile second app file request.path := by
      unfold serveAppFile
      cases decodedApp : decodePart "app" app with
      | error response => rfl
      | ok app =>
        cases decodedFile : decodePart "file" file with
        | error response => rfl
        | ok file =>
          simp only [decodedApp, decodedFile] at same ⊢
          cases wanted : Kind.ofRouteFile? file with
          | none =>
            simp only [wanted] at same ⊢
            exact StaticFiles.serve_eq same static List.prefix_rfl request.path
          | some kind =>
            simp only [wanted] at same ⊢
            cases named : Namespace.ofString? app with
            | none =>
              unfold serveBundle Namespace.parse
              rw [named]
            | some name =>
              simp only [named] at same
              cases placed : service.composer.layout with
              | multi apps =>
                rw [placed] at same layout
                apply serveBundle_eq named _ (layout.join name.isSegment) same
                rw [placed]
                rfl
              | single data =>
                rw [placed] at same layout
                apply serveBundle_eq named _ layout same
                rw [placed]
                rfl
    simp only [alike]

end Answering

section Changing

open FileTree (Change Outside)

/-- A change that takes place outside of a scope without links leaves what the tree shows of the scope. -/
theorem sameTree_of_outside {tree : FileTree} {change : Change} {scope : List Bytes}
    (parents : ∀ path ∈ change.paths, tree.parentExists path = true)
    (outside : ∀ place ∈ change.places tree, Outside scope place)
    (free : (tree.top.restrict scope).linkFree = true) : (tree.apply change).SameTree scope tree := by
  have same := FileTree.restrict_apply parents outside
  constructor
  · exact same
  · rw [same]
    exact free

/-- A request observes its own scope only: a change whose places are neither on the way to the scope nor in it does
not alter the response, if no link stands in the scope or on the way. In particular, where applications have
directories of their own, changes inside one of them do not alter the bundles of another. -/
theorem respond_eq_of_outside (service : Service) (static : service.staticRoot.IsPlain)
    (layout : service.composer.layout.base.IsPlain) (tree : FileTree) (change : Change)
    (parents : ∀ path ∈ change.paths, tree.parentExists path = true) :
    (∀ request, (tree.top.restrict (service.scope request).names).linkFree = true →
        (∀ place ∈ change.places tree, Outside (service.scope request).names place) →
        (service.respond (tree.apply change) request).result = (service.respond tree request).result) ∧
      ∀ apps, service.composer.layout = .multi apps → ∀ changed name : Namespace, changed ≠ name →
        (tree.top.restrict (apps.join name.path.bytes).names).linkFree = true →
        (∀ place ∈ change.places tree, (apps.join changed.path.bytes).names <+: place) →
        ∀ kind, service.composer.compose (tree.apply change) (some name) kind =
          service.composer.compose tree (some name) kind := by
  constructor
  · intro request free outside
    rw [respond_eq static layout (sameTree_of_outside parents outside free)]
  · intro apps multi changed name differs free inside kind
    have base : apps.IsPlain := by
      rw [multi] at layout
      exact layout
    have rooted : service.composer.layout.root (some name) = .ok (apps.join name.path.bytes) := by
      rw [multi]
      rfl
    have apart : changed.path.bytes ≠ name.path.bytes := by
      intro same
      have text : changed.text = name.text := Utf8.encode_inj same
      obtain ⟨own, _⟩ := changed
      obtain ⟨other, _⟩ := name
      exact differs (by simpa using text)
    have outside : ∀ place ∈ change.places tree, Outside (apps.join name.path.bytes).names place := by
      intro place member
      have within := inside place member
      rw [base.names_join changed.isSegment] at within
      rw [base.names_join name.isSegment]
      exact FileTree.outside_of_sibling apart within
    exact compose_eq rooted (base.join name.isSegment) (sameTree_of_outside parents outside free) kind

/-- Fragments of two applications, and a static file. -/
def twoApplications : FileTree where
  top := .directory .ofDirectory
    [(Utf8.encode "apps", .directory .ofDirectory
        [(Utf8.encode "one", .directory .ofDirectory [(Utf8.encode "a.js", .file .ofFile (Utf8.encode "1"))]),
         (Utf8.encode "two", .directory .ofDirectory [(Utf8.encode "b.js", .file .ofFile (Utf8.encode "2"))])]),
     (Utf8.encode "static", .directory .ofDirectory [(Utf8.encode "a.txt", .file .ofFile (Utf8.encode "text"))])]
  wellFormed := by
    simp only [FileTree.Node.WellFormed, FileTree.Node.WellFormedEntries]
    decide

/-- Applications below `apps`, static files below `static`. -/
def usualService : Service := ⟨⟨.multi (.ofString "apps"), .lexicographic⟩, .ofString "static"⟩

def one : Namespace := ⟨"one", by decide⟩

def two : Namespace := ⟨"two", by decide⟩

theorem respond_eq_while_one_changes :
    let change : Change := .make (.ofString "apps/one/a.js") (.file (Utf8.encode "new"))
    let request : Request := ⟨"GET", "/a.txt"⟩
    (usualService.respond (twoApplications.apply change) request).result =
        (usualService.respond twoApplications request).result ∧
      usualService.composer.compose (twoApplications.apply change) (some two) .script =
        usualService.composer.compose twoApplications (some two) .script := by
  have parents : ∀ path ∈ (Change.make (.ofString "apps/one/a.js") (.file (Utf8.encode "new"))).paths,
      twoApplications.parentExists path = true := by decide +kernel
  have static : usualService.staticRoot.IsPlain := ⟨by decide +kernel, by decide +kernel⟩
  have layout : usualService.composer.layout.base.IsPlain := ⟨by decide +kernel, by decide +kernel⟩
  obtain ⟨responses, bundles⟩ := respond_eq_of_outside usualService static layout twoApplications
    (.make (.ofString "apps/one/a.js") (.file (Utf8.encode "new"))) parents
  constructor
  · exact responses ⟨"GET", "/a.txt"⟩ (by decide +kernel) (by decide +kernel)
  · exact bundles (.ofString "apps") rfl one two (by decide) (by decide +kernel) (by decide +kernel) .script

/-- Are the paths of a change, as they are written, neither on the way to the scope nor in it? -/
def WrittenOutside (scope : List Bytes) (change : Change) : Prop := ∀ path ∈ change.paths, Outside scope path.names

/-- A link beside the directory of the static files leads into it. -/
def doorTree : FileTree where
  top := .directory .ofDirectory
    [(Utf8.encode "static", .directory .ofDirectory []), (Utf8.encode "door", .link (.ofString "static"))]
  wellFormed := by
    simp only [FileTree.Node.WellFormed, FileTree.Node.WellFormedEntries]
    decide

/-- The places of a change count, and not its paths as they are written: through a link a file is made in a scope that
the path does not name. -/
theorem writtenOutside_through_door :
    let change : Change := .make (.ofString "door/a.txt") (.file (Utf8.encode "x"))
    let request : Request := ⟨"GET", "/a.txt"⟩
    usualService.staticRoot.IsPlain ∧ usualService.composer.layout.base.IsPlain ∧
      (∀ path ∈ change.paths, doorTree.parentExists path = true) ∧
      (doorTree.top.restrict (usualService.scope request).names).linkFree = true ∧
      WrittenOutside (usualService.scope request).names change ∧
      (usualService.respond doorTree request).result = .ofStatus 404 ∧
      (usualService.respond (doorTree.apply change) request).result =
        .ofBody 200 "text/plain; charset=utf-8" (Utf8.encode "x") := by
  refine ⟨⟨by decide +kernel, by decide +kernel⟩, ⟨by decide +kernel, by decide +kernel⟩, by decide +kernel,
    by decide +kernel, ?_, by decide +kernel, by decide +kernel⟩
  unfold WrittenOutside
  decide +kernel

end Changing

end Service

end BundleServer
