import BundleServer.Proofs.Http.Bundles

/-!
# Refusals

An answer whose status is not 200 is the refusal of its request: it is made from the request and the status alone
(`succeedsOr_respond`). So two services that refuse a request with the same status refuse it in the same words, wherever
their files are and whatever stands in them (`respond_eq_of_status_eq`).
-/

namespace BundleServer

/-- An answer that succeeds, or is the refusal for its status. -/
def Response.SucceedsOr (response : Response) (refusal : Nat → Response) : Prop :=
  response.status = 200 ∨ response = refusal response.status

namespace StaticFiles

theorem succeedsOr_refuse (path : Path) (fault : FileTree.Fault) :
    (refuse path fault).result.SucceedsOr .ofStatus := by
  cases fault <;> exact .inr rfl

theorem succeedsOr_serveFile (tree : FileTree) (path : Path) : (serveFile tree path).result.SucceedsOr .ofStatus := by
  unfold serveFile
  split
  · exact succeedsOr_refuse path _
  · simp only
    split
    · exact .inl rfl
    · exact succeedsOr_refuse _ _
    · exact .inr rfl

/-- A response is never sent exactly if what answers for the path, the file itself or the index page of the directory,
is a fifo. -/
theorem result_serveFile_eq_unsent_iff {tree : FileTree} {path : Path} :
    (serveFile tree path).result = .unsent ↔
      ∃ kind, tree.kind path = .ok kind ∧ tree.HoldsFifo (if kind = .directory then path.join indexFile else path) := by
  have refused (path : Path) (fault : FileTree.Fault) : (refuse path fault).result ≠ .unsent := by
    cases fault <;> simp [refuse, Logged.silent, Response.unsent, Response.ofStatus]
  unfold serveFile
  cases tree.kind path with
  | error fault => simp [refused]
  | ok kind =>
    simp only [Except.ok.injEq, exists_eq_left', ← FileTree.read_eq_waits_iff]
    split
    · rename_i read
      simp [read, Logged.silent, Response.ofBody, Response.unsent, Response.ofStatus]
    · rename_i read
      simp [read, refused]
    · rename_i read
      simp [read, Logged.silent]

theorem succeedsOr_serve (tree : FileTree) (root : Path) (requestPath : String) :
    (serve tree root requestPath).result.SucceedsOr .ofStatus := by
  unfold serve
  split
  · exact succeedsOr_serveFile tree _
  · exact .inr rfl

end StaticFiles

namespace Service

/-- The answer for an application whose root is at fault. -/
def unknownApp : Response :=
  .ofBody 404 "application/json"
    (envelope "unknown_app" "Unknown app" "Check that the app directory exists under the apps path.")

/-- The refusal of a request for a bundle: its name is refused, or the application is unknown. -/
def bundleRefusal (app : String) : Response :=
  match Namespace.parse app with
  | .error error => error.response
  | .ok _ => unknownApp

/-- The refusal of a request for the index page of an application. -/
def shellRefusal (app : Bytes) (status : Nat) : Response :=
  match decodePart "app" app with
  | .error response => response
  | .ok _ => .ofStatus status

/-- The refusal of a request for a file of an application. -/
def fileRefusal (app file : Bytes) (status : Nat) : Response :=
  match decodePart "app" app with
  | .error response => response
  | .ok app => match decodePart "file" file with
    | .error response => response
    | .ok file => match Kind.ofRouteFile? file with
      | some _ => bundleRefusal app
      | none => .ofStatus status

/-- The refusal of a request by a handler that accepts reading only. -/
def readingRefusal (method : String) (refusal : Nat → Response) (status : Nat) : Response :=
  if method = "GET" then refusal status
  else if method = "HEAD" then (refusal status).withoutBody
  else .methodNotAllowed "GET,HEAD"

/-- The refusal of a request with a status. It knows neither the service nor the tree. -/
def refusal (request : Request) : Nat → Response :=
  match Route.ofPath (Utf8.encode request.path) with
  | .shell app => readingRefusal request.method (shellRefusal app)
  | .file app file => readingRefusal request.method (fileRefusal app file)
  | .other => .ofStatus

/-- The answer to a root that is at fault repeats neither the root nor the fault. -/
theorem response_invalidRoot (root : Path) (fault : RootFault) :
    (BundleError.invalidRoot root fault).response = unknownApp := rfl

theorem succeedsOr_serveBundle (service : Service) (tree : FileTree) (app : String) (kind : Kind) :
    (service.serveBundle tree app kind).result.SucceedsOr fun _ => bundleRefusal app := by
  unfold serveBundle bundleRefusal
  cases Namespace.parse app with
  | error error => exact .inr rfl
  | ok name =>
    rcases service.composer.compose_cases tree name kind with ⟨bundle, composed⟩ | ⟨root, fault, failed⟩
    · simp only [composed]
      exact .inl rfl
    · simp only [failed]
      exact .inr (response_invalidRoot root fault)

theorem succeedsOr_serveShell (service : Service) (tree : FileTree) (app : Bytes) :
    (service.serveShell tree app).result.SucceedsOr (shellRefusal app) := by
  unfold serveShell shellRefusal
  cases decodePart "app" app with
  | error response => exact .inr rfl
  | ok _ => exact StaticFiles.succeedsOr_serveFile tree _

theorem succeedsOr_serveAppFile (service : Service) (tree : FileTree) (app file : Bytes) (path : String) :
    (service.serveAppFile tree app file path).result.SucceedsOr (fileRefusal app file) := by
  unfold serveAppFile fileRefusal
  cases decodePart "app" app with
  | error response => exact .inr rfl
  | ok app =>
    cases decodePart "file" file with
    | error response => exact .inr rfl
    | ok file =>
      simp only
      cases Kind.ofRouteFile? file with
      | some kind => exact service.succeedsOr_serveBundle tree app kind
      | none => exact StaticFiles.succeedsOr_serve tree service.staticRoot path

/-- A request for the head is refused as one for the whole, without the body. -/
theorem succeedsOr_readingOnly (method : String) {answer : Logged Response} {refusal : Nat → Response}
    (answered : answer.result.SucceedsOr refusal) :
    (readingOnly method answer).result.SucceedsOr (readingRefusal method refusal) := by
  unfold readingOnly readingRefusal
  split
  · exact answered
  · split
    · exact answered.imp id fun refused => congrArg Response.withoutBody refused
    · exact .inr rfl

/-- An answer succeeds or is the refusal of its request. -/
theorem succeedsOr_respond (service : Service) (tree : FileTree) (request : Request) :
    (service.respond tree request).result.SucceedsOr (refusal request) := by
  unfold respond refusal
  cases Route.ofPath (Utf8.encode request.path) with
  | shell app => exact succeedsOr_readingOnly request.method (service.succeedsOr_serveShell tree app)
  | file app file =>
    exact succeedsOr_readingOnly request.method (service.succeedsOr_serveAppFile tree app file request.path)
  | other => exact StaticFiles.succeedsOr_serve tree service.staticRoot request.path

/-- Two services, each on a tree of its own, that answer a request with the same status other than 200 give the same
answer. It is the refusal of the request with this status, in which neither a service nor a tree has a part. -/
theorem respond_eq_of_status_eq (service service' : Service) (tree tree' : FileTree) (request : Request)
    (same : (service.respond tree request).result.status = (service'.respond tree' request).result.status)
    (failed : (service.respond tree request).result.status ≠ 200) :
    (service.respond tree request).result = (service'.respond tree' request).result ∧
      (service.respond tree request).result = refusal request (service.respond tree request).result.status := by
  have first : (service.respond tree request).result =
      refusal request (service.respond tree request).result.status :=
    (service.succeedsOr_respond tree request).resolve_left failed
  have second : (service'.respond tree' request).result =
      refusal request (service'.respond tree' request).result.status :=
    (service'.succeedsOr_respond tree' request).resolve_left (same ▸ failed)
  refine ⟨?_, first⟩
  calc (service.respond tree request).result
      = refusal request (service.respond tree request).result.status := first
    _ = refusal request (service'.respond tree' request).result.status := by rw [same]
    _ = (service'.respond tree' request).result := second.symm

/-- An application that does not exist, and a file where its directory should be. -/
theorem respond_eq_missing_or_file :
    let request : Request := ⟨"GET", "/apps/one/data.js"⟩
    let other : Service := ⟨⟨.single (.ofString "static/a.txt"), .filesystem⟩, .ofString "elsewhere"⟩
    (usualService.respond .empty request).result.status = 404 ∧
      (other.respond twoApplications request).result.status = 404 ∧
      (usualService.respond .empty request).result = (other.respond twoApplications request).result ∧
      (usualService.respond .empty request).result = refusal request 404 := by
  intro request other
  have first : (usualService.respond .empty request).result.status = 404 := by decide +kernel
  have second : (other.respond twoApplications request).result.status = 404 := by decide +kernel
  have failed : (usualService.respond .empty request).result.status ≠ 200 := by
    rw [first]
    decide
  have alike := respond_eq_of_status_eq usualService other .empty twoApplications request
    (first.trans second.symm) failed
  rw [first] at alike
  exact ⟨first, second, alike⟩

end Service

end BundleServer
