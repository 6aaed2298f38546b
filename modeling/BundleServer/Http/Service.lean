import BundleServer.Bundle.Composer
import BundleServer.Http.StaticFiles

/-!
# The service

A request for `/apps/<app>/<file>` is answered by a bundle if the file is the route file of a kind; one for
`/apps/<app>/` by the index page. All other requests are for static files. Answers to failed requests are the same for
whatever cause their status has, so nothing of the file system shows in them.
-/

namespace BundleServer

/-- What a path stands for. Both parts are still escaped. -/
inductive Route where
  | shell (app : Bytes)
  | file (app file : Bytes)
  | other
  deriving DecidableEq, Repr

namespace Route

/-- The route of a raw path. -/
def ofPath (path : Bytes) : Route :=
  match Bytes.split Path.separator path with
  | [front, apps, app, last] =>
    if front = [] ∧ apps = Utf8.encode "apps" then
      if last = [] then .shell app else .file app last
    else .other
  | _ => .other

end Route

/-- The answer to an error that left no bundle. Only a refused name is repeated; paths and causes stay in the log. -/
def BundleError.response (error : BundleError) : Response :=
  let envelope (code message : String) (hint : Json.Value) : Bytes :=
    (Json.Value.object [("code", .string code), ("message", .string message), ("hint", hint)]).write
  match error with
  | .invalidNamespace _ =>
    .ofBody 400 "application/json" (envelope "invalid_namespace" error.message
      (.string "An app name is a single path segment without '/', '\\' or '..'."))
  | .invalidRoot .. =>
    .ofBody 404 "application/json" (envelope "unknown_app" "Unknown app"
      (.string "Check that the app directory exists under the apps path."))
  | .emptySuffix | .unwritable _ =>
    .ofBody 500 "application/json" (envelope "aggregation_failed" "Aggregation failed" .null)

/-- What serves requests: a composer, and the directory of the static files. -/
structure Service where
  composer : Composer
  staticRoot : Path

namespace Service

/-- The answer to a part of a route that is not UTF-8. -/
def undecodable (part : String) : Response :=
  .ofBody 400 "text/plain; charset=utf-8" (Utf8.encode ("Invalid URL: Invalid UTF-8 in `" ++ part ++ "`"))

/-- A part of a route as text. -/
def decodePart (part : String) (raw : Bytes) : Except Response String :=
  match Utf8.decode? (Percent.decodeLenient raw) with
  | some text => .ok text
  | none => .error (undecodable part)

/-- Answers with a bundle of an application. -/
def serveBundle (service : Service) (tree : FileTree) (app : String) (kind : Kind) : Logged Response :=
  match Namespace.parse app with
  | .error error => ⟨error.response, [.refusedName app error]⟩
  | .ok name =>
    let composed := service.composer.compose tree (some name) kind
    match composed.result with
    | .ok bundle =>
      let partly := if bundle.errors.isEmpty then [] else [.servedInPart kind app bundle.errors.length]
      ⟨.ofBody 200 kind.contentType bundle.body, composed.events ++ partly⟩
    | .error error => ⟨error.response, composed.events ++ [.notComposed kind app error]⟩

/-- Answers a request for the index page of an application. -/
def serveShell (service : Service) (tree : FileTree) (app : Bytes) : Logged Response :=
  match decodePart "app" app with
  | .error response => .silent response
  | .ok _ => StaticFiles.serveFile tree (service.staticRoot.join StaticFiles.indexFile)

/-- Answers a request for a file of an application. -/
def serveAppFile (service : Service) (tree : FileTree) (app file : Bytes) (path : String) : Logged Response :=
  match decodePart "app" app with
  | .error response => .silent response
  | .ok app => match decodePart "file" file with
    | .error response => .silent response
    | .ok file => match Kind.ofRouteFile? file with
      | some kind => service.serveBundle tree app kind
      | none => StaticFiles.serve tree service.staticRoot path

/-- Answers a request by a handler that accepts reading only. A request for the head gets no body. -/
def readingOnly (method : String) (answer : Logged Response) : Logged Response :=
  if method = "GET" then answer
  else if method = "HEAD" then ⟨answer.result.withoutBody, answer.events⟩
  else .silent (.methodNotAllowed "GET,HEAD")

/-- Answers a request on the tree as it is. -/
def respond (service : Service) (tree : FileTree) (request : Request) : Logged Response :=
  match Route.ofPath (Utf8.encode request.path) with
  | .shell app => readingOnly request.method (service.serveShell tree app)
  | .file app file => readingOnly request.method (service.serveAppFile tree app file request.path)
  | .other => StaticFiles.serve tree service.staticRoot request.path

end Service

end BundleServer
