import BundleServer.FileTree.Basic
import BundleServer.Http.Percent
import BundleServer.Http.Response
import BundleServer.Log.Event

/-!
# Static files

A request path stands for a file below a directory. Whatever could lead out of the directory, a step upward, a
backslash or a NUL, is refused, also when it is written with escapes. A directory is answered by its index page. A fifo
that may be read is never answered: reading it does not return.
-/

namespace BundleServer.StaticFiles

/-- Can a segment of a decoded path be a file name? -/
def isPlain (segment : Bytes) : Bool :=
  segment ≠ [Path.dot, Path.dot] && !segment.contains 0x5C && !segment.contains 0

/-- Does a segment stand for nothing? -/
def isIdle (segment : Bytes) : Bool := segment = [] || segment = [Path.dot]

/-- The decoded path of a request, if its escapes are well formed and it is UTF-8. -/
def decode? (requestPath : String) : Option Bytes := do
  let bytes ← Percent.decode? (Utf8.encode requestPath)
  if (Utf8.decode? bytes).isSome then some bytes else none

/-- The file below `root` that a request path stands for. -/
def locate? (root : Path) (requestPath : String) : Option Path := do
  let segments := (Bytes.split Path.separator (← decode? requestPath)).filter (!isIdle ·)
  if segments.all isPlain then some (segments.foldl Path.join root) else none

/-- The page that answers for a directory. -/
def indexFile : Bytes := Utf8.encode "index.html"

/-- The content types of file name extensions. -/
def contentTypes : List (String × String) :=
  [("html", "text/html; charset=utf-8"),
   ("htm", "text/html; charset=utf-8"),
   ("ract", "text/html; charset=utf-8"),
   ("js", "application/javascript; charset=utf-8"),
   ("mjs", "application/javascript; charset=utf-8"),
   ("css", "text/css; charset=utf-8"),
   ("json", "application/json"),
   ("map", "application/json"),
   ("txt", "text/plain; charset=utf-8"),
   ("xml", "text/xml; charset=utf-8"),
   ("svg", "image/svg+xml"),
   ("png", "image/png"),
   ("jpg", "image/jpeg"),
   ("jpeg", "image/jpeg"),
   ("gif", "image/gif"),
   ("ico", "image/x-icon"),
   ("webp", "image/webp"),
   ("woff", "font/woff"),
   ("woff2", "font/woff2"),
   ("ttf", "font/ttf"),
   ("wasm", "application/wasm")]

/-- A byte with an ASCII letter in lower case. -/
def lowerByte (b : UInt8) : UInt8 := if 0x41 ≤ b ∧ b ≤ 0x5A then b + 0x20 else b

/-- The content type of a file, by its extension in any case. -/
def contentType (path : Path) : String :=
  let known := path.extension?.bind fun extension =>
    contentTypes.find? fun entry => Utf8.encode entry.1 = extension.map lowerByte
  match known with
  | some entry => entry.2
  | none => "application/octet-stream"

/-- The answer to a fault. -/
def refuse (path : Path) : FileTree.Fault → Logged Response
  | .notFound => .silent (.ofStatus 404)
  | .permissionDenied => .silent (.ofStatus 403)
  | fault => ⟨.ofStatus 500, [.notServed path fault]⟩

/-- Serves the file at a path, or the index page of the directory there. -/
def serveFile (tree : FileTree) (path : Path) : Logged Response :=
  match tree.kind path with
  | .error fault => refuse path fault
  | .ok kind =>
    let path := if kind = .directory then path.join indexFile else path
    match tree.read path with
    | .content content => .silent (.ofBody 200 (contentType path) content)
    | .fault fault => refuse path fault
    | .waits => .silent .unsent

/-- Serves what a request path stands for. -/
def serve (tree : FileTree) (root : Path) (requestPath : String) : Logged Response :=
  match locate? root requestPath with
  | some path => serveFile tree path
  | none => ⟨.ofStatus 404, [.refusedPath requestPath]⟩

end BundleServer.StaticFiles
