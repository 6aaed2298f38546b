import BundleServer.Text.Utf8

/-!
# Requests and responses

Of a request only its method and its target count; of a response its status, two header fields and its body. A target
is given as it stands in the first line of a request.
-/

namespace BundleServer

/-- A request. -/
structure Request where
  method : String
  target : String
  deriving DecidableEq, Repr

namespace Target

/-- What stands in front of the query. -/
def withoutQuery (target : List Char) : List Char := target.takeWhile fun c => c ≠ '?' && c ≠ '#'

/-- May the character stand in the scheme of a target? -/
def isSchemeChar (c : Char) : Bool := c.isAlphanum || c = '+' || c = '-' || c = '.'

/-- What stands behind the scheme of a target, if there is one. -/
def afterScheme? (target : List Char) : Option (List Char) :=
  let scheme := target.takeWhile isSchemeChar
  match scheme, target.drop scheme.length with
  | _ :: _, ':' :: '/' :: '/' :: rest => some rest
  | _, _ => none

/-- The path of a target. A target is a path with its query, or the same behind a scheme and a host; then the path
starts at the first slash behind the host, and is a slash if there is none. A star stands for itself, and a host alone
has no path. -/
def path (target : List Char) : List Char :=
  match target with
  | '/' :: _ => withoutQuery target
  | ['*'] => target
  | _ => match afterScheme? target with
    | none => []
    | some rest => match (withoutQuery rest).dropWhile (· ≠ '/') with
      | [] => ['/']
      | path => path

end Target

/-- The path of a request. -/
def Request.path (request : Request) : String := String.ofList (Target.path request.target.toList)

/-- A response. -/
structure Response where
  status : Nat
  contentType? : Option String
  allow? : Option String
  body : Bytes
  deriving DecidableEq, Repr

namespace Response

/-- A response with a body. -/
def ofBody (status : Nat) (contentType : String) (body : Bytes) : Response :=
  ⟨status, some contentType, none, body⟩

/-- A response that says no more than its status. -/
def ofStatus (status : Nat) : Response := ⟨status, none, none, []⟩

/-- Stands for a response that is never sent, since the call that should give it does not return. No response that is
sent has the status 0. -/
def unsent : Response := ofStatus 0

/-- The response that refuses a method. -/
def methodNotAllowed (allowed : String) : Response := ⟨405, none, some allowed, []⟩

/-- The response without its body. -/
def withoutBody (response : Response) : Response := { response with body := [] }

end Response

end BundleServer
