import BundleServer.Http.Service
import BundleServer.Proofs.Json.RoundTrip
import BundleServer.Proofs.Text.Quoted

/-!
# Envelopes of errors

The body of an answer that reports an error is an object of three members, whatever text is in the message
(`parse_envelope`). A refused name is quoted in the message, and the message is a string of the object, so the name is
found again behind both (`refusedName?_envelope`).
-/

namespace BundleServer

namespace Service

/-- The body of an answer that reports an error. -/
def envelope (code message hint : String) : Bytes :=
  (Json.Value.object [("code", .string code), ("message", .string message), ("hint", .string hint)]).write

/-- An object of texts is read back with its members in the order of their names. -/
theorem parse_write_texts {members : List (String × Json.Value)}
    (texts : ∀ member ∈ members, ∃ text, member.2 = .string text) :
    Json.parse (Json.Value.object members).write = .ok (.object (Json.Members.ofList members)) := by
  apply Json.parse_write_object
  all_goals
    intro member among
    obtain ⟨text, same⟩ := texts member among
    rw [same]
  · trivial
  · trivial
  · exact Nat.zero_lt_succ 126

/-- An envelope is read as its three texts. -/
theorem parse_envelope (code message hint : String) :
    Json.parse (envelope code message hint) =
      .ok (.object [("code", .string code), ("hint", .string hint), ("message", .string message)]) := by
  have texts : ∀ member ∈ [("code", Json.Value.string code), ("message", .string message), ("hint", .string hint)],
      ∃ text, member.2 = .string text := by simp
  have sorted : Json.Members.ofList
      [("code", Json.Value.string code), ("message", .string message), ("hint", .string hint)] =
      [("code", .string code), ("hint", .string hint), ("message", .string message)] := by
    have first : Json.Members.compareNames "message" "code" = .gt := by decide
    have second : Json.Members.compareNames "hint" "code" = .gt := by decide
    have third : Json.Members.compareNames "hint" "message" = .lt := by decide
    simp [Json.Members.ofList, Json.Members.insert, first, second, third]
  rw [envelope, parse_write_texts texts, sorted]

/-- Does a response report an error with these texts, and nothing else? -/
structure Reports (response : Response) (status : Nat) (code message hint : String) : Prop where
  status : response.status = status
  contentType : response.contentType? = some "application/json"
  allow : response.allow? = none
  body : response.body = envelope code message hint
  reads : Json.parse response.body =
    .ok (.object [("code", .string code), ("hint", .string hint), ("message", .string message)])

theorem reports_ofBody (status : Nat) (code message hint : String) :
    Reports (.ofBody status "application/json" (envelope code message hint)) status code message hint :=
  ⟨rfl, rfl, rfl, rfl, parse_envelope code message hint⟩

theorem reports_invalidNamespace (raw : String) :
    Reports (BundleError.invalidNamespace raw).response 400 "invalid_namespace"
      ("Invalid application namespace: " ++ Text.Quoted.quote raw)
      "An app name is a single path segment without '/', '\\' or '..'." :=
  reports_ofBody ..

theorem reports_invalidRoot (root : Path) (fault : RootFault) :
    Reports (BundleError.invalidRoot root fault).response 404 "unknown_app" "Unknown app"
      "Check that the app directory exists under the apps path." :=
  reports_ofBody ..

/-- The name that the body of an answer repeats. -/
def refusedName? (body : Bytes) : Option String :=
  match Json.parse body with
  | .ok (.object members) => match Json.Members.get? "message" members with
    | some (.string message) => Text.Quoted.quoted? message
    | _ => none
  | _ => none

theorem refusedName?_envelope {front : String} (plain : '"' ∉ front.toList) (code raw hint : String) :
    refusedName? (envelope code (front ++ Text.Quoted.quote raw) hint) = some raw := by
  have found (message : String) : Json.Members.get? "message"
      [("code", Json.Value.string code), ("hint", .string hint), ("message", .string message)] =
      some (.string message) := rfl
  rw [refusedName?, parse_envelope]
  simp only [found]
  exact Text.Quoted.quoted?_append_quote plain raw

/-- Whatever name is refused, the body of the answer is read as an object with a code, a hint and a message. Code and
hint are the same for all names, and the message is a fixed text and the name in quotes. The name can be read out of the
body, so two names have the same body only if they are the same. -/
theorem response_invalidNamespace (raw : String) :
    Json.parse (BundleError.invalidNamespace raw).response.body = .ok (.object
        [("code", .string "invalid_namespace"),
          ("hint", .string "An app name is a single path segment without '/', '\\' or '..'."),
          ("message", .string ("Invalid application namespace: " ++ Text.Quoted.quote raw))]) ∧
      refusedName? (BundleError.invalidNamespace raw).response.body = some raw ∧
      ∀ other, (BundleError.invalidNamespace raw).response.body = (BundleError.invalidNamespace other).response.body ↔
        raw = other := by
  have named (raw : String) : refusedName? (BundleError.invalidNamespace raw).response.body = some raw := by
    rw [(reports_invalidNamespace raw).body]
    exact refusedName?_envelope (by decide) _ raw _
  refine ⟨(reports_invalidNamespace raw).reads, named raw, fun other => ⟨fun same => ?_, fun same => same ▸ rfl⟩⟩
  apply Option.some.inj
  rw [← named raw, ← named other, same]

end Service

end BundleServer
