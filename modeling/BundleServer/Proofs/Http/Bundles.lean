import BundleServer.Proofs.Bundle.Passes
import BundleServer.Proofs.Http.Envelope
import BundleServer.Proofs.Http.Percent
import BundleServer.Proofs.Http.Scope

/-!
# Bundles over the wire

A request for `/apps/<app>/<file>` is cut into its parts as it is written, and each part is decoded on its own. So a
separator that is escaped never cuts, and whichever way the two parts are spelled, the service answers as the composer
does for the application that is meant: with the bundle, or with a report of the composer's error
(`respond_eq_of_spells`).
-/

namespace BundleServer

namespace Target

/-- The path of a target ends in front of the query. -/
theorem path_append {front query : List Char} (slash : front.head? = some '/')
    (plain : ∀ c ∈ front, c ≠ '?' ∧ c ≠ '#') (asked : query = [] ∨ query.head? = some '?') :
    path (front ++ query) = front := by
  have whole : path (front ++ query) = withoutQuery (front ++ query) := by
    cases front with
    | nil => cases slash
    | cons c rest =>
      cases slash
      rfl
  have kept : ∀ c ∈ front, (decide (c ≠ '?') && decide (c ≠ '#')) = true := by
    intro c member
    simpa using plain c member
  have cut : query.takeWhile (fun c => c ≠ '?' && c ≠ '#') = [] := by
    rcases asked with rfl | first
    · rfl
    · cases query with
      | nil => cases first
      | cons c rest =>
        cases first
        rfl
  rw [whole, withoutQuery, List.takeWhile_append_of_pos kept, cut, List.append_nil]

end Target

/-- What is asked for in front of a query is the path of the request. -/
theorem Request.path_append_query {method front : String} (slash : front.toList.head? = some '/')
    (plain : ∀ c ∈ front.toList, c ≠ '?' ∧ c ≠ '#') (query? : Option String) :
    Request.path ⟨method, front ++ query?.elim "" ("?" ++ ·)⟩ = front := by
  have asked : (query?.elim "" ("?" ++ ·)).toList = [] ∨ (query?.elim "" ("?" ++ ·)).toList.head? = some '?' := by
    cases query? with
    | none => exact .inl rfl
    | some query =>
      refine .inr ?_
      rw [Option.elim_some, String.toList_append]
      rfl
  rw [Request.path, String.toList_append, Target.path_append slash plain asked, String.ofList_toList]

/-- A raw path of two parts below `/apps` is that of a file of an application. -/
theorem Route.ofPath_file {app file : Bytes} (whole : Path.separator ∉ app) (wholeFile : Path.separator ∉ file)
    (filled : file ≠ []) :
    Route.ofPath (Utf8.encode "/apps/" ++ app ++ Utf8.encode "/" ++ file) = .file app file := by
  have apart : Utf8.encode "/apps/" ++ app ++ Utf8.encode "/" ++ file =
      [] ++ Path.separator :: (Utf8.encode "apps" ++ Path.separator :: (app ++ Path.separator :: file)) := by
    rw [List.append_assoc, List.append_assoc]
    rfl
  have pieces : Bytes.split Path.separator (Utf8.encode "/apps/" ++ app ++ Utf8.encode "/" ++ file) =
      [[], Utf8.encode "apps", app, file] := by
    rw [apart, Bytes.split_append, Bytes.split_append, Bytes.split_append, Bytes.split_of_not_mem List.not_mem_nil,
      Bytes.split_of_not_mem (by decide), Bytes.split_of_not_mem whole, Bytes.split_of_not_mem wholeFile]
    rfl
  rw [Route.ofPath, pieces]
  simp only [and_self, if_true, if_neg filled]

theorem Kind.ofRouteFile?_routeFile (kind : Kind) : Kind.ofRouteFile? kind.routeFile = some kind := by
  cases kind <;> decide

namespace Service

section Spellings

open Percent (Spells)

/-- A part of a route is decoded to the text that it spells. -/
theorem decodePart_of_spells (part : String) {raw : Bytes} {meant : String} (spells : Spells raw (Utf8.encode meant)) :
    decodePart part raw = .ok meant := by
  rw [decodePart, Percent.decodeLenient_of_spells spells, Utf8.decode?_encode]

theorem separator_not_mem_of_spells {raw meant : Bytes} (spells : Spells raw meant) : Path.separator ∉ raw :=
  Percent.not_mem_of_spells spells (by decide) (by decide) (by decide)

/-- A spelled part does not start a query. -/
theorem ne_of_mem_of_spells {text : String} {meant : Bytes} (spells : Spells (Utf8.encode text) meant) {c : Char}
    (member : c ∈ text.toList) : c ≠ '?' ∧ c ≠ '#' := by
  constructor
  · rintro rfl
    have byte : 0x3F ∈ Utf8.encode text := Utf8.mem_encodeList_of_ascii (by decide) member
    exact Percent.not_mem_of_spells spells (by decide) (by decide) (by decide) byte
  · rintro rfl
    have byte : 0x23 ∈ Utf8.encode text := Utf8.mem_encodeList_of_ascii (by decide) member
    exact Percent.not_mem_of_spells spells (by decide) (by decide) (by decide) byte

/-- The target of a file of an application, with a query or without. -/
def fileTarget (app file : String) (query? : Option String) : String :=
  "/apps/" ++ app ++ "/" ++ file ++ query?.elim "" ("?" ++ ·)

variable {app file : String}

theorem path_of_fileTarget {method : String} {meant meantFile : Bytes} (spells : Spells (Utf8.encode app) meant)
    (spellsFile : Spells (Utf8.encode file) meantFile) (query? : Option String) :
    Request.path ⟨method, fileTarget app file query?⟩ = "/apps/" ++ app ++ "/" ++ file := by
  have front : ∀ c ∈ "/apps/".toList, c ≠ '?' ∧ c ≠ '#' := by simp
  have between : ∀ c ∈ "/".toList, c ≠ '?' ∧ c ≠ '#' := by simp
  have plain : ∀ c ∈ ("/apps/" ++ app ++ "/" ++ file).toList, c ≠ '?' ∧ c ≠ '#' := by
    intro c member
    simp only [String.toList_append, List.mem_append] at member
    rcases member with ((first | inApp) | slash) | inFile
    · exact front c first
    · exact ne_of_mem_of_spells spells inApp
    · exact between c slash
    · exact ne_of_mem_of_spells spellsFile inFile
  have slash : ("/apps/" ++ app ++ "/" ++ file).toList.head? = some '/' := by
    simp only [String.toList_append]
    rfl
  rw [fileTarget, Request.path_append_query slash plain query?]

/-- Whatever the spelling, a request for a kind's file is answered with the bundle of the application that is meant. -/
theorem respond_fileTarget (service : Service) (tree : FileTree) (kind : Kind) {meant : String}
    (spells : Spells (Utf8.encode app) (Utf8.encode meant))
    (spellsFile : Spells (Utf8.encode file) (Utf8.encode kind.routeFile)) (query? : Option String) :
    service.respond tree ⟨"GET", fileTarget app file query?⟩ = service.serveBundle tree meant kind := by
  have filled : Utf8.encode file ≠ [] := by
    intro empty
    rw [empty] at spellsFile
    cases kind <;> cases spellsFile
  have route : Route.ofPath (Utf8.encode ("/apps/" ++ app ++ "/" ++ file)) =
      .file (Utf8.encode app) (Utf8.encode file) := by
    simp only [Utf8.encode_append]
    exact Route.ofPath_file (separator_not_mem_of_spells spells) (separator_not_mem_of_spells spellsFile) filled
  simp only [respond, path_of_fileTarget spells spellsFile query?, route, readingOnly, serveAppFile,
    decodePart_of_spells _ spells, decodePart_of_spells _ spellsFile, Kind.ofRouteFile?_routeFile, if_true]

/-- However the name of an application and the file of a kind are spelled, a request for them is answered as the
composer answers for what is meant. It is refused exactly if the name is, whatever the tree. Otherwise the answer is the
bundle, or says that the application is unknown if its root is at fault. Nothing else happens. -/
theorem respond_eq_of_spells (service : Service) (tree : FileTree) (kind : Kind) (meant : String)
    (spells : Spells (Utf8.encode app) (Utf8.encode meant))
    (spellsFile : Spells (Utf8.encode file) (Utf8.encode kind.routeFile)) (query? : Option String) :
    let response := (service.respond tree ⟨"GET", fileTarget app file query?⟩).result
    (response.status = 400 ↔ ∃ error, Namespace.parse meant = .error error) ∧
      match Namespace.parse meant with
      | .error _ => Reports response 400 "invalid_namespace"
          ("Invalid application namespace: " ++ Text.Quoted.quote meant)
          "An app name is a single path segment without '/', '\\' or '..'."
      | .ok name => match (service.composer.compose tree (some name) kind).result with
        | .ok bundle => response =
            { status := 200, contentType? := some kind.contentType, allow? := none, body := bundle.body }
        | .error (.invalidRoot _ _) => Reports response 404 "unknown_app" "Unknown app"
            "Check that the app directory exists under the apps path."
        | .error _ => False := by
  intro response
  have answered : response = (service.serveBundle tree meant kind).result := by
    rw [← respond_fileTarget service tree kind spells spellsFile query?]
  cases parsed : Namespace.parse meant with
  | error error =>
    have refused : response = error.response := by
      rw [answered, serveBundle, parsed]
    obtain rfl : error = .invalidNamespace meant := by
      unfold Namespace.parse at parsed
      split at parsed
      · cases parsed
      · cases parsed
        rfl
    exact ⟨⟨fun _ => ⟨_, rfl⟩, fun _ => refused ▸ rfl⟩, refused ▸ reports_invalidNamespace meant⟩
  | ok name =>
    have noError : ¬ ∃ error, Except.ok name = Except.error (ε := BundleError) error := by
      rintro ⟨error, same⟩
      cases same
    rcases service.composer.compose_cases tree name kind with ⟨bundle, composed⟩ | ⟨root, fault, failed⟩
    · have served : response =
          { status := 200, contentType? := some kind.contentType, allow? := none, body := bundle.body } := by
        rw [answered, serveBundle, parsed]
        simp only [composed, Response.ofBody]
      simp only [composed]
      refine ⟨iff_of_false ?_ noError, served⟩
      rw [served]
      exact (by decide : 200 ≠ 400)
    · have unknown : response = (BundleError.invalidRoot root fault).response := by
        rw [answered, serveBundle, parsed]
        simp only [failed]
      simp only [failed]
      refine ⟨iff_of_false ?_ noError, unknown ▸ reports_invalidRoot root fault⟩
      rw [unknown]
      exact (by decide : 404 ≠ 400)

/-- A name with escapes in it, the file with its dot escaped, and a query; and a name with an escaped separator. -/
theorem respond_to_escapes :
    Spells (Utf8.encode "%6Fn%65") (Utf8.encode one.text) ∧
      Spells (Utf8.encode "data%2ejs") (Utf8.encode Kind.script.routeFile) ∧
      Spells (Utf8.encode "one%2F..") (Utf8.encode "one/..") ∧
      (∃ bundle, (usualService.composer.compose twoApplications (some one) .script).result = .ok bundle ∧
        (usualService.respond twoApplications ⟨"GET", fileTarget "%6Fn%65" "data%2ejs" (some "v=1")⟩).result =
          { status := 200, contentType? := some "application/javascript; charset=utf-8", allow? := none,
            body := bundle.body }) ∧
      Reports (usualService.respond twoApplications ⟨"GET", fileTarget "one%2F.." "data%2ejs" none⟩).result 400
        "invalid_namespace" ("Invalid application namespace: " ++ Text.Quoted.quote "one/..")
        "An app name is a single path segment without '/', '\\' or '..'." := by
  have name : Spells (Utf8.encode "%6Fn%65") (Utf8.encode one.text) :=
    .escaped (by decide) (.plain (by decide) (.escaped (by decide) .nil))
  have file : Spells (Utf8.encode "data%2ejs") (Utf8.encode Kind.script.routeFile) :=
    .plain (by decide) (.plain (by decide) (.plain (by decide) (.plain (by decide) (.escaped (by decide)
      (.plain (by decide) (.plain (by decide) .nil))))))
  have climbing : Spells (Utf8.encode "one%2F..") (Utf8.encode "one/..") :=
    .plain (by decide) (.plain (by decide) (.plain (by decide) (.escaped (by decide)
      (.plain (by decide) (.plain (by decide) .nil)))))
  obtain ⟨bundle, composed⟩ : ∃ bundle,
      (usualService.composer.compose twoApplications (some one) .script).result = .ok bundle :=
    ⟨_, Composer.composeRoot_of_directory _ (by decide +kernel) _⟩
  have served := (respond_eq_of_spells usualService twoApplications .script one.text name file (some "v=1")).2
  have parsed : Namespace.parse one.text = .ok one := rfl
  have refused := (respond_eq_of_spells usualService twoApplications .script "one/.." climbing file none).2
  rw [parsed] at served
  simp only [composed] at served
  exact ⟨name, file, climbing, ⟨bundle, composed, served⟩, refused⟩

end Spellings

end Service

end BundleServer
