import BundleServer.Proofs.Http.Bundles
import BundleServer.Proofs.Http.Escapes
import BundleServer.Proofs.Http.Location
import BundleServer.Proofs.Walk.Files

/-!
# Files over the wire

A file below the directory of the static files is asked for by the names that lead to it, each spelled in any way.
Between them may stand pieces that mean nothing. Three pieces may also be read as the route of an application; such a
request still ends at the static files, unless the file it names is that of a kind. So whichever way the names are
spelled, the answer is what stands there: the content of a file, and for a directory its index page
(`respond_eq_of_leads`).
-/

namespace BundleServer

namespace Bytes

/-- What is cut where each piece starts with a separator. -/
theorem split_flatMap {separator : UInt8} {pieces : List Bytes} (whole : ∀ piece ∈ pieces, separator ∉ piece) :
    split separator (pieces.flatMap (separator :: ·)) = [] :: pieces := by
  induction pieces with
  | nil => rfl
  | cons piece pieces ih =>
    obtain ⟨first, rest⟩ := List.forall_mem_cons.1 whole
    have cut : split separator (piece ++ pieces.flatMap (separator :: ·)) = piece :: pieces := by
      cases pieces with
      | nil =>
        rw [List.flatMap_nil, List.append_nil]
        exact split_of_not_mem first
      | cons next others =>
        have behind := ih rest
        rw [List.flatMap_cons, List.cons_append, split, if_pos rfl, List.cons.injEq] at behind
        rw [List.flatMap_cons, List.cons_append, split_append, split_of_not_mem first, behind.2]
        rfl
    rw [List.flatMap_cons, List.cons_append, split, if_pos rfl, cut]

end Bytes

namespace Percent

variable {raw meant : Bytes}

/-- A spelling is decoded strictly to what is meant. -/
theorem decodes_of_spells (spells : Spells raw meant) : Decodes Numeral raw meant := by
  induction spells with
  | nil => exact .nil
  | plain free rest ih => exact .plain (ne_sign_of_isReserved free) ih
  | escaped pair rest ih => exact .escaped (.inl (pair?_eq_some_iff.1 pair)) ih

/-- What means nothing in a target spells itself. -/
theorem spells_self (free : ∀ b ∈ raw, isReserved b = false) : Spells raw raw := by
  induction raw with
  | nil => exact .nil
  | cons b raw ih =>
    obtain ⟨first, rest⟩ := List.forall_mem_cons.1 free
    exact .plain first (ih rest)

theorem Decodes.append {escape : UInt8 → UInt8 → UInt8 → Prop} {behind meantBehind : Bytes}
    (decodes : Decodes escape raw meant) (later : Decodes escape behind meantBehind) :
    Decodes escape (raw ++ behind) (meant ++ meantBehind) := by
  induction decodes with
  | nil => exact later
  | plain other rest ih => exact .plain other ih
  | escaped stands rest ih => exact .escaped stands ih

end Percent

namespace StaticFiles

open Percent (Spells Decodes Numeral)

/-- Do the pieces of a path spell the names? Those that stand for nothing are passed over. -/
inductive SpellsNames : List String → List Bytes → Prop where
  | nil : SpellsNames [] []
  | idle {piece : String} {segment : Bytes} {pieces : List String} {names : List Bytes}
    (spells : Spells (Utf8.encode piece) segment) (idle : isIdle segment = true) (rest : SpellsNames pieces names) :
    SpellsNames (piece :: pieces) names
  | name {piece : String} {name : Bytes} {pieces : List String} {names : List Bytes}
    (spells : Spells (Utf8.encode piece) name) (rest : SpellsNames pieces names) :
    SpellsNames (piece :: pieces) (name :: names)

/-- The path with a separator in front of each piece. -/
def pathOf : List String → String
  | [] => ""
  | piece :: pieces => "/" ++ piece ++ pathOf pieces

/-- The target of a path, with a query or without. -/
def targetOf (pieces : List String) (query? : Option String) : String := pathOf pieces ++ query?.elim "" ("?" ++ ·)

/-- Are the pieces kept for an application? They are if they stand for its index page, or for one of its bundles. -/
def Reserved (pieces : List String) : Prop :=
  ∃ app file, pieces = ["apps", app, file] ∧
    (file = "" ∨ ∃ kind : Kind, Percent.decodeLenient (Utf8.encode file) = Utf8.encode kind.routeFile)

section Segments

variable {pieces : List String} {names segments : List Bytes}

theorem encode_pathOf (pieces : List String) :
    Utf8.encode (pathOf pieces) = (pieces.map Utf8.encode).flatMap (Path.separator :: ·) := by
  induction pieces with
  | nil => rfl
  | cons piece pieces ih =>
    rw [pathOf, Utf8.encode_append, Utf8.encode_append, ih, List.map_cons, List.flatMap_cons]
    rfl

/-- Can the bytes stand between two separators of the path of a static file, once they are decoded? -/
structure IsClean (segment : Bytes) : Prop where
  text : ∃ text, segment = Utf8.encode text
  whole : Path.separator ∉ segment
  plain : isPlain segment = true

theorem isClean_of_isIdle {segment : Bytes} (idle : isIdle segment = true) : IsClean segment := by
  have cases : segment = [] ∨ segment = [Path.dot] := by simpa [isIdle] using idle
  rcases cases with rfl | rfl
  · exact ⟨⟨"", rfl⟩, by decide, by decide⟩
  · exact ⟨⟨".", rfl⟩, by decide, by decide⟩

/-- Each piece spells a segment, and the names are those segments that stand for something. -/
theorem SpellsNames.exists_segments (spells : SpellsNames pieces names)
    (named : ∀ name ∈ names, IsClean name ∧ isIdle name = false) :
    ∃ segments, List.Forall₂ (fun piece segment => Spells (Utf8.encode piece) segment) pieces segments ∧
      segments.filter (!isIdle ·) = names ∧ ∀ segment ∈ segments, IsClean segment := by
  induction spells with
  | nil => exact ⟨[], .nil, rfl, List.forall_mem_nil _⟩
  | @idle piece segment pieces names spelled idle rest ih =>
    obtain ⟨segments, each, busy, formed⟩ := ih named
    refine ⟨segment :: segments, .cons spelled each, ?_, List.forall_mem_cons.2 ⟨isClean_of_isIdle idle, formed⟩⟩
    rw [List.filter_cons_of_neg (by simp [idle]), busy]
  | @name piece name pieces names spelled rest ih =>
    obtain ⟨⟨own, busyName⟩, others⟩ := List.forall_mem_cons.1 named
    obtain ⟨segments, each, busy, formed⟩ := ih others
    refine ⟨name :: segments, .cons spelled each, ?_, List.forall_mem_cons.2 ⟨own, formed⟩⟩
    rw [List.filter_cons_of_pos (by simp [busyName]), busy]

/-- The path is decoded piece by piece. -/
theorem decodes_pathOf
    (each : List.Forall₂ (fun piece segment => Spells (Utf8.encode piece) segment) pieces segments) :
    Decodes Numeral (Utf8.encode (pathOf pieces)) (segments.flatMap (Path.separator :: ·)) := by
  rw [encode_pathOf]
  induction each with
  | nil => exact .nil
  | cons spelled rest ih =>
    rw [List.map_cons, List.flatMap_cons, List.flatMap_cons]
    exact .plain (by decide) ((Percent.decodes_of_spells spelled).append ih)

theorem exists_text_flatMap (texts : ∀ segment ∈ segments, ∃ text, segment = Utf8.encode text) :
    ∃ text, segments.flatMap (Path.separator :: ·) = Utf8.encode text := by
  induction segments with
  | nil => exact ⟨"", rfl⟩
  | cons segment segments ih =>
    obtain ⟨⟨text, rfl⟩, rest⟩ := List.forall_mem_cons.1 texts
    obtain ⟨more, same⟩ := ih rest
    refine ⟨"/" ++ text ++ more, ?_⟩
    rw [List.flatMap_cons, same, Utf8.encode_append, Utf8.encode_append]
    rfl

/-- Spelled names are located below the root, joined one after the other. -/
theorem locate?_of_segments
    (each : List.Forall₂ (fun piece segment => Spells (Utf8.encode piece) segment) pieces segments)
    (formed : ∀ segment ∈ segments, IsClean segment) (root : Path) :
    locate? root (pathOf pieces) = some ((segments.filter (!isIdle ·)).foldl Path.join root) := by
  have cut : Bytes.split Path.separator (segments.flatMap (Path.separator :: ·)) = [] :: segments :=
    Bytes.split_flatMap fun segment member => (formed segment member).whole
  have isText := exists_text_flatMap fun segment member => (formed segment member).text
  refine locate?_eq_some_iff.2 ⟨_, decode?_eq_some_iff.2 ⟨decodes_pathOf each, isText⟩, ?_, ?_⟩
  · intro segment member
    rw [StaticFiles.segments, cut, List.mem_cons] at member
    rcases member with rfl | inside
    · decide
    · exact isPlain_iff.1 (formed segment inside).plain
  · rw [busySegments_eq, cut, List.filter_cons_of_neg (by decide)]

end Segments

section Serving

variable {tree : FileTree} {root : Path} {base : FileTree.Spot} {names : List Bytes} {access : FileTree.Access}

theorem contentType_join_indexFile (path : Path) :
    contentType (path.join indexFile) = "text/html; charset=utf-8" := by
  rw [contentType, Path.extension?, Path.fileName?_join path isSegment_indexFile]
  decide +kernel

/-- A file below the root is served as it is. -/
theorem serveFile_of_leads (rooted : tree.resolve .visitor root = .ok base) {content : Bytes}
    (leads : base.node.Leads names (.file access content)) (readable : access.read = true) :
    serveFile tree (names.foldl Path.join root) =
      .silent (.ofBody 200 (contentType (names.foldl Path.join root)) content) := by
  obtain ⟨found, reached, node, -⟩ := FileTree.resolve_foldl_join rooted leads (by simp [FileTree.Node.kind])
  have kind : tree.kind (names.foldl Path.join root) = .ok .file := by
    rw [FileTree.kind, reached, Except.map, node]
    rfl
  have read : tree.read (names.foldl Path.join root) = .content content := by
    simp only [FileTree.read, reached, node, FileTree.Node.reading, readable, if_true]
  simp only [serveFile, kind, read, reduceCtorEq, if_false]

variable {entries : FileTree.Entries}

/-- A directory below the root is answered by what its index page is, or by what is at fault with it. -/
theorem serveFile_of_leads_directory (rooted : tree.resolve .visitor root = .ok base)
    (leads : base.node.Leads names (.directory access entries)) :
    serveFile tree (names.foldl Path.join root) =
      match tree.read ((names.foldl Path.join root).join indexFile) with
      | .content content => .silent (.ofBody 200 "text/html; charset=utf-8" content)
      | .fault fault => refuse ((names.foldl Path.join root).join indexFile) fault
      | .waits => .silent .unsent := by
  obtain ⟨found, reached, node, -⟩ := FileTree.resolve_foldl_join rooted leads (by simp [FileTree.Node.kind])
  have kind : tree.kind (names.foldl Path.join root) = .ok .directory := by
    rw [FileTree.kind, reached, Except.map, node]
    rfl
  cases read : tree.read ((names.foldl Path.join root).join indexFile) <;>
    simp only [serveFile, kind, if_true, contentType_join_indexFile, read]

theorem isName_indexFile : FileTree.isName indexFile = true := by decide

theorem read_indexFile_of_leads (rooted : tree.resolve .visitor root = .ok base)
    (leads : base.node.Leads names (.directory access entries)) (opened : access.search = true)
    {own : FileTree.Access} {content : Bytes}
    (held : FileTree.Entries.find? indexFile entries = some (.file own content)) (readable : own.read = true) :
    tree.read ((names.foldl Path.join root).join indexFile) = .content content := by
  obtain ⟨found, reached, node, -⟩ := FileTree.resolve_foldl_join rooted leads (by simp [FileTree.Node.kind])
  have child := FileTree.child_of_searchable node opened isName_indexFile held
  have arrived := FileTree.resolve_join_of_child reached isName_indexFile child (by simp [FileTree.Node.kind])
  simp only [FileTree.read, arrived, FileTree.Node.reading, readable, if_true]

theorem read_indexFile_of_missing (rooted : tree.resolve .visitor root = .ok base)
    (leads : base.node.Leads names (.directory access entries)) (opened : access.search = true)
    (missing : FileTree.Entries.find? indexFile entries = none) :
    tree.read ((names.foldl Path.join root).join indexFile) = .fault .notFound := by
  obtain ⟨found, reached, node, -⟩ := FileTree.resolve_foldl_join rooted leads (by simp [FileTree.Node.kind])
  have nothing : found.child .visitor indexFile = .error .notFound := by
    refine FileTree.child_of_missing ?_ (by decide) missing
    rw [FileTree.search_visitor node, if_pos opened]
  have directory : found.node.kind = .directory := by
    rw [node]
    rfl
  have refused := FileTree.resolve_join_of_refused reached directory isName_indexFile nothing
  simp only [FileTree.read, refused]

end Serving

section Routing

variable {pieces : List String} {names segments : List Bytes}

theorem path_targetOf {method : String} (filled : pieces ≠ [])
    (each : List.Forall₂ (fun piece segment => Spells (Utf8.encode piece) segment) pieces segments)
    (query? : Option String) : Request.path ⟨method, targetOf pieces query?⟩ = pathOf pieces := by
  have plain : ∀ c ∈ (pathOf pieces).toList, c ≠ '?' ∧ c ≠ '#' := by
    clear filled
    induction each with
    | nil => exact List.forall_mem_nil _
    | cons spelled rest ih =>
      intro c member
      simp only [pathOf, String.toList_append, List.mem_append] at member
      rcases member with (slash | inside) | behind
      · have between : ∀ c ∈ "/".toList, c ≠ '?' ∧ c ≠ '#' := by simp
        exact between c slash
      · exact Service.ne_of_mem_of_spells spelled inside
      · exact ih c behind
  have slash : (pathOf pieces).toList.head? = some '/' := by
    obtain ⟨piece, others, rfl⟩ := List.exists_cons_of_ne_nil filled
    simp only [pathOf, String.toList_append]
    rfl
  rw [targetOf, Request.path_append_query slash plain query?]

theorem separator_not_mem_of_each
    (each : List.Forall₂ (fun piece segment => Spells (Utf8.encode piece) segment) pieces segments) :
    ∀ piece ∈ pieces.map Utf8.encode, Path.separator ∉ piece := by
  induction each with
  | nil => exact List.forall_mem_nil _
  | cons spelled rest ih =>
    exact List.forall_mem_cons.2 ⟨Service.separator_not_mem_of_spells spelled, ih⟩

/-- Only three pieces can have the route of an application, and then the first one is `apps`. -/
theorem ofPath_pathOf_of_ne (whole : ∀ piece ∈ pieces.map Utf8.encode, Path.separator ∉ piece)
    (other : ∀ app file, pieces ≠ ["apps", app, file]) : Route.ofPath (Utf8.encode (pathOf pieces)) = .other := by
  rw [Route.ofPath, encode_pathOf, Bytes.split_flatMap whole]
  rcases pieces with _ | ⟨first, _ | ⟨app, _ | ⟨file, _ | ⟨next, behind⟩⟩⟩⟩
  case cons.cons.cons.nil =>
    have apart : Utf8.encode first ≠ Utf8.encode "apps" := by
      intro same
      exact other app file (by rw [Utf8.encode_inj same])
    simp only [List.map_cons, List.map_nil, apart, and_false, if_false]
  all_goals rfl

/-- Three pieces whose first one is `apps` have the route of a file, if the last one is not empty. -/
theorem ofPath_pathOf_of_file {app file : String}
    (whole : ∀ piece ∈ ["apps", app, file].map Utf8.encode, Path.separator ∉ piece) (filled : file ≠ "") :
    Route.ofPath (Utf8.encode (pathOf ["apps", app, file])) = .file (Utf8.encode app) (Utf8.encode file) := by
  have written : Utf8.encode (pathOf ["apps", app, file]) =
      Utf8.encode "/apps/" ++ Utf8.encode app ++ Utf8.encode "/" ++ Utf8.encode file := by
    rw [encode_pathOf]
    simp only [List.map_cons, List.map_nil, List.flatMap_cons, List.flatMap_nil, List.append_nil, List.append_assoc]
    rfl
  simp only [List.map_cons, List.map_nil, List.forall_mem_cons] at whole
  obtain ⟨-, inApp, inFile, -⟩ := whole
  rw [written]
  exact Route.ofPath_file inApp inFile fun empty => filled (Utf8.encode_inj empty)

/-- A request by spelled names is for a static file, also where it has the route of a file of an application. -/
theorem respond_eq_serve (service : Service) (tree : FileTree) (filled : pieces ≠ [])
    (each : List.Forall₂ (fun piece segment => Spells (Utf8.encode piece) segment) pieces segments)
    (texts : ∀ segment ∈ segments, ∃ text, segment = Utf8.encode text) (free : ¬ Reserved pieces)
    (query? : Option String) :
    service.respond tree ⟨"GET", targetOf pieces query?⟩ = serve tree service.staticRoot (pathOf pieces) := by
  have whole := separator_not_mem_of_each each
  rw [Service.respond, path_targetOf filled each query?]
  by_cases routed : ∃ app file, pieces = ["apps", app, file]
  · obtain ⟨app, file, rfl⟩ := routed
    have named : file ≠ "" := fun empty => free ⟨app, file, rfl, .inl empty⟩
    rw [ofPath_pathOf_of_file whole named]
    obtain ⟨apps, appText, fileText, spellsApp, spellsFile, rfl⟩ : ∃ apps appText fileText,
        Spells (Utf8.encode app) (Utf8.encode appText) ∧ Spells (Utf8.encode file) (Utf8.encode fileText) ∧
          segments = [apps, Utf8.encode appText, Utf8.encode fileText] := by
      rcases each with _ | ⟨-, _ | ⟨spelledApp, _ | ⟨spelledFile, _ | _⟩⟩⟩
      simp only [List.forall_mem_cons] at texts
      obtain ⟨-, ⟨appText, rfl⟩, ⟨fileText, rfl⟩, -⟩ := texts
      exact ⟨_, appText, fileText, spelledApp, spelledFile, rfl⟩
    have unserved : Kind.ofRouteFile? fileText = none := by
      apply Option.eq_none_iff_forall_ne_some.2
      intro kind served
      unfold Kind.ofRouteFile? at served
      have found := List.find?_some served
      have routeFile : kind.routeFile = fileText := of_decide_eq_true found
      refine free ⟨app, file, rfl, .inr ⟨kind, ?_⟩⟩
      rw [Percent.decodeLenient_of_spells spellsFile, routeFile]
    simp only [Service.readingOnly, if_true, Service.serveAppFile, Service.decodePart_of_spells _ spellsApp,
      Service.decodePart_of_spells _ spellsFile, unserved]
  · rw [ofPath_pathOf_of_ne whole fun app file same => routed ⟨app, file, same⟩]

end Routing

section Names

open FileTree (Node Spot Entries)

variable {names : List Bytes}

theorem isClean_of_isName {name : Bytes} (named : FileTree.isName name = true)
    (text : ∃ text, name = Utf8.encode text) (straight : 0x5C ∉ name) : IsClean name ∧ isIdle name = false := by
  obtain ⟨filled, current, parent, whole, nul, -⟩ := FileTree.isName_iff.1 named
  refine ⟨⟨text, whole, isPlain_iff.2 ⟨parent, straight, nul⟩⟩, ?_⟩
  simp [isIdle, filled, current]

/-- However the names are spelled that lead to a file below the directory of the static files, a request for them is
answered with what the file holds, byte for byte, and with the content type of its name. A directory is answered by its
index page. It is unknown if it has none, and then the answer has no body. Nothing is logged. -/
theorem respond_eq_of_leads (service : Service) (tree : FileTree) {base : Spot}
    (rooted : tree.resolve .visitor service.staticRoot = .ok base) {pieces : List String} (filled : pieces ≠ [])
    (spells : SpellsNames pieces names)
    (written : ∀ name ∈ names, (∃ text, name = Utf8.encode text) ∧ 0x5C ∉ name) (free : ¬ Reserved pieces)
    (query? : Option String) :
    let location := names.foldl Path.join service.staticRoot
    let answer := service.respond tree ⟨"GET", targetOf pieces query?⟩
    (∀ access content, base.node.Leads names (.file access content) → access.read = true →
      answer.result = { status := 200, contentType? := some (contentType location), allow? := none, body := content } ∧
        answer.events = []) ∧
    ∀ access entries, base.node.Leads names (.directory access entries) → access.search = true →
      (∀ own content, Entries.find? indexFile entries = some (.file own content) → own.read = true →
        answer.result =
            { status := 200, contentType? := some "text/html; charset=utf-8", allow? := none, body := content } ∧
          answer.events = []) ∧
      (Entries.find? indexFile entries = none →
        answer.result = { status := 404, contentType? := none, allow? := none, body := [] } ∧ answer.events = []) := by
  intro location answer
  have served {target : Node} (leads : base.node.Leads names target) : answer = serveFile tree location := by
    have named := Node.isName_of_at? (FileTree.wellFormed_of_resolve rooted).1 leads.at?_eq
    obtain ⟨segments, each, busy, clean⟩ := spells.exists_segments fun name member =>
      isClean_of_isName (named name member) (written name member).1 (written name member).2
    have static := respond_eq_serve service tree filled each (fun segment member => (clean segment member).text) free
      query?
    rw [serve, locate?_of_segments each clean, busy] at static
    exact static
  constructor
  · intro access content leads readable
    rw [served leads, serveFile_of_leads rooted leads readable]
    exact ⟨rfl, rfl⟩
  · intro access entries leads opened
    rw [served leads, serveFile_of_leads_directory rooted leads]
    constructor
    · intro own content held readable
      rw [read_indexFile_of_leads rooted leads opened held readable]
      exact ⟨rfl, rfl⟩
    · intro missing
      rw [read_indexFile_of_missing rooted leads opened missing]
      exact ⟨rfl, rfl⟩

/-- Static files, one of them where a file of an application could be. -/
def staticPages : Node := .directory .ofDirectory
  [(Utf8.encode "apps", .directory .ofDirectory
    [(Utf8.encode "one", .directory .ofDirectory [(Utf8.encode "%é.js", .file .ofFile [0xFF, 0])])]),
   (Utf8.encode "docs", .directory .ofDirectory [(indexFile, .file .ofFile (Utf8.encode "<p>"))]),
   (Utf8.encode "bare", .directory .ofDirectory [])]

def pages : FileTree where
  top := .directory .ofDirectory [(Utf8.encode "static", staticPages)]
  wellFormed := by
    simp only [staticPages, Node.WellFormed, FileTree.Node.WellFormedEntries]
    decide

/-- A file by the route of an application's file, with escapes of either case; an index page by a path with pieces that
stand for nothing; and a directory without one. -/
theorem respond_to_spellings :
    let answer (pieces : List String) (query? : Option String) : Logged Response :=
      Service.usualService.respond pages ⟨"GET", targetOf pieces query?⟩
    let file := answer ["apps", "o%6ee", "%25%c3%A9.js"] (some "v=1")
    let index := answer ["", "%64ocs", "%2e", ""] none
    let missing := answer ["bare"] none
    SpellsNames ["apps", "o%6ee", "%25%c3%A9.js"] [Utf8.encode "apps", Utf8.encode "one", Utf8.encode "%é.js"] ∧
      SpellsNames ["", "%64ocs", "%2e", ""] [Utf8.encode "docs"] ∧ SpellsNames ["bare"] [Utf8.encode "bare"] ∧
      (file.result =
          { status := 200, contentType? := some "application/javascript; charset=utf-8", allow? := none,
            body := [0xFF, 0] } ∧
        file.events = []) ∧
      (index.result =
          { status := 200, contentType? := some "text/html; charset=utf-8", allow? := none,
            body := Utf8.encode "<p>" } ∧
        index.events = []) ∧
      missing.result = { status := 404, contentType? := none, allow? := none, body := [] } ∧ missing.events = [] := by
  have rooted : pages.resolve .visitor Service.usualService.staticRoot =
      .ok ⟨staticPages, [(Utf8.encode "static", pages.top), ([], FileTree.surroundings)]⟩ := rfl
  have script : SpellsNames ["apps", "o%6ee", "%25%c3%A9.js"]
      [Utf8.encode "apps", Utf8.encode "one", Utf8.encode "%é.js"] := by
    refine .name (Percent.spells_self (by decide +kernel)) (.name ?_ (.name ?_ .nil))
    · exact .plain (by decide) (.escaped (by decide) (Percent.spells_self (by decide +kernel)))
    · exact .escaped (by decide) (.escaped (by decide) (.escaped (by decide) (Percent.spells_self (by decide +kernel))))
  have dot : Spells (Utf8.encode "%2e") [Path.dot] := .escaped (by decide) .nil
  have docs : SpellsNames ["", "%64ocs", "%2e", ""] [Utf8.encode "docs"] := by
    refine .idle .nil rfl (.name ?_ (.idle dot rfl (.idle .nil rfl .nil)))
    exact .escaped (by decide) (Percent.spells_self (by decide +kernel))
  have bare : SpellsNames ["bare"] [Utf8.encode "bare"] := .name (Percent.spells_self (by decide +kernel)) .nil
  have written (texts : List String) (straight : ∀ text ∈ texts, 0x5C ∉ Utf8.encode text) :
      ∀ name ∈ texts.map Utf8.encode, (∃ text, name = Utf8.encode text) ∧ 0x5C ∉ name := by
    intro name member
    obtain ⟨text, inside, rfl⟩ := List.mem_map.1 member
    exact ⟨⟨text, rfl⟩, straight text inside⟩
  have free : ¬ Reserved ["apps", "o%6ee", "%25%c3%A9.js"] := by
    intro ⟨app, file, same, kept⟩
    obtain ⟨-, rfl⟩ : "o%6ee" = app ∧ "%25%c3%A9.js" = file := by simpa using same
    rcases kept with empty | ⟨kind, routed⟩
    · exact absurd empty (by decide +kernel)
    · revert routed
      cases kind <;> decide +kernel
  have short : ¬ Reserved ["bare"] := by simp [Reserved]
  have long : ¬ Reserved ["", "%64ocs", "%2e", ""] := by simp [Reserved]
  have toFile : staticPages.Leads [Utf8.encode "apps", Utf8.encode "one", Utf8.encode "%é.js"]
      (.file .ofFile [0xFF, 0]) :=
    .down rfl (Entries.find?_of_mem (by decide +kernel) (.head _))
      (.down rfl (Entries.find?_of_mem (by decide +kernel) (.head _))
        (.down rfl (Entries.find?_of_mem (by decide +kernel) (.head _)) (.here _)))
  have toDocs : staticPages.Leads [Utf8.encode "docs"]
      (.directory .ofDirectory [(indexFile, .file .ofFile (Utf8.encode "<p>"))]) :=
    .down rfl (Entries.find?_of_mem (by decide +kernel) (.tail _ (.head _))) (.here _)
  have toBare : staticPages.Leads [Utf8.encode "bare"] (.directory .ofDirectory []) :=
    .down rfl (Entries.find?_of_mem (by decide +kernel) (.tail _ (.tail _ (.head _)))) (.here _)
  have file := (respond_eq_of_leads Service.usualService pages rooted (List.cons_ne_nil _ _) script
    (written ["apps", "one", "%é.js"] (by decide)) free (some "v=1")).1 _ _ toFile rfl
  have index := ((respond_eq_of_leads Service.usualService pages rooted (List.cons_ne_nil _ _) docs
    (written ["docs"] (by decide)) long none).2 _ _ toDocs rfl).1 _ _ (Entries.find?_of_mem (by decide +kernel)
    (.head _)) rfl
  have missing := ((respond_eq_of_leads Service.usualService pages rooted (List.cons_ne_nil _ _) bare
    (written ["bare"] (by decide)) short none).2 _ _ toBare rfl).2 rfl
  have known : contentType ([Utf8.encode "apps", Utf8.encode "one", Utf8.encode "%é.js"].foldl Path.join
      Service.usualService.staticRoot) = "application/javascript; charset=utf-8" := by decide +kernel
  rw [known] at file
  exact ⟨script, docs, bare, file, index, missing⟩

end Names

end StaticFiles

end BundleServer
