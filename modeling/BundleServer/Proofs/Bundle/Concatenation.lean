import BundleServer.Bundle.Concatenation

/-!
# Concatenations one behind the other

An item goes behind what has been concatenated so far, and nothing of that is looked at (`add_append`). So what items
give does not depend on what came before them, and items that come in two parts give what the parts give, the second
behind the first (`ofItems_append`). Bodies, errors and events never mix: each is read off the items on its own.
-/

namespace BundleServer.Concatenation

variable {suffix : Bytes} {markers : Markers}

/-- One concatenation behind another. -/
instance : Append Concatenation where
  append front behind :=
    ⟨front.body ++ behind.body, front.errors ++ behind.errors, front.events ++ behind.events⟩

theorem append_eq (front behind : Concatenation) : front ++ behind =
    ⟨front.body ++ behind.body, front.errors ++ behind.errors, front.events ++ behind.events⟩ := rfl

theorem append_nothing (whole : Concatenation) : whole ++ ({} : Concatenation) = whole := by
  simp only [append_eq, List.append_nil]

/-- What is added goes behind everything that is there. -/
theorem add_append (front behind : Concatenation) (item : Item) :
    add suffix markers (front ++ behind) item = front ++ add suffix markers behind item := by
  cases item with
  | ok fragment => simp only [add, append_eq, List.append_assoc]
  | error error => simp only [add, append_eq, List.append_assoc]

/-- The same for a sequence of items. The concatenation behind grows with each of them. -/
theorem foldl_add_append (front behind : Concatenation) (items : List Item) :
    items.foldl (add suffix markers) (front ++ behind) = front ++ items.foldl (add suffix markers) behind := by
  induction items generalizing behind with
  | nil => rfl
  | cons item items ih => rw [List.foldl_cons, List.foldl_cons, add_append, ih]

theorem ofItems_append (front behind : List Item) :
    ofItems suffix markers (front ++ behind) = ofItems suffix markers front ++ ofItems suffix markers behind := by
  calc ofItems suffix markers (front ++ behind)
      = behind.foldl (add suffix markers) (ofItems suffix markers front ++ {}) := by
        rw [ofItems, List.foldl_append, append_nothing, ofItems]
    _ = ofItems suffix markers front ++ ofItems suffix markers behind := foldl_add_append _ _ behind

theorem ofItems_cons (item : Item) (items : List Item) :
    ofItems suffix markers (item :: items) = ofItems suffix markers [item] ++ ofItems suffix markers items :=
  ofItems_append [item] items

theorem ofItems_fragment (fragment : Fragment) :
    ofItems suffix markers [.ok fragment] = ⟨block suffix markers fragment, [], []⟩ := rfl

theorem ofItems_error (error : FragmentError) :
    ofItems suffix markers [.error error] = ⟨[], [error], [.skipped error]⟩ := rfl

/-- The body is made of the blocks of the fragments, the errors are those of the items, and each leaves an event. -/
theorem ofItems_eq (items : List Item) : ofItems suffix markers items =
    ⟨(fragments items).flatMap (block suffix markers), errorsOf items, (errorsOf items).map .skipped⟩ := by
  induction items with
  | nil => rfl
  | cons item items ih =>
    rw [ofItems_cons, ih]
    cases item with
    | ok fragment =>
      rw [ofItems_fragment, append_eq]
      rfl
    | error error =>
      rw [ofItems_error, append_eq]
      rfl

theorem body_ofItems_append (front behind : List Item) : (ofItems suffix markers (front ++ behind)).body =
    (ofItems suffix markers front).body ++ (ofItems suffix markers behind).body := by
  rw [ofItems_append, append_eq]

theorem body_ofItems_cons (fragment : Fragment) (items : List Item) :
    (ofItems suffix markers (.ok fragment :: items)).body =
      block suffix markers fragment ++ (ofItems suffix markers items).body := by
  rw [ofItems_cons, ofItems_fragment, append_eq]

theorem body_ofItems_cons_error (error : FragmentError) (items : List Item) :
    (ofItems suffix markers (.error error :: items)).body = (ofItems suffix markers items).body := by
  rw [ofItems_cons, ofItems_error, append_eq, List.nil_append]

/-- Whatever the items are, the body is the sequence of the blocks of the fragments among them, in their order: the
opening marker of the key, a line end, the content as it is, the closing marker and two line ends. The errors are those
of the other items, and the log has one warning for each error and nothing else. Cut anywhere, the items give in each of
these what the two parts give, one behind the other. -/
theorem ofItems_of_sequence (suffix : Bytes) (markers : Markers) :
    (∀ items : List Item,
      ((ofItems suffix markers items).body = items.flatMap fun item => match item with
        | .ok fragment =>
          markers.renderOpening (fragment.key suffix) ++ newline :: fragment.content ++
            markers.renderClosing (fragment.key suffix) ++ [newline, newline]
        | .error _ => []) ∧
      ((ofItems suffix markers items).errors = items.filterMap fun item => match item with
        | .ok _ => none
        | .error error => some error) ∧
      (ofItems suffix markers items).events.map (fun event => (event.level, event.message)) =
        (ofItems suffix markers items).errors.map fun error => (.warn, "Skipping fragment: " ++ error.message)) ∧
    ∀ front behind : List Item,
      (ofItems suffix markers (front ++ behind)).body =
        (ofItems suffix markers front).body ++ (ofItems suffix markers behind).body ∧
      (ofItems suffix markers (front ++ behind)).errors =
        (ofItems suffix markers front).errors ++ (ofItems suffix markers behind).errors ∧
      (ofItems suffix markers (front ++ behind)).events =
        (ofItems suffix markers front).events ++ (ofItems suffix markers behind).events := by
  refine ⟨fun items => ⟨?_, ?_, ?_⟩, fun front behind => ?_⟩
  · induction items with
    | nil => rfl
    | cons item items ih =>
      rw [List.flatMap_cons, ← ih]
      cases item with
      | ok fragment => exact body_ofItems_cons fragment items
      | error error => exact body_ofItems_cons_error error items
  · rw [ofItems_eq]
    rfl
  · rw [ofItems_eq, List.map_map]
    rfl
  · rw [ofItems_append, append_eq]
    exact ⟨rfl, rfl, rfl⟩

/-- Fragments of one key both stay, and so do bytes that are no text. -/
example : (ofItems (Utf8.encode ".js") (.ofStrings "<\x7bkey\x7d>" "</>")
    [.ok ⟨.ofString "a/x.js", Utf8.encode "x.js", [0xFF]⟩,
     .error (.read (.ofString "b/x.js") (.reported "gone")),
     .ok ⟨.ofString "c/x.js", Utf8.encode "x.js", Utf8.encode "2"⟩]).body =
    Utf8.encode "<x>\n" ++ [0xFF] ++ Utf8.encode "</>\n\n<x>\n2</>\n\n" := by
  decide

end BundleServer.Concatenation
