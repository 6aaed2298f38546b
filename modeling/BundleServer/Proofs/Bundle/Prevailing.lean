import BundleServer.Proofs.Bundle.Outcome
import Mathlib.Data.List.Induction

/-!
# Which fragment prevails

In a merged bundle a name stands for the last of the fragments that have it and can be parsed. Merging knows of each
name the value and the path of the fragment that holds it, and both follow the same fragment: what holds after some
items holds after one more (`follows_add`), so the values and the log are those of the whole sequence
(`follows_ofItems`). Items that fail stand between others without a trace in either.
-/

namespace BundleServer

/-- The fragment of an item with the value that it holds, if it can be parsed. -/
def Item.parsed? : Item → Option (Fragment × Json.Value)
  | .error _ => none
  | .ok fragment => match Json.parse fragment.content with
    | .ok value => some (fragment, value)
    | .error _ => none

/-- What is wrong with an item: it was not read, or what was read cannot be parsed. -/
def Item.fault? : Item → Option FragmentError
  | .error error => some error
  | .ok fragment => match Json.parse fragment.content with
    | .ok _ => none
    | .error fault => some (.parse fragment.path fault)

/-- An event as it is written to a log. -/
def Log.Event.line (event : Log.Event) : Log.Level × String := (event.level, event.message)

namespace Merge

variable {suffix : Bytes} {items : List Item} {name : String}

/-- Every item can be parsed or has something wrong with it. -/
theorem readValue_cases (item : Item) :
    (∃ fragment value, readValue item = .ok (fragment, value) ∧ item.parsed? = some (fragment, value) ∧
        item.fault? = none) ∨
      ∃ error, readValue item = .error error ∧ item.parsed? = none ∧ item.fault? = some error := by
  cases item with
  | error error => exact .inr ⟨error, rfl, rfl, rfl⟩
  | ok fragment =>
    cases parsed : Json.parse fragment.content with
    | ok value =>
      refine .inl ⟨fragment, value, readValue_of_parse parsed, ?_, ?_⟩
      · simp only [Item.parsed?, parsed]
      · simp only [Item.fault?, parsed]
    | error fault =>
      refine .inr ⟨.parse fragment.path fault, readValue_of_refused parsed, ?_, ?_⟩
      · simp only [Item.parsed?, parsed]
      · simp only [Item.fault?, parsed]

theorem member?_eq (suffix : Bytes) (item : Item) :
    member? suffix item = item.parsed?.map fun found => (nameOf suffix found.1, found.2) := by
  rcases readValue_cases item with ⟨fragment, value, read, parsed, -⟩ | ⟨error, read, parsed, -⟩
  · rw [member?, read, parsed]
    rfl
  · rw [member?, read, parsed]
    rfl

theorem error?_eq_fault? (item : Item) : error? item = item.fault? := by
  rcases readValue_cases item with ⟨fragment, value, read, -, sound⟩ | ⟨error, read, -, fault⟩
  · rw [error?, read, sound]
  · rw [error?, read, fault]

/-- The fragment of an item with its value, if it can be parsed and has the name. -/
def candidate? (suffix : Bytes) (name : String) (item : Item) : Option (Fragment × Json.Value) :=
  item.parsed?.filter fun found => nameOf suffix found.1 = name

/-- The last of the fragments that can be parsed and have the name, with its value. -/
def prevailing? (suffix : Bytes) (name : String) (items : List Item) : Option (Fragment × Json.Value) :=
  (items.filterMap (candidate? suffix name)).getLast?

/-- Does the fragment stand among the items, with its value, behind all others that have the name and can be parsed? -/
structure Prevails (suffix : Bytes) (items : List Item) (name : String) (fragment : Fragment) (value : Json.Value) :
    Prop where
  named : Utf8.lossy (fragment.key suffix) = name
  parsed : Json.parse fragment.content = .ok value
  last : ∃ front behind, items = front ++ .ok fragment :: behind ∧
    ∀ later value, .ok later ∈ behind → Json.parse later.content = .ok value → Utf8.lossy (later.key suffix) ≠ name

/-- The line that an item leaves in the log, behind the items in front of it: that it is left out, or that it takes the
place of the fragment that has prevailed so far. -/
def line? (suffix : Bytes) (before : List Item) (item : Item) : Option (Log.Level × String) :=
  match item with
  | .error error => some (.warn, "Skipping fragment: " ++ error.message)
  | .ok fragment => match Json.parse fragment.content with
    | .error fault => some (.warn, "Skipping fragment: " ++ (FragmentError.parse fragment.path fault).message)
    | .ok _ => (prevailing? suffix (nameOf suffix fragment) before).map fun previous =>
      (.debug, "Duplicate key " ++ Text.Quoted.quote (nameOf suffix fragment) ++ ": " ++ fragment.path.display ++
        " overrides " ++ previous.1.path.display)

/-- The lines that items leave in the log, one after the other. -/
def lines (suffix : Bytes) (items : List Item) : List (Log.Level × String) :=
  (List.range items.length).filterMap fun i => items[i]?.bind (line? suffix (items.take i))

theorem parsed?_eq_some_iff {item : Item} {fragment : Fragment} {value : Json.Value} :
    item.parsed? = some (fragment, value) ↔ item = .ok fragment ∧ Json.parse fragment.content = .ok value := by
  constructor
  · intro found
    cases item with
    | error error => cases found
    | ok own =>
      cases parsed : Json.parse own.content with
      | ok held =>
        rw [Item.parsed?, parsed] at found
        cases found
        exact ⟨rfl, parsed⟩
      | error fault =>
        rw [Item.parsed?, parsed] at found
        cases found
  · rintro ⟨rfl, parsed⟩
    rw [Item.parsed?, parsed]

theorem candidate?_eq_some_iff {item : Item} {fragment : Fragment} {value : Json.Value} :
    candidate? suffix name item = some (fragment, value) ↔
      item = .ok fragment ∧ Json.parse fragment.content = .ok value ∧ Utf8.lossy (fragment.key suffix) = name := by
  rw [candidate?, Option.filter_eq_some_iff, parsed?_eq_some_iff, and_assoc, decide_eq_true_iff, nameOf]

/-- What prevails is the last fragment among those that can be parsed and have the name. -/
theorem prevailing?_eq_some_iff {fragment : Fragment} {value : Json.Value} :
    prevailing? suffix name items = some (fragment, value) ↔ Prevails suffix items name fragment value := by
  rw [prevailing?, List.getLast?_eq_some_iff]
  constructor
  · rintro ⟨front, whole⟩
    obtain ⟨first, rest, rfl, -, ending⟩ := List.filterMap_eq_append_iff.1 whole
    obtain ⟨skipped, item, behind, rfl, -, chosen, nothing⟩ := List.filterMap_eq_cons_iff.1 ending
    obtain ⟨rfl, parsed, named⟩ := candidate?_eq_some_iff.1 chosen
    refine ⟨named, parsed, first ++ skipped, behind, (List.append_assoc ..).symm, ?_⟩
    intro later held member read same
    have none := List.filterMap_eq_nil_iff.1 nothing _ member
    rw [candidate?_eq_some_iff.2 ⟨rfl, read, same⟩] at none
    cases none
  · rintro ⟨named, parsed, front, behind, rfl, last⟩
    have chosen : candidate? suffix name (.ok fragment) = some (fragment, value) :=
      candidate?_eq_some_iff.2 ⟨rfl, parsed, named⟩
    have nothing : behind.filterMap (candidate? suffix name) = [] := by
      refine List.filterMap_eq_nil_iff.2 fun item member => Option.eq_none_iff_forall_ne_some.2 fun found later => ?_
      obtain ⟨rfl, read, same⟩ := candidate?_eq_some_iff.1 later
      exact last found.1 found.2 member read same
    exact ⟨_, by rw [List.filterMap_append, List.filterMap_cons_some chosen, nothing]⟩

theorem prevailing?_concat_of_none {item : Item} (unparsed : item.parsed? = none) (name : String) :
    prevailing? suffix name (items ++ [item]) = prevailing? suffix name items := by
  have nothing : candidate? suffix name item = none := by rw [candidate?, unparsed, Option.filter_none]
  rw [prevailing?, List.filterMap_append, List.filterMap_cons_none nothing, List.filterMap_nil, List.append_nil,
    prevailing?]

/-- A fragment behind all others prevails for its own name. -/
theorem prevailing?_concat_of_some {item : Item} {fragment : Fragment} {value : Json.Value}
    (parsed : item.parsed? = some (fragment, value)) (name : String) :
    prevailing? suffix name (items ++ [item]) =
      if name = nameOf suffix fragment then some (fragment, value) else prevailing? suffix name items := by
  rw [prevailing?, List.filterMap_append]
  by_cases named : name = nameOf suffix fragment
  · obtain ⟨rfl, read⟩ := parsed?_eq_some_iff.1 parsed
    have chosen : candidate? suffix name (.ok fragment) = some (fragment, value) :=
      candidate?_eq_some_iff.2 ⟨rfl, read, named.symm⟩
    rw [if_pos named, List.filterMap_cons_some chosen, List.filterMap_nil, List.getLast?_concat]
  · have ignored : candidate? suffix name item = none := by
      rw [candidate?, parsed, Option.filter_some, if_neg]
      intro same
      exact named (of_decide_eq_true same).symm
    rw [if_neg named, List.filterMap_cons_none ignored, List.filterMap_nil, List.append_nil, prevailing?]

/-- One more item adds its own line to the log, which depends on the items in front of it only. -/
theorem lines_concat (items : List Item) (item : Item) :
    lines suffix (items ++ [item]) = lines suffix items ++ (line? suffix items item).toList := by
  have before : ∀ i ∈ List.range items.length,
      (items ++ [item])[i]?.bind (line? suffix ((items ++ [item]).take i)) =
        items[i]?.bind (line? suffix (items.take i)) := by
    intro i within
    have inside : i < items.length := List.mem_range.1 within
    rw [List.getElem?_append_left inside, List.take_append_of_le_length (Nat.le_of_lt inside)]
  have last : (items ++ [item])[items.length]?.bind (line? suffix ((items ++ [item]).take items.length)) =
      line? suffix items item := by
    rw [List.getElem?_concat_length, Option.bind_some, List.take_left]
  rw [lines, List.length_append, List.length_singleton, List.range_succ, List.filterMap_append,
    List.filterMap_congr before, ← lines]
  congr 1
  cases own : line? suffix items item with
  | none => exact List.filterMap_cons_none (last.trans own)
  | some line => exact List.filterMap_cons_some (last.trans own)

theorem line?_of_fault (suffix : Bytes) (before : List Item) {item : Item} {error : FragmentError}
    (fault : item.fault? = some error) : line? suffix before item = some (Log.Event.skipped error).line := by
  cases item with
  | error own =>
    cases fault
    rfl
  | ok fragment =>
    cases parsed : Json.parse fragment.content with
    | ok value =>
      rw [Item.fault?, parsed] at fault
      cases fault
    | error refusal =>
      rw [Item.fault?, parsed] at fault
      cases fault
      rw [line?, parsed]
      rfl

/-- Does a merge hold what has become of the items so far? The values and the paths that are kept beside them belong to
the fragments that prevail. -/
structure Follows (suffix : Bytes) (items : List Item) (merge : Merge) : Prop where
  members : ∀ name, merge.members.get? name = (prevailing? suffix name items).map Prod.snd
  origins : ∀ name, merge.origins.get? name = (prevailing? suffix name items).map fun found => found.1.path
  lines : merge.events.map Log.Event.line = Merge.lines suffix items

theorem follows_add {merge : Merge} (follows : Follows suffix items merge) (item : Item) :
    Follows suffix (items ++ [item]) (add suffix merge item) := by
  rcases readValue_cases item with ⟨fragment, value, read, parsed, -⟩ | ⟨error, read, unparsed, fault⟩
  · obtain ⟨rfl, content⟩ := parsed?_eq_some_iff.1 parsed
    constructor
    · intro name
      rw [add_of_ok suffix merge read, Json.Members.get?_insert, prevailing?_concat_of_some parsed, follows.members]
      split <;> rfl
    · intro name
      simp only [add, read]
      rw [Json.Members.get?_insert, prevailing?_concat_of_some parsed, follows.origins]
      split <;> rfl
    · simp only [add, read]
      rw [List.map_append, lines_concat, follows.lines, follows.origins, line?, content]
      simp only
      congr 1
      cases prevailing? suffix (nameOf suffix fragment) items <;> rfl
  · constructor
    · intro name
      rw [add_of_error suffix merge read, prevailing?_concat_of_none unparsed, follows.members]
    · intro name
      simp only [add, read]
      rw [prevailing?_concat_of_none unparsed, follows.origins]
    · have own := line?_of_fault suffix items fault
      simp only [add, read]
      rw [List.map_append, lines_concat, follows.lines, own]
      rfl

/-- Merging keeps, for every name, the fragment that prevails among all items. -/
theorem follows_ofItems (suffix : Bytes) (items : List Item) : Follows suffix items (ofItems suffix items) := by
  induction items using List.reverseRecOn with
  | nil => exact ⟨fun _ => rfl, fun _ => rfl, rfl⟩
  | append_singleton items item ih =>
    rw [ofItems, List.foldl_append]
    exact follows_add ih item

/-- Whatever the items are, a merged name stands for the value of the last fragment that has it and can be parsed. The
errors are those of the items that fail, and the members are the same without these items. The log has a line for each
error, and for each fragment that takes the place of another. -/
theorem last_prevails (suffix : Bytes) (items : List Item) :
    (ofItems suffix items).members.Ascending ∧
      (∀ name value, (name, value) ∈ (ofItems suffix items).members ↔
        ∃ fragment, Prevails suffix items name fragment value) ∧
      (∀ name, (∃ value, (name, value) ∈ (ofItems suffix items).members) ↔
        ∃ fragment value, .ok fragment ∈ items ∧ Json.parse fragment.content = .ok value ∧
          Utf8.lossy (fragment.key suffix) = name) ∧
      (ofItems suffix items).errors = items.filterMap Item.fault? ∧
      (ofItems suffix (items.filter fun item => item.fault?.isNone)).members = (ofItems suffix items).members ∧
      (ofItems suffix items).events.map Log.Event.line = lines suffix items := by
  have follows := follows_ofItems suffix items
  have ascending := (stemsFrom_ofItems suffix items).ascending
  have held (name : String) (value : Json.Value) : (name, value) ∈ (ofItems suffix items).members ↔
      ∃ fragment, Prevails suffix items name fragment value := by
    rw [← Json.Members.get?_eq_some_iff ascending, follows.members, Option.map_eq_some_iff]
    constructor
    · rintro ⟨⟨fragment, value⟩, found, rfl⟩
      exact ⟨fragment, prevailing?_eq_some_iff.1 found⟩
    · rintro ⟨fragment, prevails⟩
      exact ⟨_, prevailing?_eq_some_iff.2 prevails, rfl⟩
  refine ⟨ascending, held, fun name => ?_, ?_, ?_, follows.lines⟩
  · constructor
    · rintro ⟨value, member⟩
      obtain ⟨fragment, prevails⟩ := (held name value).1 member
      obtain ⟨front, behind, rfl, -⟩ := prevails.last
      exact ⟨fragment, value, List.mem_append_right _ List.mem_cons_self, prevails.parsed, prevails.named⟩
    · rintro ⟨fragment, value, member, parsed, named⟩
      have chosen : candidate? suffix name (.ok fragment) = some (fragment, value) :=
        candidate?_eq_some_iff.2 ⟨rfl, parsed, named⟩
      have among : (fragment, value) ∈ items.filterMap (candidate? suffix name) :=
        List.mem_filterMap.2 ⟨_, member, chosen⟩
      obtain ⟨last, found⟩ := Option.isSome_iff_exists.1 (List.getLast?_isSome.2 (List.ne_nil_of_mem among))
      exact ⟨last.2, (held name last.2).2 ⟨last.1, prevailing?_eq_some_iff.1 found⟩⟩
  · rw [errors_ofItems]
    exact List.filterMap_congr fun item _ => error?_eq_fault? item
  · rw [members_ofItems, members_ofItems, List.filterMap_filter]
    congr 1
    refine List.filterMap_congr fun item _ => ?_
    rcases readValue_cases item with ⟨fragment, value, -, -, sound⟩ | ⟨error, -, unparsed, fault⟩
    · rw [sound]
      rfl
    · rw [fault, member?_eq, unparsed]
      rfl

-- A fragment that fails between two of the same name is not the one that is overridden.
example : lines (Utf8.encode ".json")
    [.ok ⟨.ofString "a/x.json", Utf8.encode "x.json", Utf8.encode "1"⟩,
     .ok ⟨.ofString "b/x.json", Utf8.encode "x.json", Utf8.encode "\x7b"⟩,
     .ok ⟨.ofString "c/x.json", Utf8.encode "x.json", Utf8.encode "2"⟩] =
    [(.warn, "Skipping fragment: Failed to parse JSON fragment b/x.json: " ++
        "EOF while parsing an object at line 1 column 1"),
     (.debug, "Duplicate key \"x\": c/x.json overrides a/x.json")] := by
  decide +kernel

end Merge

end BundleServer
