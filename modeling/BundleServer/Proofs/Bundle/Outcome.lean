import BundleServer.Bundle.Composer
import BundleServer.Proofs.Bundle.Concatenation
import BundleServer.Proofs.Bundle.Merge

/-!
# What each item adds to a bundle

A bundle is composed item by item. An item adds a member, a block or an error, whatever the other items are: the errors
of a bundle are those of its items in their order (`errors_composeItems`), and an item that adds an error adds nothing
else (`body_composeItems_of_error`).
-/

namespace BundleServer

namespace Merge

/-- The member that an item adds. -/
def member? (suffix : Bytes) (item : Item) : Option (String × Json.Value) :=
  match readValue item with
  | .ok (fragment, value) => some (nameOf suffix fragment, value)
  | .error _ => none

/-- The error that an item adds to a merged bundle. -/
def error? (item : Item) : Option FragmentError :=
  match readValue item with
  | .ok _ => none
  | .error error => some error

theorem readValue_of_parse {fragment : Fragment} {value : Json.Value}
    (parsed : Json.parse fragment.content = .ok value) : readValue (.ok fragment) = .ok (fragment, value) := by
  simp only [readValue, bind, Except.bind, parsed]
  rfl

theorem readValue_of_refused {fragment : Fragment} {error : Json.SyntaxError}
    (refused : Json.parse fragment.content = .error error) :
    readValue (.ok fragment) = .error (.parse fragment.path error) := by
  simp only [readValue, bind, Except.bind, refused]
  rfl

theorem members_foldl_add (suffix : Bytes) (items : List Item) (merge : Merge) :
    (items.foldl (add suffix) merge).members =
      (items.filterMap (member? suffix)).foldl (fun members pair => members.insert pair.1 pair.2) merge.members := by
  induction items generalizing merge with
  | nil => rfl
  | cons item items ih =>
    rw [List.foldl_cons, ih]
    cases read : readValue item with
    | error error =>
      have nothing : member? suffix item = none := by rw [member?, read]
      rw [List.filterMap_cons_none nothing, add_of_error suffix merge read]
    | ok found =>
      have member : member? suffix item = some (nameOf suffix found.1, found.2) := by rw [member?, read]
      rw [List.filterMap_cons_some member, List.foldl_cons, add_of_ok suffix merge read]

/-- The members are those that the items add one after the other. -/
theorem members_ofItems (suffix : Bytes) (items : List Item) :
    (ofItems suffix items).members = Json.Members.ofList (items.filterMap (member? suffix)) :=
  members_foldl_add suffix items {}

theorem errors_foldl_add (suffix : Bytes) (items : List Item) (merge : Merge) :
    (items.foldl (add suffix) merge).errors = merge.errors ++ items.filterMap error? := by
  induction items generalizing merge with
  | nil => simp
  | cons item items ih =>
    rw [List.foldl_cons, ih]
    cases read : readValue item with
    | error error =>
      have failed : error? item = some error := by rw [error?, read]
      rw [List.filterMap_cons_some failed]
      simp [add, read]
    | ok found =>
      have sound : error? item = none := by rw [error?, read]
      rw [List.filterMap_cons_none sound]
      simp [add, read]

theorem errors_ofItems (suffix : Bytes) (items : List Item) : (ofItems suffix items).errors = items.filterMap error? :=
  errors_foldl_add suffix items {}

end Merge

/-- The error that an item adds to a bundle. -/
def Composition.error? : Composition → Item → Option FragmentError
  | .merge, item => Merge.error? item
  | .concatenate _, .ok _ => none
  | .concatenate _, .error error => some error

namespace Composer

variable {kind : Kind} {root : Path} {items before after : List Item}

/-- The errors of a bundle are those of its items in their order. -/
theorem errors_composeItems : (composeItems kind root items).result.errors =
    items.filterMap kind.composition.error? := by
  unfold composeItems
  cases kind.composition with
  | merge => exact Merge.errors_ofItems _ items
  | concatenate markers =>
    simp only [Concatenation.ofItems_eq]
    refine List.filterMap_congr fun item _ => ?_
    cases item <;> rfl

theorem body_composeItems_of_merge (merged : kind.composition = .merge) :
    (composeItems kind root items).result.body = (Merge.ofItems (Utf8.encode kind.suffix) items).body := by
  unfold composeItems
  rw [merged]

theorem composeItems_of_concatenate {markers : Markers} (concatenated : kind.composition = .concatenate markers) :
    (composeItems kind root items).result =
      ⟨kind, (Concatenation.fragments items).flatMap (Concatenation.block (Utf8.encode kind.suffix) markers),
        Concatenation.errorsOf items⟩ := by
  unfold composeItems
  rw [concatenated]
  simp only [Concatenation.ofItems_eq]

theorem body_composeItems_of_concatenate {markers : Markers} (concatenated : kind.composition = .concatenate markers) :
    (composeItems kind root items).result.body =
      (Concatenation.ofItems (Utf8.encode kind.suffix) markers items).body := by
  rw [composeItems_of_concatenate concatenated, Concatenation.ofItems_eq]

/-- An item that adds an error adds nothing to the body. -/
theorem body_composeItems_of_error {item : Item} {error : FragmentError}
    (failed : kind.composition.error? item = some error) :
    (composeItems kind root (before ++ item :: after)).result.body =
      (composeItems kind root (before ++ after)).result.body := by
  cases composition : kind.composition with
  | merge =>
    have nothing : Merge.member? (Utf8.encode kind.suffix) item = none := by
      rw [composition, Composition.error?, Merge.error?] at failed
      rw [Merge.member?]
      split at failed
      · cases failed
      · rename_i refused
        rw [refused]
    rw [body_composeItems_of_merge composition, body_composeItems_of_merge composition, Merge.body, Merge.body,
      Merge.members_ofItems, Merge.members_ofItems, List.filterMap_append, List.filterMap_append,
      List.filterMap_cons_none nothing]
  | concatenate markers =>
    rw [body_composeItems_of_concatenate composition, body_composeItems_of_concatenate composition]
    cases item with
    | ok fragment =>
      rw [composition] at failed
      cases failed
    | error own =>
      rw [Concatenation.body_ofItems_append, Concatenation.body_ofItems_append, Concatenation.body_ofItems_cons_error]

end Composer

end BundleServer
