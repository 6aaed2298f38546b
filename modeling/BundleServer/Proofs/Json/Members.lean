import BundleServer.Json.Value
import BundleServer.Proofs.Order
import BundleServer.Proofs.Text.Utf8

/-!
# Members in order

Names compare as their bytes do, and no two names have the same bytes. Insertion keeps members strictly ascending, so
members built from a list ascend whatever the list is. A list that ascends already is kept as it stands. A name has the
value that it is given last. Where no name is given two values, the members are what is given (`mem_ofList_iff`), and
then their list is determined (`eq_of_mem_iff`).
-/

namespace BundleServer.Json.Members

variable {α : Type} {name other : String}

/-- The names ascend strictly by their bytes. -/
def Ascending (members : Members α) : Prop :=
  members.Pairwise fun before behind => compareNames before.1 behind.1 = .lt

instance : Std.TransCmp compareNames where
  eq_swap {a b} :=
    (Std.OrientedCmp.eq_swap : Bytes.compare (Utf8.encode a) (Utf8.encode b) = _)
  isLE_trans {a _ c} first second :=
    (Std.TransCmp.isLE_trans first second : (Bytes.compare (Utf8.encode a) (Utf8.encode c)).isLE = true)

instance : Std.LawfulEqCmp compareNames where
  compare_self {name} := (Std.ReflCmp.compare_self : Bytes.compare (Utf8.encode name) (Utf8.encode name) = .eq)
  eq_of_compare same := Utf8.encode_inj (Std.LawfulEqCmp.eq_of_compare same)

theorem ne_of_compareNames_lt (below : compareNames name other = .lt) : name ≠ other := by
  rintro rfl
  have same : compareNames name name = .eq := Std.ReflCmp.compare_self
  rw [same] at below
  cases below

theorem mem_insert {name : String} {value : α} {members : Members α} {pair : String × α}
    (member : pair ∈ insert name value members) : pair = (name, value) ∨ pair ∈ members := by
  induction members with
  | nil => simpa [insert] using member
  | cons head rest ih =>
    obtain ⟨other, held⟩ := head
    unfold insert at member
    split at member
    · rcases List.mem_cons.mp member with first | later
      · exact .inl first
      · exact .inr (List.mem_cons_of_mem _ later)
    · split at member
      · rcases List.mem_cons.mp member with first | later
        · exact .inl first
        · exact .inr later
      · rcases List.mem_cons.mp member with first | later
        · exact .inr (first ▸ List.mem_cons_self)
        · exact (ih later).imp_right (List.mem_cons_of_mem _)

theorem ascending_insert (name : String) (value : α) {members : Members α} (ascending : Ascending members) :
    Ascending (insert name value members) := by
  induction members with
  | nil => exact List.pairwise_singleton _ _
  | cons head rest ih =>
    obtain ⟨other, held⟩ := head
    obtain ⟨above, others⟩ := List.pairwise_cons.mp ascending
    unfold insert
    split
    · rename_i same
      subst same
      exact List.pairwise_cons.mpr ⟨above, others⟩
    · rename_i differs
      split
      · rename_i below
        refine List.pairwise_cons.mpr ⟨fun pair member => ?_, ascending⟩
        rcases List.mem_cons.mp member with rfl | later
        · exact below
        · exact Std.TransCmp.lt_trans below (above pair later)
      · rename_i notBelow
        refine List.pairwise_cons.mpr ⟨fun pair member => ?_, ih others⟩
        rcases mem_insert member with rfl | later
        · cases order : compareNames name other with
          | lt => exact absurd order notBelow
          | eq => exact absurd (Std.LawfulEqCmp.eq_of_compare order) differs
          | gt => exact Std.OrientedCmp.lt_of_gt order
        · exact above pair later

/-- A name above all others goes to the end. -/
theorem insert_of_above {value : α} {members : Members α}
    (above : ∀ pair ∈ members, compareNames pair.1 name = .lt) :
    insert name value members = members ++ [(name, value)] := by
  induction members with
  | nil => rfl
  | cons head rest ih =>
    obtain ⟨other, held⟩ := head
    have below : compareNames other name = .lt := above (other, held) List.mem_cons_self
    have order : compareNames name other = .gt := Std.OrientedCmp.gt_of_lt below
    have later := ih fun pair member => above pair (List.mem_cons_of_mem _ member)
    rw [insert, if_neg (ne_of_compareNames_lt below).symm, order, later]
    rfl

theorem ascending_foldl_insert (pairs : List (String × α)) {members : Members α} (ascending : Ascending members) :
    Ascending (pairs.foldl (fun members pair => members.insert pair.1 pair.2) members) := by
  induction pairs generalizing members with
  | nil => exact ascending
  | cons pair pairs ih => exact ih (ascending_insert pair.1 pair.2 ascending)

theorem ascending_ofList (pairs : List (String × α)) : Ascending (ofList pairs) :=
  ascending_foldl_insert pairs List.Pairwise.nil

theorem mem_foldl_insert {pairs : List (String × α)} {members : Members α} {pair : String × α}
    (member : pair ∈ pairs.foldl (fun members pair => members.insert pair.1 pair.2) members) :
    pair ∈ members ∨ pair ∈ pairs := by
  induction pairs generalizing members with
  | nil => exact .inl member
  | cons head pairs ih =>
    rcases ih member with before | later
    · rcases mem_insert before with first | held
      · exact .inr (List.mem_cons.mpr (.inl first))
      · exact .inl held
    · exact .inr (List.mem_cons_of_mem head later)

theorem mem_ofList {pairs : List (String × α)} {pair : String × α} (member : pair ∈ ofList pairs) : pair ∈ pairs :=
  (mem_foldl_insert member).resolve_left List.not_mem_nil

/-- Pairs that ascend are appended one by one. -/
theorem foldl_insert_of_ascending (pairs : List (String × α)) {members : Members α}
    (ascending : Ascending (members ++ pairs)) :
    pairs.foldl (fun members pair => members.insert pair.1 pair.2) members = members ++ pairs := by
  induction pairs generalizing members with
  | nil => simp
  | cons pair pairs ih =>
    have above : ∀ before ∈ members, compareNames before.1 pair.1 = .lt := fun before member =>
      (List.pairwise_append.mp ascending).2.2 before member pair List.mem_cons_self
    have whole : members ++ pair :: pairs = members ++ [pair] ++ pairs := by simp
    rw [whole] at ascending ⊢
    rw [List.foldl_cons, insert_of_above above]
    exact ih ascending

/-- Members that ascend are what their own list gives. -/
theorem ofList_of_ascending {members : Members α} (ascending : Ascending members) : ofList members = members :=
  foldl_insert_of_ascending members ascending

theorem get?_foldl_insert_of_ne {pairs : List (String × α)} (others : ∀ pair ∈ pairs, pair.1 ≠ name)
    (members : Members α) :
    get? name (pairs.foldl (fun members pair => members.insert pair.1 pair.2) members) = get? name members := by
  induction pairs generalizing members with
  | nil => rfl
  | cons pair pairs ih =>
    rw [List.forall_mem_cons] at others
    rw [List.foldl_cons, ih others.2, get?_insert_of_ne others.1.symm]

/-- A name has the value that it is given last. -/
theorem get?_ofList_of_last {value : α} (front : List (String × α)) {behind : List (String × α)}
    (last : ∀ pair ∈ behind, pair.1 ≠ name) : get? name (ofList (front ++ (name, value) :: behind)) = some value := by
  rw [ofList, List.foldl_append, List.foldl_cons, get?_foldl_insert_of_ne last, get?_insert_self]

theorem mem_of_get? {value : α} {members : Members α} (found : get? name members = some value) :
    (name, value) ∈ members := by
  induction members with
  | nil => cases found
  | cons head rest ih =>
    obtain ⟨other, held⟩ := head
    rw [get?] at found
    split at found
    · rename_i same
      cases found
      exact same ▸ List.mem_cons_self
    · exact List.mem_cons_of_mem _ (ih found)

theorem get?_insert (name other : String) (value : α) (members : Members α) :
    get? other (insert name value members) = if other = name then some value else get? other members := by
  by_cases same : other = name
  · rw [if_pos same, same, get?_insert_self]
  · rw [if_neg same, get?_insert_of_ne same]

/-- What is given to a name at all is given to it last somewhere. -/
theorem exists_last_of_mem {value : α} {pairs : List (String × α)} (member : (name, value) ∈ pairs) :
    ∃ front last behind, pairs = front ++ (name, last) :: behind ∧ ∀ pair ∈ behind, pair.1 ≠ name := by
  induction pairs generalizing value with
  | nil => cases member
  | cons head rest ih =>
    by_cases later : ∃ held, (name, held) ∈ rest
    · obtain ⟨held, among⟩ := later
      obtain ⟨front, last, behind, rfl, others⟩ := ih among
      exact ⟨head :: front, last, behind, rfl, others⟩
    · rcases List.mem_cons.1 member with rfl | among
      · exact ⟨[], value, rest, rfl, fun pair among same => later ⟨pair.2, same ▸ among⟩⟩
      · exact absurd ⟨value, among⟩ later

/-- If no name is given two values, the members are all that is given. -/
theorem mem_ofList_iff {pairs : List (String × α)}
    (functional : ∀ {name value value'}, (name, value) ∈ pairs → (name, value') ∈ pairs → value = value')
    {pair : String × α} : pair ∈ ofList pairs ↔ pair ∈ pairs := by
  constructor
  · exact mem_ofList
  · intro member
    obtain ⟨front, last, behind, whole, others⟩ := exists_last_of_mem member
    have given : (pair.1, last) ∈ pairs := by
      rw [whole]
      exact List.mem_append_right _ List.mem_cons_self
    have same : pair.2 = last := functional member given
    have found : get? pair.1 (ofList pairs) = some pair.2 := by
      rw [same, whole]
      exact get?_ofList_of_last front others
    exact mem_of_get? found

/-- Each member in order is found under its name. -/
theorem get?_eq_some_iff {value : α} {members : Members α} (ascending : Ascending members) :
    get? name members = some value ↔ (name, value) ∈ members := by
  refine ⟨mem_of_get?, fun member => ?_⟩
  induction members with
  | nil => cases member
  | cons head rest ih =>
    obtain ⟨other, held⟩ := head
    obtain ⟨above, others⟩ := List.pairwise_cons.1 ascending
    rw [get?]
    rcases List.mem_cons.1 member with same | later
    · cases same
      exact if_pos rfl
    · rw [if_neg (ne_of_compareNames_lt (above _ later)).symm]
      exact ih others later

/-- Members in order are determined by what they are. -/
theorem eq_of_mem_iff {first second : Members α} (ascending : Ascending first) (ascending' : Ascending second)
    (same : ∀ pair, pair ∈ first ↔ pair ∈ second) : first = second :=
  eq_of_mem_iff_of_pairwise_lt Prod.fst ascending ascending' same

end BundleServer.Json.Members
