import BundleServer.Decimal.Binary64
import BundleServer.Text.Utf8

/-!
# JSON values

Numbers are whole numbers or doubles. The members of an object stand in a list; `Members.insert` keeps such a list
strictly ascending by the bytes of the names, with one value for each name.
-/

namespace BundleServer.Json

/-- A number: whole, or a double. -/
inductive Number where
  | integer (value : Int)
  | float (value : Binary64)
  deriving DecidableEq, Repr

/-- A JSON value. -/
inductive Value where
  | null
  | bool (value : Bool)
  | number (value : Number)
  | string (text : String)
  | array (items : List Value)
  | object (members : List (String × Value))
  deriving Repr

/-- Names with what they stand for. -/
abbrev Members (α : Type) := List (String × α)

namespace Members

variable {α : Type}

/-- Names are ordered by their bytes. -/
def compareNames (a b : String) : Ordering := Bytes.compare (Utf8.encode a) (Utf8.encode b)

/-- Gives a name its value. An earlier value of the name is replaced. -/
def insert (name : String) (value : α) : Members α → Members α
  | [] => [(name, value)]
  | (other, held) :: rest =>
    if name = other then (name, value) :: rest
    else match compareNames name other with
      | .lt => (name, value) :: (other, held) :: rest
      | _ => (other, held) :: insert name value rest

/-- The value of a name. -/
def get? (name : String) : Members α → Option α
  | [] => none
  | (other, held) :: rest => if name = other then some held else get? name rest

/-- The members that come from giving names their values one after the other. -/
def ofList (pairs : List (String × α)) : Members α :=
  pairs.foldl (fun members pair => members.insert pair.1 pair.2) []

theorem get?_insert_self (name : String) (value : α) (members : Members α) :
    get? name (insert name value members) = some value := by
  induction members with
  | nil => simp [insert, get?]
  | cons head rest ih =>
    obtain ⟨other, held⟩ := head
    unfold insert
    split
    · simp [get?]
    · rename_i differs
      split
      · simp [get?]
      · simp [get?, differs, ih]

theorem get?_insert_of_ne {name other : String} (differs : other ≠ name) (value : α)
    (members : Members α) : get? other (insert name value members) = get? other members := by
  induction members with
  | nil => simp [insert, get?, differs]
  | cons head rest ih =>
    obtain ⟨third, held⟩ := head
    unfold insert
    split
    · rename_i same
      subst same
      simp [get?, differs]
    · split
      · simp [get?, differs]
      · simp [get?, ih]

end Members

mutual

/-- How many arrays and objects stand inside one another at most. -/
def Value.depth : Value → Nat
  | .array items => depthOfItems items + 1
  | .object members => depthOfMembers members + 1
  | _ => 0

/-- The greatest depth of the items of an array. -/
def depthOfItems : List Value → Nat
  | [] => 0
  | item :: rest => max item.depth (depthOfItems rest)

/-- The greatest depth of the values of an object. -/
def depthOfMembers : List (String × Value) → Nat
  | [] => 0
  | (_, value) :: rest => max value.depth (depthOfMembers rest)

end

end BundleServer.Json
