import BundleServer.Json.Literal
import BundleServer.Json.Numeral

/-!
# From text to JSON values

A value is read by what its first byte is. Arrays and objects may stand inside one another 127 deep; how many
levels are left is the argument by which the reader is built. `parse` reads one value and refuses further text.
-/

namespace BundleServer.Json

/-- Reads what follows an item of an array: further items, and the closing bracket. -/
def readItems (item : Reader Value) (bytes : Bytes) : Except Fault (List Value × Bytes) :=
  match next : skipBlank bytes with
  | [] => .error (.onNext .endInList [])
  | b :: rest =>
    if b = 0x5D then .ok ([], rest)
    else if b = 0x2C then
      match skipBlank rest with
      | [] => .error (.onNext .endInValue [])
      | c :: behind =>
        if c = 0x5D then .error (.onNext .trailingComma (c :: behind))
        else match found : item.run rest with
          | .ok (value, behind) =>
            have := item.shrinks found
            have := next ▸ length_skipBlank_le bytes
            match readItems item behind with
            | .ok (values, final) => .ok (value :: values, final)
            | .error fault => .error fault
          | .error fault => .error fault
    else .error (.onNext .noListSeparator (b :: rest))
termination_by bytes.length
decreasing_by simp only [List.length_cons] at *; omega

/-- Reads an array behind its opening bracket. -/
def readArray (item : Reader Value) (bytes : Bytes) : Except Fault (List Value × Bytes) :=
  match skipBlank bytes with
  | [] => .error (.onNext .endInList [])
  | b :: rest =>
    if b = 0x5D then .ok ([], rest)
    else match item.run bytes with
      | .ok (value, behind) => match readItems item behind with
        | .ok (values, final) => .ok (value :: values, final)
        | .error fault => .error fault
      | .error fault => .error fault

/-- Reads the colon behind a name. -/
def readColon (bytes : Bytes) : Except Fault Bytes :=
  match skipBlank bytes with
  | [] => .error (.onNext .endInObject [])
  | b :: rest => if b = 0x3A then .ok rest else .error (.onNext .noColon (b :: rest))

theorem length_readColon_le {bytes rest : Bytes} (h : readColon bytes = .ok rest) :
    rest.length ≤ bytes.length := by
  have bound := length_skipBlank_le bytes
  unfold readColon at h
  split at h
  · simp at h
  · rename_i next
    split at h
    · simp only [Except.ok.injEq] at h
      rw [next, List.length_cons, h] at bound
      omega
    · simp at h

/-- Reads a member behind the opening quote of its name. -/
def readMember (item : Reader Value) : Reader (String × Value) where
  run bytes := match Literal.reader.run bytes with
    | .ok (name, rest) => match readColon rest with
      | .ok rest => match item.run rest with
        | .ok (value, rest) => .ok ((name, value), rest)
        | .error fault => .error fault
      | .error fault => .error fault
    | .error fault => .error fault
  shrinks := by
    intro bytes member rest h
    split at h
    · rename_i name
      split at h
      · rename_i colon
        split at h
        · rename_i value
          simp only [Except.ok.injEq, Prod.mk.injEq] at h
          have := Reader.shrinks _ name
          have := length_readColon_le colon
          have := Reader.shrinks _ value
          rw [← h.2]
          omega
        · simp at h
      · simp at h
    · simp at h

/-- Reads what follows a member of an object: further members, and the closing brace. -/
def readMembers (item : Reader Value) (bytes : Bytes) : Except Fault (List (String × Value) × Bytes) :=
  match next : skipBlank bytes with
  | [] => .error (.onNext .endInObject [])
  | b :: rest =>
    if b = 0x7D then .ok ([], rest)
    else if b = 0x2C then
      match start : skipBlank rest with
      | [] => .error (.onNext .endInValue [])
      | c :: name =>
        if c = Literal.quote then
          match found : (readMember item).run name with
          | .ok (member, behind) =>
            have := (readMember item).shrinks found
            have := next ▸ length_skipBlank_le bytes
            have := start ▸ length_skipBlank_le rest
            match readMembers item behind with
            | .ok (members, final) => .ok (member :: members, final)
            | .error fault => .error fault
          | .error fault => .error fault
        else if c = 0x7D then .error (.onNext .trailingComma (c :: name))
        else .error (.onNext .nameNotString (c :: name))
    else .error (.onNext .noObjectSeparator (b :: rest))
termination_by bytes.length
decreasing_by simp only [List.length_cons] at *; omega

/-- Reads an object behind its opening brace. -/
def readObject (item : Reader Value) (bytes : Bytes) : Except Fault (List (String × Value) × Bytes) :=
  match skipBlank bytes with
  | [] => .error (.onNext .endInObject [])
  | b :: rest =>
    if b = 0x7D then .ok ([], rest)
    else if b = Literal.quote then
      match (readMember item).run rest with
      | .ok (member, behind) => match readMembers item behind with
        | .ok (members, final) => .ok (member :: members, final)
        | .error fault => .error fault
      | .error fault => .error fault
    else .error (.onNext .nameNotString (b :: rest))

theorem length_readItems_lt {item : Reader Value} {bytes rest : Bytes} {values : List Value}
    (h : readItems item bytes = .ok (values, rest)) : rest.length < bytes.length := by
  fun_induction readItems item bytes generalizing values rest <;> simp_all <;>
    grind [length_skipBlank_le]

theorem length_readArray_lt {item : Reader Value} {bytes rest : Bytes} {values : List Value}
    (h : readArray item bytes = .ok (values, rest)) : rest.length < bytes.length := by
  have bound := length_skipBlank_le bytes
  unfold readArray at h
  split at h
  · simp at h
  · rename_i next
    rw [next, List.length_cons] at bound
    split at h
    · simp only [Except.ok.injEq, Prod.mk.injEq] at h
      rw [← h.2]
      omega
    · split at h
      · rename_i first
        split at h
        · rename_i others
          simp only [Except.ok.injEq, Prod.mk.injEq] at h
          have := item.shrinks first
          have := length_readItems_lt others
          rw [← h.2]
          omega
        · simp at h
      · simp at h

theorem length_readMembers_lt {item : Reader Value} {bytes rest : Bytes}
    {members : List (String × Value)} (h : readMembers item bytes = .ok (members, rest)) :
    rest.length < bytes.length := by
  fun_induction readMembers item bytes generalizing members rest <;> simp_all <;>
    grind [length_skipBlank_le]

theorem length_readObject_lt {item : Reader Value} {bytes rest : Bytes}
    {members : List (String × Value)} (h : readObject item bytes = .ok (members, rest)) :
    rest.length < bytes.length := by
  have bound := length_skipBlank_le bytes
  unfold readObject at h
  split at h
  · simp at h
  · rename_i next
    rw [next, List.length_cons] at bound
    split at h
    · simp only [Except.ok.injEq, Prod.mk.injEq] at h
      rw [← h.2]
      omega
    · split at h
      · split at h
        · rename_i first
          split at h
          · rename_i others
            simp only [Except.ok.injEq, Prod.mk.injEq] at h
            have := Reader.shrinks _ first
            have := length_readMembers_lt others
            rw [← h.2]
            omega
          · simp at h
        · simp at h
      · simp at h

/-- A bound on what a changed result leaves follows from the bound on the result itself. -/
theorem rest_of_map {α β : Type} {result : Except Fault α} {change : α → β × Bytes} {value : β} {rest : Bytes}
    {bound : Nat} (h : result.map change = .ok (value, rest))
    (within : ∀ found, result = .ok found → (change found).2.length < bound) : rest.length < bound := by
  cases result with
  | error fault => simp [Except.map] at h
  | ok found =>
    simp only [Except.map, Except.ok.injEq] at h
    simpa [h] using within found rfl

/-- A reader of values behind blanks. It has the reader for what stands inside arrays and objects, unless no
further level is allowed. -/
def valueReader (inside? : Option (Reader Value)) : Reader Value where
  run bytes := match skipBlank bytes with
    | [] => .error (.onNext .endInValue [])
    | b :: rest =>
      if b = 0x6E then (readWord [0x75, 0x6C, 0x6C] rest).map (.null, ·)
      else if b = 0x74 then (readWord [0x72, 0x75, 0x65] rest).map (.bool true, ·)
      else if b = 0x66 then (readWord [0x61, 0x6C, 0x73, 0x65] rest).map (.bool false, ·)
      else if b = 0x2D then ((Numeral.reader true).map .number).run rest
      else if isDigit b then ((Numeral.reader false).map .number).run (b :: rest)
      else if b = Literal.quote then (Literal.reader.map .string).run rest
      else if b = 0x5B then match inside? with
        | some inside => (readArray inside rest).map fun (items, rest) => (.array items, rest)
        | none => .error (.onNext .tooDeep (b :: rest))
      else if b = 0x7B then match inside? with
        | some inside => (readObject inside rest).map fun (members, rest) => (.object (Members.ofList members), rest)
        | none => .error (.onNext .tooDeep (b :: rest))
      else .error (.onNext .noValue (b :: rest))
  shrinks := by
    intro bytes value rest h
    have bound := length_skipBlank_le bytes
    split at h
    · simp at h
    · rename_i next
      rw [next, List.length_cons] at bound
      repeat' split at h
      · exact rest_of_map h fun _ found => Nat.lt_of_le_of_lt (length_readWord_le found) (by omega)
      · exact rest_of_map h fun _ found => Nat.lt_of_le_of_lt (length_readWord_le found) (by omega)
      · exact rest_of_map h fun _ found => Nat.lt_of_le_of_lt (length_readWord_le found) (by omega)
      · have := Reader.shrinks _ h
        omega
      · have := Reader.shrinks _ h
        rw [List.length_cons] at this
        omega
      · have := Reader.shrinks _ h
        omega
      · exact rest_of_map h fun _ found => Nat.lt_trans (length_readArray_lt found) (by omega)
      · simp at h
      · exact rest_of_map h fun _ found => Nat.lt_trans (length_readObject_lt found) (by omega)
      · simp at h
      · simp at h

/-- Reads a value in which arrays and objects stand inside one another at most `levels` deep. -/
def value : Nat → Reader Value
  | 0 => valueReader none
  | levels + 1 => valueReader (some (value levels))

/-- How many levels of arrays and objects are read. -/
def levelLimit : Nat := 127

/-- Reads a value, and refuses text behind it other than blanks. -/
def parseWhole (text : Bytes) : Except Fault Value :=
  match (value levelLimit).run text with
  | .ok (value, rest) => match skipBlank rest with
    | [] => .ok value
    | b :: behind => .error (.onNext .trailingText (b :: behind))
  | .error fault => .error fault

/-- The value that a text stands for. -/
def parse (text : Bytes) : Except SyntaxError Value :=
  (parseWhole text).mapError (Fault.locate text)

end BundleServer.Json
