import BundleServer.Proofs.Bundle.Outcome

/-!
# Names of members and names of files

A name in a merged bundle is decoded from the file's name without its suffix, and what is not UTF-8 shows as U+FFFD. A
suffix of ASCII characters never belongs to a sequence that was begun in front of it, so it makes no difference whether
the suffix is dropped before decoding or after it (`lossy_append_encode`). So fragments share a member exactly if the
names of their files are decoded to the same text, and files with UTF-8 names share one only if their names are equal.
-/

namespace BundleServer

namespace Fragment

/-- A key with the suffix behind it is decoded to what the whole name is decoded to. -/
theorem lossy_keyOf_append {suffix : String} (ascii : ∀ c ∈ suffix.toList, c.toNat < 0x80) {name : Bytes}
    (ends : Utf8.encode suffix <:+ name) :
    Utf8.lossy (keyOf (Utf8.encode suffix) name) ++ suffix = Utf8.lossy name := by
  obtain ⟨front, rfl⟩ := ends
  rw [keyOf_append, Utf8.lossy_append_encode front ascii]

end Fragment

namespace Merge

variable {suffix : String} {first second : Fragment} {value other : Json.Value}

/-- Two fragments that can be parsed leave one member, that of the second, exactly if they have one name. -/
theorem members_of_two_iff {suffix : Bytes} (parsed : Json.parse first.content = .ok value)
    (parsed' : Json.parse second.content = .ok other) :
    (ofItems suffix [.ok first, .ok second]).members = [(nameOf suffix second, other)] ↔
      nameOf suffix first = nameOf suffix second := by
  have members : (ofItems suffix [.ok first, .ok second]).members =
      Json.Members.insert (nameOf suffix second) other [(nameOf suffix first, value)] := by
    simp only [members_ofItems, List.filterMap_cons, List.filterMap_nil, member?, readValue_of_parse parsed,
      readValue_of_parse parsed']
    rfl
  rw [members]
  constructor
  · intro single
    by_contra differs
    have held := Json.Members.get?_insert (nameOf suffix second) (nameOf suffix first) other
      [(nameOf suffix first, value)]
    rw [single, if_neg differs] at held
    simp [Json.Members.get?, differs] at held
  · intro same
    rw [same]
    simp [Json.Members.insert]

/-- A name in a merged bundle says of the file's name what decoding says of it: with the suffix behind it, it is the
whole name as it is decoded. So two fragments have one name, and leave one member when they are merged, exactly if the
names of their files are decoded to the same text. If these are UTF-8, they are the same then. -/
theorem nameOf_eq_iff_lossy_name_eq {suffix : String} (ascii : ∀ c ∈ suffix.toList, c.toNat < 0x80) :
    (∀ name, Utf8.encode suffix <:+ name →
      Utf8.lossy (Fragment.keyOf (Utf8.encode suffix) name) ++ suffix = Utf8.lossy name) ∧
    ∀ first second : Fragment, Utf8.encode suffix <:+ first.name → Utf8.encode suffix <:+ second.name →
      (nameOf (Utf8.encode suffix) first = nameOf (Utf8.encode suffix) second ↔
        Utf8.lossy first.name = Utf8.lossy second.name) ∧
      (∀ value other, Json.parse first.content = .ok value → Json.parse second.content = .ok other →
        ((ofItems (Utf8.encode suffix) [.ok first, .ok second]).members =
            [(nameOf (Utf8.encode suffix) second, other)] ↔
          Utf8.lossy first.name = Utf8.lossy second.name)) ∧
      ((Utf8.decode? first.name).isSome → (Utf8.decode? second.name).isSome →
        nameOf (Utf8.encode suffix) first = nameOf (Utf8.encode suffix) second → first.name = second.name) := by
  refine ⟨fun name ends => Fragment.lossy_keyOf_append ascii ends, fun first second ends ends' => ?_⟩
  have whole := Fragment.lossy_keyOf_append ascii ends
  have whole' := Fragment.lossy_keyOf_append ascii ends'
  have alike : nameOf (Utf8.encode suffix) first = nameOf (Utf8.encode suffix) second ↔
      Utf8.lossy first.name = Utf8.lossy second.name := by
    rw [← whole, ← whole', String.append_left_inj]
    rfl
  refine ⟨alike, fun value other parsed parsed' => (members_of_two_iff parsed parsed').trans alike, ?_⟩
  intro decoded decoded' same
  obtain ⟨text, read⟩ := Option.isSome_iff_exists.1 decoded
  obtain ⟨text', read'⟩ := Option.isSome_iff_exists.1 decoded'
  have written := Utf8.decode?_eq_some_iff.1 read
  have written' := Utf8.decode?_eq_some_iff.1 read'
  have same_text := alike.1 same
  rw [written, written', Utf8.lossy_encode, Utf8.lossy_encode] at same_text
  rw [written, written', same_text]

/-- A name that breaks off inside a sequence, and one with a byte that no sequence begins with. -/
theorem nameOf_eq_iff_lossy_name_eq_broken :
    let suffix := Utf8.encode ".json"
    let first : Fragment := ⟨.ofString "a", [0xE2, 0x82] ++ suffix, Utf8.encode "1"⟩
    let second : Fragment := ⟨.ofString "b", [0xFF] ++ suffix, Utf8.encode "2"⟩
    (∀ c ∈ ".json".toList, c.toNat < 0x80) ∧ suffix <:+ first.name ∧ suffix <:+ second.name ∧
      Utf8.lossy (Fragment.keyOf suffix first.name) ++ ".json" = "\uFFFD.json" ∧
      nameOf suffix first = nameOf suffix second ∧
      Json.parse first.content = .ok (.number (.integer 1)) ∧ Json.parse second.content = .ok (.number (.integer 2)) ∧
      (ofItems suffix [.ok first, .ok second]).members = [(nameOf suffix second, .number (.integer 2))] := by
  intro suffix first second
  have ascii : ∀ c ∈ ".json".toList, c.toNat < 0x80 := by simp
  have ends : suffix <:+ first.name := List.suffix_append [0xE2, 0x82] suffix
  have ends' : suffix <:+ second.name := List.suffix_append [0xFF] suffix
  have parsed : Json.parse first.content = .ok (.number (.integer 1)) := rfl
  have parsed' : Json.parse second.content = .ok (.number (.integer 2)) := rfl
  have decoded : Utf8.lossy first.name = "\uFFFD.json" := by decide
  have decoded' : Utf8.lossy second.name = "\uFFFD.json" := by decide
  obtain ⟨whole, alike⟩ := nameOf_eq_iff_lossy_name_eq ascii
  obtain ⟨named, merged, -⟩ := alike first second ends ends'
  have same := decoded.trans decoded'.symm
  exact ⟨ascii, ends, ends', (whole first.name ends).trans decoded, named.2 same, parsed, parsed',
    (merged _ _ parsed parsed').2 same⟩

end Merge

end BundleServer
