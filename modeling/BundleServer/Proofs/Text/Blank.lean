import BundleServer.Text.Blank
import Mathlib.Data.List.TakeWhile

/-!
# Trimmed text

Trimming takes nothing away but white space (`mem_trim`). So exactly white space is trimmed to nothing, and what is left
of other text is not white space either.
-/

namespace BundleServer.Text

variable {text : String} {c : Char}

/-- Does the text hold nothing but white space? -/
def IsBlank (text : String) : Prop := ∀ c ∈ text.toList, isBlank c = true

theorem mem_dropWhile {chars : List Char} (shown : isBlank c = false) (member : c ∈ chars) :
    c ∈ chars.dropWhile isBlank := by
  rw [← List.takeWhile_append_dropWhile (p := isBlank) (l := chars), List.mem_append] at member
  refine member.resolve_left fun front => ?_
  rw [List.mem_takeWhile_imp front] at shown
  cases shown

/-- What is not white space stays. -/
theorem mem_trim (shown : isBlank c = false) (member : c ∈ text.toList) : c ∈ (trim text).toList := by
  rw [trim, String.toList_ofList, List.mem_reverse]
  apply mem_dropWhile shown
  rw [List.mem_reverse]
  exact mem_dropWhile shown member

theorem isBlank_of_trim (blank : IsBlank (trim text)) : IsBlank text := by
  intro c member
  by_contra shown
  exact shown (blank c (mem_trim (Bool.not_eq_true _ ▸ shown) member))

theorem trim_eq_empty_iff : trim text = "" ↔ IsBlank text := by
  constructor
  · intro empty
    apply isBlank_of_trim
    rw [empty]
    exact fun c member => absurd member List.not_mem_nil
  · intro blank
    have nothing : text.toList.dropWhile isBlank = [] := List.dropWhile_eq_nil_iff.2 blank
    rw [trim, nothing]
    rfl

end BundleServer.Text
