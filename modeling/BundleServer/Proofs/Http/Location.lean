import BundleServer.Http.StaticFiles
import BundleServer.Proofs.Path

/-!
# The location of a static file

A request path is located below the root by the segments of its decoded text. Those that stand for nothing are left
out, and every other one is a name: it becomes one more component of the path, behind those of the root. A path is
refused only if it cannot be decoded, or if a segment leads up or has a backslash or a NUL in it. As the text is cut
after it was decoded, an escaped separator separates, and an escaped dot is a dot.
-/

namespace BundleServer

namespace StaticFiles

variable {root path : Path} {requestPath : String} {decoded : Bytes}

/-- The segments of a decoded path. -/
def segments (decoded : Bytes) : List Bytes := Bytes.split Path.separator decoded

/-- The segments that stand for something. -/
def busySegments (decoded : Bytes) : List Bytes :=
  (segments decoded).filter fun segment => segment ≠ [] ∧ segment ≠ [Path.dot]

/-- Does no segment lead up, and has none a backslash or a NUL in it? -/
def Safe (decoded : Bytes) : Prop :=
  ∀ segment ∈ segments decoded, segment ≠ [Path.dot, Path.dot] ∧ 0x5C ∉ segment ∧ 0 ∉ segment

theorem busySegments_eq (decoded : Bytes) :
    busySegments decoded = (Bytes.split Path.separator decoded).filter (!isIdle ·) := by
  refine List.filter_congr fun segment _ => ?_
  simp [isIdle]

theorem isPlain_iff {segment : Bytes} :
    isPlain segment = true ↔ segment ≠ [Path.dot, Path.dot] ∧ 0x5C ∉ segment ∧ 0 ∉ segment := by
  simp [isPlain, and_assoc]

/-- What stands for nothing is harmless, so only the other segments have to be looked at. -/
theorem all_isPlain_iff : (busySegments decoded).all isPlain = true ↔ Safe decoded := by
  rw [List.all_eq_true]
  constructor
  · intro plain segment member
    by_cases busy : segment ≠ [] ∧ segment ≠ [Path.dot]
    · exact isPlain_iff.1 (plain segment (List.mem_filter.2 ⟨member, decide_eq_true busy⟩))
    · rcases Decidable.not_and_iff_not_or_not.1 busy with empty | current
      · rw [Decidable.not_not.1 empty]
        decide
      · rw [Decidable.not_not.1 current]
        decide
  · intro safe segment member
    exact isPlain_iff.2 (safe segment (List.mem_filter.1 member).1)

/-- A file is located by joining the segments of the decoded path to the root, if they are safe. -/
theorem locate?_eq_some_iff : locate? root requestPath = some path ↔
    ∃ decoded, decode? requestPath = some decoded ∧ Safe decoded ∧
      (busySegments decoded).foldl Path.join root = path := by
  refine Option.bind_eq_some_iff.trans (exists_congr fun decoded => and_congr_right fun _ => ?_)
  rw [← busySegments_eq, ← all_isPlain_iff]
  by_cases plain : (busySegments decoded).all isPlain = true
  · simp only [plain, if_true, Option.some.injEq, true_and]
  · simp only [plain, Bool.false_eq_true, if_false, false_and, reduceCtorEq]

/-- The segments of a safe path that stand for something are names. -/
theorem isSegment_of_safe (safe : Safe decoded) : ∀ segment ∈ busySegments decoded, Path.IsSegment segment := by
  intro segment member
  obtain ⟨piece, busy⟩ := List.mem_filter.1 member
  obtain ⟨filled, current⟩ := of_decide_eq_true busy
  apply Path.isSegment_of_ne
  · exact Bytes.not_mem_of_mem_split piece
  · exact filled
  · exact current
  · exact (safe segment piece).1

/-- Exactly the safe paths are accepted, and the file stands below the root: its components are those of the root, and
then the segments that stand for something, in sequence, each as a name. The root itself is kept as it is written. -/
theorem locate?_below_root (root : Path) (requestPath : String) :
    ((locate? root requestPath).isSome ↔ ∃ decoded, decode? requestPath = some decoded ∧ Safe decoded) ∧
      ∀ decoded path, decode? requestPath = some decoded → locate? root requestPath = some path →
        path.components = root.components ++ (busySegments decoded).map .normal ∧ root.bytes <+: path.bytes := by
  constructor
  · rw [Option.isSome_iff_exists]
    constructor
    · intro ⟨path, located⟩
      obtain ⟨decoded, read, safe, -⟩ := locate?_eq_some_iff.1 located
      exact ⟨decoded, read, safe⟩
    · intro ⟨decoded, read, safe⟩
      exact ⟨_, locate?_eq_some_iff.2 ⟨decoded, read, safe, rfl⟩⟩
  · intro decoded path read located
    obtain ⟨own, again, safe, rfl⟩ := locate?_eq_some_iff.1 located
    rw [read] at again
    cases again
    have names := isSegment_of_safe safe
    exact ⟨Path.components_foldl_join root names, Path.prefix_foldl_join root names⟩

/-- An escaped separator, an escaped dot, and separators that are doubled or at the end. -/
theorem locate?_below_root_escaped :
    decode? "//a%2F%2E/b/" = some (Utf8.encode "//a/./b/") ∧
      locate? (.ofString "/srv") "//a%2F%2E/b/" = some (.ofString "/srv/a/b") ∧
      (Path.ofString "/srv/a/b").components =
        (Path.ofString "/srv").components ++ [.normal (Utf8.encode "a"), .normal (Utf8.encode "b")] ∧
      (Path.ofString "/srv").bytes <+: (Path.ofString "/srv/a/b").bytes := by
  have read : decode? "//a%2F%2E/b/" = some (Utf8.encode "//a/./b/") := by decide +kernel
  have located : locate? (.ofString "/srv") "//a%2F%2E/b/" = some (.ofString "/srv/a/b") := by decide +kernel
  exact ⟨read, located, (locate?_below_root _ _).2 _ _ read located⟩

/-- A backslash cannot be escaped into a segment, and neither can a step upward. -/
example : locate? (.ofString "/srv") "/a%5Cb" = none ∧ locate? (.ofString "/srv") "/a%2F%2e./b" = none := by
  decide +kernel

end StaticFiles

end BundleServer
