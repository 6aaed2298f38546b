import BundleServer.Bytes

/-!
# UTF-8

Bytes are read by a machine that takes one byte at a time. Its state is what the sequence under way still
needs. For every character of the input it gives that character, and for every maximal sequence that is
not well formed it gives `none`, once. Strict reading refuses input with a `none`; lossy reading puts the
replacement character U+FFFD in its place.

A byte below 0x80 never continues a sequence, so it ends one under way just as the end of the input does.
This is why cutting the input in front of such a byte changes no grouping (`scan_append_ascii`).
-/

namespace BundleServer.Utf8

/-- The bytes of one character. -/
def encodeChar (c : Char) : Bytes :=
  let n := c.toNat
  if n < 0x80 then [n.toUInt8]
  else if n < 0x800 then [(0xC0 + n / 0x40).toUInt8, (0x80 + n % 0x40).toUInt8]
  else if n < 0x10000 then
    [(0xE0 + n / 0x1000).toUInt8, (0x80 + n / 0x40 % 0x40).toUInt8, (0x80 + n % 0x40).toUInt8]
  else
    [(0xF0 + n / 0x40000).toUInt8, (0x80 + n / 0x1000 % 0x40).toUInt8,
     (0x80 + n / 0x40 % 0x40).toUInt8, (0x80 + n % 0x40).toUInt8]

/-- The bytes of a text given by its characters. -/
def encodeList (chars : List Char) : Bytes := chars.flatMap encodeChar

/-- The bytes of a text. -/
def encode (text : String) : Bytes := encodeList text.toList

/-- A sequence under way: the bits read so far, how many bytes follow the next one, and the range in which
the next byte must lie. -/
structure Pending where
  value : Nat
  left : Nat
  low : Nat
  high : Nat
  deriving DecidableEq, Repr

/-- What a byte does at the start of a sequence. -/
def start (b : UInt8) : List (Option Char) × Option Pending :=
  let n := b.toNat
  if n < 0x80 then ([some (Char.ofNat n)], none)
  else if n < 0xC2 then ([none], none)
  else if n < 0xE0 then ([], some ⟨n - 0xC0, 0, 0x80, 0xBF⟩)
  else if n = 0xE0 then ([], some ⟨0, 1, 0xA0, 0xBF⟩)
  else if n = 0xED then ([], some ⟨0xD, 1, 0x80, 0x9F⟩)
  else if n < 0xF0 then ([], some ⟨n - 0xE0, 1, 0x80, 0xBF⟩)
  else if n = 0xF0 then ([], some ⟨0, 2, 0x90, 0xBF⟩)
  else if n < 0xF4 then ([], some ⟨n - 0xF0, 2, 0x80, 0xBF⟩)
  else if n = 0xF4 then ([], some ⟨4, 2, 0x80, 0x8F⟩)
  else ([none], none)

/-- One byte of input: what it completes, and the state after it. -/
def step : Option Pending → UInt8 → List (Option Char) × Option Pending
  | none, b => start b
  | some p, b =>
    if p.low ≤ b.toNat ∧ b.toNat ≤ p.high then
      let value := p.value * 0x40 + (b.toNat - 0x80)
      match p.left with
      | 0 => ([some (Char.ofNat value)], none)
      | left + 1 => ([], some ⟨value, left, 0x80, 0xBF⟩)
    else (none :: (start b).1, (start b).2)

/-- Reads on from a state. A sequence that the end of the input cuts short gives one `none`. -/
def scanFrom : Option Pending → Bytes → List (Option Char)
  | none, [] => []
  | some _, [] => [none]
  | state, b :: rest => (step state b).1 ++ scanFrom (step state b).2 rest

/-- The characters of the input, with `none` for each maximal sequence that is not well formed. -/
def scan (bytes : Bytes) : List (Option Char) := scanFrom none bytes

/-- The text, if all of the input is well formed. -/
def decode? (bytes : Bytes) : Option String :=
  if (scan bytes).all Option.isSome then some (String.ofList ((scan bytes).filterMap id)) else none

/-- The text with U+FFFD for each maximal sequence that is not well formed. -/
def lossy (bytes : Bytes) : String := String.ofList ((scan bytes).map (·.getD '\uFFFD'))

/-- How many bytes stand in front of the first sequence that is not well formed. -/
def validLength (bytes : Bytes) : Nat :=
  (encodeList ((scan bytes).takeWhile Option.isSome |>.filterMap id)).length

/-- A sequence under way never takes a byte below 0x80 next. -/
def OnlyContinues (state : Option Pending) : Prop := ∀ p, state = some p → 0x80 ≤ p.low

theorem onlyContinues_start (b : UInt8) : OnlyContinues (start b).2 := by
  intro p hp
  unfold start at hp
  simp only at hp
  repeat' split at hp
  all_goals simp at hp
  all_goals subst hp; simp

theorem onlyContinues_step (state : Option Pending) (b : UInt8) : OnlyContinues (step state b).2 := by
  intro p hp
  unfold step at hp
  split at hp
  · exact onlyContinues_start b p hp
  · simp only at hp
    split at hp
    · split at hp
      · simp at hp
      · simp only [Option.some.injEq] at hp
        subst hp; simp
    · exact onlyContinues_start b p hp

theorem scanFrom_append_ascii {state : Option Pending} (continues : OnlyContinues state) (front : Bytes)
    {b : UInt8} (ascii : b.toNat < 0x80) (rest : Bytes) :
    scanFrom state (front ++ b :: rest) = scanFrom state front ++ scanFrom none (b :: rest) := by
  induction front generalizing state with
  | nil =>
    cases state with
    | none => simp [scanFrom]
    | some p =>
      have := continues p rfl
      have outside : ¬ (p.low ≤ b.toNat ∧ b.toNat ≤ p.high) := by omega
      simp [scanFrom, step, outside]
  | cons c front ih =>
    simp only [List.cons_append, scanFrom, ih (onlyContinues_step state c), List.append_assoc]

/-- Cutting in front of an ASCII byte changes no grouping. -/
theorem scan_append_ascii (front : Bytes) {b : UInt8} (ascii : b.toNat < 0x80) (rest : Bytes) :
    scan (front ++ b :: rest) = scan front ++ scan (b :: rest) :=
  scanFrom_append_ascii (by simp [OnlyContinues]) front ascii rest

end BundleServer.Utf8
