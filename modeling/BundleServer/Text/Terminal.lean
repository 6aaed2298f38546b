import BundleServer.Text.Utf8

/-!
# Text without control sequences

A terminal acts on control characters and on the sequences that an escape starts. Output that does not go to a terminal
keeps neither: `plain` leaves what a text would show. A machine reads the text character by character. Its state is the
kind of sequence under way, and `shows` says which characters stay. A cancel or another escape ends any sequence; what
else ends it depends on its kind.

Every character that stays is one that ordinary text shows (`shows_of_mem_strip`), and text that holds only such
characters stays as it is (`strip_eq_self`).
-/

namespace BundleServer.Text.Terminal

/-- Where a reader stands. -/
inductive State where
  /-- In ordinary text. -/
  | text
  /-- Behind an escape. -/
  | escape
  /-- Behind an escape and intermediate characters. -/
  | escapeIntermediate
  /-- At the start of a control sequence. -/
  | control
  /-- Among the parameters of a control sequence. -/
  | controlParameters
  /-- Among the intermediate characters of a control sequence. -/
  | controlIntermediate
  /-- In a control sequence that is not well formed. -/
  | controlIgnored
  /-- At the start of a string for the device. -/
  | device
  /-- Among the parameters of a string for the device. -/
  | deviceParameters
  /-- Among the intermediate characters in front of a string for the device. -/
  | deviceIntermediate
  /-- Inside a string. -/
  | string
  /-- Inside a command for the system. -/
  | command
  deriving DecidableEq, Repr

/-- Is the character a control of ASCII? -/
def isControl (c : Char) : Bool := c.toNat < 0x20 || c.toNat = 0x7F

/-- Is the character a control that moves on in the text? -/
def isBlankControl (c : Char) : Bool := c = '\t' || c = '\n' || c = '\x0C' || c = '\r'

namespace State

/-- Does the character stay in the text? Strings and commands swallow also the blanks. -/
def shows (state : State) (c : Char) : Bool :=
  match state with
  | .text => isBlankControl c || !isControl c
  | .escape | .escapeIntermediate => isBlankControl c
  | .control | .controlParameters | .controlIntermediate | .controlIgnored => isBlankControl c
  | .device | .deviceParameters | .deviceIntermediate | .string | .command => false

/-- The state behind an ASCII character that no state treats alike. -/
def behindAscii (state : State) (n : Nat) : State :=
  match state with
  | .text => .text
  | .escape =>
    if n < 0x20 ∨ n = 0x7F then .escape
    else if n < 0x30 then .escapeIntermediate
    else if n = 0x50 then .device
    else if n = 0x58 ∨ n = 0x5E ∨ n = 0x5F then .string
    else if n = 0x5B then .control
    else if n = 0x5D then .command
    else .text
  | .escapeIntermediate => if 0x30 ≤ n ∧ n < 0x7F then .text else .escapeIntermediate
  | .control =>
    if n < 0x20 ∨ n = 0x7F then .control
    else if n < 0x30 then .controlIntermediate
    else if n < 0x40 then .controlParameters
    else .text
  | .controlParameters =>
    if n < 0x20 ∨ n = 0x7F then .controlParameters
    else if n < 0x30 then .controlIntermediate
    else if n < 0x3C then .controlParameters
    else if n < 0x40 then .controlIgnored
    else .text
  | .controlIntermediate =>
    if n < 0x30 ∨ n = 0x7F then .controlIntermediate
    else if n < 0x40 then .controlIgnored
    else .text
  | .controlIgnored => if 0x40 ≤ n ∧ n < 0x7F then .text else .controlIgnored
  | .device =>
    if n < 0x20 ∨ n = 0x7F then .device
    else if n < 0x30 then .deviceIntermediate
    else if n < 0x40 then .deviceParameters
    else .string
  | .deviceParameters =>
    if n < 0x20 ∨ n = 0x7F then .deviceParameters
    else if n < 0x30 then .deviceIntermediate
    else if n < 0x3C then .deviceParameters
    else .string
  | .deviceIntermediate => if n < 0x30 ∨ n = 0x7F then .deviceIntermediate else .string
  | .string => .string
  | .command => if n = 0x07 then .text else .command

/-- The state behind a character that does not stay. Characters beyond ASCII mean nothing in a sequence, but a string
ends at the byte 0x9C also where it is part of a character. -/
def behind (state : State) (c : Char) : State :=
  if c.toNat = 0x18 ∨ c.toNat = 0x1A then .text
  else if c.toNat = 0x1B then .escape
  else if c.toNat < 0x80 then state.behindAscii c.toNat
  else if state = .string ∧ (Utf8.encodeChar c).contains 0x9C then .text
  else state

end State

/-- What stays of the characters behind a state. -/
def strip : State → List Char → List Char
  | _, [] => []
  | state, c :: rest => if state.shows c then c :: strip .text rest else strip (state.behind c) rest

/-- What a text shows. -/
def plain (text : String) : String := String.ofList (strip .text text.toList)

theorem shows_text_of_shows {state : State} {c : Char} (h : state.shows c = true) : State.text.shows c = true := by
  cases state <;> simp_all [State.shows]

theorem shows_of_mem_strip {state : State} {chars : List Char} {c : Char} (h : c ∈ strip state chars) :
    State.text.shows c = true := by
  induction chars generalizing state with
  | nil => simp [strip] at h
  | cons d rest ih =>
    unfold strip at h
    split at h
    · rename_i shown
      rcases List.mem_cons.1 h with rfl | h
      · exact shows_text_of_shows shown
      · exact ih h
    · exact ih h

theorem strip_eq_self {chars : List Char} (h : ∀ c ∈ chars, State.text.shows c = true) : strip .text chars = chars := by
  induction chars with
  | nil => rfl
  | cons c rest ih =>
    unfold strip
    rw [if_pos (h c (by simp)), ih fun d member => h d (List.mem_cons_of_mem _ member)]

end BundleServer.Text.Terminal
