import BundleServer.Http.StaticFiles
import BundleServer.Proofs.Text.Utf8

/-!
# Strict escapes

The path of a static file is read strictly. It is decoded if behind each percent sign that the reader meets stands an
escape, and what they give is UTF-8; otherwise it is refused. An escape is meant to be two hexadecimal digits. But its
characters are read as a number (`decode?_eq_some_iff`), so a plus sign with one digit behind it passes for an escape
too. This is the only difference: a path is read by its digits unless it is accepted with a plus sign in an escape.
-/

namespace BundleServer.Percent

variable {b high low : UInt8} {raw meant behind : Bytes} {value : Nat}

/-- Is the byte the hexadecimal digit of the value, in either case? -/
def IsDigit (b : UInt8) (value : Nat) : Prop :=
  (Utf8.encode "0123456789abcdef")[value]? = some b ∨ (Utf8.encode "0123456789ABCDEF")[value]? = some b

/-- The byte `+`. -/
def plus : UInt8 := 0x2B

/-- Two digits, and the byte of which they are the halves. -/
def TwoDigits (high low b : UInt8) : Prop :=
  ∃ upper lower, IsDigit high upper ∧ IsDigit low lower ∧ b = (upper * 16 + lower).toUInt8

/-- A plus sign and a digit, and the byte that has its value. -/
def SignedDigit (high low b : UInt8) : Prop := high = plus ∧ ∃ value, IsDigit low value ∧ b = value.toUInt8

/-- What two characters are read as, if they are a number. -/
def Numeral (high low b : UInt8) : Prop := TwoDigits high low b ∨ SignedDigit high low b

section Relations

variable (escape : UInt8 → UInt8 → UInt8 → Prop)

/-- Do the bytes start with an escape of the form, behind its percent sign? -/
def Starts (behind : Bytes) : Prop := ∃ high low b rest, behind = high :: low :: rest ∧ escape high low b

/-- Are the second bytes the first ones with every escape decoded, all being of the form? -/
inductive Decodes : Bytes → Bytes → Prop where
  | nil : Decodes [] []
  | plain {b : UInt8} {raw meant : Bytes} (other : b ≠ sign) (rest : Decodes raw meant) :
    Decodes (b :: raw) (b :: meant)
  | escaped {high low b : UInt8} {raw meant : Bytes} (stands : escape high low b) (rest : Decodes raw meant) :
    Decodes (sign :: high :: low :: raw) (b :: meant)

end Relations

/-- Does a reader from the left meet a percent sign with these bytes behind it? The two characters of an escape are
passed over, whatever they are. -/
inductive Meets : Bytes → Bytes → Prop where
  | here (behind : Bytes) : Meets (sign :: behind) behind
  | plain {b : UInt8} {rest behind : Bytes} (other : b ≠ sign) (later : Meets rest behind) : Meets (b :: rest) behind
  | escaped {high low : UInt8} {rest behind : Bytes} (later : Meets rest behind) :
    Meets (sign :: high :: low :: rest) behind

/-- The digit of a value stands at its place in the row of the digits, and no other byte is one. -/
theorem hexValue?_eq_some_iff : Text.hexValue? b = some value ↔ IsDigit b value := by
  constructor
  · intro digit
    have every : ∀ n < 256, ∀ value ∈ Text.hexValue? n.toUInt8, IsDigit n.toUInt8 value := by
      unfold IsDigit
      decide +kernel
    have own := every b.toNat b.toNat_lt value
    rw [Nat.toUInt8, UInt8.ofNat_toNat] at own
    exact own digit
  · have every : ∀ digits ∈ [Utf8.encode "0123456789abcdef", Utf8.encode "0123456789ABCDEF"],
        ∀ value, (within : value < digits.length) → Text.hexValue? digits[value] = some value := by decide +kernel
    rintro (lower | upper)
    · obtain ⟨within, rfl⟩ := List.getElem?_eq_some_iff.1 lower
      exact every _ List.mem_cons_self value within
    · obtain ⟨within, rfl⟩ := List.getElem?_eq_some_iff.1 upper
      exact every _ (List.mem_cons_of_mem _ List.mem_cons_self) value within

theorem not_isDigit_plus (value : Nat) : ¬ IsDigit plus value := by
  rw [← hexValue?_eq_some_iff]
  rintro ⟨⟩

/-- A plus sign is no digit, so a number is of one form only. -/
theorem not_twoDigits_plus (low b : UInt8) : ¬ TwoDigits plus low b :=
  fun ⟨_, _, digit, _⟩ => not_isDigit_plus _ digit

theorem pair?_eq_some_iff : pair? high low = some b ↔ TwoDigits high low b := by
  simp only [pair?, TwoDigits, bind, pure, Option.bind_eq_some_iff, Option.some.injEq, hexValue?_eq_some_iff]
  constructor
  · rintro ⟨upper, first, lower, second, rfl⟩
    exact ⟨upper, lower, first, second, rfl⟩
  · rintro ⟨upper, lower, first, second, rfl⟩
    exact ⟨upper, first, lower, second, rfl⟩

theorem number?_eq_some_iff : number? high low = some b ↔ Numeral high low b := by
  by_cases signed : high = plus
  · subst signed
    have read : number? plus low = (Text.hexValue? low).map (·.toUInt8) := rfl
    rw [read, Option.map_eq_some_iff]
    simp only [hexValue?_eq_some_iff]
    constructor
    · rintro ⟨value, digit, rfl⟩
      exact .inr ⟨rfl, value, digit, rfl⟩
    · rintro (digits | ⟨-, value, digit, rfl⟩)
      · exact absurd digits (not_twoDigits_plus low b)
      · exact ⟨value, digit, rfl⟩
  · have read : number? high low = pair? high low := if_neg signed
    rw [read, pair?_eq_some_iff]
    exact ⟨.inl, fun numeral => numeral.resolve_right fun sign => signed sign.1⟩

theorem decode?_plain (other : b ≠ sign) (rest : Bytes) : decode? (b :: rest) = (decode? rest).map (b :: ·) := by
  rw [decode?.eq_def]
  simp only [if_neg other]

theorem decode?_escaped (high low : UInt8) (rest : Bytes) :
    decode? (sign :: high :: low :: rest) = (number? high low).bind fun b => (decode? rest).map (b :: ·) := by
  rw [decode?.eq_def]
  simp only [if_true]
  cases number? high low with
  | none => rfl
  | some b => cases decode? rest <;> rfl

section Escapes

variable {escape other : UInt8 → UInt8 → UInt8 → Prop}

/-- Behind every percent sign in bytes that can be decoded stands an escape. -/
theorem Decodes.starts (decodes : Decodes escape raw meant) (meets : Meets raw behind) : Starts escape behind := by
  induction meets generalizing meant with
  | here behind =>
    cases decodes with
    | plain other rest => exact absurd rfl other
    | escaped stands rest => exact ⟨_, _, _, _, rfl, stands⟩
  | plain other later ih =>
    cases decodes with
    | plain other rest => exact ih rest
    | escaped stands rest => exact absurd rfl other
  | escaped later ih =>
    cases decodes with
    | plain other rest => exact absurd rfl other
    | escaped stands rest => exact ih rest

/-- Bytes can be decoded if behind every percent sign in them stands an escape. -/
theorem exists_decodes (raw : Bytes) (starts : ∀ behind, Meets raw behind → Starts escape behind) :
    ∃ meant, Decodes escape raw meant := by
  match raw with
  | [] => exact ⟨[], .nil⟩
  | b :: rest =>
    by_cases signs : b = sign
    · subst signs
      obtain ⟨high, low, b, behind, rfl, stands⟩ := starts rest (.here rest)
      obtain ⟨meant, decodes⟩ := exists_decodes behind fun later meets => starts later (.escaped meets)
      exact ⟨b :: meant, .escaped stands decodes⟩
    · obtain ⟨meant, decodes⟩ := exists_decodes rest fun later meets => starts later (.plain signs meets)
      exact ⟨b :: meant, .plain signs decodes⟩
termination_by raw.length

/-- Escapes may be taken for another form, if each that is met is of it. -/
theorem Decodes.imp (decodes : Decodes escape raw meant)
    (turns : ∀ high low b rest, Meets raw (high :: low :: rest) → escape high low b → other high low b) :
    Decodes other raw meant := by
  induction decodes with
  | nil => exact .nil
  | plain apart rest ih =>
    exact .plain apart (ih fun high low b rest meets => turns high low b rest (.plain apart meets))
  | escaped stands rest ih =>
    exact .escaped (turns _ _ _ _ (.here _) stands)
      (ih fun high low b rest meets => turns high low b rest (.escaped meets))

end Escapes

/-- The strict reader decodes the escapes that are numbers, and refuses everything else. -/
theorem decode?_eq_some_iff : decode? raw = some meant ↔ Decodes Numeral raw meant := by
  constructor
  · intro read
    fun_induction decode? raw generalizing meant with
    | case1 =>
      cases read
      exact .nil
    | case2 high low behind ih =>
      obtain ⟨b, number, read⟩ := Option.bind_eq_some_iff.1 read
      obtain ⟨meant, later, same⟩ := Option.bind_eq_some_iff.1 read
      cases same
      exact .escaped (number?_eq_some_iff.1 number) (ih later)
    | case3 rest short => cases read
    | case4 b rest other ih =>
      obtain ⟨meant, later, rfl⟩ := Option.map_eq_some_iff.1 read
      exact .plain other (ih later)
  · intro decodes
    induction decodes with
    | nil => rfl
    | plain other rest ih => rw [decode?_plain other, ih, Option.map_some]
    | escaped stands rest ih =>
      rw [decode?_escaped, number?_eq_some_iff.2 stands, Option.bind_some, ih, Option.map_some]

/-- Escapes that are numbers give the same bytes however they are decoded. -/
theorem Decodes.unique {escape : UInt8 → UInt8 → UInt8 → Prop} {first second : Bytes}
    (numbers : ∀ high low b, escape high low b → Numeral high low b) (decodes : Decodes escape raw first)
    (again : Decodes escape raw second) : first = second := by
  have read {meant : Bytes} (own : Decodes escape raw meant) : decode? raw = some meant :=
    decode?_eq_some_iff.2 (own.imp fun high low b _ _ => numbers high low b)
  exact Option.some.inj ((read decodes).symm.trans (read again))

end BundleServer.Percent

namespace BundleServer.StaticFiles

open Percent (Starts Decodes Meets TwoDigits SignedDigit Numeral)

variable {requestPath : String} {bytes : Bytes}

/-- A path is decoded if its escapes are numbers and give the bytes of a text. -/
theorem decode?_eq_some_iff : decode? requestPath = some bytes ↔
    Decodes Numeral (Utf8.encode requestPath) bytes ∧ ∃ text, bytes = Utf8.encode text := by
  have isText : (Utf8.decode? bytes).isSome ↔ ∃ text, bytes = Utf8.encode text := by
    simp only [Option.isSome_iff_exists, Utf8.decode?_eq_some_iff]
  rw [← Percent.decode?_eq_some_iff, ← isText]
  refine Option.bind_eq_some_iff.trans ?_
  constructor
  · rintro ⟨own, read, checked⟩
    split at checked
    · cases checked
      exact ⟨read, ‹_›⟩
    · cases checked
  · rintro ⟨read, valid⟩
    exact ⟨bytes, read, if_pos valid⟩

/-- Is the path read by escapes of the form? It is refused if a percent sign that is met starts none. It is decoded
exactly if each starts one and what they give is the bytes of a text, and then to these bytes. -/
structure Reads (escape : UInt8 → UInt8 → UInt8 → Prop) (requestPath : String) : Prop where
  refused : ∀ behind, Meets (Utf8.encode requestPath) behind → ¬ Starts escape behind →
    ∀ root, locate? root requestPath = none
  accepted : (decode? requestPath).isSome ↔
    (∀ behind, Meets (Utf8.encode requestPath) behind → Starts escape behind) ∧
      ∀ meant, Decodes escape (Utf8.encode requestPath) meant → ∃ text, meant = Utf8.encode text
  meant : ∀ bytes, decode? requestPath = some bytes → Decodes escape (Utf8.encode requestPath) bytes

/-- Has an escape of the path a plus sign? -/
def Signed (requestPath : String) : Prop :=
  ∃ behind, Meets (Utf8.encode requestPath) behind ∧ Starts SignedDigit behind

theorem locate?_eq_none (refused : decode? requestPath = none) (root : Path) : locate? root requestPath = none := by
  rw [locate?, refused]
  rfl

/-- A path is read by escapes of a form if the decoded paths are those that the form gives. -/
theorem reads_of_read {escape : UInt8 → UInt8 → UInt8 → Prop}
    (numbers : ∀ high low b, escape high low b → Numeral high low b)
    (read : ∀ bytes, decode? requestPath = some bytes ↔
      Decodes escape (Utf8.encode requestPath) bytes ∧ ∃ text, bytes = Utf8.encode text) :
    Reads escape requestPath := by
  constructor
  · intro behind meets malformed root
    apply locate?_eq_none
    apply Option.eq_none_iff_forall_ne_some.2
    intro bytes decoded
    exact malformed (((read bytes).1 decoded).1.starts meets)
  · constructor
    · intro accepted
      obtain ⟨bytes, decoded⟩ := Option.isSome_iff_exists.1 accepted
      obtain ⟨decodes, isText⟩ := (read bytes).1 decoded
      refine ⟨fun behind meets => decodes.starts meets, fun meant again => ?_⟩
      rw [again.unique numbers decodes]
      exact isText
    · intro ⟨starts, isText⟩
      obtain ⟨meant, decodes⟩ := Percent.exists_decodes _ starts
      rw [(read meant).2 ⟨decodes, isText meant decodes⟩]
      rfl
  · intro bytes decoded
    exact ((read bytes).1 decoded).1

/-- No escape with a plus sign is met where all escapes are two digits. -/
theorem not_signed_of_decodes (decodes : Decodes TwoDigits (Utf8.encode requestPath) bytes) : ¬ Signed requestPath := by
  intro ⟨behind, meets, high, low, b, rest, begins, signs, _⟩
  obtain ⟨high', low', b', rest', begins', digits⟩ := decodes.starts meets
  rw [begins] at begins'
  cases begins'
  rw [signs] at digits
  exact Percent.not_twoDigits_plus low b' digits

theorem reads_twoDigits_of_refused (refused : Signed requestPath → decode? requestPath = none) :
    Reads TwoDigits requestPath := by
  refine reads_of_read (fun _ _ _ => .inl) fun bytes => ?_
  constructor
  · intro decoded
    obtain ⟨decodes, isText⟩ := decode?_eq_some_iff.1 decoded
    refine ⟨decodes.imp fun high low b rest meets numeral => ?_, isText⟩
    rcases numeral with digits | signed
    · exact digits
    · have missing := refused ⟨_, meets, high, low, b, rest, rfl, signed⟩
      rw [decoded] at missing
      cases missing
  · intro ⟨decodes, isText⟩
    exact decode?_eq_some_iff.2 ⟨decodes.imp fun _ _ _ _ _ => .inl, isText⟩

/-- Every path is read by the escapes that are numbers. It is read by those that are two digits, so that any other one
refuses it, exactly if it is not accepted with a plus sign in an escape. -/
theorem reads_unless_signed (requestPath : String) :
    Reads Numeral requestPath ∧ (Reads TwoDigits requestPath ↔ (Signed requestPath → decode? requestPath = none)) := by
  refine ⟨reads_of_read (fun _ _ _ => id) fun bytes => decode?_eq_some_iff, ?_, reads_twoDigits_of_refused⟩
  intro reads signed
  apply Option.eq_none_iff_forall_ne_some.2
  intro bytes decoded
  exact not_signed_of_decodes (reads.meant bytes decoded) signed

/-- An escape with a plus sign is accepted: the file that is located has the byte 4 in its name. -/
theorem not_reads_signed :
    Signed "/%+41.txt" ∧ locate? (.ofString "static") "/%+41.txt" = some (.ofString "static/\x041.txt") ∧
      ¬ Reads TwoDigits "/%+41.txt" := by
  have meets : Meets (Utf8.encode "/%+41.txt") (Utf8.encode "+41.txt") := .plain (by decide) (.here _)
  have digit : Percent.IsDigit 0x34 4 := .inl rfl
  have located : locate? (.ofString "static") "/%+41.txt" = some (.ofString "static/\x041.txt") := by decide +kernel
  have malformed : ¬ Starts TwoDigits (Utf8.encode "+41.txt") := by
    intro ⟨high, low, b, rest, begins, digits⟩
    cases begins
    exact Percent.not_twoDigits_plus _ b digits
  refine ⟨⟨_, meets, Percent.plus, 0x34, 4, Utf8.encode "1.txt", rfl, rfl, 4, digit, rfl⟩, located, fun reads => ?_⟩
  have refused := reads.refused _ meets malformed (.ofString "static")
  rw [located] at refused
  cases refused

end BundleServer.StaticFiles
