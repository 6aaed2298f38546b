import BundleServer.Text.Utf8

/-!
# UTF-8 read back

The bytes of a text are read as that text, whatever follows them. So a text is known by its bytes, and what was
written never has a sequence that is not well formed. Conversely, bytes without such a sequence are those of a text
(`exists_encodeList`), so reading accepts exactly what writing gives (`decode?_eq_some_iff`).
-/

namespace BundleServer.Utf8

theorem toNat_toUInt8 {n : Nat} (small : n < 0x100) : n.toUInt8.toNat = n := by
  simp only [Nat.toUInt8, UInt8.toNat_ofNat']
  omega

/-- The numbers that are characters. -/
theorem toNat_bounds (c : Char) : c.toNat < 0xD800 ∨ 0xDFFF < c.toNat ∧ c.toNat < 0x110000 := by
  have valid := c.valid
  simp only [UInt32.isValidChar, Nat.isValidChar] at valid
  exact valid

/-- The last byte of a sequence ends it. -/
theorem scanFrom_last {value low high n : Nat} (within : low ≤ 0x80 + n ∧ 0x80 + n ≤ high)
    (small : n < 0x40) (rest : Bytes) :
    scanFrom (some ⟨value, 0, low, high⟩) ((0x80 + n).toUInt8 :: rest)
      = some (Char.ofNat (value * 0x40 + n)) :: scanFrom none rest := by
  have byte : (0x80 + n).toUInt8.toNat = 0x80 + n := toNat_toUInt8 (by omega)
  simp only [scanFrom, step, byte, within, and_self, if_true, Nat.add_sub_cancel_left, List.singleton_append]

/-- A byte before the last adds its six bits. -/
theorem scanFrom_more {value left low high n : Nat} (within : low ≤ 0x80 + n ∧ 0x80 + n ≤ high)
    (small : n < 0x40) (rest : Bytes) :
    scanFrom (some ⟨value, left + 1, low, high⟩) ((0x80 + n).toUInt8 :: rest)
      = scanFrom (some ⟨value * 0x40 + n, left, 0x80, 0xBF⟩) rest := by
  have byte : (0x80 + n).toUInt8.toNat = 0x80 + n := toNat_toUInt8 (by omega)
  simp only [scanFrom, step, byte, within, and_self, if_true, Nat.add_sub_cancel_left, List.nil_append]

theorem start_two {n : Nat} (from2 : 2 ≤ n) (below : n < 0x20) :
    start (0xC0 + n).toUInt8 = ([], some ⟨n, 0, 0x80, 0xBF⟩) := by
  have byte : (0xC0 + n).toUInt8.toNat = 0xC0 + n := toNat_toUInt8 (by omega)
  have notAscii : ¬ 0xC0 + n < 0x80 := by omega
  have notShort : ¬ 0xC0 + n < 0xC2 := by omega
  have isTwo : 0xC0 + n < 0xE0 := by omega
  simp only [start, byte, notAscii, notShort, isTwo, if_true, if_false, Nat.add_sub_cancel_left]

/-- The byte behind the first of three is kept away from sequences too long and from surrogates. -/
theorem start_three {n : Nat} (below : n < 0x10) :
    start (0xE0 + n).toUInt8
      = ([], some ⟨n, 1, if n = 0 then 0xA0 else 0x80, if n = 0xD then 0x9F else 0xBF⟩) := by
  have byte : (0xE0 + n).toUInt8.toNat = 0xE0 + n := toNat_toUInt8 (by omega)
  unfold start
  simp only [byte]
  by_cases zero : n = 0
  · subst zero; rfl
  by_cases surrogates : n = 0xD
  · subst surrogates; rfl
  simp only [zero, surrogates, if_false, show ¬ 0xE0 + n < 0x80 by omega, show ¬ 0xE0 + n < 0xC2 by omega,
    show ¬ 0xE0 + n < 0xE0 by omega, show ¬ 0xE0 + n = 0xE0 by omega, show ¬ 0xE0 + n = 0xED by omega,
    show 0xE0 + n < 0xF0 by omega, if_true, Nat.add_sub_cancel_left]

/-- The byte behind the first of four is kept away from sequences too long and from numbers too great. -/
theorem start_four {n : Nat} (upto : n ≤ 4) :
    start (0xF0 + n).toUInt8
      = ([], some ⟨n, 2, if n = 0 then 0x90 else 0x80, if n = 4 then 0x8F else 0xBF⟩) := by
  match n, upto with
  | 0, _ | 1, _ | 2, _ | 3, _ | 4, _ => rfl

theorem scanFrom_none_cons (b : UInt8) (rest : Bytes) :
    scanFrom none (b :: rest) = (start b).1 ++ scanFrom (start b).2 rest := rfl

/-- A character is read back from its bytes, whatever follows them. -/
theorem scanFrom_encodeChar (c : Char) (rest : Bytes) :
    scanFrom none (encodeChar c ++ rest) = some c :: scanFrom none rest := by
  have bounds := toNat_bounds c
  have back : ∀ {n}, n = c.toNat → Char.ofNat n = c := fun same => same ▸ Char.ofNat_toNat c
  unfold encodeChar
  by_cases one : c.toNat < 0x80
  · have byte : c.toNat.toUInt8.toNat = c.toNat := toNat_toUInt8 (by omega)
    simp only [one, if_true, List.singleton_append, scanFrom_none_cons, start, byte, back rfl]
  by_cases two : c.toNat < 0x800
  · simp only [one, two, if_true, if_false, List.cons_append, List.nil_append, scanFrom_none_cons]
    rw [start_two (by omega) (by omega), List.nil_append, scanFrom_last (by omega) (by omega), back (by omega)]
  by_cases three : c.toNat < 0x10000
  · simp only [one, two, three, if_true, if_false, List.cons_append, List.nil_append, scanFrom_none_cons]
    have within : (if c.toNat / 0x1000 = 0 then 0xA0 else 0x80) ≤ 0x80 + c.toNat / 0x40 % 0x40
        ∧ 0x80 + c.toNat / 0x40 % 0x40 ≤ if c.toNat / 0x1000 = 0xD then 0x9F else 0xBF := by
      constructor <;> split <;> omega
    rw [start_three (by omega), List.nil_append, scanFrom_more within (by omega),
      scanFrom_last (by omega) (by omega), back (by omega)]
  · simp only [one, two, three, if_false, List.cons_append, List.nil_append, scanFrom_none_cons]
    have within : (if c.toNat / 0x40000 = 0 then 0x90 else 0x80) ≤ 0x80 + c.toNat / 0x1000 % 0x40
        ∧ 0x80 + c.toNat / 0x1000 % 0x40 ≤ if c.toNat / 0x40000 = 4 then 0x8F else 0xBF := by
      constructor <;> split <;> omega
    rw [start_four (by omega), List.nil_append, scanFrom_more within (by omega),
      scanFrom_more (by omega) (by omega), scanFrom_last (by omega) (by omega), back (by omega)]

/-- A byte below 0x80 stands for the character of its number and in no other one. -/
theorem toNat_of_mem_encodeChar {c : Char} {b : UInt8} (member : b ∈ encodeChar c) (ascii : b.toNat < 0x80) :
    c.toNat = b.toNat := by
  have bounds := toNat_bounds c
  have high {n : Nat} (from80 : 0x80 ≤ n) (small : n < 0x100) (same : b = n.toUInt8) : False := by
    rw [same, toNat_toUInt8 small] at ascii
    omega
  unfold encodeChar at member
  by_cases one : c.toNat < 0x80
  · simp only [one, if_true, List.mem_singleton] at member
    rw [member, toNat_toUInt8 (by omega)]
  by_cases two : c.toNat < 0x800
  · simp only [one, two, if_true, if_false, List.mem_cons, List.not_mem_nil, or_false] at member
    rcases member with same | same
    · exact (high (by omega) (by omega) same).elim
    · exact (high (by omega) (by omega) same).elim
  by_cases three : c.toNat < 0x10000
  · simp only [one, two, three, if_true, if_false, List.mem_cons, List.not_mem_nil, or_false] at member
    rcases member with same | same | same
    · exact (high (by omega) (by omega) same).elim
    · exact (high (by omega) (by omega) same).elim
    · exact (high (by omega) (by omega) same).elim
  · simp only [one, two, three, if_false, List.mem_cons, List.not_mem_nil, or_false] at member
    rcases member with same | same | same | same
    · exact (high (by omega) (by omega) same).elim
    · exact (high (by omega) (by omega) same).elim
    · exact (high (by omega) (by omega) same).elim
    · exact (high (by omega) (by omega) same).elim

theorem scan_encodeList (chars : List Char) : scan (encodeList chars) = chars.map some := by
  unfold scan
  induction chars with
  | nil => rfl
  | cons c chars ih =>
    rw [encodeList, List.flatMap_cons, scanFrom_encodeChar, List.map_cons]
    exact congrArg _ ih

theorem decode?_encodeList (chars : List Char) : decode? (encodeList chars) = some (String.ofList chars) := by
  have whole : (chars.map some).all Option.isSome = true := by simp
  have inside : (chars.map some).filterMap id = chars := by
    rw [List.filterMap_map]
    exact List.filterMap_some
  rw [decode?, scan_encodeList, if_pos whole, inside]

/-- A text is read back from its bytes. -/
theorem decode?_encode (text : String) : decode? (encode text) = some text := by
  rw [encode, decode?_encodeList, String.ofList_toList]

/-- A text is also what is shown of its bytes. -/
theorem lossy_encode (text : String) : lossy (encode text) = text := by
  rw [lossy, encode, scan_encodeList, List.map_map]
  exact (congrArg String.ofList (List.map_id text.toList)).trans String.ofList_toList

/-- Text of ASCII characters is decoded on its own, whatever bytes stand in front of it. -/
theorem scan_append_encodeList (front : Bytes) {chars : List Char} (ascii : ∀ c ∈ chars, c.toNat < 0x80) :
    scan (front ++ encodeList chars) = scan front ++ scan (encodeList chars) := by
  cases chars with
  | nil => simp [encodeList, scan, scanFrom]
  | cons c chars =>
    have small : c.toNat < 0x80 := ascii c List.mem_cons_self
    have first : encodeList (c :: chars) = c.toNat.toUInt8 :: encodeList chars := by
      simp only [encodeList, List.flatMap_cons, encodeChar, small, if_true, List.singleton_append]
    have below : c.toNat.toUInt8.toNat < 0x80 := by
      rw [toNat_toUInt8 (Nat.lt_trans small (by decide))]
      exact small
    rw [first, scan_append_ascii front below]

theorem lossy_append_encode (front : Bytes) {suffix : String} (ascii : ∀ c ∈ suffix.toList, c.toNat < 0x80) :
    lossy (front ++ encode suffix) = lossy front ++ suffix := by
  calc lossy (front ++ encode suffix)
      = lossy front ++ lossy (encode suffix) := by
        rw [lossy, encode, scan_append_encodeList front ascii, List.map_append, String.ofList_append]
        rfl
    _ = lossy front ++ suffix := by rw [lossy_encode]

theorem encodeList_append (front behind : List Char) :
    encodeList (front ++ behind) = encodeList front ++ encodeList behind :=
  List.flatMap_append

theorem encode_append (front behind : String) : encode (front ++ behind) = encode front ++ encode behind := by
  rw [encode, String.toList_append, encodeList_append]
  rfl

/-- A character below 0x80 stands in a text only if its byte does. -/
theorem mem_encodeList_of_ascii {c : Char} (ascii : c.toNat < 0x80) {chars : List Char} (member : c ∈ chars) :
    c.toNat.toUInt8 ∈ encodeList chars := by
  refine List.mem_flatMap.2 ⟨c, member, ?_⟩
  unfold encodeChar
  simp only [ascii, if_true, List.mem_singleton]

section Sound

variable {rest : Bytes} {n m k l : Nat}

/-- The character of a number that is one. -/
theorem exists_char (valid : n < 0xD800 ∨ 0xDFFF < n ∧ n < 0x110000) : ∃ c : Char, c.toNat = n :=
  ⟨Char.ofNatAux n valid, rfl⟩

theorem exists_encodeChar_one (below : n < 0x80) : ∃ c, encodeChar c = [n.toUInt8] := by
  obtain ⟨c, number⟩ := exists_char (.inl (show n < 0xD800 by omega))
  refine ⟨c, ?_⟩
  simp only [encodeChar, number, below, if_true]

theorem exists_encodeChar_two (from2 : 2 ≤ n) (below : n < 0x20) (small : m < 0x40) :
    ∃ c, encodeChar c = [(0xC0 + n).toUInt8, (0x80 + m).toUInt8] := by
  obtain ⟨c, number⟩ := exists_char (.inl (show n * 0x40 + m < 0xD800 by omega))
  refine ⟨c, ?_⟩
  have notAscii : ¬ c.toNat < 0x80 := by omega
  have isTwo : c.toNat < 0x800 := by omega
  simp only [encodeChar, notAscii, isTwo, if_true, if_false]
  rw [show c.toNat / 0x40 = n by omega, show c.toNat % 0x40 = m by omega]

theorem exists_encodeChar_three (below : n < 0x10) (small : m < 0x40) (small' : k < 0x40)
    (low : (if n = 0 then 0xA0 else 0x80) ≤ 0x80 + m) (high : 0x80 + m ≤ if n = 0xD then 0x9F else 0xBF) :
    ∃ c, encodeChar c = [(0xE0 + n).toUInt8, (0x80 + m).toUInt8, (0x80 + k).toUInt8] := by
  have from3 : 0x800 ≤ (n * 0x40 + m) * 0x40 + k := by split at low <;> omega
  have apart : (n * 0x40 + m) * 0x40 + k < 0xD800 ∨ 0xDFFF < (n * 0x40 + m) * 0x40 + k := by split at high <;> omega
  obtain ⟨c, number⟩ := exists_char (apart.imp_right fun above => ⟨above, by omega⟩)
  refine ⟨c, ?_⟩
  have notAscii : ¬ c.toNat < 0x80 := by omega
  have notTwo : ¬ c.toNat < 0x800 := by omega
  have isThree : c.toNat < 0x10000 := by omega
  simp only [encodeChar, notAscii, notTwo, isThree, if_true, if_false]
  rw [show c.toNat / 0x1000 = n by omega, show c.toNat / 0x40 % 0x40 = m by omega, show c.toNat % 0x40 = k by omega]

theorem exists_encodeChar_four (upto : n ≤ 4) (small : m < 0x40) (small' : k < 0x40) (small'' : l < 0x40)
    (low : (if n = 0 then 0x90 else 0x80) ≤ 0x80 + m) (high : 0x80 + m ≤ if n = 4 then 0x8F else 0xBF) :
    ∃ c, encodeChar c =
      [(0xF0 + n).toUInt8, (0x80 + m).toUInt8, (0x80 + k).toUInt8, (0x80 + l).toUInt8] := by
  have from4 : 0x10000 ≤ ((n * 0x40 + m) * 0x40 + k) * 0x40 + l := by split at low <;> omega
  have below : ((n * 0x40 + m) * 0x40 + k) * 0x40 + l < 0x110000 := by split at high <;> omega
  obtain ⟨c, number⟩ := exists_char (.inr ⟨by omega, below⟩)
  refine ⟨c, ?_⟩
  have notAscii : ¬ c.toNat < 0x80 := by omega
  have notTwo : ¬ c.toNat < 0x800 := by omega
  have notThree : ¬ c.toNat < 0x10000 := by omega
  simp only [encodeChar, notAscii, notTwo, notThree, if_false]
  rw [show c.toNat / 0x40000 = n by omega, show c.toNat / 0x1000 % 0x40 = m by omega,
    show c.toNat / 0x40 % 0x40 = k by omega, show c.toNat % 0x40 = l by omega]

theorem exists_eq_toUInt8 {b : UInt8} {low : Nat} (above : low ≤ b.toNat) :
    ∃ n, b.toNat = low + n ∧ b = (low + n).toUInt8 := by
  obtain ⟨n, number⟩ := Nat.exists_eq_add_of_le above
  refine ⟨n, number, UInt8.toNat_inj.1 ?_⟩
  rw [← number, toNat_toUInt8 b.toNat_lt]

/-- A sequence that is read to its end goes on with a byte in the range. If it was not the last one, what follows is
read to the end as well. -/
theorem exists_of_pending {value left low high : Nat} (above : 0x80 ≤ low) (below : high ≤ 0xBF)
    (sound : none ∉ scanFrom (some ⟨value, left, low, high⟩) rest) :
    ∃ n behind, rest = (0x80 + n).toUInt8 :: behind ∧ n < 0x40 ∧ low ≤ 0x80 + n ∧ 0x80 + n ≤ high ∧
      ∀ more, left = more + 1 → none ∉ scanFrom (some ⟨value * 0x40 + n, more, 0x80, 0xBF⟩) behind := by
  cases rest with
  | nil => exact absurd List.mem_cons_self sound
  | cons b behind =>
    by_cases within : low ≤ b.toNat ∧ b.toNat ≤ high
    · obtain ⟨n, number, rfl⟩ := exists_eq_toUInt8 (show 0x80 ≤ b.toNat by omega)
      rw [number] at within
      refine ⟨n, behind, rfl, by omega, within.1, within.2, ?_⟩
      rintro more rfl
      rwa [scanFrom_more within (by omega)] at sound
    · simp [scanFrom, step, within] at sound

/-- Bytes that are read without a fault start with those of a character. -/
theorem exists_encodeChar {b : UInt8} (sound : none ∉ scan (b :: rest)) :
    ∃ c behind, b :: rest = encodeChar c ++ behind := by
  rw [scan, scanFrom_none_cons] at sound
  have small := b.toNat_lt
  -- The first byte says how many bytes belong to the character.
  by_cases one : b.toNat < 0x80
  · obtain ⟨n, number, rfl⟩ := exists_eq_toUInt8 (Nat.zero_le b.toNat)
    obtain ⟨c, bytes⟩ := exists_encodeChar_one (show 0 + n < 0x80 by omega)
    exact ⟨c, rest, by rw [bytes]; rfl⟩
  by_cases two : 0xC2 ≤ b.toNat ∧ b.toNat < 0xE0
  · obtain ⟨n, number, rfl⟩ := exists_eq_toUInt8 (show 0xC0 ≤ b.toNat by omega)
    rw [start_two (by omega) (by omega)] at sound
    obtain ⟨m, behind, rfl, fits, -, -, -⟩ := exists_of_pending (by omega) (by omega) sound
    obtain ⟨c, bytes⟩ := exists_encodeChar_two (show 2 ≤ n by omega) (by omega) fits
    exact ⟨c, behind, by rw [bytes]; rfl⟩
  by_cases three : 0xE0 ≤ b.toNat ∧ b.toNat < 0xF0
  · obtain ⟨n, number, rfl⟩ := exists_eq_toUInt8 three.1
    rw [start_three (by omega)] at sound
    obtain ⟨m, behind, rfl, fits, low, high, further⟩ :=
      exists_of_pending (by split <;> omega) (by split <;> omega) sound
    obtain ⟨k, behind, rfl, fits', -, -, -⟩ := exists_of_pending (by omega) (by omega) (further 0 rfl)
    obtain ⟨c, bytes⟩ := exists_encodeChar_three (by omega) fits fits' low high
    exact ⟨c, behind, by rw [bytes]; rfl⟩
  by_cases four : 0xF0 ≤ b.toNat ∧ b.toNat ≤ 0xF4
  · obtain ⟨n, number, rfl⟩ := exists_eq_toUInt8 four.1
    rw [start_four (by omega)] at sound
    obtain ⟨m, behind, rfl, fits, low, high, further⟩ :=
      exists_of_pending (by split <;> omega) (by split <;> omega) sound
    obtain ⟨k, behind, rfl, fits', -, -, further'⟩ := exists_of_pending (by omega) (by omega) (further 1 rfl)
    obtain ⟨l, behind, rfl, fits'', -, -, -⟩ := exists_of_pending (by omega) (by omega) (further' 0 rfl)
    obtain ⟨c, bytes⟩ := exists_encodeChar_four (by omega) fits fits' fits'' low high
    exact ⟨c, behind, by rw [bytes]; rfl⟩
  · have refused : start b = ([none], none) := by
      by_cases short : b.toNat < 0xC2
      · simp only [start, one, short, if_true, if_false]
      · simp only [start, one, short, if_false, show ¬ b.toNat < 0xE0 by omega, show ¬ b.toNat = 0xE0 by omega,
          show ¬ b.toNat = 0xED by omega, show ¬ b.toNat < 0xF0 by omega, show ¬ b.toNat = 0xF0 by omega,
          show ¬ b.toNat < 0xF4 by omega, show ¬ b.toNat = 0xF4 by omega]
    rw [refused] at sound
    exact absurd List.mem_cons_self sound

theorem encodeChar_ne_nil (c : Char) : encodeChar c ≠ [] := by
  intro empty
  have read := scanFrom_encodeChar c []
  rw [empty] at read
  cases read

/-- Bytes that are read without a fault are those of some characters. The induction is on the number of bytes. -/
theorem exists_encodeList {bytes : Bytes} (sound : none ∉ scan bytes) : ∃ chars, bytes = encodeList chars := by
  induction length : bytes.length using Nat.strongRecOn generalizing bytes with
  | ind length' ih =>
    cases bytes with
    | nil => exact ⟨[], rfl⟩
    | cons b rest =>
      obtain ⟨c, behind, whole⟩ := exists_encodeChar sound
      rw [whole] at sound length ⊢
      have filled : 0 < (encodeChar c).length := List.length_pos_iff.2 (encodeChar_ne_nil c)
      have shorter : behind.length < length' := by
        rw [List.length_append] at length
        omega
      rw [scan, scanFrom_encodeChar] at sound
      obtain ⟨chars, rfl⟩ := ih behind.length shorter (fun broken => sound (List.mem_cons_of_mem _ broken)) rfl
      exact ⟨c :: chars, rfl⟩

end Sound

/-- Only the bytes of a text are read as that text. -/
theorem decode?_eq_some_iff {bytes : Bytes} {text : String} : decode? bytes = some text ↔ bytes = encode text := by
  constructor
  · intro read
    have sound : none ∉ scan bytes := by
      unfold decode? at read
      split at read
      · rename_i all
        exact fun broken => absurd (List.all_eq_true.1 all none broken) (by simp)
      · cases read
    obtain ⟨chars, rfl⟩ := exists_encodeList sound
    rw [decode?_encodeList] at read
    cases read
    rw [encode, String.toList_ofList]
  · rintro rfl
    exact decode?_encode text

theorem encode_inj {a b : String} (same : encode a = encode b) : a = b := by
  have read := decode?_encode a
  rw [same, decode?_encode b] at read
  exact (Option.some.inj read).symm

end BundleServer.Utf8
