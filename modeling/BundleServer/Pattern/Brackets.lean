import BundleServer.Pattern.Escape

/-!
# Sets between brackets

A set lists characters, ranges and classes, and may hold other sets. Two of the same sign, `&&`, `--` or `~~`, combine
what stands in front of them with what follows; combinations group to the left. A hyphen stands for itself where it can
join nothing, and a closing bracket right behind the opening one.
-/

namespace BundleServer.Pattern.Brackets

/-- A set while it is read: where it starts, the stretch of its opening, whether its characters are left out, what is
to be combined with the part under way, where that part starts, and its members, latest first. -/
structure Opened where
  start : Nat
  opening : Span
  negated : Bool
  left? : Option (SetOperation × CharClass) := none
  here : Span
  members : List CharClass := []
  deriving Repr

namespace Opened

/-- The set with a further member. -/
def push (opened : Opened) (member : CharClass) : Opened := { opened with members := member :: opened.members }

/-- The part under way. -/
def part (opened : Opened) : CharClass :=
  match opened.members.reverse with
  | [] => .empty opened.here
  | [single] => single
  | first :: rest => .union (first.span.upTo ((opened.members.head?.getD first).span)) (first :: rest)

/-- The part under way, combined with what stands in front of it. -/
def inside (opened : Opened) : CharClass :=
  match opened.left? with
  | none => opened.part
  | some (operation, left) => .combined (left.span.upTo opened.part.span) operation left opened.part

/-- The set behind the sign of an operation. -/
def combine (opened : Opened) (operation : SetOperation) (cursor : Cursor) : Opened :=
  { opened with left? := some (operation, opened.inside), here := cursor.here, members := [] }

/-- The finished set. -/
def close (opened : Opened) (stop : Nat) : CharClass :=
  .bracketed ⟨opened.start, stop⟩ opened.negated opened.inside

/-- The fault of a set without its closing bracket. -/
def unclosed (opened : Opened) : Fault := opened.opening.fault .unclosedSet

end Opened

/-- A literal of one character. -/
def literalAt (offset : Nat) (char : Char) : Literal := { span := ⟨offset, offset + 1⟩, char }

/-- Steps over the next character, behind which a set that starts at `start` must go on. -/
def advance (start : Nat) (cursor : Cursor) : Except Fault Cursor :=
  if cursor.bumpOver.rest.isEmpty then .error ((cursor.bumpOver.since start).fault .unclosedSet)
  else .ok cursor.bumpOver

/-- Reads the opening of a set, with the hyphens or the closing bracket that stand for themselves behind it. -/
def readOpening (cursor : Cursor) : Except Fault (Opened × Cursor) := do
  let start := cursor.offset
  let first ← advance start cursor
  let negated := first.rest.head? = some '^'
  let first ← if negated then advance start first else pure first
  let (hyphens, behind) := first.collect (· = '-')
  if behind.rest.isEmpty then throw ((⟨start, start⟩ : Span).fault .unclosedSet)
  let closing := hyphens.isEmpty && behind.rest.head? = some ']'
  let last ← if closing then advance start behind else pure behind
  let plain := hyphens ++ if closing then [(behind.offset, ']')] else []
  let members := plain.map fun (offset, char) => CharClass.literal (literalAt offset char)
  return ({ start, opening := last.since start, negated, here := first.here, members := members.reverse }, last)

/-- The class whose name stands between `[:` and `:]`, if there is one. A `^` in front of the name leaves out its
characters. -/
def namedClass? (cursor : Cursor) : Option (CharClass × Cursor) := do
  let first ← cursor.bumpWord? ['[', ':']
  let negated := first.rest.head? = some '^'
  let first := if negated then first.bump else first
  let name := first.rest.takeWhile (· ≠ ':')
  let behind ← (first.moveTo (first.rest.drop name.length)).bumpWord? [':', ']']
  let known ← NamedClass.all.find? (·.name.toList = name)
  return (.named (behind.since cursor.offset) known negated, behind)

/-- Reads what one end of a range may be. -/
def readAtom (cursor : Cursor) : Except Fault (Atom × Cursor) :=
  match cursor.rest with
  | '\\' :: _ => Escape.read cursor
  | c :: _ => .ok (.literal (literalAt cursor.offset c), cursor.bump)
  | [] => .error (cursor.here.fault .unclosedSet)

/-- An atom as a member of a set. -/
def member : Atom → Except Fault CharClass
  | .literal char => .ok (.literal char)
  | .short span kind negated => .ok (.short span kind negated)
  | .property span written => .ok (.property span written)
  | .dot span | .assertion span _ => .error (span.fault .assertionInSet)

/-- An atom as an end of a range. -/
def rangeEnd : Atom → Except Fault Literal
  | .literal char => .ok char
  | atom => .error (atom.span.fault .noRangeEnd)

/-- Reads a member of a set: an atom, or a range of two. -/
def readMember (opened : Opened) (cursor : Cursor) : Except Fault (CharClass × Cursor) := do
  let (first, behind) ← readAtom cursor
  let behind := behind.skipBlanks
  match behind.rest with
  | [] => throw opened.unclosed
  | c :: _ =>
    if c ≠ '-' || behind.second? = some ']' || behind.second? = some '-' then return (← member first, behind)
    let next := behind.bumpOver
    if next.rest.isEmpty then throw opened.unclosed
    let (last, behind) ← readAtom next
    let low ← rangeEnd first
    let high ← rangeEnd last
    if high.char < low.char then throw ((low.span.upTo high.span).fault .reversedRange)
    return (.range low high, behind)

/-- Reads on in a set up to its closing bracket. Every step takes at least one character, so as many steps as there are
characters are enough. -/
def readOn : Nat → Opened → Cursor → Except Fault (CharClass × Cursor)
  | 0, opened, _ => .error opened.unclosed
  | steps + 1, opened, cursor => do
    let cursor := cursor.skipBlanks
    match cursor.rest with
    | [] => throw opened.unclosed
    | ']' :: _ => return (opened.close cursor.bump.offset, cursor.bump)
    | '[' :: _ => match namedClass? cursor with
      | some (named, behind) => readOn steps (opened.push named) behind
      | none =>
        let (inner, behind) ← readOpening cursor
        let (set, behind) ← readOn steps inner behind
        readOn steps (opened.push set) behind
    | '&' :: '&' :: rest => readOn steps (opened.combine .intersection (cursor.moveTo rest)) (cursor.moveTo rest)
    | '-' :: '-' :: rest => readOn steps (opened.combine .difference (cursor.moveTo rest)) (cursor.moveTo rest)
    | '~' :: '~' :: rest =>
      readOn steps (opened.combine .symmetricDifference (cursor.moveTo rest)) (cursor.moveTo rest)
    | _ =>
      let (member, behind) ← readMember opened cursor
      readOn steps (opened.push member) behind

/-- Reads a set, from its opening bracket. -/
def read (cursor : Cursor) : Except Fault (CharClass × Cursor) := do
  let (opened, behind) ← readOpening cursor
  readOn behind.rest.length.succ opened behind

end BundleServer.Pattern.Brackets
