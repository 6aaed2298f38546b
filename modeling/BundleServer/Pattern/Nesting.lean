import BundleServer.Pattern.Expression

/-!
# How deep an expression nests

Groups, repetitions, sequences, alternations and sets count one level each. An expression that exceeds the limit is
refused at the first part that does.
-/

namespace BundleServer.Pattern

/-- Goes one level down at a stretch. -/
def descend (depth : Nat) (span : Span) : Except Fault Nat :=
  if depth < depthLimit then .ok (depth + 1) else .error (span.fault .tooDeep)

mutual

/-- Does a set keep the limit at a depth? -/
def CharClass.checkDepth (depth : Nat) : CharClass → Except Fault Unit
  | .bracketed span _ inside => do inside.checkDepth (← descend depth span)
  | .union span members => do CharClass.checkDepths (← descend depth span) members
  | .combined span _ left right => do
    let depth ← descend depth span
    left.checkDepth depth
    right.checkDepth depth
  | _ => .ok ()

/-- Do all sets keep the limit at a depth? -/
def CharClass.checkDepths (depth : Nat) : List CharClass → Except Fault Unit
  | [] => .ok ()
  | member :: rest => do
    member.checkDepth depth
    CharClass.checkDepths depth rest

end

mutual

/-- Does an expression keep the limit at a depth? -/
def Expression.checkDepth (depth : Nat) : Expression → Except Fault Unit
  | .charClass set => set.checkDepth depth
  | .repeated span _ _ part => do part.checkDepth (← descend depth span)
  | .group span _ _ inside => do inside.checkDepth (← descend depth span)
  | .alternation span branches => do Expression.checkDepths (← descend depth span) branches
  | .sequence span parts => do Expression.checkDepths (← descend depth span) parts
  | .empty _ | .settings .. | .atom _ => .ok ()

/-- Do all expressions keep the limit at a depth? -/
def Expression.checkDepths (depth : Nat) : List Expression → Except Fault Unit
  | [] => .ok ()
  | part :: rest => do
    part.checkDepth depth
    Expression.checkDepths depth rest

end

end BundleServer.Pattern
