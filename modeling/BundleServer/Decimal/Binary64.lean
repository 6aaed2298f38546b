/-!
# Double precision in whole steps

Every finite double is a whole number of steps of 2^-1074. A double is kept as its sign and that number, so
products and quotients are computed exactly in natural numbers and rounded once. Infinities and NaN are not
represented; an operation whose result would be infinite is recognised by `isFinite`.
-/

namespace BundleServer

/-- A finite double: its sign and its size in steps of 2^-1074. Zero has two signs. -/
structure Binary64 where
  negative : Bool
  steps : Nat
  deriving DecidableEq, Repr

namespace Binary64

/-- The number of steps in one. -/
def one : Nat := Nat.pow 2 1074

/-- Is the size below the first power of two that has no finite double? -/
def isFinite (steps : Nat) : Bool := steps < Nat.pow 2 2098

/-- By how many binary digits a size is longer than the 53 that a double holds. -/
def excess (steps : Nat) : Nat := steps.log2 + 1 - 53

/-- The quotient to the nearest whole number. A half goes to the even neighbour. -/
def divideToEven (num den : Nat) : Nat :=
  let quotient := num / den
  let rest := num % den
  if den < 2 * rest ∨ (den = 2 * rest ∧ quotient % 2 = 1) then quotient + 1 else quotient

/-- The size nearest to `num / den` steps that a double can have, ties to even. -/
def round (num den : Nat) : Nat :=
  let scale := Nat.pow 2 (excess (num / den))
  divideToEven num (den * scale) * scale

/-- The size of a whole number. -/
def ofNat (n : Nat) : Nat := round (n * one) 1

/-- The size of a product. -/
def mul (a b : Nat) : Nat := round (a * b) one

/-- The size of a quotient. -/
def div (a b : Nat) : Nat := round (a * one) b

end Binary64

end BundleServer
