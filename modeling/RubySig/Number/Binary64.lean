import RubySig.Number.Rounding

/-!
# Binary numbers of double precision

A finite number is a sign, a whole number below `2 ^ 53` and a power of two that multiplies it. A
decimal becomes the nearest such number, by exact arithmetic on whole numbers: a tie goes to the
even neighbour, and what lies beyond the largest finite number becomes an infinity.
-/

namespace RubySig.Number

/-- A number of double precision: `± significand · 2 ^ exponent`, an infinity, or no number. -/
inductive Binary64 where
  | finite (negative : Bool) (significand : Nat) (exponent : Int)
  | infinite (negative : Bool)
  | nan
  deriving DecidableEq, Inhabited

namespace Binary64

/-- The least exponent of two of a finite number. -/
def leastExponent : Int := -1074

/-- The largest exponent of two of a finite number. -/
def largestExponent : Int := 971

/-- Whole numbers below this one are significands. -/
def significandBound : Nat := 9007199254740992

/-- A positive quotient times `2 ^ (-exponent)`, as a numerator and a denominator. -/
def scaled (num den : Nat) (exponent : Int) : Nat × Nat :=
  (num * Nat.pow 2 (-exponent).toNat, den * Nat.pow 2 exponent.toNat)

/-- The exponent at which a positive quotient has as many binary digits as a significand, or the
least exponent if the quotient is too small for that. -/
def exponentOf (num den : Nat) : Int :=
  let guess := max leastExponent (Int.ofNat num.log2 - Int.ofNat den.log2 - 53)
  let (n, d) := scaled num den guess
  if n / d < significandBound then guess else guess + 1

/-- The number nearest to a positive quotient. -/
def ofQuotient (negative : Bool) (num den : Nat) : Binary64 :=
  let exponent := exponentOf num den
  let (n, d) := scaled num den exponent
  let significand := roundQuotient n d
  let (significand, exponent) :=
    if significand < significandBound then (significand, exponent) else (significand / 2, exponent + 1)
  if largestExponent < exponent then infinite negative else finite negative significand exponent

/-- The number nearest to `± digits · 10 ^ exponent`. Exponents far outside the range of finite
numbers are settled without building the power. -/
def ofDecimal (negative : Bool) (digits : Nat) (exponent : Int) : Binary64 :=
  if digits = 0 then finite negative 0 leastExponent
  else if 400 < exponent then infinite negative
  else if exponent < -(Int.ofNat digits.log2 + 401) then finite negative 0 leastExponent
  else ofQuotient negative (digits * Nat.pow 10 exponent.toNat) (Nat.pow 10 (-exponent).toNat)

/-- The whole number that a finite number is, if its fraction is zero. -/
def whole? : Binary64 → Option Int
  | finite negative significand exponent =>
    let (n, d) := scaled significand 1 (-exponent)
    if n % d = 0 then some (if negative then -Int.ofNat (n / d) else Int.ofNat (n / d)) else none
  | _ => none

/-- Whether a number is neither an infinity nor undefined. -/
def isFinite : Binary64 → Bool
  | finite _ _ _ => true
  | _ => false

end Binary64

end RubySig.Number
