import RubySig.Number.Binary64

/-!
# The shortest decimal of a binary number

A number of double precision is written with the fewest decimal digits that read back as the same
number; of several such decimals the nearest is taken. The reals that read back as
`m · 2 ^ q` form an interval whose ends belong to it exactly when `m` is even. For one digit, two
digits and so on, the two neighbours of the number on that decimal grid are compared with the ends
in whole numbers.
-/

namespace RubySig.Number

/-- The decimal `digits · 10 ^ exponent`. -/
structure Decimal where
  digits : Nat
  exponent : Int
  deriving DecidableEq

/-- Compare `a · 10 ^ i` with `b · 2 ^ j`. -/
def compareScaled (a : Nat) (i : Int) (b : Nat) (j : Int) : Ordering :=
  compare (a * Nat.pow 10 i.toNat * Nat.pow 2 (-j).toNat) (b * Nat.pow 2 j.toNat * Nat.pow 10 (-i).toNat)

/-- Whether a decimal is among the reals that round to `m · 2 ^ q`. Below a power of two the next
number is only half as far away. -/
def readsBack (m : Nat) (q : Int) (d : Decimal) : Bool :=
  let narrow := m = Binary64.significandBound / 2 && Binary64.leastExponent < q
  let low := compareScaled d.digits d.exponent (4 * m - if narrow then 1 else 2) (q - 2)
  let high := compareScaled d.digits d.exponent (4 * m + 2) (q - 2)
  let closed := m % 2 = 0
  (low = .gt || (closed && low = .eq)) && (high = .lt || (closed && high = .eq))

/-- The least `k` with `m · 2 ^ q < 10 ^ k`, estimated from the binary logarithm and corrected. -/
def magnitude (m : Nat) (q : Int) : Int :=
  let guess := (Int.ofNat m.log2 + q) * 30103 / 100000
  (([guess - 1, guess, guess + 1].find? fun k => compareScaled 1 k m q = .gt)).getD (guess + 2)

/-- The neighbour of `m · 2 ^ q` among the multiples of `10 ^ grid` that reads back: the nearer one
if it does, else the other. Of two neighbours at the same distance the even one counts as nearer. -/
def neighbour? (m : Nat) (q grid : Int) : Option Decimal :=
  let num := m * Nat.pow 2 q.toNat * Nat.pow 10 (-grid).toNat
  let den := Nat.pow 2 (-q).toNat * Nat.pow 10 grid.toNat
  let below := num / den
  let nearer := roundQuotient num den
  let farther := if nearer = below then below + 1 else below
  [nearer, farther].map (Decimal.mk · grid) |>.find? (readsBack m q)

/-- The decimal that is equal to `m · 2 ^ q`. -/
def exactDecimal (m : Nat) (q : Int) : Decimal :=
  ⟨m * Nat.pow 2 q.toNat * Nat.pow 5 (-q).toNat, min q 0⟩

/-- The shortest decimal that reads back as the positive number `m · 2 ^ q`. Seventeen digits are
enough for every number of double precision. -/
def shortest (m : Nat) (q : Int) : Decimal :=
  let top := magnitude m q
  ((List.range 17).findSome? fun n => neighbour? m q (top - Int.ofNat (n + 1))).getD (exactDecimal m q)

/-- Digits with the point after so many of them, and at least one digit on either side. -/
def positional (digits : List Char) (point : Int) : List Char :=
  let padded := List.replicate (-point).toNat '0' ++ digits
  let wholes := padded.take point.toNat
  let whole := wholes ++ List.replicate (point.toNat - wholes.length) '0'
  let fraction := padded.drop point.toNat
  (if whole.isEmpty then ['0'] else whole) ++ '.' :: (if fraction.isEmpty then ['0'] else fraction)

/-- Digits with the point after the first, if there are more, and a power of ten: its sign and at
least two digits. -/
def scientific (digits : List Char) (power : Int) : List Char :=
  let mantissa := match digits with
    | first :: second :: rest => first :: '.' :: second :: rest
    | short => short
  let places := (toString power.natAbs).toList
  mantissa ++ 'e' :: (if power < 0 then '-' else '+') :: List.replicate (2 - places.length) '0' ++ places

/-- A decimal in positional notation from one ten-thousandth up to ten to the sixteenth, and with a
power of ten otherwise. -/
def Decimal.text (d : Decimal) : String :=
  let digits := (toString d.digits).toList
  let point := Int.ofNat digits.length + d.exponent
  let significant := (digits.reverse.dropWhile (· = '0')).reverse
  String.ofList <|
    if -4 < point && point ≤ 16 then positional significant point else scientific significant (point - 1)

/-- The text of a number of double precision. -/
def Binary64.text : Binary64 → String
  | finite negative m q =>
    (if negative then "-" else "") ++ if m = 0 then "0.0" else (shortest m q).text
  | infinite negative => if negative then "-inf" else "inf"
  | nan => "nan"

end RubySig.Number
