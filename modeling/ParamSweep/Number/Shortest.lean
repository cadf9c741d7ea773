import ParamSweep.Number.Binary64

/-! Shortest decimals. Of all decimals that round to a binary64 number this picks one with the fewest
digits, and of those the nearest to the number. -/

namespace ParamSweep.Number

/-- The decimal number `digits · 10 ^ exponent`. -/
structure Decimal where
  digits : Nat
  exponent : Int
  deriving DecidableEq, Repr

/-- Power of ten of the first digit of `numerator / denominator`, a positive quotient. -/
def leadingPower (numerator denominator : Nat) : Int :=
  if denominator ≤ numerator then (Nat.toDigits 10 (numerator / denominator)).length - 1
  else
    let places := (Nat.toDigits 10 (denominator / numerator)).length
    if denominator ≤ numerator * Nat.pow 10 (places - 1) then 1 - (places : Int) else -(places : Int)

/-- The reals that round to a finite positive number, as bounds over one denominator, with the number
itself between them; the bounds belong to them when `closed`. -/
structure RoundingInterval where
  low : Nat
  value : Nat
  high : Nat
  denominator : Nat
  closed : Bool

/-- The bounds lie halfway to the neighbours; below a power of two the neighbour is twice as near. -/
def RoundingInterval.of (number : Binary64) : RoundingInterval :=
  let quarter := scaled 1 2 (number.exponent - 2)
  let below := if number.coefficient = Binary64.exponentUnit ∧ -1074 < number.exponent then 1 else 2
  { low := (4 * number.coefficient - below) * quarter.1
    value := 4 * number.coefficient * quarter.1
    high := (4 * number.coefficient + 2) * quarter.1
    denominator := quarter.2
    closed := number.coefficient % 2 = 0 }

/-- The multiple of `10 ^ power` inside the interval that is nearest to its value, if there is one. -/
def RoundingInterval.multiple? (interval : RoundingInterval) (tie : Tie) (power : Int) : Option Nat :=
  let unit := scaled interval.denominator 10 power
  let floor := interval.value * unit.2 / unit.1
  let above (count : Nat) := if interval.closed then interval.low * unit.2 ≤ count * unit.1
    else interval.low * unit.2 < count * unit.1
  let below (count : Nat) := if interval.closed then count * unit.1 ≤ interval.high * unit.2
    else count * unit.1 < interval.high * unit.2
  match decide (above floor), decide (below (floor + 1)) with
  | true, true => some (divRound tie (interval.value * unit.2) unit.1)
  | true, false => some floor
  | false, true => some (floor + 1)
  | false, false => none

/-- Tries finer and finer powers of ten; `tries` bounds their number. -/
def RoundingInterval.coarsest (interval : RoundingInterval) (tie : Tie) : Nat → Int → Decimal
  | 0, power =>
    let unit := scaled interval.denominator 10 power
    ⟨divRound tie (interval.value * unit.2) unit.1, power⟩
  | tries + 1, power =>
    match interval.multiple? tie power with
    | some count => ⟨count, power⟩
    | none => interval.coarsest tie tries (power - 1)

/-- Moves the zeros at the end of the digits into the exponent. -/
def normalDecimal (digits : Nat) (exponent : Int) : Decimal :=
  if 0 < digits ∧ digits % 10 = 0 then normalDecimal (digits / 10) (exponent + 1) else ⟨digits, exponent⟩
termination_by digits
decreasing_by omega

/-- The shortest decimal of the absolute value of a finite number other than zero. Seventeen digits
always suffice. -/
def shortest (tie : Tie) (number : Binary64) : Decimal :=
  let interval := RoundingInterval.of number
  let found := interval.coarsest tie 17 (leadingPower interval.value interval.denominator)
  normalDecimal found.digits found.exponent

end ParamSweep.Number
