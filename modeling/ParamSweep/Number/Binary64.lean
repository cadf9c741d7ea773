import ParamSweep.Number.Rounding

/-! Floating-point numbers of sixty-four bits, held by their bit pattern. Equality `=` is identity of
patterns; `==` compares numbers, so a NaN differs from itself and the two zeros are equal. -/

namespace ParamSweep

/-- A binary64 number as its bit pattern: sign, eleven bits of exponent, fifty-two of fraction. -/
structure Binary64 where
  bits : UInt64
  deriving DecidableEq, Inhabited, Repr

namespace Binary64
open Number

/-- The lowest pattern with the sign set, which is `2 ^ 63`. -/
def signUnit : Nat := 0x8000000000000000

/-- What one step of the exponent adds to a pattern, which is `2 ^ 52`. -/
def exponentUnit : Nat := 0x10000000000000

def isNegative (number : Binary64) : Bool := signUnit ≤ number.bits.toNat

/-- The pattern without its sign; it grows with the absolute value. -/
def magnitude (number : Binary64) : Nat := number.bits.toNat % signUnit

def infinityMagnitude : Nat := 0x7FF * exponentUnit

def isNaN (number : Binary64) : Bool := infinityMagnitude < number.magnitude

def isInfinite (number : Binary64) : Bool := number.magnitude = infinityMagnitude

def isZero (number : Binary64) : Bool := number.magnitude = 0

def ofMagnitude (negative : Bool) (magnitude : Nat) : Binary64 :=
  ⟨UInt64.ofNat (magnitude + if negative then signUnit else 0)⟩

def zero : Binary64 := ofMagnitude false 0

def infinity (negative : Bool) : Binary64 := ofMagnitude negative infinityMagnitude

def nan (negative : Bool) : Binary64 := ofMagnitude negative (infinityMagnitude + exponentUnit / 2)

/-- A finite number is `coefficient · 2 ^ exponent` in absolute value. -/
def coefficient (number : Binary64) : Nat :=
  if number.magnitude < exponentUnit then number.magnitude
  else number.magnitude % exponentUnit + exponentUnit

def exponent (number : Binary64) : Int :=
  if number.magnitude < exponentUnit then -1074 else (number.magnitude / exponentUnit : Nat) - 1075

instance : BEq Binary64 where
  beq left right := !left.isNaN && !right.isNaN && (left.bits == right.bits || (left.isZero && right.isZero))

/-- Place in the total order of all patterns: negative NaN, negative infinity, the negative numbers,
both zeros, the positive numbers, infinity, NaN. -/
def rank (number : Binary64) : Int :=
  if number.isNegative then -(number.magnitude : Int) - 1 else number.magnitude

/-- Comparison of numbers; a NaN is below nothing and nothing is below it. -/
def less (left right : Binary64) : Bool :=
  !left.isNaN && !right.isNaN && !(left.isZero && right.isZero) && decide (left.rank < right.rank)

/-- The magnitude nearest to `numerator / denominator`, a tie going to the even coefficient. -/
def nearestMagnitude (numerator denominator : Nat) : Nat :=
  if numerator = 0 then 0
  else
    let estimate : Int := numerator.log2 - denominator.log2
    let bound := scaled denominator 2 estimate
    let leading := if bound.1 ≤ numerator * bound.2 then estimate else estimate - 1
    let unit := max (leading - 52) (-1074)
    let step := scaled denominator 2 unit
    let count := divRound .even (numerator * step.2) step.1
    min (count + (unit + 1074).toNat * exponentUnit) infinityMagnitude

def ofRatio (negative : Bool) (numerator denominator : Nat) : Binary64 :=
  ofMagnitude negative (nearestMagnitude numerator denominator)

def ofInt (number : Int) : Binary64 := ofRatio (number < 0) number.natAbs 1

/-- The number nearest to `digits · 10 ^ exponent`. Beyond the widest decimal range of the format the
power is not computed. -/
def ofDecimal (negative : Bool) (digits : Nat) (exponent : Int) : Binary64 :=
  let places : Int := (Nat.toDigits 10 digits).length
  if digits = 0 ∨ places + exponent < -330 then ofMagnitude negative 0
  else if 330 < places + exponent then infinity negative
  else
    let ratio := scaled digits 10 exponent
    ofRatio negative ratio.1 ratio.2

/-! Arithmetic rounds to nearest. A NaN operand passes through, the left one first; an operation whose
operands are numbers but whose result is none gives the NaN with its sign set. -/

def toFloat (number : Binary64) : Float := Float.ofBits number.bits

private def ofResult (result : Float) : Binary64 :=
  if result.isNaN then nan true else ⟨result.toBits⟩

private def combine (operation : Float → Float → Float) (left right : Binary64) : Binary64 :=
  if left.isNaN then left
  else if right.isNaN then right
  else ofResult (operation left.toFloat right.toFloat)

instance : Add Binary64 := ⟨combine (· + ·)⟩
instance : Sub Binary64 := ⟨combine (· - ·)⟩
instance : Mul Binary64 := ⟨combine (· * ·)⟩
instance : Div Binary64 := ⟨combine (· / ·)⟩

def neg (number : Binary64) : Binary64 := ofMagnitude (!number.isNegative) number.magnitude

instance : Neg Binary64 := ⟨neg⟩

def sqrt (number : Binary64) : Binary64 :=
  if number.isNaN then number else ofResult number.toFloat.sqrt

end Binary64
end ParamSweep
