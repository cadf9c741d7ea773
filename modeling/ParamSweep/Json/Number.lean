import ParamSweep.Json.Basic
import ParamSweep.Number.Binary64
import ParamSweep.Number.Word

/-! What JSON numbers denote. An integer that fits a machine word is exact. Any other number is a
significand of sixty-four bits scaled by a power of ten in floating-point arithmetic, so its last bit
may differ from the nearest number; one that is too large denotes nothing. -/

namespace ParamSweep.Json

inductive Number where
  | integer (value : Int)
  | float (value : Binary64)
  deriving DecidableEq, Repr

/-- Takes digits into a significand while it stays below `2 ^ 64`: the significand and the digits that
did not fit. -/
def gatherDigits : Nat → List Char → Nat × List Char
  | significand, [] => (significand, [])
  | significand, digit :: rest =>
    let next := 10 * significand + (digit.toNat - '0'.toNat)
    if next < Number.wordCount then gatherDigits next rest else (significand, digit :: rest)

def powerOfTen (power : Nat) : Binary64 := Binary64.ofDecimal false 1 power

/-- Divides by a power of ten, in steps of the greatest power there is. -/
def scaleDown (number : Binary64) (power : Nat) : Binary64 :=
  if power ≤ 308 then number / powerOfTen power
  else if number.isZero then number
  else scaleDown (number / powerOfTen 308) (power - 308)
termination_by power

/-- `significand · 10 ^ power`, unless it is too large. -/
def scaleNumber? (significand : Nat) (power : Int) : Option Binary64 :=
  let number := Binary64.ofInt significand
  if power < 0 then some (scaleDown number power.natAbs)
  else if number.isZero then some number
  else if 308 < power then none
  else
    let result := number * powerOfTen power.toNat
    if result.isInfinite then none else some result

/-- The floating-point number that a JSON number denotes without its sign. -/
def NumberText.size? (number : NumberText) : Option Binary64 :=
  let (leading, wholeRest) := gatherDigits 0 number.whole
  let (significand, fractionRest) := gatherDigits leading number.fraction
  let power : Int := wholeRest.length - (number.fraction.length - fractionRest.length : Nat)
  match number.exponent with
  | none => scaleNumber? significand power
  | some (negative, digits) =>
    let exponent : Int := Nat.ofDigitChars 10 digits 0
    if exponent < 0x80000000 then scaleNumber? significand (power + if negative then -exponent else exponent)
    else if significand = 0 ∨ negative then some Binary64.zero
    else none

/-- Integers from `-2 ^ 63` up to `2 ^ 64`, without `-0`, are exact. -/
def NumberText.integer? (number : NumberText) : Option Int :=
  if number.fraction.isEmpty && number.exponent.isNone then
    let size := Nat.ofDigitChars 10 number.whole 0
    if number.negative then if 0 < size ∧ size ≤ Number.wordCount / 2 then some (-(size : Int)) else none
    else if size < Number.wordCount then some size else none
  else none

def NumberText.value? (number : NumberText) : Option Number :=
  match number.integer? with
  | some value => some (.integer value)
  | none => number.size?.map fun size => .float (if number.negative then -size else size)

end ParamSweep.Json
