import ParamSweep.Number.Shortest

/-! Text of numbers: integers, and layouts of floating-point numbers, which say where the digits stand
and how the special values are spelled. -/

namespace ParamSweep.Number

def intText (number : Int) : List Char :=
  (if number < 0 then ['-'] else []) ++ Nat.toDigits 10 number.natAbs

/-- How the shortest digits of a number are laid out. The tests take the power of ten of the first
digit; zero counts as having it at the ones. -/
structure FloatLayout where
  /-- Written without an exponent. -/
  positional : Int → Bool
  /-- A whole number written without an exponent ends in `.0`. -/
  pointZero : Int → Bool
  /-- What a positive exponent begins with. -/
  exponentSign : List Char
  tie : Tie
  nan : String
  infinity : String

/-- Digits and zeros around the decimal point. -/
def positionalText (digits : List Char) (exponent : Int) (pointZero : Bool) : List Char :=
  if 0 ≤ exponent then
    digits ++ List.replicate exponent.toNat '0' ++ if pointZero then ['.', '0'] else []
  else
    let places := (-exponent).toNat
    if places < digits.length then
      digits.take (digits.length - places) ++ '.' :: digits.drop (digits.length - places)
    else '0' :: '.' :: List.replicate (places - digits.length) '0' ++ digits

/-- One digit before the point, the others behind it, and the power of ten of the first. -/
def exponentText (digits : List Char) (power : Int) (sign : List Char) : List Char :=
  digits.take 1 ++ (if digits.length ≤ 1 then [] else '.' :: digits.drop 1) ++
    'e' :: (if power < 0 then ['-'] else sign) ++ Nat.toDigits 10 power.natAbs

def FloatLayout.finiteText (layout : FloatLayout) (number : Binary64) : List Char :=
  if number.isZero then positionalText ['0'] 0 (layout.pointZero 0)
  else
    let decimal := shortest layout.tie number
    let digits := Nat.toDigits 10 decimal.digits
    let power := decimal.exponent + digits.length - 1
    if layout.positional power then positionalText digits decimal.exponent (layout.pointZero power)
    else exponentText digits power layout.exponentSign

def FloatLayout.render (layout : FloatLayout) (number : Binary64) : String :=
  if number.isNaN then layout.nan
  else
    (if number.isNegative then "-" else "") ++
      if number.isInfinite then layout.infinity else String.ofList (layout.finiteText number)

/-- Decimal text with a fixed number of places, at least one, a tie going to the even neighbour. -/
def fixedText (places : Nat) (number : Binary64) : String :=
  if number.isNaN then "NaN"
  else
    (if number.isNegative then "-" else "") ++
      if number.isInfinite then "inf"
      else
        let ratio := scaled (number.coefficient * Nat.pow 10 places) 2 number.exponent
        let digits := Nat.toDigits 10 (divRound .even ratio.1 ratio.2)
        String.ofList (positionalText digits (-(places : Int)) false)

end ParamSweep.Number
