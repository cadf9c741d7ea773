/-! Rounding of exact quotients to the nearest whole number. -/

namespace ParamSweep.Number

/-- Which neighbour a quotient halfway between two whole numbers goes to. -/
inductive Tie where
  | even
  | up
  deriving DecidableEq, Repr

/-- The whole number nearest to `numerator / denominator`. -/
def divRound (tie : Tie) (numerator denominator : Nat) : Nat :=
  let floor := numerator / denominator
  match compare (2 * (numerator % denominator)) denominator with
  | .lt => floor
  | .gt => floor + 1
  | .eq => if tie = .even ∧ floor % 2 = 0 then floor else floor + 1

/-- A fraction of naturals for `count · base ^ exponent`. -/
def scaled (count base : Nat) (exponent : Int) : Nat × Nat :=
  if 0 ≤ exponent then (count * base.pow exponent.toNat, 1) else (count, base.pow (-exponent).toNat)

end ParamSweep.Number
