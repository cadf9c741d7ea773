/-! Words of sixty-four bits: which whole numbers they hold. -/

namespace ParamSweep.Number

/-- How many naturals a word holds, which is `2 ^ 64`. -/
def wordCount : Nat := 0x10000000000000000

/-- A whole number as a word with a sign, if it is from `-2 ^ 63` up to below `2 ^ 63`. -/
def int64? (number : Int) : Option Int64 :=
  if -0x8000000000000000 ≤ number ∧ number < 0x8000000000000000 then some (Int64.ofInt number) else none

end ParamSweep.Number
