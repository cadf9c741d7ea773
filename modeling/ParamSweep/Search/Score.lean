import ParamSweep.Error
import ParamSweep.Number.Layout

/-! Scores of grid points and their statistics. -/

namespace ParamSweep

/-- What a grid point scored on the cases it should accept and on those it should reject. -/
structure Score where
  truePositive : Binary64
  trueNegative : Binary64
  deriving DecidableEq

/-- Which score counts. -/
inductive ScoreLabel where
  /-- The first score less the second. -/
  | difference
  | truePositive
  | trueNegative
  deriving DecidableEq, Repr

namespace ScoreLabel

def all : List ScoreLabel := [.difference, .truePositive, .trueNegative]

def text : ScoreLabel → String
  | .difference => "score_diff"
  | .truePositive => "tp_score"
  | .trueNegative => "tn_score"

def parse (text : String) : Except Error ScoreLabel :=
  match all.find? (·.text = text) with
  | some label => .ok label
  | none => .error (.unknownScoreLabel text)

end ScoreLabel

namespace Score

def difference (score : Score) : Binary64 := score.truePositive - score.trueNegative

end Score

/-- A summary of scores; the deviation is that of the whole population. -/
structure ScoreStats where
  count : Nat
  mean : Binary64
  deviation : Binary64
  minimum : Binary64
  maximum : Binary64
  atMinimum : Nat
  atMaximum : Nat

namespace ScoreStats

/-- The sum from the left. It starts at negative zero, which changes no number that is added. -/
def sum (scores : List Binary64) : Binary64 := scores.foldl (· + ·) (-Binary64.zero)

/-- The smaller number. A NaN counts for nothing, and of two zeros the first one stays. -/
def smaller (current next : Binary64) : Binary64 :=
  if current.isNaN || next.less current then next else current

def greater (current next : Binary64) : Binary64 :=
  if current.isNaN || current.less next then next else current

def of? (scores : List Binary64) : Option ScoreStats :=
  if scores.isEmpty then none
  else
    let count := Binary64.ofInt scores.length
    let mean := sum scores / count
    let variance := sum (scores.map fun score => (score - mean) * (score - mean)) / count
    let minimum := scores.foldl smaller (Binary64.infinity false)
    let maximum := scores.foldl greater (Binary64.infinity true)
    some {
      count := scores.length
      mean
      deviation := variance.sqrt
      minimum
      maximum
      atMinimum := scores.countP (· == minimum)
      atMaximum := scores.countP (· == maximum) }

def text (stats : ScoreStats) : String :=
  "\x7bmean: " ++ Number.fixedText 3 stats.mean ++ ", std: " ++ Number.fixedText 3 stats.deviation ++
    ", max: " ++ Number.fixedText 3 stats.maximum ++ ", min: " ++ Number.fixedText 3 stats.minimum ++
    ", count: " ++ stats.count.repr ++ "\x7d"

end ScoreStats
end ParamSweep
