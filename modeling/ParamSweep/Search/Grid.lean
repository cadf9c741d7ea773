import ParamSweep.Config.Combination
import ParamSweep.Search.Score

/-! Exhaustive search over a grid. Points come in the order of the dimensions, the last one varying
fastest, and scores are recorded in the order of the points. -/

namespace ParamSweep

/-- A search with its points and the columns of the scores recorded so far, which grow together: the first
score belongs to the first point. -/
structure GridSearch where
  label : Option String
  basis : List Axis
  points : List Config
  truePositives : List Binary64
  trueNegatives : List Binary64
  /-- The first score of each point less the second. -/
  differences : List Binary64

namespace GridSearch

def new (label : Option String) (basis : List Axis) : GridSearch :=
  { label, basis, points := Config.combinationsOf basis, truePositives := [], trueNegatives := [], differences := [] }

def size (search : GridSearch) : Nat := search.points.length

/-- The number of points with a score. -/
def recorded (search : GridSearch) : Nat := search.differences.length

def scores (search : GridSearch) : List Score := search.truePositives.zipWith Score.mk search.trueNegatives

def record (search : GridSearch) (score : Score) : GridSearch :=
  { search with
    differences := search.differences ++ [score.difference]
    truePositives := search.truePositives ++ [score.truePositive]
    trueNegatives := search.trueNegatives ++ [score.trueNegative] }

/-- Records the score of the first point without one, if there is such a point. -/
def append (search : GridSearch) (score : Score) : Except Error Unit × GridSearch :=
  if search.recorded < search.size then (.ok (), search.record score)
  else (.error (.tooManyResults (search.recorded + 1) search.size), search)

def pending (search : GridSearch) : List Config := search.points.drop search.recorded

/-- Scores points one after another. Each score is recorded before the next point is scored, and the first one
that is refused ends it with the scores recorded so far. -/
def scoreInTurn [Monad m] (scorer : Config → m Score) :
    List Config → GridSearch → m (Except Error Unit × GridSearch)
  | [], search => return (.ok (), search)
  | point :: rest, search => do
    match search.append (← scorer point) with
    | (.ok (), next) => scoreInTurn scorer rest next
    | (.error error, next) => return (.error error, next)

/-- Scores every pending point, in order. The scorer may have effects. -/
def evaluateM [Monad m] (scorer : Config → m Score) (search : GridSearch) : m (Except Error Unit × GridSearch) :=
  scoreInTurn scorer search.pending search

def evaluate (scorer : Config → Score) (search : GridSearch) : Except Error Unit × GridSearch :=
  Id.run (search.evaluateM fun point => pure (scorer point))

/-- The recorded scores under a label. -/
def column (search : GridSearch) : ScoreLabel → List Binary64
  | .difference => search.differences
  | .truePositive => search.truePositives
  | .trueNegative => search.trueNegatives

/-- Names of the dimensions, or of those with more than one candidate. -/
def names (onlyVaried : Bool) (search : GridSearch) : List String :=
  (search.basis.filter fun axis => !onlyVaried || 1 < axis.2.length).map Prod.fst

def valuesOf (search : GridSearch) (name : String) : List Value :=
  search.points.map fun point => (point.get? name).getD .none

def valueColumns (search : GridSearch) : List (List Value) :=
  (search.names false).map search.valuesOf

end GridSearch

/-- The number under a key, zero if there is none. -/
def Config.number (config : Config) (key : String) : Binary64 :=
  ((config.get? key).bind Value.number?).getD .zero

namespace GridSearch

/-- A fully scored grid of three dimensions, for demonstrations. -/
def demonstration : Except Error GridSearch :=
  let float (digits : Nat) (exponent : Int) := Value.float (Binary64.ofDecimal false digits exponent)
  let search := new (some "testdata_gridsearch")
    [("p", [float 5 (-1), float 8 (-1), float 9 (-1), float 1 0]),
      ("K", [.int 2, .int 3, .int 4, .int 5]),
      ("dcvs_clip_max", [float 1 (-1), float 2 (-1), float 5 (-1), float 1 0])]
  let (outcome, scored) := search.evaluate fun point =>
    { truePositive := point.number "p" + (point.number "K").sqrt
      trueNegative := point.number "p" * point.number "K" / point.number "dcvs_clip_max" }
  outcome.map fun _ => scored

end GridSearch
end ParamSweep
