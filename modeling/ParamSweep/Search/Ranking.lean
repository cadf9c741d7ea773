import ParamSweep.Search.Grid

/-! Rankings of scored points, best first. -/

namespace ParamSweep

/-- Score columns and dimension columns in the order of a ranking. -/
structure Ranking where
  names : List String
  scoreColumns : List (List Binary64)
  valueColumns : List (List Value)

namespace GridSearch

/-- Positions of the scored points, the best first; of equal scores the later one comes first. Scores
compare in the total order of floating-point numbers. -/
def order (search : GridSearch) (label : ScoreLabel) : List Nat :=
  ((search.column label).zipIdx.mergeSort fun left right => left.1.rank ≤ right.1.rank).reverse.map Prod.snd

def pick (order : List Nat) (column : List α) : List α := order.filterMap fun position => column[position]?

def ranking (search : GridSearch) (label : ScoreLabel) : Ranking :=
  let order := search.order label
  { names := search.names false
    scoreColumns := ScoreLabel.all.map fun shown => pick order (search.column shown)
    valueColumns := search.valueColumns.map (pick order) }

/-- The parameters of the point at a rank, zero being the best. -/
def ranked (search : GridSearch) (rank : Nat) (label : ScoreLabel) : Except Error Config :=
  if rank < search.recorded then
    let ranking := search.ranking label
    .ok (Dict.ofList ((ranking.names.zip ranking.valueColumns).filterMap fun (name, column) =>
      column[rank]?.map fun value => (name, value)))
  else .error (.rankOutOfRange rank search.recorded)

/-- Adds a score to the group of an equal value, or opens a group at the end. -/
def addToGroup (value : Value) (score : Binary64) :
    List (Value × List Binary64) → List (Value × List Binary64)
  | [] => [(value, [score])]
  | (seen, scores) :: rest =>
    if seen == value then (seen, scores ++ [score]) :: rest
    else (seen, scores) :: addToGroup value score rest

/-- Scores by value, in the order in which the values first appear. -/
def groupScores (values : List Value) (scores : List Binary64) : List (Value × List Binary64) :=
  (values.zip scores).foldl (fun groups (value, score) => addToGroup value score groups) []

def statsOf (search : GridSearch) (name : String) (label : ScoreLabel) :
    Except Error (List (Value × ScoreStats)) :=
  if (search.names false).contains name then
    .ok ((groupScores (search.valuesOf name) (search.column label)).filterMap fun (value, scores) =>
      (ScoreStats.of? scores).map fun stats => (value, stats))
  else .error (.unknownParam name)

end GridSearch
end ParamSweep
