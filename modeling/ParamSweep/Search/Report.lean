import ParamSweep.Json.Writer
import ParamSweep.Search.Ranking
import ParamSweep.Text.Record
import ParamSweep.Value.Json
import ParamSweep.Value.Printer

/-! Texts that report a grid search: statistics, a table of the best points, and the whole search. -/

namespace ParamSweep

/-- A dimension with its candidates. -/
def Axis.text (axis : Axis) : String := axis.1 ++ ": " ++ (Value.list axis.2).text

namespace GridSearch

def statsText (search : GridSearch) (name : String) (label : ScoreLabel) : Except Error String := do
  let stats ← search.statsOf name label
  let lines := stats.map fun (value, stats) => "    " ++ value.text ++ ": " ++ stats.text ++ ",\n"
  .ok ("stats(" ++ name ++ ") = \x7b\n" ++ String.join lines ++ "\x7d")

/-- A value in a table: floating-point numbers have three places. -/
def cellText : Value → String
  | .float number => Number.fixedText 3 number
  | value => value.text

/-- The best points as comma-separated records under lines that describe the search. -/
def table (search : GridSearch) (limit : Option Nat) (label : ScoreLabel) : String :=
  let ranking := search.ranking label
  let count := (limit.getD search.recorded).min search.recorded
  let cells := ranking.scoreColumns.map (·.map (Number.fixedText 3)) ++
    ranking.valueColumns.map (·.map cellText)
  let rows := (List.range count).map fun row => cells.filterMap (·[row]?)
  let header := ScoreLabel.all.map ScoreLabel.text ++ ranking.names
  "# title = Grid Search Results CSV\n" ++
    "# label = " ++ search.label.getD "None" ++ "\n" ++
    "# grid_basis = [" ++ ", ".intercalate (search.basis.map Axis.text) ++ "]\n" ++
    "# num_rows=" ++ count.repr ++ "\n" ++
    String.join ((header :: rows).map Text.writeRecord)

/-- The whole search as JSON. -/
def json (search : GridSearch) : String :=
  let axis (axis : Axis) := Json.objectText
    [("dimension_name", Json.stringText axis.1), ("dimension_point_list", (Value.list axis.2).json)]
  let column (label : ScoreLabel) := Json.arrayText ((search.column label).map Binary64.json)
  Json.objectText
    [("label", Json.optionText Json.stringText search.label),
      ("grid_basis", Json.arrayText (search.basis.map axis)),
      ("cfgdict_list", Json.arrayText (search.points.map Config.json)),
      ("tp_score_list", column .truePositive),
      ("tn_score_list", column .trueNegative),
      ("score_diff_list", column .difference)]

end GridSearch
end ParamSweep
