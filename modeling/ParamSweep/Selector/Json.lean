import ParamSweep.Json.Record
import ParamSweep.Json.Reader
import ParamSweep.Json.Writer
import ParamSweep.Selector.Basic

/-! Selectors as JSON: an object whose only member names the kind. -/

namespace ParamSweep.Selector

/-- The parts of a slice. An array must list all three of them. -/
def sliceOfJson? (json : Json) : Option Selector := do
  let fields ← json.fields? ["start", "stop", "step"]
  match json, fields with
  | .array [_, _, _], [start, stop, step] | .object _, [start, stop, step] =>
    some (.slice (← Json.optional? Json.natural? start) (← Json.optional? Json.natural? stop)
      (← Json.optional? Json.natural? step))
  | _, _ => none

def ofJson? : Json → Option Selector
  | .object [(some "Indices", positions)] => positions.naturals?.map .indices
  | .object [(some "Slice", parts)] => sliceOfJson? parts
  | _ => none

def parseJson? (text : String) : Option Selector := (Json.parse? text).bind ofJson?

def json : Selector → String
  | .indices positions =>
    Json.objectText [("Indices", Json.arrayText (positions.map Nat.repr))]
  | .slice start stop step =>
    Json.objectText [("Slice", Json.objectText
      [("start", Json.optionText Nat.repr start), ("stop", Json.optionText Nat.repr stop),
        ("step", Json.optionText Nat.repr step)])]

end ParamSweep.Selector
