import ParamSweep.Value.Basic
import ParamSweep.Number.Layout
import ParamSweep.Json.Number
import ParamSweep.Json.Reader
import ParamSweep.Json.Writer

/-! Values as JSON. The text carries no kinds: tuples are written as lists are and read back as lists,
and a number that is no integer of sixty-four bits is read as a floating-point one. -/

namespace ParamSweep

namespace Number

/-- Plain digits from `10 ^ -5` up to `10 ^ 16`, always with a point; beyond, a signed exponent. JSON
has no infinities and no NaN. -/
def jsonLayout : FloatLayout where
  positional power := -5 ≤ power && power < 16
  pointZero _ := true
  exponentSign := ['+']
  tie := .even
  nan := "null"
  infinity := "null"

end Number

def Binary64.json (number : Binary64) : String :=
  if number.isInfinite then "null" else Number.jsonLayout.render number

namespace Value

mutual

def json : Value → String
  | .none => "null"
  | .bool value => Json.boolText value
  | .int value => String.ofList (Number.intText value.toInt)
  | .float value => value.json
  | .str text => Json.stringText text
  | .list items | .tuple items => Json.arrayText (jsonItems items)
  | .dict entries => Json.objectText (jsonEntries entries)
termination_by structural value => value

def jsonItems : List Value → List String
  | [] => []
  | item :: rest => item.json :: jsonItems rest
termination_by structural items => items

def jsonEntries : List (String × Value) → List (String × String)
  | [] => []
  | (key, item) :: rest => (key, item.json) :: jsonEntries rest
termination_by structural entries => entries

end

def ofJsonNumber : Json.Number → Value
  | .integer value =>
    match Number.int64? value with
    | some held => .int held
    | Option.none => .float (Binary64.ofInt value)
  | .float value => .float value

mutual

def ofJson? : Json → Option Value
  | .null => some .none
  | .bool value => some (.bool value)
  | .number spelled => spelled.value?.map ofJsonNumber
  | .string text => text.map .str
  | .array items => (ofJsonItems? items).map .list
  | .object members => (ofJsonMembers? members).map fun entries => .dict (Dict.ofList entries).entries
termination_by structural json => json

def ofJsonItems? : List Json → Option (List Value)
  | [] => some []
  | item :: rest => do
    let value ← ofJson? item
    let values ← ofJsonItems? rest
    some (value :: values)
termination_by structural items => items

def ofJsonMembers? : List (Option String × Json) → Option (List (String × Value))
  | [] => some []
  | (key, item) :: rest => do
    let name ← key
    let value ← ofJson? item
    let entries ← ofJsonMembers? rest
    some ((name, value) :: entries)
termination_by structural members => members

end

/-- Deepest nesting of arrays and objects that is read. -/
def maximalDepth : Nat := 127

def parseJson? (text : String) : Option Value :=
  match Json.parse? text with
  | some json => if json.depth ≤ maximalDepth then ofJson? json else Option.none
  | Option.none => Option.none

end Value

def Config.json (config : Config) : String := (Value.ofConfig config).json

end ParamSweep
