import ParamSweep.Value.Basic
import ParamSweep.Number.Layout
import ParamSweep.Text.Quoted

/-! Values with their kind spelled out, as inspection shows them: `Int(2)` is not `Float(2.0)`. -/

namespace ParamSweep

namespace Number

/-- Plain digits from `10 ^ -4` up to `10 ^ 16`, always with a point; beyond, an exponent. -/
def inspectionLayout : FloatLayout where
  positional power := -4 ≤ power && power < 16
  pointZero _ := true
  exponentSign := []
  tie := .up
  nan := "NaN"
  infinity := "inf"

end Number

namespace Value

mutual

def tagged : Value → String
  | .none => "None"
  | .bool true => "Bool(true)"
  | .bool false => "Bool(false)"
  | .int value => "Int(" ++ String.ofList (Number.intText value.toInt) ++ ")"
  | .float value => "Float(" ++ Number.inspectionLayout.render value ++ ")"
  | .str text => "Str(" ++ Text.quote text ++ ")"
  | .list items => "List([" ++ ", ".intercalate (taggedItems items) ++ "])"
  | .tuple items => "Tuple([" ++ ", ".intercalate (taggedItems items) ++ "])"
  | .dict entries => "Dict(\x7b" ++ ", ".intercalate (taggedEntries entries) ++ "\x7d)"
termination_by structural value => value

def taggedItems : List Value → List String
  | [] => []
  | item :: rest => item.tagged :: taggedItems rest
termination_by structural items => items

def taggedEntries : List (String × Value) → List String
  | [] => []
  | (key, item) :: rest => (Text.quote key ++ ": " ++ item.tagged) :: taggedEntries rest
termination_by structural entries => entries

end

end Value

/-- A configuration with the kinds of its values. -/
def Config.tagged (config : Config) : String :=
  "\x7b" ++ ", ".intercalate (Value.taggedEntries config.entries) ++ "\x7d"

end ParamSweep
