import ParamSweep.Error
import ParamSweep.Selector.Basic
import ParamSweep.Text.Replace
import ParamSweep.Value.Printer
import ParamSweep.Value.Tagged

/-! Parameters: default, candidates for sweeps, and how a parameter shows in a label. -/

namespace ParamSweep

/-- When a parameter is left out of labels. -/
inductive HideRule where
  /-- When it has this value. -/
  | value (value : Value)
  /-- When this holds of the whole configuration. -/
  | predicate (holds : Config → Bool)

namespace HideRule

def hides (current : Value) (config : Config) : HideRule → Bool
  | .value hidden => current == hidden
  | .predicate holds => holds config

def tagged : HideRule → String
  | .value hidden => "Value(" ++ hidden.tagged ++ ")"
  | .predicate _ => "Predicate(..)"

end HideRule

/-- A keyed parameter shows as a key with its value, a flag as its name alone, negated or not. -/
inductive Param.Style where
  | keyed
  | flag
  deriving DecidableEq, Repr

structure Param where
  key : String
  default : Value
  /-- Stands for the key in labels, without an equals sign. -/
  abbreviation : Option String
  /-- What a sweep takes. -/
  candidates : List Value
  slice : Option Selector
  hideRules : List HideRule
  /-- All values there may be; any if absent. -/
  validValues : Option (List Value)
  style : Param.Style

namespace Param

def keyed (key : String) (default : Value) : Param where
  key
  default
  abbreviation := none
  candidates := []
  slice := none
  hideRules := []
  validValues := none
  style := .keyed

/-- A truth value, false by default and hidden when false. -/
def flag (key : String) : Param :=
  { keyed key (.bool false) with hideRules := [.value (.bool false)], style := .flag }

def isFlag (param : Param) : Bool := param.style = .flag

def hide (rules : List HideRule) (param : Param) : Param :=
  { param with hideRules := param.hideRules ++ rules }

def valueIn (param : Param) (config : Config) : Value := (config.get? param.key).getD param.default

def isHidden (param : Param) (config : Config) : Bool :=
  param.hideRules.any (·.hides (param.valueIn config) config)

/-- The name that a flag shows: its key without any `_on`, unless it is abbreviated. -/
def flagName (param : Param) : String :=
  param.abbreviation.getD (Text.replaceEach [("_on", "")] param.key)

def render (param : Param) (value : Value) : Except Error String :=
  match param.style with
  | .keyed => .ok (param.abbreviation.getD (param.key ++ "=") ++ value.text)
  | .flag =>
    match value with
    | .bool true => .ok param.flagName
    | .bool false => .ok ("no" ++ param.flagName)
    | other => .error (.notBoolean param.key other.text)

/-- The item of a label, hidden or not. The value must be a valid one. -/
def item (param : Param) (config : Config) : Except Error String :=
  let value := param.valueIn config
  match param.validValues with
  | none => param.render value
  | some valid =>
    if valid.contains value then param.render value
    else .error (.invalidValue param.key value.text (valid.map Value.text))

/-- The item of a label, empty when hidden. -/
def visibleItem (param : Param) (config : Config) : Except Error String :=
  if param.isHidden config then .ok "" else param.item config

end Param
end ParamSweep
