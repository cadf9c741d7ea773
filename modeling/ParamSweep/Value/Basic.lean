import ParamSweep.Dict.Basic
import ParamSweep.Number.Binary64

/-! Parameter values and configurations. `=` is identity of values; `==` is equality as parameters,
which compares numbers by value within one kind and never across kinds. -/

namespace ParamSweep

/-- The value of a parameter. A list holds candidates, of which a configuration takes one at a time; a
tuple is one literal sequence. The entries of a nested dictionary stand in increasing key order. -/
inductive Value where
  | none
  | bool (value : Bool)
  | int (value : Int64)
  | float (value : Binary64)
  | str (text : String)
  | list (items : List Value)
  | tuple (items : List Value)
  | dict (entries : List (String × Value))
  deriving Inhabited

/-- Parameters with their values. -/
abbrev Config := Dict Value

namespace Value

mutual

def equal : Value → Value → Bool
  | .none, .none => true
  | .bool left, .bool right => left == right
  | .int left, .int right => left == right
  | .float left, .float right => left == right
  | .str left, .str right => left == right
  | .list left, .list right => equalItems left right
  | .tuple left, .tuple right => equalItems left right
  | .dict left, .dict right => equalEntries left right
  | _, _ => false
termination_by structural left => left

def equalItems : List Value → List Value → Bool
  | [], [] => true
  | left :: lefts, right :: rights => equal left right && equalItems lefts rights
  | _, _ => false
termination_by structural lefts => lefts

def equalEntries : List (String × Value) → List (String × Value) → Bool
  | [], [] => true
  | (leftKey, left) :: lefts, (rightKey, right) :: rights =>
    leftKey == rightKey && equal left right && equalEntries lefts rights
  | _, _ => false
termination_by structural lefts => lefts

end

instance : BEq Value := ⟨equal⟩

def isNone : Value → Bool
  | .none => true
  | _ => false

/-- The candidates of a list. -/
def items? : Value → Option (List Value)
  | .list items => some items
  | _ => Option.none

def dict? : Value → Option Config
  | .dict entries => some (Dict.ofList entries)
  | _ => Option.none

def ofConfig (config : Config) : Value := .dict config.entries

def str? : Value → Option String
  | .str text => some text
  | _ => Option.none

def bool? : Value → Option Bool
  | .bool value => some value
  | _ => Option.none

/-- The number that an integer or a floating-point value stands for. -/
def number? : Value → Option Binary64
  | .int value => some (Binary64.ofInt value.toInt)
  | .float value => some value
  | _ => Option.none

/-- The candidates that a configuration may take: those of a list, else the value alone. -/
def candidates : Value → List Value
  | .list items => items
  | value => [value]

end Value
end ParamSweep
