import ParamSweep.Param.Basic
import ParamSweep.Sweep

/-! Families of parameters: what a sweep over them takes, and their part of a label. -/

namespace ParamSweep

/-- Named parameters under a common constraint. -/
structure Family where
  name : String
  params : List Param
  constraint : Option Constraint

namespace Family

def hide (rules : List HideRule) (family : Family) : Family :=
  { family with params := family.params.map (·.hide rules) }

def keys (family : Family) : List String := family.params.map Param.key

/-- The value of every parameter, its default where a configuration has none. -/
def complete (family : Family) (config : Config) : Config :=
  Dict.ofList (family.params.map fun param => (param.key, param.valueIn config))

/-- The candidates of every parameter as dimensions, in order. -/
def basis (family : Family) : List Axis := family.params.map fun param => (param.key, param.candidates)

/-- The candidates of every parameter as a table. -/
def table (family : Family) : Config :=
  Dict.ofList (family.params.map fun param => (param.key, .list param.candidates))

/-- The slices of the parameters that have one, if any has. -/
def slices? (family : Family) : Option (Dict Selector) :=
  let slices := Dict.ofList (family.params.filterMap fun param =>
    param.slice.map fun slice => (param.key, slice))
  if slices.isEmpty then none else some slices

/-- The sweep over all candidates. As soon as one parameter has a slice, the others are cut too, by the
fallback. -/
def sweep (family : Family) (fallback : Selector) : Except Error Sweep :=
  Sweep.build family.constraint family.slices? fallback family.table

def items (family : Family) (config : Config) : Except Error String := do
  let items ← family.params.mapM (·.visibleItem config)
  .ok (",".intercalate (items.filter (!·.isEmpty)))

end Family
end ParamSweep
