import ParamSweep.Value.Basic

/-! What configurations have in common, their restriction to some keys, and lists of configurations
without repetitions. -/

namespace ParamSweep.Config

/-- The entries that another configuration has with an equal value. -/
def shared (config other : Config) : Config :=
  config.filter fun key value => match other.get? key with
    | some found => found == value
    | none => false

/-- The entries that all configurations share; none if there is no configuration. -/
def sharedByAll : List Config → Config
  | [] => Dict.empty
  | first :: rest => rest.foldl shared first

/-- Restricts a configuration to some keys, whether present or not. -/
def restrict (config : Config) (keys : List String) : Config :=
  config.filter fun key _ => keys.contains key

/-- Appends a configuration unless an equal one is there. -/
def addNew (seen : List Config) (config : Config) : List Config :=
  if seen.contains config then seen else seen ++ [config]

/-- Keeps the first of equal configurations. -/
def distinct (configs : List Config) : List Config := configs.foldl addNew []

end ParamSweep.Config
