import ParamSweep.Config.Shared

/-! Partition of configurations into the entries that all of them share and what remains of each. -/

namespace ParamSweep

/-- Shared entries, and the rest of each configuration in order. -/
structure Partition where
  common : Config
  varied : List Config

namespace Partition

/-- A default configuration takes part: only what it has too counts as shared. -/
def flat (default : Option Config) (configs : List Config) : Partition :=
  let common := Config.sharedByAll (default.toList ++ configs)
  ⟨common, configs.map (·.eraseAll common.keys)⟩

def keysOf (configs : List Config) : List String := (Dict.ofList (configs.flatMap Dict.entries)).keys

/-- The dictionaries that the configurations hold under a key, if each of them holds one. -/
def nested? (key : String) (configs : List Config) : Option (List Config) :=
  configs.mapM fun config => (config.get? key).bind Value.dict?

/-- Partitions the dictionaries under a key in their turn. -/
def descend (below : List Config → Partition) (partition : Partition) (key : String) : Partition :=
  match nested? key partition.varied with
  | none => partition
  | some dicts =>
    let parts := below dicts
    { common := partition.common.insert key (.ofConfig parts.common)
      varied := partition.varied.zipWith (fun config rest => config.insert key (.ofConfig rest))
        parts.varied }

/-- Partitions down to a number of levels of nested dictionaries. The default takes part in the first. -/
def toLevel : Nat → Option Config → List Config → Partition
  | 0, default, configs => flat default configs
  | levels + 1, default, configs =>
    let top := flat default configs
    (keysOf top.varied).foldl (descend (toLevel levels none)) top

end Partition

namespace Value

mutual

/-- How many dictionaries stand inside each other from a value down. -/
def nesting : Value → Nat
  | .dict entries => nestingOfEntries entries + 1
  | _ => 0
termination_by structural value => value

def nestingOfEntries : List (String × Value) → Nat
  | [] => 0
  | (_, value) :: rest => max value.nesting (nestingOfEntries rest)
termination_by structural entries => entries

end

end Value

namespace Partition

/-- The deepest nesting of dictionaries inside configurations. -/
def levelsOf (configs : List Config) : Nat :=
  (configs.map fun config => Value.nestingOfEntries config.entries).foldl max 0

/-- Partitions the entries, or those of all nested dictionaries too. -/
def of (recursive : Bool) (default : Option Config) (configs : List Config) : Partition :=
  toLevel (if recursive then levelsOf configs else 0) default configs

end Partition
end ParamSweep
