import ParamSweep.Config.Combination
import ParamSweep.Config.Shared
import ParamSweep.Label.Varied
import ParamSweep.Selector.Basic

/-! Sweeps: the configurations that a table of candidates spans under a constraint, with a label for each. -/

namespace ParamSweep

/-- A constraint on whole configurations gives the edited configuration, or none if it rejects it. -/
abbrev Constraint := Config → Option Config

/-- Configurations and their labels, one for each. -/
structure Sweep where
  configs : List Config
  labels : List String

namespace Sweep

def labelled (varied : Config) (configs : List Config) : Sweep :=
  ⟨configs, configs.map (Label.ofSweep varied)⟩

/-- Appends what a constraint makes of a configuration, unless that is empty or there already. -/
def accept (constraint : Constraint) (kept : List Config) (config : Config) : List Config :=
  match constraint config with
  | some edited => if edited.isEmpty then kept else Config.addNew kept edited
  | none => kept

/-- The accepted configurations, each once and none of them empty. -/
def constrain (constraint : Constraint) (configs : List Config) : List Config :=
  configs.foldl (accept constraint) []

/-- Cuts each list of candidates by the selector of its key or a default. -/
def restrict (slices : Dict Selector) (fallback : Selector) (varied : Config) : Except Error Config := do
  let entries ← varied.entries.mapM fun (key, value) => match value with
    | .list items => do
      let kept ← ((slices.get? key).getD fallback).select items
      .ok (key, Value.list kept)
    | other => .ok (key, other)
  .ok (Dict.ofList entries)

/-- The configurations of a table of candidates. Without slices all candidates count; the labels tell
apart what the table varies before it is cut. -/
def build (constraint : Option Constraint) (slices : Option (Dict Selector)) (fallback : Selector)
    (varied : Config) : Except Error Sweep := do
  let table ← match slices with
    | some slices => restrict slices fallback varied
    | none => .ok varied
  let configs := table.combinations
  .ok (labelled varied (match constraint with
    | some constraint => constrain constraint configs
    | none => configs))

def project (keys : List String) (configs : List Config) : List Config :=
  Config.distinct (configs.map (·.restrict keys))

def projectTo (varied : Config) (configs : List Config) : Sweep :=
  labelled varied (project varied.keys configs)

end Sweep
end ParamSweep
