import ParamSweep.Value.Basic

/-! Combinations of candidates. An axis is a parameter with its candidates; a combination takes one of
each axis, and the last axis varies fastest. -/

namespace ParamSweep

/-- A parameter and the values it may take. -/
abbrev Axis := String × List Value

namespace Config

/-- Every way to choose one candidate of each axis. -/
def choices : List Axis → List (List (String × Value))
  | [] => [[]]
  | (name, candidates) :: rest =>
    candidates.flatMap fun value => (choices rest).map ((name, value) :: ·)

/-- The configurations that choose one candidate of each axis, axes in the given order. Of axes with the
same name the last decides. -/
def combinationsOf (axes : List Axis) : List Config := (choices axes).map Dict.ofList

/-- The parameters of a configuration as axes, in key order. A value that is no list is its own only
candidate. -/
def axes (config : Config) : List Axis :=
  config.entries.map fun entry => (entry.1, entry.2.candidates)

def combinations (config : Config) : List Config := combinationsOf config.axes

/-- The number of choices, which is the product of the numbers of candidates. -/
def spread : List Axis → Nat
  | [] => 1
  | axis :: rest => axis.2.length * spread rest

@[simp] theorem length_choices (axes : List Axis) :
    (choices axes).length = spread axes := by
  induction axes with
  | nil => rfl
  | cons axis rest ih =>
    simp only [choices, spread, List.length_flatMap, List.length_map, ih, List.map_const',
      List.sum_replicate_nat]

end Config
end ParamSweep
