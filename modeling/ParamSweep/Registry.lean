import ParamSweep.Error
import ParamSweep.Json.Basic
import ParamSweep.Value.Tagged

/-! Named base configurations. A name stands for a list of configurations, fixed or computed from the
metadata of the request. -/

namespace ParamSweep

inductive Entry where
  | fixed (configs : List Config)
  | computed (produce : Option Json → List Config)

namespace Entry

def resolve (metadata : Option Json) : Entry → List Config
  | .fixed configs => configs
  | .computed produce => produce metadata

def tagged : Entry → String
  | .fixed configs => "Static([" ++ ", ".intercalate (configs.map Config.tagged) ++ "])"
  | .computed _ => "Computed(..)"

end Entry

abbrev Registry := Dict Entry

namespace Registry

/-- The base configurations of a name. Without a registry every name stands for one empty base. -/
def lookup (registry : Option Registry) (metadata : Option Json) (name : String) :
    Except Error (List Config) :=
  match registry with
  | none => .ok [Dict.empty]
  | some registry =>
    match registry.get? name with
    | some entry => .ok (entry.resolve metadata)
    | none => .error (.unknownName name registry.keys)

/-- A registry with its names and fixed configurations spelled out. -/
def tagged (registry : Registry) : String :=
  "NamedDefaults \x7b entries: \x7b" ++
    ", ".intercalate (registry.entries.map fun entry => Text.quote entry.1 ++ ": " ++ entry.2.tagged) ++
    "\x7d \x7d"

end Registry
end ParamSweep
