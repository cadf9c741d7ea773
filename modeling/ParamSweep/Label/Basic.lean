import ParamSweep.Config.Reserved
import ParamSweep.Options
import ParamSweep.Text.Replace
import ParamSweep.Token
import ParamSweep.Value.Printer

/-! Labels of configurations: a name, a colon and the parameters as options. -/

namespace ParamSweep.Label
open Text

/-- Entries as options, without spaces and single quotes. -/
def optionText (entries : List (String × Value)) : String :=
  replaceEach [(" ", ""), ("'", "")]
    (",".intercalate (entries.map fun (key, value) => key ++ "=" ++ value.text))

/-- The name that a value gives; no value gives the empty name. -/
def nameOf : Option Value → String
  | none | some .none => ""
  | some (.str name) => name
  | some value => value.text

/-- The entries under the keys of an order, then all others. -/
def ordered (order : List String) (config : Config) : List (String × Value) :=
  (order.filterMap fun key => (config.get? key).map fun value => (key, value)) ++
    config.entries.filter fun entry => !order.contains entry.1

/-- A name that carries options itself shows those that the configuration does not hold, in front of
the parameters. -/
def mergeName (name parameters : String) (config : Config) : Except GrammarError String := do
  let token ← Token.parse name
  let fragments ← Options.split token.options
  let options ← Options.readFragments false fragments
  let own := optionText (options.filter fun key _ => !config.contains key).entries
  .ok (token.name ++ ":" ++ ",".intercalate ([own, parameters].filter (!·.isEmpty)))

/-- The label of a configuration under a name. Parameters under `hidden` keys are left out. -/
def under (name : String) (hidden order : List String) (config : Config) : Except GrammarError String :=
  let parameters := optionText (ordered order (config.eraseAll hidden))
  if name.toList.contains ':' then mergeName name parameters config
  else .ok (name ++ ":" ++ parameters)

/-- The label under a given name or the one that the configuration records. -/
def ofConfig (name : Option String) (hidden order : List String) (config : Config) :
    Except GrammarError String :=
  under (name.getD (nameOf (config.get? Config.nameKey))) hidden order config

end ParamSweep.Label
