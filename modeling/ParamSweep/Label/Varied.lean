import ParamSweep.Label.Basic
import ParamSweep.Label.Partition
import ParamSweep.Text.Wrap

/-! Labels that show how configurations differ. -/

namespace ParamSweep.Label
open Text

/-- The names under a key, all of them empty if a configuration lacks it. -/
def namesUnder (key : String) (configs : List Config) : List String :=
  if configs.all (·.contains key) then configs.map fun config => nameOf (config.get? key)
  else configs.map fun _ => ""

/-- Labels of the parameters that not all configurations share. -/
def varied (nameKey : String) (default : Option Config) (configs : List Config) :
    Except GrammarError (List String) :=
  let rests := (Partition.of false default configs).varied
  (rests.zip (namesUnder nameKey configs)).mapM fun (rest, name) =>
    under name Config.reservedKeys [] rest

/-- The width of a line in sweep labels. -/
def sweepWidth : Nat := 50

/-- Whether a sweep varies a parameter: it is swept, and not over a single candidate. -/
def isSwept (sweep : Config) (key : String) : Bool :=
  match sweep.get? key with
  | some value => value.candidates.length != 1
  | none => false

/-- The parameters that a sweep varies, absent values aside, wrapped into lines. -/
def ofSweep (sweep config : Config) : String :=
  let shown := config.entries.filter fun (key, value) => isSwept sweep key && !value.isNone
  let items := ", ".intercalate (shown.map fun (key, value) => key ++ ": " ++ value.text)
  let plain := replaceEach [("'", ""), ("\x7d", ""), ("\x7b", ""), (": ", "=")] items
  "\n".intercalate (wrap sweepWidth plain)

end ParamSweep.Label
