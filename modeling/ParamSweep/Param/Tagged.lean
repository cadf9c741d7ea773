import ParamSweep.Param.Family

/-! Parameters and families spelled out field by field, as inspection shows them. -/

namespace ParamSweep

/-- A value that may be absent. -/
def taggedOption (tagged : α → String) : Option α → String
  | none => "None"
  | some value => "Some(" ++ tagged value ++ ")"

def taggedList (tagged : α → String) (items : List α) : String :=
  "[" ++ ", ".intercalate (items.map tagged) ++ "]"

/-- A type name with named fields. -/
def taggedFields (name : String) (fields : List (String × String)) : String :=
  name ++ " \x7b " ++ ", ".intercalate (fields.map fun (field, value) => field ++ ": " ++ value) ++ " \x7d"

def Selector.tagged : Selector → String
  | .indices positions => "Indices(" ++ taggedList Nat.repr positions ++ ")"
  | .slice start stop step =>
    taggedFields "Slice"
      [("start", taggedOption Nat.repr start), ("stop", taggedOption Nat.repr stop),
        ("step", taggedOption Nat.repr step)]

def Param.Style.tagged : Param.Style → String
  | .keyed => "Keyed"
  | .flag => "Flag"

def Param.tagged (param : Param) : String :=
  taggedFields "ParamInfo"
    [("varname", Text.quote param.key), ("default", param.default.tagged),
      ("shortprefix", taggedOption Text.quote param.abbreviation),
      ("varyvals", taggedList Value.tagged param.candidates),
      ("varyslice", taggedOption Selector.tagged param.slice),
      ("hideif_list", taggedList HideRule.tagged param.hideRules),
      ("valid_values", taggedOption (taggedList Value.tagged) param.validValues),
      ("style", param.style.tagged)]

/-- Of a constraint only its presence shows. -/
def Family.tagged (family : Family) : String :=
  taggedFields "ParamInfoList"
    [("name", Text.quote family.name), ("params", taggedList Param.tagged family.params),
      ("constraint_func", taggedOption (fun _ => Text.quote "..") family.constraint)]

end ParamSweep
