import ParamSweep.Json.Record
import ParamSweep.Json.Reader
import ParamSweep.Json.Writer
import ParamSweep.KeyPolicy.Basic

/-! Key policies as JSON. -/

namespace ParamSweep.KeyPolicy

def ofJson? (json : Json) : Option KeyPolicy := do
  match ← json.fields? ["alias_keys", "valid_keys", "strict"] with
  | [aliases, validKeys, strict] =>
    let aliases ← Json.optional? Json.textPairs? aliases
    let validKeys ← Json.optional? Json.texts? validKeys
    match strict with
    | none => some ⟨aliases.map Dict.ofList, validKeys, true⟩
    | some (.bool strict) => some ⟨aliases.map Dict.ofList, validKeys, strict⟩
    | some _ => none
  | _ => none

def parseJson? (text : String) : Option KeyPolicy := (Json.parse? text).bind ofJson?

def json (policy : KeyPolicy) : String :=
  let aliases (aliases : Dict String) :=
    Json.objectText (aliases.entries.map fun (old, new) => (old, Json.stringText new))
  let keys (keys : List String) := Json.arrayText (keys.map Json.stringText)
  Json.objectText
    [("alias_keys", Json.optionText aliases policy.aliases),
      ("valid_keys", Json.optionText keys policy.validKeys),
      ("strict", Json.boolText policy.strict)]

end ParamSweep.KeyPolicy
