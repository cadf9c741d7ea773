import ParamSweep.Config.Reserved
import ParamSweep.Options

/-! Which override keys a request accepts, and under which names. -/

namespace ParamSweep

/-- How override keys are renamed and checked. -/
structure KeyPolicy where
  /-- New names for old keys; none if there is no such table. -/
  aliases : Option (Dict String)
  /-- The permitted keys. If absent, those of the base configuration. -/
  validKeys : Option (List String)
  /-- Whether other keys are refused. -/
  strict : Bool
  deriving DecidableEq

namespace KeyPolicy

def default : KeyPolicy := ⟨none, none, true⟩

instance : Inhabited KeyPolicy := ⟨default⟩

def lenient (policy : KeyPolicy) : KeyPolicy := { policy with strict := false }

def parse (policy : KeyPolicy) (text : String) : Except GrammarError Config :=
  Options.parse (policy.aliases.getD Dict.empty) text

/-- The permitted keys and where they come from. A base configuration without parameters permits
everything. -/
def permitted? (policy : KeyPolicy) (base : Config) : Option (List String × KeySchema) :=
  match policy.validKeys with
  | some keys => some (keys, .validKeys)
  | none =>
    match base.keys.filter (!Config.isReserved ·) with
    | [] => none
    | keys => some (keys, .baseConfig)

/-- Refuses keys that are reserved or not permitted, and names all of them. -/
def check (policy : KeyPolicy) (overrides base : Config) : Except Error Unit :=
  if !policy.strict || overrides.isEmpty then .ok ()
  else match policy.permitted? base with
    | none => .ok ()
    | some (keys, schema) =>
      match overrides.keys.filter fun key => Config.isReserved key || !keys.contains key with
      | [] => .ok ()
      | unknown => .error (.unknownKeys unknown schema)

end KeyPolicy
end ParamSweep
