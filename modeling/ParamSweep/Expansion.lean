import ParamSweep.Config.Combination
import ParamSweep.KeyPolicy.Basic

/-! Expansion of one base configuration by options. Every choice among the candidates gives one
configuration, and each of them records where it comes from. -/

namespace ParamSweep.Config

/-- The canonical text of a name with options. -/
def sourceText (name options : String) : String :=
  if options.isEmpty then name else name ++ ":" ++ options

/-- Records the position in the expansion, as a word of sixty-four bits, and the source text. -/
def stamp (source : String) (index : Nat) (config : Config) : Config :=
  (config.insert indexKey (.int (Int64.ofNat index))).insert sourceKey (.str source)

/-- Records the tag and the name. -/
def identify (tag : Option String) (name : String) (config : Config) : Config :=
  (config.insert tagKey (tag.elim .none .str)).insert nameKey (.str name)

/-- All configurations that the options make of a base, numbered from an offset. -/
def expand (policy : KeyPolicy) (tag : Option String) (name options : String) (offset : Nat)
    (base : Config) : Except Error (List Config) := do
  let overrides ← (policy.parse options).mapError .grammar
  policy.check overrides base
  let combined := combinations (identify tag name (base.extend overrides))
  .ok (combined.mapIdx fun index config => stamp (sourceText name options) (offset + index) config)

end ParamSweep.Config
