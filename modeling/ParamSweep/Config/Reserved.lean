import ParamSweep.Value.Basic

/-! The keys under which a configuration records where it comes from. They are no parameters. -/

namespace ParamSweep.Config

/-- Holds the text that the configuration was expanded from. -/
def sourceKey : String := "_cfgstr"

/-- Holds the name of the base configuration. -/
def nameKey : String := "_cfgname"

/-- Holds the tag that the caller gave. -/
def tagKey : String := "_cfgtype"

/-- Holds the position within the expansion. -/
def indexKey : String := "_cfgindex"

def reservedKeys : List String := [sourceKey, nameKey, tagKey, indexKey]

def isReserved (key : String) : Bool := reservedKeys.contains key

end ParamSweep.Config
