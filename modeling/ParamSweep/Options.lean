import ParamSweep.Error
import ParamSweep.Value.Cast

/-! Options in text: fragments separated by commas outside all brackets. A fragment is a key, an equals
sign and a value, or a key alone, which sets it to true. -/

namespace ParamSweep.Options
open Text

/-- The fragments of an option text, whose brackets must close. -/
def split (text : String) : Except GrammarError (List String) :=
  if isBalanced text.toList then .ok ((splitTopLevel ',' text.toList).map String.ofList)
  else .error (.unbalanced text)

/-- What option values are read with: as values, or as plain text. -/
def readValue (cast : Bool) (text : List Char) : Value :=
  if cast then Value.ofChars text else .str (String.ofList text)

def entryOf (key : List Char) (value : Value) : Except OptionFault (String × Value) :=
  if key.isEmpty then .error .missingKey else .ok (String.ofList key, value)

/-- Splits a trimmed fragment at the equals signs outside all brackets. -/
def readFragment (cast : Bool) (fragment : List Char) : Except OptionFault (String × Value) :=
  match cutAtDepth (fun char depth => char = '=' && depth = 0) 0 fragment with
  | [key, value] => entryOf (trimEnd key) (readValue cast (trim value))
  | [key] => entryOf key (.bool true)
  | _ => .error .repeatedEquals

/-- Reads fragments one after another; empty ones count for nothing, and a later one wins. -/
def readFragments (cast : Bool) (fragments : List String) : Except GrammarError Config :=
  let texts := (fragments.map fun fragment => trim fragment.toList).filter (!·.isEmpty)
  (texts.mapM fun text =>
    (readFragment cast text).mapError (.option (String.ofList text))).map Dict.ofList

/-- Moves the value of one key to another, over what is there. -/
def rename (options : Config) (old new : String) : Config :=
  match options.get? old with
  | some value => (options.erase old).insert new value
  | none => options

/-- Renames keys one after another, in the order of the old names. -/
def renameAll (aliases : Dict String) (options : Config) : Config :=
  aliases.entries.foldl (fun options entry => rename options entry.1 entry.2) options

/-- The options of a text under their final names. Candidate lists stay lists. -/
def parse (aliases : Dict String) (text : String) : Except GrammarError Config := do
  let fragments ← split text
  let options ← readFragments true fragments
  .ok (renameAll aliases options)

end ParamSweep.Options
