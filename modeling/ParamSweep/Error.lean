import ParamSweep.Text.Quoted

/-! Why a request fails, and the wording of each cause. -/

namespace ParamSweep

/-- What is wrong with the text of a selector. -/
inductive SelectorFault where
  | empty
  | notNatural (part : String)
  | tooManyColons
  | zeroStep
  | emptyIndex
  deriving DecidableEq, Repr

/-- What is wrong with one option. -/
inductive OptionFault where
  | repeatedEquals
  | missingKey
  deriving DecidableEq, Repr

/-- Texts that the grammar refuses. -/
inductive GrammarError where
  | trailingText (token remainder : String)
  | unclosedSelector (token : String)
  | selector (text : String) (fault : SelectorFault)
  | unbalanced (text : String)
  | option (fragment : String) (fault : OptionFault)
  | unnamedDeclaration (token : String)
  deriving DecidableEq, Repr

/-- What override keys are checked against. -/
inductive KeySchema where
  | validKeys
  | baseConfig
  deriving DecidableEq, Repr

inductive Error where
  | grammar (error : GrammarError)
  | unknownName (name : String) (available : List String)
  | unknownKeys (keys : List String) (schema : KeySchema)
  | notBoolean (param value : String)
  | invalidValue (param value : String) (valid : List String)
  | indexOutOfRange (index size : Nat)
  | tooManyResults (attempted points : Nat)
  | unknownScoreLabel (label : String)
  | unknownParam (param : String)
  | rankOutOfRange (rank scored : Nat)
  /-- A slice that was not read from text advances by zero. -/
  | zeroStep
  deriving DecidableEq, Repr

open Text

def SelectorFault.message : SelectorFault → String
  | .empty => "empty selector"
  | .notNatural part => quote part ++ " is not a non-negative integer"
  | .tooManyColons => "too many ':' in slice"
  | .zeroStep => "slice step cannot be zero"
  | .emptyIndex => "empty index"

def OptionFault.message : OptionFault → String
  | .repeatedEquals => "more than one '='"
  | .missingKey => "missing key"

def GrammarError.message : GrammarError → String
  | .trailingText token remainder =>
    "cannot isolate config name in " ++ quote token ++ ": unexpected trailing input " ++ quote remainder
  | .unclosedSelector token => "unclosed index selector in " ++ quote token
  | .selector text fault => "invalid index selector [" ++ text ++ "]: " ++ fault.message
  | .unbalanced text => "unbalanced brackets in " ++ quote text
  | .option fragment fault => "malformed option " ++ quote fragment ++ ": " ++ fault.message
  | .unnamedDeclaration token =>
    "inline named default " ++ quote token ++ " must look like name=:options"

def KeySchema.message : KeySchema → String
  | .validKeys => "valid set"
  | .baseConfig => "default options"

def Error.message : Error → String
  | .grammar error => "Grammar error: " ++ error.message
  | .unknownName name available =>
    "Config name error: unknown configuration name " ++ quote name ++
      " (registered: " ++ quoteList available ++ ")"
  | .unknownKeys keys schema =>
    "Validation error: keys specified not in " ++ schema.message ++ ": " ++ quoteList keys
  | .notBoolean param value => "Validation error: not a boolean: " ++ param ++ "=" ++ value
  | .invalidValue param value valid =>
    "Validation error: " ++ param ++ "=" ++ value ++ " is not one of " ++ quoteList valid
  | .indexOutOfRange index size =>
    "Validation error: index " ++ index.repr ++ " out of range for " ++ size.repr ++ " configs"
  | .tooManyResults attempted points =>
    "Grid search error: append_result called " ++ attempted.repr ++ " times but the grid only has " ++
      points.repr ++ " points"
  | .unknownScoreLabel label => "Grid search error: unknown score label: " ++ label
  | .unknownParam param => "Grid search error: unknown grid parameter: " ++ param
  | .rankOutOfRange rank scored =>
    "Grid search error: rank " ++ rank.repr ++ " out of range for " ++ scored.repr ++ " scored points"
  | .zeroStep => "Validation error: slice step is zero"

end ParamSweep
