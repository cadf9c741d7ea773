import ParamSweep.Expansion
import ParamSweep.Registry
import ParamSweep.Text.Pair
import ParamSweep.Token

/-! Expansion of a list of tokens into groups of configurations.

A token is a declaration when it holds `=:`, a joined token when it holds `::`, and plain otherwise.
Declarations name base configurations for the whole request and give no group. A joined token binds
several plain ones together. -/

namespace ParamSweep

/-- One element of a group: a single configuration, or several that stay together. -/
inductive Node where
  | single (config : Config)
  | group (configs : List Config)

abbrev Group := List Node

namespace Node

def configs : Node → List Config
  | .single config => [config]
  | .group configs => configs

end Node

namespace Group

def flatten (group : Group) : List Config := group.flatMap Node.configs

end Group

/-- What holds for all tokens of a request. -/
structure Request where
  /-- Where names are looked up; without it, in the declarations of the request. -/
  registry : Option Registry
  /-- Recorded in every configuration. -/
  tag : Option String
  policy : KeyPolicy
  /-- Whether a token gives one group, or one for each of its base configurations. -/
  groupByToken : Bool
  /-- Whether the configurations of one base stay together. -/
  nested : Bool
  /-- Added to every configuration of a joined token. -/
  join : Option Config
  /-- Handed to computed entries. -/
  metadata : Option Json

namespace Request
open Text

def isDeclaration (token : String) : Bool := hasPair '=' ':' token.toList

def isJoined (token : String) : Bool := hasPair ':' ':' token.toList

/-- The tokens that a joined token binds together. -/
def segments (token : String) : List String := (splitPair ':' ':' token.toList).map String.ofList

/-- The name that a declaration declares, which is written with an equals sign behind it. -/
def declaredName (token : String) (parsed : Token) : Except GrammarError String :=
  if parsed.name.toList.getLast? = some '=' then .ok (String.ofList parsed.name.toList.dropLast)
  else .error (.unnamedDeclaration token)

/-- The name of a declaration, and its base configurations with the declared options. -/
def declare (request : Request) (token : String) : Except Error (String × Entry) := do
  let parsed ← (Token.parse token).mapError .grammar
  let name ← (declaredName token parsed).mapError .grammar
  let bases ← Registry.lookup request.registry request.metadata name
  let options ← (request.policy.parse parsed.options).mapError .grammar
  .ok (name, .fixed (bases.map (·.extend options)))

/-- The registry that names are looked up in: the given one, else the declared one unless it is
empty. -/
def resolveRegistry (request : Request) (tokens : List String) : Except Error (Option Registry) := do
  let declared ← (tokens.filter isDeclaration).mapM request.declare
  match request.registry with
  | some registry => .ok (some registry)
  | none => .ok (if declared.isEmpty then none else some (Dict.ofList declared))

def nodes (request : Request) (configs : List Config) : Group :=
  if request.nested then [.group configs] else configs.map .single

/-- The part of one base's expansion that a token selects. -/
def expandBase (request : Request) (token : Token) (offset : Nat) (base : Config) :
    Except Error (List Config) := do
  let configs ← Config.expand request.policy request.tag token.name token.options offset base
  match token.selector with
  | some selector => selector.select configs
  | none => .ok configs

/-- Expands base after base. In one group the numbering goes on behind the nodes that are there. -/
def expandBases (request : Request) (token : Token) (group : Group) :
    List Config → Except Error (List Group)
  | [] => .ok (if request.groupByToken then [group] else [])
  | base :: rest => do
    let configs ← request.expandBase token group.length base
    if request.groupByToken then request.expandBases token (group ++ request.nodes configs) rest
    else return request.nodes configs :: (← request.expandBases token group rest)

def expandPlain (request : Request) (token : String) : Except Error (List Group) := do
  let parsed ← (Token.parse token).mapError .grammar
  let bases ← Registry.lookup request.registry request.metadata parsed.name
  request.expandBases parsed [] bases

def addJoin (request : Request) (config : Config) : Config :=
  request.join.elim config config.extend

/-- Keeps together what each group of a segment holds. -/
def expandJoined (request : Request) (token : String) : Except Error (List Group) := do
  let parts ← (segments token).mapM ({ request with nested := false }).expandPlain
  let groups := parts.flatten.map fun group => Node.group (group.flatten.map request.addJoin)
  .ok [groups]

def expandToken (request : Request) (token : String) : Except Error (List Group) :=
  if isJoined token then request.expandJoined token else request.expandPlain token

/-- The groups of all tokens that are no declarations, in order. -/
def expand (request : Request) (tokens : List String) : Except Error (List Group) := do
  let registry ← request.resolveRegistry tokens
  let groups ← (tokens.filter (!isDeclaration ·)).mapM ({ request with registry }).expandToken
  .ok groups.flatten

/-- All configurations of the tokens in one list; keys are not checked. -/
def configs (request : Request) (tokens : List String) : Except Error (List Config) := do
  let groups ← ({ request with policy := request.policy.lenient }).expand tokens
  .ok (groups.flatMap Group.flatten)

end Request
end ParamSweep
