import ParamSweep.Selector.Reader

/-! Tokens, the texts that a request lists: a name, a selector in square brackets if there is one, and
options behind a colon if there are any. -/

namespace ParamSweep

/-- A token split into its parts. The options are still text; they are empty when there is no colon. -/
structure Token where
  name : String
  options : String
  selector : Option Selector
  deriving DecidableEq, Repr

namespace Token

def endsName (char : Char) : Bool := char = '[' || char = ':'

/-- What follows the name and the selector: nothing, or a colon with options. -/
def readOptions (token : String) : List Char → Except GrammarError String
  | [] => .ok ""
  | ':' :: options => .ok (String.ofList options)
  | rest => .error (.trailingText token (String.ofList rest))

/-- What follows the name. A selector ends at the first closing bracket. -/
def readRest (token name : String) : List Char → Except GrammarError Token
  | '[' :: rest =>
    match rest.dropWhile (· ≠ ']') with
    | _ :: after => do
      let selector ← Selector.parse (String.ofList (rest.takeWhile (· ≠ ']')))
      let options ← readOptions token after
      .ok ⟨name, options, some selector⟩
    | [] => .error (.unclosedSelector token)
  | rest => do
    let options ← readOptions token rest
    .ok ⟨name, options, none⟩

def parse (token : String) : Except GrammarError Token :=
  readRest token (String.ofList (token.toList.takeWhile (!endsName ·))) (token.toList.dropWhile (!endsName ·))

end Token
end ParamSweep
