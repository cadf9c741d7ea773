/-! The syntax of JSON texts. Numbers keep their digits and strings remember whether they denote a text
at all, so each reader decides on its own which of them it takes. -/

namespace ParamSweep

namespace Json

/-- A number as it is written. The fraction is empty when no point is written; an exponent is whether
it is negative, and its digits. -/
structure NumberText where
  negative : Bool
  whole : List Char
  fraction : List Char
  exponent : Option (Bool × List Char)
  deriving DecidableEq, Repr, Inhabited

end Json

/-- A JSON value. A string is `none` when its escapes name half of a surrogate pair only, which no text
contains. Members of an object keep their order and may repeat. -/
inductive Json where
  | null
  | bool (value : Bool)
  | number (text : Json.NumberText)
  | string (text : Option String)
  | array (items : List Json)
  | object (members : List (Option String × Json))
  deriving Inhabited

namespace Json

mutual

/-- How many arrays and objects stand inside each other. -/
def depth : Json → Nat
  | .null | .bool _ | .number _ | .string _ => 0
  | .array items => depthOfItems items + 1
  | .object members => depthOfMembers members + 1
termination_by structural json => json

def depthOfItems : List Json → Nat
  | [] => 0
  | item :: rest => max item.depth (depthOfItems rest)
termination_by structural items => items

def depthOfMembers : List (Option String × Json) → Nat
  | [] => 0
  | (_, item) :: rest => max item.depth (depthOfMembers rest)
termination_by structural members => members

end

def text? : Json → Option String
  | .string text => text
  | _ => none

def items? : Json → Option (List Json)
  | .array items => some items
  | _ => none

end Json
end ParamSweep
