import ParamSweep.Json.Number

/-! Records in JSON: objects with known fields. Unknown fields count for nothing, and no field may stand
twice. -/

namespace ParamSweep.Json

/-- The value of a field, absent or present; none if the field stands twice. -/
def field? (members : List (Option String × Json)) (name : String) : Option (Option Json) :=
  match members.filter fun member => member.1 == some name with
  | [] => some none
  | [(_, value)] => some (some value)
  | _ => none

/-- The values of the fields, from an object or from an array that lists them in order and may end
early. -/
def fields? (names : List String) : Json → Option (List (Option Json))
  | .object members => if members.all (·.1.isSome) then names.mapM (field? members) else none
  | .array items =>
    if items.length ≤ names.length then
      some (items.map some ++ List.replicate (names.length - items.length) none)
    else none
  | _ => none

/-- A value that may be absent or null. -/
def optional? (read : Json → Option α) : Option Json → Option (Option α)
  | none | some .null => some none
  | some value => (read value).map some

def texts? : Json → Option (List String)
  | .array items => items.mapM text?
  | _ => none

/-- A natural below `2 ^ 64`. -/
def natural? : Json → Option Nat
  | .number spelled => (spelled.integer?.filter (0 ≤ ·)).map Int.toNat
  | _ => none

def naturals? : Json → Option (List Nat)
  | .array items => items.mapM natural?
  | _ => none

/-- An object whose values are texts; of repeated keys the last holds. -/
def textPairs? : Json → Option (List (String × String))
  | .object members => members.mapM fun (key, value) => do
    let key ← key
    let text ← value.text?
    some (key, text)
  | _ => none

end ParamSweep.Json
