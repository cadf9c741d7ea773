/-! Two-character marks: whether one occurs, and the pieces between its occurrences from the left. -/

namespace ParamSweep.Text

/-- Whether `first` is somewhere followed directly by `second`. -/
def hasPair (first second : Char) : List Char → Bool
  | left :: right :: rest => (left = first && right = second) || hasPair first second (right :: rest)
  | _ => false

/-- The pieces between the occurrences of the mark, found from the left without overlaps. -/
def splitPair (first second : Char) : List Char → List (List Char)
  | left :: right :: rest =>
    if left = first ∧ right = second then [] :: splitPair first second rest
    else (splitPair first second (right :: rest)).modifyHead (left :: ·)
  | [char] => [[char]]
  | [] => [[]]

end ParamSweep.Text
