import ParamSweep.Text.Blank

/-! Greedy wrapping at white space. A line takes words as long as they fit; a word longer than a line
is broken, and its tail starts the next line. -/

namespace ParamSweep.Text

/-- Cuts lines of `room + 1` characters off a word until the rest fits on one line. -/
def breakWord (room : Nat) (word : List Char) : List (List Char) × List Char :=
  if word.length ≤ room + 1 then ([], word)
  else
    let (full, tail) := breakWord room (word.drop (room + 1))
    (word.take (room + 1) :: full, tail)
termination_by word.length
decreasing_by simp; omega

/-- Fills lines of `room + 1` characters, the first of them starting with `line`. -/
def fillLines (room : Nat) : List Char → List (List Char) → List (List Char)
  | line, [] => if line.isEmpty then [] else [line]
  | line, word :: rest =>
    if !line.isEmpty && line.length + 1 + word.length ≤ room + 1 then
      fillLines room (line ++ ' ' :: word) rest
    else
      let (full, tail) := breakWord room word
      (if line.isEmpty then full else line :: full) ++ fillLines room tail rest

/-- Lines of at most `width` characters, or of one when `width` is zero. -/
def wrap (width : Nat) (text : String) : List String :=
  (fillLines (width - 1) [] (words text.toList)).map String.ofList

end ParamSweep.Text
