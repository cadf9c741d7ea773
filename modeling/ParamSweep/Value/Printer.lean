import ParamSweep.Value.Basic
import ParamSweep.Number.Layout

/-! The text of values in labels and messages. -/

namespace ParamSweep

namespace Number

/-- In labels numbers have no exponent, and whole ones below `10 ^ 16` end in `.0`. -/
def labelLayout : FloatLayout where
  positional _ := true
  pointZero power := power < 16
  exponentSign := []
  tie := .up
  nan := "nan"
  infinity := "inf"

end Number

namespace Value

mutual

/-- A tuple of one item keeps a comma behind it. -/
def chars : Value → List Char
  | .none => ['N', 'o', 'n', 'e']
  | .bool true => ['T', 'r', 'u', 'e']
  | .bool false => ['F', 'a', 'l', 's', 'e']
  | .int value => Number.intText value.toInt
  | .float value => (Number.labelLayout.render value).toList
  | .str text => text.toList
  | .list items => '[' :: charsOfItems items ++ [']']
  | .tuple items => '(' :: charsOfItems items ++ (if items.length = 1 then [',', ')'] else [')'])
  | .dict entries => '\x7b' :: charsOfEntries entries ++ ['\x7d']
termination_by structural value => value

/-- Items with a comma and a space between them. -/
def charsOfItems : List Value → List Char
  | [] => []
  | [item] => item.chars
  | item :: next :: rest => item.chars ++ ',' :: ' ' :: charsOfItems (next :: rest)
termination_by structural items => items

def charsOfEntries : List (String × Value) → List Char
  | [] => []
  | [(key, item)] => key.toList ++ ':' :: ' ' :: item.chars
  | (key, item) :: next :: rest =>
    key.toList ++ ':' :: ' ' :: item.chars ++ ',' :: ' ' :: charsOfEntries (next :: rest)
termination_by structural entries => entries

end

def text (value : Value) : String := String.ofList value.chars

end Value
end ParamSweep
