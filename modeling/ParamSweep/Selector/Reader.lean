import ParamSweep.Selector.Basic
import ParamSweep.Number.Reader
import ParamSweep.Text.Blank

/-! Selectors read from the text between their brackets: positions separated by commas, or up to three
parts of a slice separated by colons. -/

namespace ParamSweep.Selector
open Text Number

/-- One number, or nothing but white space. -/
def readPart (part : List Char) : Except SelectorFault (Option Nat) :=
  if (trim part).isEmpty then .ok none
  else match readNatural? (trim part) with
    | some number => .ok (some number)
    | none => .error (.notNatural (String.ofList (trim part)))

def readIndex (part : List Char) : Except SelectorFault Nat :=
  match readPart part with
  | .ok (some index) => .ok index
  | .ok none => .error .emptyIndex
  | .error fault => .error fault

def readSlice (start stop step : List Char) : Except SelectorFault Selector := do
  let start ← readPart start
  let stop ← readPart stop
  let step ← readPart step
  if step = some 0 then .error .zeroStep else .ok (.slice start stop step)

def readBody (body : List Char) : Except SelectorFault Selector :=
  if body.isEmpty then .error .empty
  else match body.splitOn ':' with
    | [start, stop] => readSlice start stop []
    | [start, stop, step] => readSlice start stop step
    | _ :: _ :: _ => .error .tooManyColons
    | _ => (body.splitOn ',').mapM readIndex |>.map .indices

def parse (text : String) : Except GrammarError Selector :=
  (readBody (trim text.toList)).mapError (.selector text)

end ParamSweep.Selector
