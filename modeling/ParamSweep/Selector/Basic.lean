import ParamSweep.Error

/-! Selectors pick a part of a list: the items at given positions, or a slice. -/

namespace ParamSweep

/-- Positions to pick, or a slice. In a slice a missing start is the beginning, a missing stop the end
and a missing step one. -/
inductive Selector where
  | indices (positions : List Nat)
  | slice (start stop step : Option Nat)
  deriving DecidableEq, Repr

namespace Selector

/-- Passes over `wait` items, takes one, and goes on passing over `skip` items between those it takes. -/
def everyNth (skip : Nat) : Nat → List α → List α
  | _, [] => []
  | 0, item :: rest => item :: everyNth skip skip rest
  | wait + 1, _ :: rest => everyNth skip wait rest

/-- The items between two positions, both cut down to the length of the list. -/
def between (start stop : Nat) (items : List α) : List α := (items.take stop).drop start

/-- Every position must exist, and the first that does not is reported. A slice takes what there is;
its step may be zero only if it takes nothing. -/
def select (selector : Selector) (items : List α) : Except Error (List α) :=
  match selector with
  | .indices positions => positions.mapM fun index => match items[index]? with
    | some item => .ok item
    | none => .error (.indexOutOfRange index items.length)
  | .slice start stop step =>
    let range := between (start.getD 0) (stop.getD items.length) items
    match step.getD 1 with
    | 0 => if range.isEmpty then .ok [] else .error .zeroStep
    | skip + 1 => .ok (everyNth skip 0 range)

/-- The text between the brackets. A missing step is left out, with its colon. -/
def text : Selector → String
  | .indices positions => ",".intercalate (positions.map Nat.repr)
  | .slice start stop step =>
    (start.elim "" Nat.repr) ++ ":" ++ (stop.elim "" Nat.repr) ++ step.elim "" fun step => ":" ++ step.repr

end Selector
end ParamSweep
