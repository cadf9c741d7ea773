import ParamSweep.Number.Binary64
import ParamSweep.Number.Word

/-! Numbers read from text: naturals within a machine word, integers of sixty-four bits and
floating-point numbers in decimal. -/

namespace ParamSweep.Number

/-- The number that ASCII digits denote, if there is at least one and nothing else. -/
def readDigits? (text : List Char) : Option Nat :=
  if text.isEmpty || !text.all Char.isDigit then none else some (Nat.ofDigitChars 10 text 0)

/-- A natural below `2 ^ 64`; a plus sign may come first. -/
def readNatural? (text : List Char) : Option Nat :=
  (readDigits? (if text.head? = some '+' then text.tail else text)).filter (· < wordCount)

/-- Takes a sign off the front: whether it is a minus, and what follows. -/
def takeSign : List Char → Bool × List Char
  | '-' :: rest => (true, rest)
  | '+' :: rest => (false, rest)
  | text => (false, text)

def readInt64? (text : List Char) : Option Int64 :=
  let (negative, body) := takeSign text
  match readDigits? body with
  | none => none
  | some size =>
    int64? (if negative then -(size : Int) else size)

/-- An exponent after its letter. Once it has reached `2 ^ 16` further digits change nothing, for any
number that has so large an exponent is zero or infinite. -/
def readExponent? (text : List Char) : Option Int :=
  let (negative, body) := takeSign text
  if body.isEmpty || !body.all Char.isDigit then none
  else
    let size := body.foldl
      (fun size digit => if size < 0x10000 then 10 * size + (digit.toNat - '0'.toNat) else size) 0
    some (if negative then -(size : Int) else size)

/-- Digits with at most one point among them, at least one digit, then an optional exponent. -/
def readDecimal? (negative : Bool) (text : List Char) : Option Binary64 := do
  let whole := text.takeWhile Char.isDigit
  let (fraction, rest) := match text.dropWhile Char.isDigit with
    | '.' :: after => (after.takeWhile Char.isDigit, after.dropWhile Char.isDigit)
    | rest => ([], rest)
  let digits ← readDigits? (whole ++ fraction)
  let exponent ← match rest with
    | [] => some 0
    | letter :: after => if letter = 'e' ∨ letter = 'E' then readExponent? after else none
  some (Binary64.ofDecimal negative digits (exponent - fraction.length))

/-- A decimal number, `inf`, `infinity` or `nan` in any case, with an optional sign. -/
def readFloat? (text : List Char) : Option Binary64 :=
  let (negative, body) := takeSign text
  let word := body.map Char.toLower
  if word = ['n', 'a', 'n'] then some (Binary64.nan negative)
  else if word = ['i', 'n', 'f'] ∨ word = ['i', 'n', 'f', 'i', 'n', 'i', 't', 'y'] then
    some (Binary64.infinity negative)
  else readDecimal? negative body

end ParamSweep.Number
