import ParamSweep.Text.Printable

/-! Texts quoted for messages. A quote and a backslash are escaped by a backslash, the common control
characters by a letter, every other character that is not printable by its code point. -/

namespace ParamSweep.Text

/-- The digits of a number in base sixteen, in lower case and without leading zeros. -/
def hexDigits (number : Nat) : List Char := Nat.toDigits 16 number

def escapeChar (char : Char) : List Char :=
  if char = '"' then ['\\', '"']
  else if char = '\\' then ['\\', '\\']
  else if char = '\n' then ['\\', 'n']
  else if char = '\r' then ['\\', 'r']
  else if char = '\t' then ['\\', 't']
  else if char = '\x00' then ['\\', '0']
  else if isPrintable char then [char]
  else ['\\', 'u', '\x7b'] ++ hexDigits char.toNat ++ ['\x7d']

def quote (text : String) : String :=
  String.ofList ('"' :: text.toList.flatMap escapeChar ++ ['"'])

/-- A list of quoted texts in brackets. -/
def quoteList (texts : List String) : String :=
  "[" ++ ", ".intercalate (texts.map quote) ++ "]"

end ParamSweep.Text
