import ParamSweep.Text.Quoted

/-! Compact JSON text, without white space, put together from the texts of the parts. -/

namespace ParamSweep.Json

/-- Control characters are escaped, by a letter where there is one; so are quotes and backslashes. All
else stands for itself. -/
def escapeChar (char : Char) : List Char :=
  if char = '"' then ['\\', '"']
  else if char = '\\' then ['\\', '\\']
  else if char = '\x08' then ['\\', 'b']
  else if char = '\x0c' then ['\\', 'f']
  else if char = '\n' then ['\\', 'n']
  else if char = '\r' then ['\\', 'r']
  else if char = '\t' then ['\\', 't']
  else if char.toNat < 0x10 then ['\\', 'u', '0', '0', '0'] ++ Text.hexDigits char.toNat
  else if char.toNat < 0x20 then ['\\', 'u', '0', '0'] ++ Text.hexDigits char.toNat
  else [char]

def stringText (text : String) : String :=
  String.ofList ('"' :: text.toList.flatMap escapeChar ++ ['"'])

def boolText (value : Bool) : String := if value then "true" else "false"

def arrayText (items : List String) : String := "[" ++ ",".intercalate items ++ "]"

def objectText (members : List (String × String)) : String :=
  "\x7b" ++ ",".intercalate (members.map fun (key, item) => stringText key ++ ":" ++ item) ++ "\x7d"

def optionText (write : α → String) : Option α → String
  | none => "null"
  | some value => write value

end ParamSweep.Json
