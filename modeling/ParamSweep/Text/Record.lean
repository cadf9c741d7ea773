/-! Comma-separated records. A field is quoted when it holds a comma, a quote or a line break, and a
quote inside a quoted field is written twice. -/

namespace ParamSweep.Text

def needsQuotes (field : List Char) : Bool :=
  field.any fun char => char = ',' || char = '"' || char = '\r' || char = '\n'

def writeField (field : List Char) : List Char :=
  if needsQuotes field then
    '"' :: field.flatMap (fun char => if char = '"' then ['"', '"'] else [char]) ++ ['"']
  else field

/-- One line of fields, with its line break. -/
def writeRecord (fields : List String) : String :=
  ",".intercalate (fields.map fun field => String.ofList (writeField field.toList)) ++ "\n"

end ParamSweep.Text
