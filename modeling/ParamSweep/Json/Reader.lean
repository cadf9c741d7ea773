import ParamSweep.Json.Basic

/-! Reads JSON texts. The grammar is the strict one: no comments, no trailing commas, no leading zeros
and no control characters inside strings. -/

namespace ParamSweep.Json

def isSpace (char : Char) : Bool := char = ' ' || char = '\n' || char = '\t' || char = '\r'

def skipSpace (text : List Char) : List Char := text.dropWhile isSpace

/-- A piece of a string: a character, or a code unit of sixteen bits that an escape names. -/
inductive StringPart where
  | char (char : Char)
  | unit (code : Nat)

def hexDigit? (char : Char) : Option Nat :=
  if '0' ≤ char ∧ char ≤ '9' then some (char.toNat - '0'.toNat)
  else if 'a' ≤ char ∧ char ≤ 'f' then some (char.toNat - 'a'.toNat + 10)
  else if 'A' ≤ char ∧ char ≤ 'F' then some (char.toNat - 'A'.toNat + 10)
  else none

def hexNumber? (digits : List Char) : Option Nat :=
  digits.foldlM (fun number digit => (hexDigit? digit).map (16 * number + ·)) 0

/-- The character that an escape of one letter names. -/
def escaped? : Char → Option Char
  | '"' => some '"'
  | '\\' => some '\\'
  | '/' => some '/'
  | 'b' => some '\x08'
  | 'f' => some '\x0c'
  | 'n' => some '\n'
  | 'r' => some '\r'
  | 't' => some '\t'
  | _ => none

/-- The parts up to the closing quote, and the text behind it. -/
def readParts : List Char → Option (List StringPart × List Char)
  | [] => none
  | '"' :: rest => some ([], rest)
  | '\\' :: 'u' :: first :: second :: third :: fourth :: rest => do
    let code ← hexNumber? [first, second, third, fourth]
    let (parts, after) ← readParts rest
    some (.unit code :: parts, after)
  | '\\' :: letter :: rest => do
    let char ← escaped? letter
    let (parts, after) ← readParts rest
    some (.char char :: parts, after)
  | char :: rest =>
    if char = '\\' ∨ char.toNat < 0x20 then none
    else do
      let (parts, after) ← readParts rest
      some (.char char :: parts, after)

/-- The text of string parts: a high and a low surrogate make one character, and neither stands alone. -/
def joinParts : List StringPart → Option (List Char)
  | [] => some []
  | .char char :: rest => (joinParts rest).map (char :: ·)
  | .unit code :: rest =>
    if code < 0xD800 ∨ 0xE000 ≤ code then (joinParts rest).map (Char.ofNat code :: ·)
    else if 0xDC00 ≤ code then none
    else match rest with
      | .unit low :: after =>
        if 0xDC00 ≤ low ∧ low < 0xE000 then
          (joinParts after).map (Char.ofNat (0x10000 + (code - 0xD800) * 0x400 + (low - 0xDC00)) :: ·)
        else none
      | _ => none

def readString (text : List Char) : Option (Option String × List Char) :=
  (readParts text).map fun (parts, rest) => ((joinParts parts).map String.ofList, rest)

/-- At least one digit, and the text behind the digits. -/
def readDigits (text : List Char) : Option (List Char × List Char) :=
  let digits := text.takeWhile Char.isDigit
  if digits.isEmpty then none else some (digits, text.dropWhile Char.isDigit)

def readWhole : List Char → Option (List Char × List Char)
  | '0' :: rest => some (['0'], rest)
  | text => readDigits text

def readFraction : List Char → Option (List Char × List Char)
  | '.' :: rest => readDigits rest
  | text => some ([], text)

def readExponent : List Char → Option (Option (Bool × List Char) × List Char)
  | letter :: rest =>
    if letter = 'e' ∨ letter = 'E' then
      let (negative, body) := match rest with
        | '-' :: after => (true, after)
        | '+' :: after => (false, after)
        | _ => (false, rest)
      (readDigits body).map fun (digits, after) => (some (negative, digits), after)
    else some (none, letter :: rest)
  | [] => some (none, [])

def readNumber (text : List Char) : Option (NumberText × List Char) := do
  let negative := text.head? = some '-'
  let (whole, rest) ← readWhole (if negative then text.tail else text)
  let (fraction, rest) ← readFraction rest
  let (exponent, rest) ← readExponent rest
  some (⟨negative, whole, fraction, exponent⟩, rest)

mutual

/-- One value from the front of a text that begins with no white space. The first argument bounds the
nesting of calls; twice the length of the text is enough, for two calls without a character read
between them never follow each other. -/
def readValue : Nat → List Char → Option (Json × List Char)
  | 0, _ => none
  | fuel + 1, text =>
    match text with
    | 'n' :: 'u' :: 'l' :: 'l' :: rest => some (.null, rest)
    | 't' :: 'r' :: 'u' :: 'e' :: rest => some (.bool true, rest)
    | 'f' :: 'a' :: 'l' :: 's' :: 'e' :: rest => some (.bool false, rest)
    | '"' :: rest => (readString rest).map fun (body, after) => (.string body, after)
    | '[' :: rest =>
      match skipSpace rest with
      | ']' :: after => some (.array [], after)
      | inner => (readItems fuel inner).map fun (items, after) => (.array items, after)
    | '\x7b' :: rest =>
      match skipSpace rest with
      | '\x7d' :: after => some (.object [], after)
      | inner => (readMembers fuel inner).map fun (members, after) => (.object members, after)
    | _ => (readNumber text).map fun (spelled, after) => (.number spelled, after)
termination_by structural fuel => fuel

def readItems : Nat → List Char → Option (List Json × List Char)
  | 0, _ => none
  | fuel + 1, text => do
    let (item, rest) ← readValue fuel text
    match skipSpace rest with
    | ']' :: after => some ([item], after)
    | ',' :: after =>
      let (items, after) ← readItems fuel (skipSpace after)
      some (item :: items, after)
    | _ => none
termination_by structural fuel => fuel

def readMembers : Nat → List Char → Option (List (Option String × Json) × List Char)
  | 0, _ => none
  | fuel + 1, text =>
    match text with
    | '"' :: rest => do
      let (key, rest) ← readString rest
      match skipSpace rest with
      | ':' :: rest =>
        let (item, rest) ← readValue fuel (skipSpace rest)
        match skipSpace rest with
        | '\x7d' :: after => some ([(key, item)], after)
        | ',' :: after =>
          let (members, after) ← readMembers fuel (skipSpace after)
          some ((key, item) :: members, after)
        | _ => none
      | _ => none
    | _ => none
termination_by structural fuel => fuel

end

/-- The value that a whole text spells. -/
def parse? (text : String) : Option Json :=
  let chars := text.toList
  match readValue (2 * chars.length + 2) (skipSpace chars) with
  | some (value, rest) => if (skipSpace rest).isEmpty then some value else none
  | none => none

end ParamSweep.Json
