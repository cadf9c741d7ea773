/-! Replacement of every occurrence of a text, scanning from the left without overlaps. -/

namespace ParamSweep.Text

/-- Replaces from here on, after passing over the `covered` characters of the last match. The empty
pattern matches before every character and at the end. -/
def replaceFrom (pattern replacement : List Char) : Nat → List Char → List Char
  | _, [] => if pattern.isEmpty then replacement else []
  | covered + 1, _ :: rest => replaceFrom pattern replacement covered rest
  | 0, char :: rest =>
    if pattern.isEmpty then replacement ++ char :: replaceFrom pattern replacement 0 rest
    else if pattern.isPrefixOf (char :: rest) then
      replacement ++ replaceFrom pattern replacement (pattern.length - 1) rest
    else char :: replaceFrom pattern replacement 0 rest

def replaceAll (pattern replacement text : List Char) : List Char :=
  replaceFrom pattern replacement 0 text

/-- Applies replacements one after another, each to the text that the one before it left. -/
def replaceEach (pairs : List (String × String)) (text : String) : String :=
  pairs.foldl (fun current (pattern, replacement) =>
    String.ofList (replaceAll pattern.toList replacement.toList current.toList)) text

end ParamSweep.Text
