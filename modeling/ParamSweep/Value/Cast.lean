import ParamSweep.Value.Basic
import ParamSweep.Number.Reader
import ParamSweep.Text.Bracket

/-! What a text means as a value: a truth value or `none` in any case, a list in square brackets, a
tuple in parentheses, an integer, a floating-point number, else the text itself. -/

namespace ParamSweep.Value
open Text Number

/-- The words for truth values and the absent value. -/
def ofWord? (text : List Char) : Option Value :=
  match text.map Char.toLower with
  | ['t', 'r', 'u', 'e'] => some (.bool true)
  | ['f', 'a', 'l', 's', 'e'] => some (.bool false)
  | ['n', 'o', 'n', 'e'] => some .none
  | _ => Option.none

/-- A number, white space around it aside, or the text as it is. -/
def ofScalar (text : List Char) : Value :=
  match readInt64? (trim text) with
  | some number => .int number
  | Option.none =>
    match readFloat? (trim text) with
    | some number => .float number
    | Option.none => .str (String.ofList text)

/-- What stands between an opening and a closing character at the ends of a text. -/
def enclosed? (opening closing : Char) : List Char → Option (List Char)
  | first :: rest =>
    if first = opening ∧ rest.getLast? = some closing then some rest.dropLast else Option.none
  | [] => Option.none

theorem length_lt_of_enclosed? {opening closing : Char} {text inner : List Char}
    (found : enclosed? opening closing text = some inner) : inner.length < text.length := by
  unfold enclosed? at found
  split at found
  · split at found
    · simp only [Option.some.injEq] at found
      simp only [← found, List.length_dropLast, List.length_cons]
      omega
    · simp at found
  · simp at found

/-- The texts of the items inside brackets; white space alone holds none. -/
def itemTexts (inner : List Char) : List (List Char) :=
  if (trim inner).isEmpty then [] else (splitTopLevel ',' inner).map trim

theorem length_le_of_mem_itemTexts {inner item : List Char} (mem : item ∈ itemTexts inner) :
    item.length ≤ inner.length := by
  unfold itemTexts at mem
  split at mem
  · simp at mem
  · obtain ⟨piece, found, rfl⟩ := List.mem_map.mp mem
    exact Nat.le_trans (length_trim_le piece) (length_le_of_mem_splitTopLevel found)

def ofChars (text : List Char) : Value :=
  match ofWord? text with
  | some value => value
  | Option.none =>
    match _listed : enclosed? '[' ']' text with
    | some inner => .list ((itemTexts inner).attach.map fun item => ofChars item.1)
    | Option.none =>
      match _tupled : enclosed? '(' ')' text with
      | some inner => .tuple ((itemTexts inner).attach.map fun item => ofChars item.1)
      | Option.none => ofScalar text
termination_by text.length
decreasing_by
  · exact Nat.lt_of_le_of_lt (length_le_of_mem_itemTexts item.2) (length_lt_of_enclosed? ‹_›)
  · exact Nat.lt_of_le_of_lt (length_le_of_mem_itemTexts item.2) (length_lt_of_enclosed? ‹_›)

theorem ofChars_eq (text : List Char) :
    ofChars text =
      match ofWord? text, enclosed? '[' ']' text, enclosed? '(' ')' text with
      | some value, _, _ => value
      | Option.none, some inner, _ => .list ((itemTexts inner).map ofChars)
      | Option.none, Option.none, some inner => .tuple ((itemTexts inner).map ofChars)
      | Option.none, Option.none, Option.none => ofScalar text := by
  rw [ofChars]
  split
  next word => simp [word]
  next word =>
    split
    next listed => simp [word, listed]
    next listed =>
      split
      next tupled => simp [word, listed, tupled]
      next tupled => simp [word, listed, tupled]

def ofText (text : String) : Value := ofChars text.toList

end ParamSweep.Value
