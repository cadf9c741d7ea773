import ParamSweep.Label.Basic
import ParamSweep.Proofs.ExpansionRecord
import ParamSweep.Proofs.ValueTexts

/-! What a label shows of a configuration: its parameters in key order, each as a key, an equals sign and the
spelling of its value, with commas between them. -/

namespace ParamSweep

namespace Config

/-- What a configuration holds under keys that are not reserved. -/
def parameters (config : Config) : Config := config.eraseAll reservedKeys

theorem get?_parameters (config : Config) (key : String) :
    config.parameters.get? key = if isReserved key = true then none else config.get? key := by
  rw [parameters, Dict.get?_eraseAll]
  simp [isReserved]

theorem parameters_eq_iff {left right : Config} :
    left.parameters = right.parameters ↔ ∀ key, isReserved key = false → left.get? key = right.get? key := by
  constructor
  · intro same key free
    have found := congrArg (fun config : Config => config.get? key) same
    simpa only [get?_parameters, free, Bool.false_eq_true, if_false] using found
  · intro same
    apply Dict.ext_get?
    intro key
    rw [get?_parameters, get?_parameters]
    split
    · rfl
    next free => exact same key (Bool.eq_false_iff.mpr free)

/-- Whether the parameters have keys and values of some kinds. -/
def Spelled (named : String → Prop) (valued : Value → Prop) (config : Config) : Prop :=
  ∀ entry ∈ config.entries, isReserved entry.1 = false → named entry.1 ∧ valued entry.2

theorem Spelled.of_mem_parameters {named : String → Prop} {valued : Value → Prop} {config : Config}
    (spelled : config.Spelled named valued) {entry : String × Value} (member : entry ∈ config.parameters.entries) :
    named entry.1 ∧ valued entry.2 := by
  have held := Dict.get?_eq_some_iff.mpr member
  rw [get?_parameters] at held
  split at held
  · cases held
  next free => exact spelled entry (Dict.get?_eq_some_iff.mp held) (Bool.eq_false_iff.mpr free)

end Config

namespace Text

theorem replaceAll_singleton (char : Char) (text : List Char) :
    replaceAll [char] [] text = text.filter (· != char) := by
  unfold replaceAll
  induction text with
  | nil => rfl
  | cons first rest ih =>
    by_cases same : first = char
    · simp [replaceFrom, same, ih]
    · simp [replaceFrom, same, Ne.symm same, ih]

end Text

namespace Label
open Config Text Value

theorem toList_optionText (entries : List (String × Value)) :
    (optionText entries).toList =
      [','].intercalate (entries.map fun entry => compact entry.1.toList ++ '=' :: entry.2.label) := by
  have stripped (text : String) : (replaceEach [(" ", ""), ("'", "")] text).toList = compact text.toList := by
    simp [replaceEach, replaceAll_singleton, compact, List.filter_filter, Bool.and_comm]
  rw [optionText, stripped, String.toList_intercalate, compact_intercalate, List.map_map, List.map_map]
  congr 1
  apply List.map_congr_left
  intro entry _
  simp [label, text, compact]

theorem toList_optionText_of_plain {entries : List (String × Value)} (plain : ∀ entry ∈ entries, PlainText entry.1) :
    (optionText entries).toList = [','].intercalate (entries.map (Options.spellEntry label)) := by
  rw [toList_optionText]
  congr 1
  apply List.map_congr_left
  intro entry member
  rw [compact_of_plain (plain entry member).2, Options.spellEntry]

/-- Under a name that carries no options the parameters follow its colon. -/
theorem under_of_colonless {name : String} (colonless : ':' ∉ name.toList) (config : Config) :
    under name reservedKeys [] config = .ok (name ++ ":" ++ optionText config.parameters.entries) := by
  have ordered : ordered [] config.parameters = config.parameters.entries := by simp [ordered]
  unfold under
  rw [← parameters, ordered, if_neg (by simpa using colonless)]

end Label
end ParamSweep
