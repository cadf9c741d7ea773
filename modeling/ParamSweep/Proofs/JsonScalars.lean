import ParamSweep.Json.Number
import ParamSweep.Json.Reader
import ParamSweep.Json.Writer
import ParamSweep.Proofs.TokenText
import ParamSweep.Proofs.ValueTexts

/-! Strings and whole numbers in JSON. Every character is written in a way that is read as that character, and an
integer of sixty-four bits is read as itself where no digit, point or exponent follows. -/

namespace ParamSweep.Json
open Text

/-- What may stand behind a number without belonging to it. -/
def Stops (rest : List Char) : Prop :=
  ∀ char ∈ rest.head?, char.isDigit = false ∧ char ≠ '.' ∧ char ≠ 'e' ∧ char ≠ 'E'

theorem stops_nil : Stops [] := by simp [Stops]

theorem stops_cons {char : Char} {rest : List Char} :
    Stops (char :: rest) ↔ char.isDigit = false ∧ char ≠ '.' ∧ char ≠ 'e' ∧ char ≠ 'E' := by
  simp [Stops]

/-- An integer as it is written: without a fraction or an exponent. -/
def integerText (number : Int) : NumberText := ⟨decide (number < 0), Nat.toDigits 10 number.natAbs, [], none⟩

section
variable {rest : List Char}

private theorem isDigit_of_mem_digits {number : Nat} : ∀ char ∈ Nat.toDigits 10 number, char.isDigit = true :=
  fun _ member => Nat.isDigit_of_mem_toDigits (by decide) (by decide) member

theorem head?_toDigits {number : Nat} (positive : 0 < number) : (Nat.toDigits 10 number).head? ≠ some '0' := by
  induction number using Nat.strongRecOn with
  | ind number ih =>
    by_cases small : number < 10
    · rw [Nat.toDigits_of_lt_base small, List.head?_cons, ne_eq, Option.some.injEq, Nat.digitChar_eq_zero]
      exact positive.ne'
    · rw [Nat.toDigits_of_base_le (by decide) (Nat.not_lt.mp small), List.head?_append_of_ne_nil _ Nat.toDigits_ne_nil]
      exact ih (number / 10) (by omega) (by omega)

/-- The digits of a number have no zero in front but that of zero itself, so they are read to their end. -/
theorem readWhole_toDigits (number : Nat) (stops : Stops rest) :
    readWhole (Nat.toDigits 10 number ++ rest) = some (Nat.toDigits 10 number, rest) := by
  rcases Nat.eq_zero_or_pos number with rfl | positive
  · rfl
  · have leading := head?_toDigits positive
    have ends : ∀ char ∈ rest.head?, char.isDigit = false := fun char first => (stops char first).1
    have read : readDigits (Nat.toDigits 10 number ++ rest) = some (Nat.toDigits 10 number, rest) := by
      rw [readDigits, takeWhile_front isDigit_of_mem_digits ends, dropWhile_front isDigit_of_mem_digits ends]
      simp [Nat.toDigits_ne_nil]
    obtain ⟨first, others, spelled⟩ := List.exists_cons_of_ne_nil (Nat.toDigits_ne_nil (n := number) (b := 10))
    rw [spelled] at leading read ⊢
    unfold readWhole
    split
    next zero => exact absurd (congrArg List.head? zero) (by simpa using leading)
    next => exact read

theorem readFraction_of_stops (stops : Stops rest) : readFraction rest = some ([], rest) := by
  unfold readFraction
  split
  next => exact absurd rfl (stops_cons.mp stops).2.1
  next => rfl

theorem readExponent_of_stops (stops : Stops rest) : readExponent rest = some (none, rest) := by
  cases rest with
  | nil => rfl
  | cons char rest =>
    obtain ⟨-, -, small, large⟩ := stops_cons.mp stops
    simp [readExponent, small, large]

theorem readNumber_intText (number : Int) (stops : Stops rest) :
    readNumber (Number.intText number ++ rest) = some (integerText number, rest) := by
  have whole := readWhole_toDigits number.natAbs stops
  have fraction := readFraction_of_stops stops
  have exponent := readExponent_of_stops stops
  by_cases negative : number < 0
  · simp [readNumber, Number.intText, integerText, negative, whole, fraction, exponent]
  · have unsigned : (Nat.toDigits 10 number.natAbs).head? ≠ some '-' := fun first =>
      absurd (isDigit_of_mem_digits '-' (List.mem_of_mem_head? first)) (by decide)
    simp [readNumber, Number.intText, integerText, negative, unsigned, whole, fraction, exponent]

theorem value?_integerText (number : Int64) :
    (integerText number.toInt).value? = some (.integer number.toInt) := by
  have low := Int64.le_toInt number
  have high := Int64.toInt_lt number
  have held : (integerText number.toInt).integer? = some number.toInt := by
    unfold NumberText.integer? integerText
    simp only [List.isEmpty_nil, Option.isNone_none, Bool.and_self, if_true, Nat.ofDigitChars_ten_toDigits,
      decide_eq_true_eq]
    by_cases negative : number.toInt < 0
    · rw [if_pos negative, if_pos ⟨by omega, by simp only [Number.wordCount]; omega⟩]
      congr 1
      omega
    · rw [if_neg negative, if_pos (by simp only [Number.wordCount]; omega)]
      congr 1
      omega
  rw [NumberText.value?, held]

theorem readParts_letter {letter char : Char} (other : letter ≠ 'u') (named : escaped? letter = some char) :
    readParts ('\\' :: letter :: rest) = (readParts rest).map fun (parts, after) => (.char char :: parts, after) := by
  rw [readParts.eq_def]
  split
  next impossible => cases impossible
  next impossible => cases impossible
  next spelled =>
    cases spelled
    exact absurd rfl other
  next spelled =>
    cases spelled
    rw [named]
    cases readParts rest <;> rfl
  next unlettered spelled =>
    cases spelled
    exact (unlettered letter rest rfl rfl).elim

theorem readParts_unit {first second third fourth : Char} {code : Nat}
    (named : hexNumber? [first, second, third, fourth] = some code) :
    readParts ('\\' :: 'u' :: first :: second :: third :: fourth :: rest) =
      (readParts rest).map fun (parts, after) => (.unit code :: parts, after) := by
  rw [readParts, named]
  cases readParts rest <;> rfl

theorem readParts_plain {char : Char} (unquoted : char ≠ '"') (unescaped : char ≠ '\\') (shown : ¬char.toNat < 0x20) :
    readParts (char :: rest) = (readParts rest).map fun (parts, after) => (.char char :: parts, after) := by
  rw [readParts.eq_def]
  split
  next impossible => cases impossible
  next spelled =>
    cases spelled
    exact absurd rfl unquoted
  next spelled =>
    cases spelled
    exact absurd rfl unescaped
  next spelled =>
    cases spelled
    exact absurd rfl unescaped
  next spelled =>
    cases spelled
    rw [if_neg (not_or.mpr ⟨unescaped, shown⟩)]
    cases readParts rest <;> rfl

/-- Below the surrogates a code unit is a character by itself. -/
theorem joinParts_unit {code : Nat} (single : code < 0xD800) (parts : List StringPart) :
    joinParts (.unit code :: parts) = (joinParts parts).map (Char.ofNat code :: ·) := by
  rcases parts with _ | ⟨_ | _, _⟩ <;> simp [joinParts, single]

/-- Control characters without a letter of their own have codes of one or two digits in base sixteen. -/
private theorem hexDigits_control : ∀ code < 0x10, hexDigits code = [Nat.digitChar code] ∧
    hexDigits (code + 0x10) = ['1', Nat.digitChar code] ∧
    hexNumber? ['0', '0', '0', Nat.digitChar code] = some code ∧
    hexNumber? ['0', '0', '1', Nat.digitChar code] = some (code + 0x10) := by
  decide

/-- A character is escaped by a letter, or as a code unit in base sixteen, or it stands for itself. -/
theorem escapeChar_cases (char : Char) :
    (∃ letter, letter ≠ 'u' ∧ escaped? letter = some char ∧ escapeChar char = ['\\', letter]) ∨
    (∃ third fourth, hexNumber? ['0', '0', third, fourth] = some char.toNat ∧ char.toNat < 0x20 ∧
      escapeChar char = ['\\', 'u', '0', '0', third, fourth]) ∨
    char ≠ '"' ∧ char ≠ '\\' ∧ ¬char.toNat < 0x20 ∧ escapeChar char = [char] := by
  by_cases lettered : char ∈ ['"', '\\', '\x08', '\x0c', '\n', '\r', '\t']
  · simp only [List.mem_cons, List.not_mem_nil, or_false] at lettered
    left
    rcases lettered with rfl | rfl | rfl | rfl | rfl | rfl | rfl
    · exact ⟨'"', by decide, rfl, rfl⟩
    · exact ⟨'\\', by decide, rfl, rfl⟩
    · exact ⟨'b', by decide, rfl, rfl⟩
    · exact ⟨'f', by decide, rfl, rfl⟩
    · exact ⟨'n', by decide, rfl, rfl⟩
    · exact ⟨'r', by decide, rfl, rfl⟩
    · exact ⟨'t', by decide, rfl, rfl⟩
  · simp only [List.mem_cons, List.not_mem_nil, or_false, not_or] at lettered
    right
    by_cases low : char.toNat < 0x10
    · obtain ⟨digits, -, read, -⟩ := hexDigits_control char.toNat low
      exact .inl ⟨'0', _, read, by omega, by simp [escapeChar, lettered, low, digits]⟩
    by_cases control : char.toNat < 0x20
    · obtain ⟨-, digits, -, read⟩ := hexDigits_control (char.toNat - 0x10) (by omega)
      rw [Nat.sub_add_cancel (Nat.not_lt.mp low)] at digits read
      exact .inl ⟨'1', _, read, control, by simp [escapeChar, lettered, low, control, digits]⟩
    · exact .inr ⟨lettered.1, lettered.2.1, control, by simp [escapeChar, lettered, low, control]⟩

/-- What is written for a character is read as one part of a string, and that part means the character. -/
theorem exists_part (char : Char) : ∃ part : StringPart,
    (∀ rest, readParts (escapeChar char ++ rest) = (readParts rest).map fun (parts, after) => (part :: parts, after)) ∧
    ∀ parts, joinParts (part :: parts) = (joinParts parts).map (char :: ·) := by
  rcases escapeChar_cases char with
    ⟨letter, other, named, escape⟩ | ⟨third, fourth, named, control, escape⟩ | ⟨unquoted, unescaped, shown, escape⟩
  · exact ⟨.char char, fun rest => escape ▸ readParts_letter other named, fun _ => rfl⟩
  · refine ⟨.unit char.toNat, fun rest => escape ▸ readParts_unit named, fun parts => ?_⟩
    rw [joinParts_unit (by omega), Char.ofNat_toNat]
  · exact ⟨.char char, fun rest => escape ▸ readParts_plain unquoted unescaped shown, fun _ => rfl⟩

/-- A string is read as the text it was written for, up to its closing quote. -/
theorem readString_escaped (text : String) (rest : List Char) :
    readString (text.toList.flatMap escapeChar ++ '"' :: rest) = some (some text, rest) := by
  have parts (chars : List Char) : ∃ parts, readParts (chars.flatMap escapeChar ++ '"' :: rest) = some (parts, rest) ∧
      joinParts parts = some chars := by
    induction chars with
    | nil => exact ⟨[], rfl, rfl⟩
    | cons char chars ih =>
      obtain ⟨parts, read, joined⟩ := ih
      obtain ⟨part, readOne, joinedOne⟩ := exists_part char
      refine ⟨part :: parts, ?_, ?_⟩
      · rw [List.flatMap_cons, List.append_assoc, readOne, read]
        rfl
      · rw [joinedOne, joined]
        rfl
  obtain ⟨parts, read, joined⟩ := parts text.toList
  simp only [readString, read, Option.map_some, joined, String.ofList_toList]

end
end ParamSweep.Json
