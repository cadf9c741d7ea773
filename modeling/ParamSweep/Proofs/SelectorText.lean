import Mathlib.Data.List.TakeWhile
import ParamSweep.Proofs.Outcome
import ParamSweep.Selector.Reader

/-! Which characters the text of a selector can hold. None of them closes the brackets around it or
declares a name, but colons are among them, also two in a row. -/

namespace ParamSweep

namespace Text

theorem mem_trim_or_isBlank {char : Char} {text : List Char} (member : char ∈ text) :
    char ∈ trim text ∨ isBlank char = true := by
  have split (rest : List Char) (inside : char ∈ rest) : isBlank char = true ∨ char ∈ rest.dropWhile isBlank := by
    rw [← List.takeWhile_append_dropWhile (p := isBlank) (l := rest)] at inside
    exact (List.mem_append.mp inside).imp_left List.mem_takeWhile_imp
  rcases split text member with blank | kept
  · exact .inr blank
  · rcases split (text.dropWhile isBlank).reverse (List.mem_reverse.mpr kept) with blank | kept
    · exact .inr blank
    · exact .inl (List.mem_reverse.mpr kept)

theorem mem_or_of_mem_intercalate {separator char : Char} {pieces : List (List Char)}
    (member : char ∈ [separator].intercalate pieces) : char = separator ∨ ∃ piece ∈ pieces, char ∈ piece := by
  induction pieces with
  | nil => cases member
  | cons first rest ih =>
    cases rest with
    | nil => exact .inr ⟨first, by simp, by simpa using member⟩
    | cons next others =>
      rw [List.intercalate_cons_cons, List.append_assoc] at member
      rcases List.mem_append.mp member with here | later
      · exact .inr ⟨first, List.mem_cons_self, here⟩
      · rcases List.mem_append.mp later with mark | there
        · exact .inl (List.mem_singleton.mp mark)
        · exact (ih there).imp_right fun ⟨piece, found, inside⟩ =>
            ⟨piece, List.mem_cons_of_mem _ found, inside⟩

end Text

theorem Number.isDigit_of_readDigits? {text : List Char} {number : Nat} (read : readDigits? text = some number) :
    ∀ char ∈ text, char.isDigit = true := by
  unfold readDigits? at read
  split at read
  · cases read
  next digits =>
    simp only [Bool.or_eq_true, Bool.not_eq_true', not_or, Bool.not_eq_false] at digits
    exact List.all_eq_true.mp digits.2

namespace Selector
open Text Number

/-- The characters of an accepted text. -/
def TextChar (char : Char) : Prop :=
  isBlank char = true ∨ char.isDigit = true ∨ char = '+' ∨ char = ',' ∨ char = ':'

private theorem mem_piece_of_mem (separator : Char) {char : Char} {text : List Char} (member : char ∈ text) :
    char = separator ∨ ∃ piece ∈ text.splitOn separator, char ∈ piece := by
  have whole : [separator].intercalate (text.splitOn separator) = text := List.intercalate_splitOn separator
  rw [← whole] at member
  exact mem_or_of_mem_intercalate member

private theorem textChar_of_readNatural? {text : List Char} {number : Nat}
    (read : readNatural? text = some number) : ∀ char ∈ text, TextChar char := by
  obtain ⟨digits, -⟩ := Option.filter_eq_some_iff.mp read
  intro char member
  cases text with
  | nil => cases member
  | cons first rest =>
    by_cases plus : first = '+'
    · subst plus
      rcases List.mem_cons.mp member with rfl | found
      · exact .inr (.inr (.inl rfl))
      · exact .inr (.inl (isDigit_of_readDigits? digits char (by simpa using found)))
    · exact .inr (.inl (isDigit_of_readDigits? digits char (by simpa [plus] using member)))

private theorem textChar_of_readPart {part : List Char} {number : Option Nat}
    (read : readPart part = .ok number) : ∀ char ∈ part, TextChar char := by
  intro char member
  rcases mem_trim_or_isBlank member with kept | blank
  · unfold readPart at read
    split at read
    next empty => simp [List.isEmpty_iff.mp empty] at kept
    · split at read
      next found => exact textChar_of_readNatural? found char kept
      · cases read
  · exact .inl blank

private theorem textChar_of_readIndex {part : List Char} {index : Nat}
    (read : readIndex part = .ok index) : ∀ char ∈ part, TextChar char := by
  unfold readIndex at read
  split at read
  next found => exact textChar_of_readPart found
  all_goals cases read

private theorem textChar_of_readSlice {start stop step : List Char} {selector : Selector}
    (read : readSlice start stop step = .ok selector) :
    ∀ part ∈ [start, stop, step], ∀ char ∈ part, TextChar char := by
  obtain ⟨first, readFirst, read⟩ := Outcome.bind_eq_ok_iff.mp read
  obtain ⟨second, readSecond, read⟩ := Outcome.bind_eq_ok_iff.mp read
  obtain ⟨third, readThird, -⟩ := Outcome.bind_eq_ok_iff.mp read
  intro part member
  simp only [List.mem_cons, List.not_mem_nil, or_false] at member
  rcases member with rfl | rfl | rfl
  · exact textChar_of_readPart readFirst
  · exact textChar_of_readPart readSecond
  · exact textChar_of_readPart readThird

private theorem textChar_of_readBody {body : List Char} {selector : Selector}
    (read : readBody body = .ok selector) : ∀ char ∈ body, TextChar char := by
  intro char member
  unfold readBody at read
  split at read
  · cases read
  · rcases mem_piece_of_mem ':' member with rfl | ⟨piece, found, inside⟩
    · exact .inr (.inr (.inr (.inr rfl)))
    · split at read
      next start stop pieces =>
        rw [pieces] at found
        exact textChar_of_readSlice read piece (List.mem_append_left [[]] found) char inside
      next start stop step pieces =>
        rw [pieces] at found
        exact textChar_of_readSlice read piece found char inside
      · cases read
      · obtain ⟨indices, read, -⟩ := Outcome.map_eq_ok_iff.mp read
        rcases mem_piece_of_mem ',' member with rfl | ⟨piece, found, inside⟩
        · exact .inr (.inr (.inr (.inl rfl)))
        · obtain ⟨index, -, readOne⟩ := Outcome.exists_result_of_mem (Outcome.mapM_eq_ok_iff.mp read) found
          exact textChar_of_readIndex readOne char inside

theorem textChar_of_parse {text : String} {selector : Selector} (accepted : parse text = .ok selector) :
    ∀ char ∈ text.toList, TextChar char := by
  have read := Outcome.mapError_eq_ok_iff.mp accepted
  intro char member
  rcases mem_trim_or_isBlank member with kept | blank
  · exact textChar_of_readBody read char kept
  · exact .inl blank

theorem not_mem_of_parse {text : String} {selector : Selector} (accepted : parse text = .ok selector) :
    ']' ∉ text.toList ∧ '=' ∉ text.toList := by
  constructor
  all_goals
    intro member
    exact absurd (textChar_of_parse accepted _ member) (by unfold TextChar; decide)

end Selector
end ParamSweep
