import ParamSweep.Proofs.SelectorText
import ParamSweep.Proofs.ValueTexts

/-! Selectors that texts spell, and their printed form. Its pieces are digits alone, so neither white space nor the
mark between them is among these, and each piece is read back by itself. -/

namespace ParamSweep.Selector
open Text Number

/-- Some positions, or a slice that advances. All numbers are those that a word holds. -/
inductive WellFormed : Selector → Prop where
  | indices {positions : List Nat} (present : positions ≠ [])
      (words : ∀ position ∈ positions, position < wordCount) : WellFormed (.indices positions)
  | slice {start stop step : Option Nat} (words : ∀ part ∈ [start, stop, step], ∀ number ∈ part, number < wordCount)
      (advances : step ≠ some 0) : WellFormed (.slice start stop step)

section
variable {number : Nat}

private theorem isDigit_of_mem_toDigits {char : Char} (member : char ∈ Nat.toDigits 10 number) :
    char.isDigit = true :=
  Nat.isDigit_of_mem_toDigits (by decide) (by decide) member

private theorem readNatural?_toDigits (word : number < wordCount) :
    readNatural? (Nat.toDigits 10 number) = some number := by
  have unsigned : (Nat.toDigits 10 number).head? ≠ some '+' := fun first =>
    absurd (isDigit_of_mem_toDigits (List.mem_of_mem_head? first)) (by decide)
  rw [readNatural?, if_neg unsigned, readDigits?_toDigits, Option.filter_some, if_pos (decide_eq_true word)]

private theorem readPart_toDigits (word : number < wordCount) :
    readPart (Nat.toDigits 10 number) = .ok (some number) := by
  have trimmed : trim (Nat.toDigits 10 number) = Nat.toDigits 10 number :=
    (trimmed_of_blankless fun char member => (plainChar_of_isDigit (isDigit_of_mem_toDigits member)).1).trim_eq
  have present : (Nat.toDigits 10 number).isEmpty = false := by simp [Nat.toDigits_ne_nil]
  rw [readPart, trimmed, present, readNatural?_toDigits word]
  rfl

private theorem readIndex_toDigits (word : number < wordCount) :
    readIndex (Nat.toDigits 10 number) = .ok number := by
  rw [readIndex, readPart_toDigits word]

end

private def partDigits (part : Option Nat) : List Char := part.elim [] (Nat.toDigits 10)

private theorem readPart_partDigits {part : Option Nat} (words : ∀ number ∈ part, number < wordCount) :
    readPart (partDigits part) = .ok part := by
  cases part with
  | none => rfl
  | some number => exact readPart_toDigits (words number rfl)

private theorem mapM_readIndex {positions : List Nat} (words : ∀ position ∈ positions, position < wordCount) :
    (positions.map (Nat.toDigits 10)).mapM readIndex = .ok positions := by
  rw [Outcome.mapM_eq_ok_iff, List.forall₂_map_left_iff, List.forall₂_same]
  exact fun position member => readIndex_toDigits (words position member)

private theorem readSlice_partDigits {start stop step : Option Nat}
    (words : ∀ part ∈ [start, stop, step], ∀ number ∈ part, number < wordCount) (advances : step ≠ some 0) :
    readSlice (partDigits start) (partDigits stop) (partDigits step) = .ok (.slice start stop step) := by
  simp only [List.forall_mem_cons] at words
  rw [readSlice, readPart_partDigits words.1, readPart_partDigits words.2.1, readPart_partDigits words.2.2.1]
  exact if_neg advances

/-- What stands between the pieces of a printed selector. -/
private def mark : Selector → Char
  | .indices _ => ','
  | .slice .. => ':'

private def pieces : Selector → List (List Char)
  | .indices positions => positions.map (Nat.toDigits 10)
  | .slice start stop none => [partDigits start, partDigits stop]
  | .slice start stop (some step) => [partDigits start, partDigits stop, Nat.toDigits 10 step]

private theorem toList_text (selector : Selector) :
    selector.text.toList = [selector.mark].intercalate selector.pieces := by
  have part (number : Option Nat) : (number.elim "" Nat.repr).toList = partDigits number := by
    cases number with
    | none => rfl
    | some number => exact Nat.toList_repr
  cases selector with
  | indices positions =>
    have digits : String.toList ∘ Nat.repr = Nat.toDigits 10 := funext fun _ => Nat.toList_repr
    rw [text, String.toList_intercalate, List.map_map, digits]
    rfl
  | slice start stop step =>
    cases step <;> simp [text, part, mark, pieces, Nat.toList_repr, List.intercalate_cons_cons]

private theorem isDigit_of_mem_pieces (selector : Selector) :
    ∀ piece ∈ selector.pieces, ∀ char ∈ piece, char.isDigit = true := by
  have digits (number : Nat) : ∀ char ∈ Nat.toDigits 10 number, char.isDigit = true := fun _ => isDigit_of_mem_toDigits
  have part (number : Option Nat) : ∀ char ∈ partDigits number, char.isDigit = true := by
    cases number with
    | none => simp [partDigits]
    | some number => exact digits number
  cases selector with
  | indices positions => exact List.forall_mem_map.mpr fun position _ => digits position
  | slice start stop step =>
    cases step <;> simp only [pieces, List.forall_mem_cons, List.not_mem_nil, false_implies, implies_true, and_true]
    · exact ⟨part start, part stop⟩
    · exact ⟨part start, part stop, digits _⟩

private theorem mark_or_digit {selector : Selector} {char : Char} (member : char ∈ selector.text.toList) :
    char = selector.mark ∨ char.isDigit = true := by
  rw [toList_text] at member
  exact (mem_or_of_mem_intercalate member).imp_right fun ⟨piece, found, inside⟩ =>
    isDigit_of_mem_pieces selector piece found char inside

private theorem trim_text (selector : Selector) : trim selector.text.toList = selector.text.toList := by
  refine (trimmed_of_blankless fun char member => ?_).trim_eq
  rcases mark_or_digit member with rfl | digit
  · cases selector <;> rfl
  · exact (plainChar_of_isDigit digit).1

private theorem splitOn_text (selector : Selector) (present : selector.pieces ≠ []) :
    selector.text.toList.splitOn selector.mark = selector.pieces := by
  have outside : selector.mark.isDigit = false := by cases selector <;> rfl
  rw [toList_text]
  refine List.splitOn_intercalate selector.mark (fun piece found member => ?_) present
  exact ne_of_isDigit (isDigit_of_mem_pieces selector piece found _ member) outside rfl

/-- A colon is what tells a slice from positions, and none is printed of these. -/
private theorem splitOn_colon_text (positions : List Nat) :
    (text (.indices positions)).toList.splitOn ':' = [(text (.indices positions)).toList] := by
  have colonless : ':' ∉ (text (.indices positions)).toList := fun member => by
    rcases mark_or_digit member with impossible | impossible
    · cases impossible
    · exact absurd impossible (by decide)
  have single := List.splitOn_intercalate ':' (List.forall_mem_singleton.mpr colonless) (List.cons_ne_nil _ [])
  rwa [List.intercalate_singleton] at single

/-- What is printed of a selector is read as that selector. -/
theorem parse_text {selector : Selector} (wellFormed : WellFormed selector) :
    parse selector.text = .ok selector := by
  suffices read : readBody selector.text.toList = .ok selector by
    rw [parse, trim_text, read]
    rfl
  cases wellFormed with
  | @indices positions present words =>
    have nonempty : (text (.indices positions)).toList.isEmpty = false := by
      obtain ⟨first, rest, rfl⟩ := List.exists_cons_of_ne_nil present
      rw [toList_text]
      cases rest <;> simp [mark, pieces, Nat.toDigits_ne_nil, List.intercalate_cons_cons]
    have cut : (text (.indices positions)).toList.splitOn ',' = positions.map (Nat.toDigits 10) :=
      splitOn_text (.indices positions) (by simpa [pieces] using present)
    rw [readBody, nonempty, splitOn_colon_text, cut, mapM_readIndex words]
    rfl
  | @slice start stop step words advances =>
    have nonempty : (text (.slice start stop step)).toList.isEmpty = false := by
      cases step <;> simp [text]
    have cut : (text (.slice start stop step)).toList.splitOn ':' = (slice start stop step).pieces :=
      splitOn_text (.slice start stop step) (by cases step <;> simp [pieces])
    have read := readSlice_partDigits words advances
    rw [readBody, nonempty, cut]
    cases step <;> exact read

private theorem word_of_readPart {part : List Char} {number : Option Nat} (read : readPart part = .ok number) :
    ∀ found ∈ number, found < wordCount := by
  unfold readPart at read
  split at read
  · cases read
    simp
  · split at read
    next found =>
      cases read
      rintro _ ⟨⟩
      exact of_decide_eq_true (Option.filter_eq_some_iff.mp found).2
    · cases read

private theorem word_of_readIndex {part : List Char} {index : Nat} (read : readIndex part = .ok index) :
    index < wordCount := by
  unfold readIndex at read
  split at read
  next found =>
    cases read
    exact word_of_readPart found _ rfl
  all_goals cases read

private theorem wellFormed_of_readSlice {start stop step : List Char} {selector : Selector}
    (read : readSlice start stop step = .ok selector) : WellFormed selector := by
  obtain ⟨first, readFirst, read⟩ := Outcome.bind_eq_ok_iff.mp read
  obtain ⟨second, readSecond, read⟩ := Outcome.bind_eq_ok_iff.mp read
  obtain ⟨third, readThird, read⟩ := Outcome.bind_eq_ok_iff.mp read
  split at read
  · cases read
  next advances =>
    cases read
    refine .slice ?_ advances
    simp only [List.forall_mem_cons]
    exact ⟨word_of_readPart readFirst, word_of_readPart readSecond, word_of_readPart readThird, by simp⟩

private theorem wellFormed_of_readBody {body : List Char} {selector : Selector} (read : readBody body = .ok selector) :
    WellFormed selector := by
  unfold readBody at read
  split at read
  · cases read
  · split at read
    · exact wellFormed_of_readSlice read
    · exact wellFormed_of_readSlice read
    · cases read
    · obtain ⟨indices, walked, rfl⟩ := Outcome.map_eq_ok_iff.mp read
      have pairs := Outcome.mapM_eq_ok_iff.mp walked
      refine .indices (fun empty => ?_) fun index member => ?_
      · subst empty
        exact List.splitOn_ne_nil ',' body (List.forall₂_nil_right_iff.mp pairs)
      · obtain ⟨piece, -, readOne⟩ := Outcome.exists_item_of_mem pairs member
        exact word_of_readIndex readOne

theorem wellFormed_of_parse {source : String} {selector : Selector} (accepted : parse source = .ok selector) :
    WellFormed selector :=
  wellFormed_of_readBody (Outcome.mapError_eq_ok_iff.mp accepted)

/-- The printed form of a selector is read as that selector exactly if it is well formed, and nothing else is ever
read. So the printed form of what any text is read as means the same as the text. -/
theorem parse_text_iff :
    (∀ selector, parse (text selector) = .ok selector ↔ WellFormed selector) ∧
    ∀ source selector, parse source = .ok selector → WellFormed selector ∧ parse selector.text = parse source := by
  refine ⟨fun selector => ⟨wellFormed_of_parse, parse_text⟩, fun source selector accepted => ?_⟩
  have wellFormed := wellFormed_of_parse accepted
  exact ⟨wellFormed, (parse_text wellFormed).trans accepted.symm⟩

/-- White space, signs, leading zeros and empty parts at the end are not printed. -/
theorem parse_text_iff_padded :
    parse " 007,+0 , 18446744073709551615 " = .ok (.indices [7, 0, 18446744073709551615]) ∧
    text (.indices [7, 0, 18446744073709551615]) = "7,0,18446744073709551615" ∧
    parse "7,0,18446744073709551615" = parse " 007,+0 , 18446744073709551615 " ∧
    parse " +05 : : " = .ok (.slice (some 5) none none) ∧ text (.slice (some 5) none none) = "5:" ∧
    parse "5:" = parse " +05 : : " := by
  have positions : parse " 007,+0 , 18446744073709551615 " = .ok (.indices [7, 0, 18446744073709551615]) := rfl
  have slice : parse " +05 : : " = .ok (.slice (some 5) none none) := rfl
  exact ⟨positions, rfl, (parse_text_iff.2 _ _ positions).2, slice, rfl, (parse_text_iff.2 _ _ slice).2⟩

end ParamSweep.Selector
