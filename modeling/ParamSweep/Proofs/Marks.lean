import ParamSweep.Text.Pair

/-! Two-character marks under concatenation. A mark occurs in a concatenation if it occurs in a part or
across the seam, and the first occurrence from the left is where a split cuts. What a split leaves are pieces
without the mark, which put together with it make up the text again. -/

namespace ParamSweep.Text

variable {first second : Char}

theorem hasPair_append_iff {left right : List Char} :
    hasPair first second (left ++ right) = true ↔
      hasPair first second left = true ∨ hasPair first second right = true ∨
        left.getLast? = some first ∧ right.head? = some second := by
  induction left with
  | nil => simp [hasPair]
  | cons char rest ih =>
    cases rest with
    | nil =>
      cases right with
      | nil => simp [hasPair]
      | cons next after => simp [hasPair, or_comm]
    | cons next after =>
      simp only [List.cons_append, hasPair, Bool.or_eq_true, List.getLast?_cons_cons] at ih ⊢
      rw [ih, or_assoc]

theorem hasPair_append_eq_false_iff {left right : List Char} :
    hasPair first second (left ++ right) = false ↔
      hasPair first second left = false ∧ hasPair first second right = false ∧
        ¬(left.getLast? = some first ∧ right.head? = some second) := by
  simp only [← Bool.not_eq_true, hasPair_append_iff, not_or]

theorem hasPair_cons_eq_false_iff {char : Char} {rest : List Char} :
    hasPair first second (char :: rest) = false ↔
      ¬(char = first ∧ rest.head? = some second) ∧ hasPair first second rest = false := by
  cases rest <;> simp [hasPair]

theorem exists_of_hasPair {text : List Char} (found : hasPair first second text = true) :
    ∃ before after, text = before ++ first :: second :: after ∧
      hasPair first second (before ++ [first]) = false := by
  induction text with
  | nil => cases found
  | cons char rest ih =>
    cases rest with
    | nil => cases found
    | cons next after =>
      by_cases here : char = first ∧ next = second
      · obtain ⟨rfl, rfl⟩ := here
        exact ⟨[], after, rfl, rfl⟩
      · have later : hasPair first second (next :: after) = true := by
          simpa [hasPair, here] using found
        obtain ⟨before, rest, cut, absent⟩ := ih later
        refine ⟨char :: before, rest, by rw [cut]; rfl, ?_⟩
        cases before with
        | nil =>
          obtain ⟨rfl, rfl⟩ : next = first ∧ after = second :: rest := by simpa using cut
          simpa [hasPair] using here
        | cons head tail =>
          obtain ⟨rfl, -⟩ : next = head ∧ after = tail ++ first :: second :: rest := by simpa using cut
          simp only [List.cons_append, hasPair, Bool.or_eq_false_iff]
          exact ⟨by simpa using here, absent⟩

theorem mem_of_hasPair {text : List Char} (found : hasPair first second text = true) :
    first ∈ text ∧ second ∈ text := by
  obtain ⟨before, after, rfl, -⟩ := exists_of_hasPair found
  simp

theorem hasPair_of_first_not_mem {text : List Char} (absent : first ∉ text) :
    hasPair first second text = false :=
  Bool.eq_false_iff.mpr fun found => absent (mem_of_hasPair found).1

theorem hasPair_of_second_not_mem {text : List Char} (absent : second ∉ text) :
    hasPair first second text = false :=
  Bool.eq_false_iff.mpr fun found => absent (mem_of_hasPair found).2

/-- A split cuts at the first mark and goes on behind it. -/
theorem splitPair_append {before : List Char} (absent : hasPair first second (before ++ [first]) = false)
    (after : List Char) :
    splitPair first second (before ++ first :: second :: after) = before :: splitPair first second after := by
  induction before with
  | nil => simp [splitPair]
  | cons char rest ih =>
    cases rest with
    | nil =>
      have apart : ¬(char = first ∧ first = second) := by simpa [hasPair] using absent
      simp [splitPair, apart]
    | cons next others =>
      obtain ⟨apart, absent⟩ : ¬(char = first ∧ next = second) ∧
          hasPair first second (next :: (others ++ [first])) = false := by
        simpa [hasPair] using absent
      simp only [List.cons_append, splitPair, apart, if_false] at ih ⊢
      rw [ih absent]
      rfl

theorem splitPair_of_unmarked {text : List Char} (absent : hasPair first second text = false) :
    splitPair first second text = [text] := by
  induction text with
  | nil => rfl
  | cons char rest ih =>
    cases rest with
    | nil => rfl
    | cons next after =>
      obtain ⟨apart, absent⟩ := hasPair_cons_eq_false_iff.mp absent
      rw [splitPair, if_neg, ih absent]
      · rfl
      · rintro ⟨here, there⟩
        exact apart ⟨here, by rw [there]; rfl⟩

/-- A text has no mark, or it goes on behind its first one. -/
theorem cutInduction (first second : Char) {motive : List Char → Prop}
    (unmarked : ∀ text, hasPair first second text = false → motive text)
    (marked : ∀ before after, hasPair first second (before ++ [first]) = false → motive after →
      motive (before ++ first :: second :: after)) (text : List Char) : motive text := by
  induction size : text.length using Nat.strongRecOn generalizing text with
  | ind size ih =>
    cases found : hasPair first second text with
    | false => exact unmarked text found
    | true =>
      obtain ⟨before, after, rfl, absent⟩ := exists_of_hasPair found
      apply marked before after absent
      apply ih after.length _ after rfl
      rw [← size, List.length_append, List.length_cons, List.length_cons]
      omega

theorem splitPair_ne_nil (first second : Char) (text : List Char) : splitPair first second text ≠ [] := by
  induction text using cutInduction first second with
  | unmarked text absent =>
    rw [splitPair_of_unmarked absent]
    exact List.cons_ne_nil text []
  | marked before after absent ih =>
    rw [splitPair_append absent]
    exact List.cons_ne_nil before _

theorem intercalate_splitPair (first second : Char) (text : List Char) :
    [first, second].intercalate (splitPair first second text) = text := by
  induction text using cutInduction first second with
  | unmarked text absent => rw [splitPair_of_unmarked absent, List.intercalate_singleton]
  | marked before after absent ih =>
    rw [splitPair_append absent, List.intercalate_cons_of_ne_nil (splitPair_ne_nil first second after), ih]
    simp

/-- No piece holds the mark that cut it off. -/
theorem hasPair_of_mem_splitPair {text piece : List Char} (member : piece ∈ splitPair first second text) :
    hasPair first second piece = false := by
  induction text using cutInduction first second with
  | unmarked text absent =>
    rw [splitPair_of_unmarked absent] at member
    rw [List.mem_singleton.mp member, absent]
  | marked before after absent ih =>
    rw [splitPair_append absent] at member
    rcases List.mem_cons.mp member with rfl | later
    · exact (hasPair_append_eq_false_iff.mp absent).1
    · exact ih later

/-- A mark that a text does not hold is in none of its pieces. -/
theorem unmarked_of_mem_splitPair {left right : Char} {text piece : List Char}
    (unheld : hasPair left right text = false) (member : piece ∈ splitPair first second text) :
    hasPair left right piece = false := by
  induction text using cutInduction first second with
  | unmarked text absent =>
    rw [splitPair_of_unmarked absent] at member
    rw [List.mem_singleton.mp member, unheld]
  | marked before after absent ih =>
    rw [splitPair_append absent] at member
    obtain ⟨ahead, behind, -⟩ := hasPair_append_eq_false_iff.mp unheld
    rcases List.mem_cons.mp member with rfl | later
    · exact ahead
    · have rest := (hasPair_cons_eq_false_iff.mp behind).2
      exact ih (hasPair_cons_eq_false_iff.mp rest).2 later

/-- Cut at a doubled character, no piece but the last ends in it: the cut is as far left as it can be. -/
theorem getLast?_of_mem_dropLast_splitPair {char : Char} {text piece : List Char}
    (member : piece ∈ (splitPair char char text).dropLast) : piece.getLast? ≠ some char := by
  induction text using cutInduction char char with
  | unmarked text absent =>
    rw [splitPair_of_unmarked absent] at member
    cases member
  | marked before after absent ih =>
    rw [splitPair_append absent, List.dropLast_cons_of_ne_nil (splitPair_ne_nil char char after)] at member
    rcases List.mem_cons.mp member with rfl | later
    · exact fun last => (hasPair_append_eq_false_iff.mp absent).2.2 ⟨last, rfl⟩
    · exact ih later

theorem two_le_length_splitPair {text : List Char} (found : hasPair first second text = true) :
    2 ≤ (splitPair first second text).length := by
  obtain ⟨before, after, rfl, absent⟩ := exists_of_hasPair found
  rw [splitPair_append absent, List.length_cons]
  have some := List.length_pos_iff.mpr (splitPair_ne_nil first second after)
  omega

end ParamSweep.Text
