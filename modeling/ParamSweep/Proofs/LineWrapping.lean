import Mathlib.Data.List.Chain
import Mathlib.Data.List.Forall2
import ParamSweep.Text.Wrap

/-! Wrapped lines. A word that is too long for a line is cut into pieces that fit, and lines take these pieces and the
other words in order, as many as fit. Only white space is changed. Wrapping what was wrapped changes nothing, for a
piece is a word of its line and is not cut again. -/

namespace ParamSweep.Text

/-- The characters of a text that are no white space. -/
def visible (text : List Char) : List Char := text.filter fun char => !isBlank char

section
variable {text word : List Char}

theorem words_append_blank {char : Char} (blank : isBlank char = true) (left right : List Char) :
    words (left ++ char :: right) = words left ++ words right := by
  rw [words, List.splitOnP_append_cons left right blank, List.filter_append]
  rfl

theorem words_of_unbroken (present : word ≠ []) (unbroken : ∀ char ∈ word, isBlank char = false) :
    words word = [word] := by
  rw [words, List.splitOnP_eq_singleton unbroken]
  simp [present]

/-- Words leave out white space and nothing else. -/
theorem flatten_words (text : List Char) : (words text).flatten = visible text := by
  rw [words, List.flatten_filter_not_isEmpty]
  induction text with
  | nil => rfl
  | cons char rest ih =>
    obtain ⟨first, others, cut⟩ := List.exists_cons_of_ne_nil (List.splitOnP_ne_nil isBlank rest)
    rw [cut] at ih
    rw [List.splitOnP_cons_eq_if_modifyHead, cut, visible, List.filter_cons]
    cases isBlank char <;> simpa [visible] using ih

theorem visible_flatten (texts : List (List Char)) : visible texts.flatten = (texts.flatMap words).flatten := by
  rw [visible, List.filter_flatten, List.flatMap_def, List.flatten_flatten, List.map_map]
  exact congrArg List.flatten (List.map_congr_left fun text _ => (flatten_words text).symm)

theorem unbroken_of_mem_words (member : word ∈ words text) : word ≠ [] ∧ ∀ char ∈ word, isBlank char = false := by
  refine ⟨by simpa using (List.mem_filter.mp member).2, fun char inside => ?_⟩
  have kept : char ∈ visible text := flatten_words text ▸ List.mem_flatten_of_mem member inside
  simpa using (List.mem_filter.mp kept).2

theorem words_intercalate {separator : Char} (blank : isBlank separator = true) (texts : List (List Char)) :
    words ([separator].intercalate texts) = texts.flatMap words := by
  induction texts with
  | nil => rfl
  | cons first rest ih =>
    cases rest with
    | nil => simp
    | cons next others =>
      rw [List.intercalate_cons_cons, List.append_assoc, List.singleton_append, words_append_blank blank, ih,
        ← List.flatMap_cons]

theorem visible_intercalate {separator : Char} (blank : isBlank separator = true) (texts : List (List Char)) :
    visible ([separator].intercalate texts) = visible texts.flatten := by
  rw [← flatten_words, words_intercalate blank, visible_flatten]

end

/-- How a word is cut for lines of some width: not at all if it fits, else into pieces as wide as a line and a rest. -/
structure Broken (width : Nat) (word : List Char) (pieces : List (List Char)) : Prop where
  joined : pieces.flatten = word
  whole : word.length ≤ width → pieces = [word]
  full : ∀ piece ∈ pieces.dropLast, piece.length = width
  fits : ∀ piece ∈ pieces, piece ≠ [] ∧ piece.length ≤ width

/-- Lines that hold pieces in order, with a space between those on a line. No piece that begins a line fits on the line
before. -/
structure Packed (width : Nat) (pieces lines : List (List Char)) : Prop where
  held : lines.flatMap words = pieces
  spaced : ∀ line ∈ lines, [' '].intercalate (words line) = line
  fits : ∀ line ∈ lines, line ≠ [] ∧ line.length ≤ width
  greedy : lines.IsChain fun line next => ∀ piece ∈ (words next).head?, width < line.length + 1 + piece.length

variable {room : Nat}

/-- The pieces that a word is cut into for lines of `room + 1` characters. -/
def piecesOf (room : Nat) (word : List Char) : List (List Char) :=
  (breakWord room word).1 ++ [(breakWord room word).2]

section
variable {word : List Char}

theorem piecesOf_of_fits (fits : word.length ≤ room + 1) : piecesOf room word = [word] := by
  rw [piecesOf, breakWord, if_pos fits]
  rfl

theorem piecesOf_of_long (long : ¬word.length ≤ room + 1) :
    piecesOf room word = word.take (room + 1) :: piecesOf room (word.drop (room + 1)) := by
  rw [piecesOf, breakWord, if_neg long]
  rfl

theorem broken_piecesOf (room : Nat) (present : word ≠ []) : Broken (room + 1) word (piecesOf room word) := by
  induction word using breakWord.induct room with
  | case1 word fits =>
    rw [piecesOf_of_fits fits]
    exact ⟨by simp, fun _ => rfl, by simp, by simpa using ⟨present, fits⟩⟩
  | case2 word long _ _ _ ih =>
    have later := ih (by simpa using long)
    have first : (word.take (room + 1)).length = room + 1 := by
      rw [List.length_take]
      omega
    rw [piecesOf_of_long long]
    refine ⟨?_, fun fits => absurd fits long, ?_, ?_⟩
    · rw [List.flatten_cons, later.joined, List.take_append_drop]
    · rw [List.dropLast_cons_of_ne_nil (by simp [piecesOf])]
      exact List.forall_mem_cons.mpr ⟨first, later.full⟩
    · exact List.forall_mem_cons.mpr ⟨⟨List.ne_nil_of_length_pos (by omega), first.le⟩, later.fits⟩

end

section
variable {line word : List Char} {rest : List (List Char)}

theorem fillLines_of_fits (started : line ≠ []) (fits : line.length + 1 + word.length ≤ room + 1) :
    fillLines room line (word :: rest) = fillLines room (line ++ ' ' :: word) rest := by
  rw [fillLines, if_pos (by simp [started, fits])]

theorem fillLines_of_full (started : line ≠ []) (full : room + 1 < line.length + 1 + word.length)
    (short : word.length ≤ room + 1) :
    fillLines room line (word :: rest) = line :: fillLines room word rest := by
  rw [fillLines, if_neg (by simp [full]), breakWord, if_pos short]
  simp [started]

theorem fillLines_nil_cons (short : word.length ≤ room + 1) :
    fillLines room [] (word :: rest) = fillLines room word rest := by
  rw [fillLines, if_neg (by simp), breakWord, if_pos short]
  rfl

/-- Pieces as wide as a line fill their lines one by one. -/
theorem fillLines_append_of_full {full : List (List Char)} (filled : line.length = room + 1)
    (wide : ∀ piece ∈ full, piece.length = room + 1) (short : word.length ≤ room + 1) :
    fillLines room line (full ++ word :: rest) = line :: full ++ fillLines room word rest := by
  have started : line ≠ [] := List.ne_nil_of_length_pos (by omega)
  induction full generalizing line with
  | nil => exact fillLines_of_full started (by omega) short
  | cons piece full ih =>
    obtain ⟨here, later⟩ := List.forall_mem_cons.mp wide
    rw [List.cons_append, fillLines_of_full started (by omega) here.le,
      ih here later (List.ne_nil_of_length_pos (by omega))]
    rfl

/-- A word may as well be cut beforehand. -/
theorem fillLines_piecesOf (line word : List Char) (rest : List (List Char)) :
    fillLines room line (word :: rest) = fillLines room line (piecesOf room word ++ rest) := by
  by_cases short : word.length ≤ room + 1
  · rw [piecesOf_of_fits short]
    rfl
  · obtain ⟨full, last, cut⟩ : ∃ full last, breakWord room (word.drop (room + 1)) = (full, last) := ⟨_, _, rfl⟩
    have tail : piecesOf room (word.drop (room + 1)) = full ++ [last] := by rw [piecesOf, cut]
    have remains : word.drop (room + 1) ≠ [] := by simpa using short
    have broken := broken_piecesOf room remains
    rw [tail] at broken
    have wide : ∀ piece ∈ full, piece.length = room + 1 := by simpa using broken.full
    have fits : last.length ≤ room + 1 := (broken.fits last (by simp)).2
    have first : (word.take (room + 1)).length = room + 1 := by
      rw [List.length_take]
      omega
    have filled : fillLines room (word.take (room + 1)) (full ++ last :: rest) =
        word.take (room + 1) :: full ++ fillLines room last rest := fillLines_append_of_full first wide fits
    rw [piecesOf_of_long short, tail, List.cons_append, List.append_assoc, List.singleton_append, fillLines,
      if_neg (by simp; omega), breakWord, if_neg short, cut]
    by_cases started : line = []
    · rw [started, fillLines_nil_cons first.le, filled]
      rfl
    · rw [fillLines_of_full started (by omega) first.le, filled]
      simp [started]

theorem fillLines_flatMap_piecesOf (line : List Char) (texts : List (List Char)) :
    fillLines room line (texts.flatMap (piecesOf room)) = fillLines room line texts := by
  induction texts generalizing line with
  | nil => rfl
  | cons word rest ih =>
    rw [List.flatMap_cons, ← fillLines_piecesOf, fillLines, fillLines]
    simp only [ih]

end

theorem intercalate_append_singleton {separator : List Char} {texts : List (List Char)} (present : texts ≠ [])
    (last : List Char) :
    separator.intercalate (texts ++ [last]) = separator.intercalate texts ++ (separator ++ last) := by
  induction texts with
  | nil => exact absurd rfl present
  | cons first rest ih =>
    cases rest with
    | nil => simp
    | cons next others =>
      rw [List.cons_append, List.cons_append, List.intercalate_cons_cons, List.intercalate_cons_cons,
        ← List.cons_append, ih (List.cons_ne_nil _ _)]
      simp

theorem words_ne_nil_of_spaced {line : List Char} (started : line ≠ [])
    (spaced : [' '].intercalate (words line) = line) : words line ≠ [] := by
  intro empty
  rw [empty] at spaced
  exact started spaced.symm

theorem Packed.head?_words {width : Nat} {line : List Char} {pieces lines : List (List Char)}
    (packed : Packed width pieces (line :: lines)) : (words line).head? = pieces.head? := by
  have held := words_ne_nil_of_spaced (packed.fits line List.mem_cons_self).1 (packed.spaced line List.mem_cons_self)
  obtain ⟨first, others, whole⟩ := List.exists_cons_of_ne_nil held
  rw [← packed.held, List.flatMap_cons, whole]
  rfl

/-- A line that was begun takes the pieces that fit, and further lines take the others. -/
theorem packed_fillLines {line : List Char} {pieces : List (List Char)} (started : line ≠ [])
    (fits : line.length ≤ room + 1) (spaced : [' '].intercalate (words line) = line)
    (short : ∀ piece ∈ pieces, words piece = [piece] ∧ piece ≠ [] ∧ piece.length ≤ room + 1) :
    Packed (room + 1) (words line ++ pieces) (fillLines room line pieces) := by
  induction pieces generalizing line with
  | nil =>
    have only : fillLines room line [] = [line] := by simp [fillLines, started]
    rw [only]
    exact ⟨by simp, by simpa using spaced, by simpa using ⟨started, fits⟩, .singleton line⟩
  | cons piece rest ih =>
    obtain ⟨⟨whole, present, narrow⟩, short⟩ := List.forall_mem_cons.mp short
    by_cases joins : line.length + 1 + piece.length ≤ room + 1
    · have longer : words (line ++ ' ' :: piece) = words line ++ [piece] := by
        rw [words_append_blank (by decide), whole]
      have again : [' '].intercalate (words (line ++ ' ' :: piece)) = line ++ ' ' :: piece := by
        rw [longer, intercalate_append_singleton (words_ne_nil_of_spaced started spaced), spaced]
        rfl
      have packed := ih (by simp) (by simp; omega) again short
      rw [longer, List.append_assoc] at packed
      rwa [fillLines_of_fits started joins]
    · have alone : [' '].intercalate (words piece) = piece := by
        rw [whole, List.intercalate_singleton]
      have packed := ih present narrow alone short
      rw [whole] at packed
      rw [fillLines_of_full started (by omega) narrow]
      refine ⟨?_, List.forall_mem_cons.mpr ⟨spaced, packed.spaced⟩,
        List.forall_mem_cons.mpr ⟨⟨started, fits⟩, packed.fits⟩, List.isChain_cons.mpr ⟨?_, packed.greedy⟩⟩
      · rw [List.flatMap_cons, packed.held, List.singleton_append]
      · intro next first begin member
        obtain ⟨others, following⟩ := List.head?_eq_some_iff.mp first
        rw [following] at packed
        rw [packed.head?_words] at member
        cases member
        omega

/-- The words of a text are packed into lines in pieces that fit. -/
theorem packed_fillLines_words (room : Nat) (text : List Char) :
    Packed (room + 1) ((words text).flatMap (piecesOf room)) (fillLines room [] (words text)) := by
  have short : ∀ piece ∈ (words text).flatMap (piecesOf room),
      words piece = [piece] ∧ piece ≠ [] ∧ piece.length ≤ room + 1 := by
    intro piece member
    obtain ⟨word, found, inside⟩ := List.mem_flatMap.mp member
    obtain ⟨present, unbroken⟩ := unbroken_of_mem_words found
    have broken := broken_piecesOf room present
    have fits := broken.fits piece inside
    refine ⟨words_of_unbroken fits.1 fun char belongs => unbroken char ?_, fits⟩
    exact broken.joined ▸ List.mem_flatten_of_mem inside belongs
  rw [← fillLines_flatMap_piecesOf]
  cases cut : (words text).flatMap (piecesOf room) with
  | nil => exact ⟨rfl, by simp [fillLines], by simp [fillLines], .nil⟩
  | cons piece rest =>
    rw [cut] at short
    obtain ⟨⟨single, present, narrow⟩, short⟩ := List.forall_mem_cons.mp short
    have packed := packed_fillLines present narrow (by rw [single, List.intercalate_singleton]) short
    rw [single] at packed
    rwa [fillLines_nil_cons narrow]

theorem map_toList_wrap (width : Nat) (text : String) :
    (wrap width text).map String.toList = fillLines (width - 1) [] (words text.toList) := by
  simp [wrap, Function.comp_def]

/-- Wrapping changes white space only. -/
theorem visible_flatten_wrap (width : Nat) (text : String) :
    visible ((wrap width text).map String.toList).flatten = visible text.toList := by
  have packed := packed_fillLines_words (width - 1) text.toList
  have joined : (words text.toList).map (List.flatten ∘ piecesOf (width - 1)) = words text.toList := by
    refine (List.map_congr_left fun word member => ?_).trans (List.map_id _)
    exact (broken_piecesOf _ (unbroken_of_mem_words member).1).joined
  calc
    visible ((wrap width text).map String.toList).flatten
    _ = ((fillLines (width - 1) [] (words text.toList)).flatMap words).flatten := by
      rw [map_toList_wrap, visible_flatten]
    _ = ((words text.toList).map (List.flatten ∘ piecesOf (width - 1))).flatten := by
      rw [packed.held, List.flatMap_def, List.flatten_flatten, List.map_map]
    _ = visible text.toList := by
      rw [joined, flatten_words]

theorem wrap_intercalate_wrap (width : Nat) (text : String) :
    wrap width (" ".intercalate (wrap width text)) = wrap width text := by
  have packed := packed_fillLines_words (width - 1) text.toList
  have again : words (" ".intercalate (wrap width text)).toList =
      (words text.toList).flatMap (piecesOf (width - 1)) := by
    rw [String.toList_intercalate, map_toList_wrap]
    exact (words_intercalate (by decide) _).trans packed.held
  rw [wrap, again, fillLines_flatMap_piecesOf, wrap]

/-- Wrapped lines are packed as full as can be with the words of the text, of which only those are cut that no line can
hold. Nothing but white space is lost, and wrapping the lines again gives the same lines. -/
theorem wrap_packed (width : Nat) (text : String) :
    (∃ cuts, List.Forall₂ (Broken (max width 1)) (words text.toList) cuts ∧
      Packed (max width 1) cuts.flatten ((wrap width text).map String.toList)) ∧
    visible ((wrap width text).map String.toList).flatten = visible text.toList ∧
    wrap width (" ".intercalate (wrap width text)) = wrap width text := by
  have room : max width 1 = width - 1 + 1 := by omega
  refine ⟨⟨(words text.toList).map (piecesOf (width - 1)), ?_, ?_⟩, visible_flatten_wrap width text,
    wrap_intercalate_wrap width text⟩
  · rw [room, List.forall₂_map_right_iff, List.forall₂_same]
    exact fun word member => broken_piecesOf _ (unbroken_of_mem_words member).1
  · rw [room, map_toList_wrap, ← List.flatMap_def]
    exact packed_fillLines_words (width - 1) text.toList

end ParamSweep.Text
