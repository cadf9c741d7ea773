import ParamSweep.Proofs.BracketOutline
import ParamSweep.Proofs.ValueEquality
import ParamSweep.Proofs.ValueTexts

/-! Values that are printed and read again. A value keeps the outline of the text that it was read from, so its print
is cut into the same items. Only a tuple of one item is printed with a comma more, behind which another item is read. -/

namespace ParamSweep

namespace Number
open Text

private theorem mem_takeSign {text : List Char} {char : Char} (member : char ∈ text) :
    char = '-' ∨ char = '+' ∨ char ∈ (takeSign text).2 := by
  unfold takeSign
  split
  · exact (List.mem_cons.mp member).imp_right .inr
  · exact .inr (List.mem_cons.mp member)
  · exact .inr (.inr member)

/-- The text of an integer holds no brackets and no commas. -/
theorem outline_of_readInt64? {text : List Char} {number : Int64} (read : readInt64? text = some number) :
    outline text = [] := by
  refine outline_eq_nil_iff.mpr fun char member => ?_
  unfold readInt64? at read
  dsimp only at read
  split at read
  · cases read
  next size digits =>
    rcases mem_takeSign member with rfl | rfl | inside
    · decide
    · decide
    · exact unmarked_of_class (isDigit_of_readDigits? digits char inside) (by decide)

end Number

namespace Value
open Text Number

/-- A value that is spelled without brackets and commas, and that is no text. -/
abbrev Spelled : Value → Prop := Scalar fun _ => False

theorem Spelled.outline_chars {value : Value} (spelled : Spelled value) : outline value.chars = [] :=
  outline_eq_nil_iff.mpr fun char member => ⟨Scalar.bracketless spelled (fun _ => False.elim) char member,
    (Scalar.plainChar spelled (fun _ => False.elim) char member).2.2.1⟩

theorem Spelled.trimmed_chars {value : Value} (spelled : Spelled value) : Trimmed value.chars :=
  trimmed_of_blankless fun char member => (Scalar.plainChar spelled (fun _ => False.elim) char member).1

theorem Spelled.chars_ne_nil {value : Value} (spelled : Spelled value) : value.chars ≠ [] := by
  cases spelled with
  | none => exact List.cons_ne_nil _ _
  | bool value => cases value <;> exact List.cons_ne_nil _ _
  | int number => simp [chars, intText, Nat.toDigits_ne_nil]
  | str never => exact never.elim

private theorem spelled_of_word {text : List Char} {value : Value} (word : ofWord? text = some value) :
    Spelled value ∧ outline text = [] := by
  have bare {spelling : List Char} (same : text.map Char.toLower = spelling)
      (letters : ['[', '(', ']', ')', ','].any (fun mark => spelling.contains mark.toLower) = false) :
      outline text = [] := by
    refine outline_eq_nil_iff.mpr fun char member => unmarked_of_class ?_ letters
    rw [List.contains_iff_mem, ← same]
    exact List.mem_map_of_mem member
  unfold ofWord? at word
  split at word
  next same =>
    cases word
    exact ⟨.bool true, bare same (by decide)⟩
  next same =>
    cases word
    exact ⟨.bool false, bare same (by decide)⟩
  next same =>
    cases word
    exact ⟨.none, bare same (by decide)⟩
  next => cases word

theorem eq_of_enclosed? {opening closing : Char} {text inner : List Char}
    (found : enclosed? opening closing text = some inner) : text = opening :: (inner ++ [closing]) := by
  unfold enclosed? at found
  split at found
  next first rest =>
    split at found
    next ends =>
      obtain ⟨rfl, last⟩ := ends
      cases found
      rw [List.dropLast_append_getLast? closing last]
    next => cases found
  next => cases found

/-- Whether a value is no floating-point number. -/
def NotFloat : Value → Prop
  | .float _ => False
  | _ => True

/-- How a text is read without floating-point numbers: as a value with a spelling of its own, as itself, or as the
items between brackets. -/
inductive Floatless : List Char → Prop
  | spelled {text : List Char} (own : Spelled (ofChars text)) (bare : outline text = []) : Floatless text
  | str {text : List Char} (kept : ofChars text = .str (String.ofList text)) : Floatless text
  | list {inner : List Char} (given : ∀ item ∈ itemTexts inner, Floatless item) : Floatless ('[' :: (inner ++ [']']))
  | tuple {inner : List Char} (given : ∀ item ∈ itemTexts inner, Floatless item) :
      Floatless ('(' :: (inner ++ [')']))

theorem floatless_of_every {text : List Char} (every : (ofChars text).Every NotFloat) : Floatless text := by
  induction size : text.length using Nat.strongRecOn generalizing text with
  | ind size ih =>
    subst size
    have inside {opening closing : Char} {inner : List Char} (found : enclosed? opening closing text = some inner)
        (every : EveryItem NotFloat ((itemTexts inner).map ofChars)) : ∀ item ∈ itemTexts inner, Floatless item :=
      fun item member =>
        have shorter := Nat.lt_of_le_of_lt (length_le_of_mem_itemTexts member) (length_lt_of_enclosed? found)
        ih item.length shorter (everyItem_iff.mp every _ (List.mem_map_of_mem member)) rfl
    have read := ofChars_eq text
    cases found : ofWord? text with
    | some value =>
      rw [found] at read
      obtain ⟨own, bare⟩ := spelled_of_word found
      exact .spelled (read ▸ own) bare
    | none =>
      cases listed : enclosed? '[' ']' text with
      | some inner =>
        obtain rfl := eq_of_enclosed? listed
        rw [ofChars_list] at every
        exact .list (inside listed every.2)
      | none =>
        cases tupled : enclosed? '(' ')' text with
        | some inner =>
          obtain rfl := eq_of_enclosed? tupled
          rw [ofChars_tuple] at every
          exact .tuple (inside tupled every.2)
        | none =>
          rw [found, listed, tupled] at read
          dsimp only at read
          unfold ofScalar at read
          split at read
          next number integer =>
            exact .spelled (read ▸ .int number) (outline_trim text ▸ outline_of_readInt64? integer)
          next =>
            split at read
            next number _ =>
              rw [read] at every
              exact every.elim
            next => exact .str read

theorem trimmed_of_mem_itemTexts {inner item : List Char} (member : item ∈ itemTexts inner) : Trimmed item := by
  unfold itemTexts at member
  split at member
  · cases member
  · obtain ⟨piece, -, rfl⟩ := List.mem_map.mp member
    exact trimmed_trim piece

/-- What brackets hold is divided into items by its outline alone. -/
theorem outline_itemTexts (inner : List Char) :
    outline inner = [','].intercalate ((itemTexts inner).map outline) := by
  by_cases visible : trim inner = []
  · have none : itemTexts inner = [] := by rw [itemTexts, visible]; rfl
    rw [none, ← outline_trim, visible]
    rfl
  · have pieces := congrArg outline (intercalate_cutAtDepth 0 inner)
    rw [outline_intercalate] at pieces
    rw [itemTexts_of_visible visible, List.map_map, ← pieces]
    congr 1
    exact List.map_congr_left fun piece _ => (outline_trim piece).symm

/-- Items that are printed with the outlines of their texts are divided as these are. -/
theorem itemTexts_printed {inner : List Char} {print : List Char → List Char}
    (same : ∀ item ∈ itemTexts inner, outline item = outline (print item))
    (trimmed : ∀ item ∈ itemTexts inner, Trimmed (print item))
    (present : ∀ item ∈ itemTexts inner, item ≠ [] → print item ≠ []) :
    itemTexts ([',', ' '].intercalate ((itemTexts inner).map print)) = (itemTexts inner).map print := by
  by_cases visible : trim inner = []
  · have none : itemTexts inner = [] := by rw [itemTexts, visible]; rfl
    rw [none]
    rfl
  · have items := itemTexts_of_visible visible
    have cut : Pieces 0 (spaced ((itemTexts inner).map print)) := by
      apply (pieces_cutAtDepth 0 inner).of_spaced
      rw [items, List.map_map, List.forall₂_map_right_iff, List.forall₂_same]
      intro piece member
      rw [← outline_trim piece]
      exact same (trim piece) (items ▸ List.mem_map_of_mem member)
    have shown : trim ([',', ' '].intercalate ((itemTexts inner).map print)) ≠ [] := by
      cases pieces : cutAtDepth (outside ',') 0 inner with
      | nil => exact absurd pieces (cutAtDepth_ne_nil _ _ _)
      | cons first rest =>
        rw [pieces] at items
        cases rest with
        | nil =>
          have whole := intercalate_cutAtDepth 0 inner
          rw [pieces, List.intercalate_singleton] at whole
          subst whole
          have member : trim first ∈ itemTexts first := by simp [items]
          rw [items, List.map_singleton, List.map_singleton, List.intercalate_singleton,
            (trimmed _ member).trim_eq]
          exact present _ member visible
        | cons next others =>
          have comma : ',' ∈ [',', ' '].intercalate ((itemTexts inner).map print) := by
            simp [items, List.intercalate_cons_cons]
          exact trim_ne_nil_of_mem comma (by decide)
    rw [itemTexts_of_visible shown, ← intercalate_spaced, cutAtDepth_of_pieces cut, map_trim_spaced]
    exact List.forall_mem_map.mpr trimmed

/-- Whether a value is no tuple of one item. -/
def NotSingle : Value → Prop
  | .tuple items => items.length ≠ 1
  | _ => True

theorem Spelled.notSingle {value : Value} (spelled : Spelled value) : value.Every NotSingle := by
  cases spelled with
  | none | bool | int => trivial
  | str never => exact never.elim

theorem chars_tuple (items : List Value) :
    chars (.tuple items) =
      '(' :: ((charsOfItems items ++ if items.length = 1 then [','] else []) ++ [')']) := by
  rw [chars]
  split <;> simp

theorem trimmed_chars {text : List Char} (floatless : Floatless text) (trimmed : Trimmed text) :
    Trimmed (ofChars text).chars := by
  cases floatless with
  | spelled own => exact own.trimmed_chars
  | str kept => rwa [kept, chars, String.toList_ofList]
  | list =>
    rw [ofChars_list, chars]
    exact trimmed_enclosed (by decide) (by decide) _
  | tuple =>
    rw [ofChars_tuple, chars_tuple]
    exact trimmed_enclosed (by decide) (by decide) _

theorem chars_ne_nil {text : List Char} (floatless : Floatless text) (present : text ≠ []) :
    (ofChars text).chars ≠ [] := by
  cases floatless with
  | spelled own => exact own.chars_ne_nil
  | str kept => rwa [kept, chars, String.toList_ofList]
  | list =>
    rw [ofChars_list, chars]
    exact List.cons_ne_nil _ _
  | tuple =>
    rw [ofChars_tuple, chars_tuple]
    exact List.cons_ne_nil _ _

private theorem charsOfItems_map (items : List (List Char)) :
    charsOfItems (items.map ofChars) = [',', ' '].intercalate (items.map fun item => (ofChars item).chars) := by
  rw [charsOfItems_eq, List.map_map]
  rfl

/-- Whether the print of a value holds the outline of the text that the value was read from, and nothing but it exactly
if no tuple of one item is inside. -/
def Outlined (text : List Char) : Prop :=
  (outline text).Sublist (outline (ofChars text).chars) ∧
    (outline text = outline (ofChars text).chars ↔ (ofChars text).Every NotSingle)

private theorem outlined_items {inner : List Char} (outlined : ∀ item ∈ itemTexts inner, Outlined item) :
    (outline inner).Sublist (outline (charsOfItems ((itemTexts inner).map ofChars))) ∧
      (outline inner = outline (charsOfItems ((itemTexts inner).map ofChars)) ↔
        EveryItem NotSingle ((itemTexts inner).map ofChars)) := by
  have printed : outline (charsOfItems ((itemTexts inner).map ofChars)) =
      [','].intercalate ((itemTexts inner).map fun item => outline (ofChars item).chars) := by
    rw [charsOfItems_map, outline_intercalate, List.map_map]
    rfl
  have every : EveryItem NotSingle ((itemTexts inner).map ofChars) ↔
      ∀ item ∈ itemTexts inner, outline item = outline (ofChars item).chars := by
    rw [everyItem_iff, List.forall_mem_map]
    exact forall₂_congr fun item member => (outlined item member).2.symm
  rw [printed, every, outline_itemTexts inner]
  exact intercalate_sublist [','] fun item member => (outlined item member).1

theorem outlined_of_floatless {text : List Char} (floatless : Floatless text) : Outlined text := by
  induction floatless with
  | spelled own bare =>
    rw [Outlined, bare, own.outline_chars]
    exact ⟨.refl _, iff_of_true rfl own.notSingle⟩
  | str kept =>
    rw [Outlined, kept, chars, String.toList_ofList]
    exact ⟨.refl _, iff_of_true rfl trivial⟩
  | list _ ih =>
    obtain ⟨inside, same⟩ := outlined_items ih
    rw [Outlined, ofChars_list, chars, List.cons_append, outline_enclosed (by decide) (by decide),
      outline_enclosed (by decide) (by decide)]
    refine ⟨(inside.append (.refl _)).cons_cons _, ?_⟩
    rw [Every, ← same]
    simp [NotSingle]
  | @tuple inner _ ih =>
    obtain ⟨inside, same⟩ := outlined_items ih
    rw [Outlined, ofChars_tuple, chars_tuple, outline_enclosed (by decide) (by decide),
      outline_enclosed (by decide) (by decide), outline_append]
    refine ⟨((inside.trans (List.sublist_append_left _ _)).append (.refl _)).cons_cons _, ?_⟩
    rw [Every, ← same]
    split
    next single =>
      -- The comma behind a single item makes the print longer than the text can be.
      refine iff_of_false (fun equal => ?_) fun every => every.1 single
      have lengths := congrArg List.length equal
      have longer := inside.length_le
      have comma : (outline [',']).length = 1 := rfl
      simp only [List.length_cons, List.length_append, comma] at lengths
      omega
    next several =>
      have bare : outline [] = [] := rfl
      have here : NotSingle (.tuple ((itemTexts inner).map ofChars)) := several
      simp [here, bare]

/-- Items are read again from their print as soon as each of them is. -/
private theorem map_ofChars_itemTexts {inner : List Char} (floatless : ∀ item ∈ itemTexts inner, Floatless item)
    (several : EveryItem NotSingle ((itemTexts inner).map ofChars))
    (again : ∀ item ∈ itemTexts inner, (ofChars item).Every NotSingle → ofChars (ofChars item).chars = ofChars item) :
    (itemTexts (charsOfItems ((itemTexts inner).map ofChars))).map ofChars = (itemTexts inner).map ofChars := by
  have several := List.forall_mem_map.mp (everyItem_iff.mp several)
  rw [charsOfItems_map, itemTexts_printed
    (fun item member => (outlined_of_floatless (floatless item member)).2.mpr (several item member))
    (fun item member => trimmed_chars (floatless item member) (trimmed_of_mem_itemTexts member))
    (fun item member => chars_ne_nil (floatless item member)), List.map_map]
  exact List.map_congr_left fun item member => again item member (several item member)

/-- Without floating-point numbers and without tuples of one item, a value is read again from its print. -/
theorem ofChars_chars {text : List Char} (floatless : Floatless text) (several : (ofChars text).Every NotSingle) :
    ofChars (ofChars text).chars = ofChars text := by
  induction floatless with
  | spelled own => exact own.ofChars_chars
  | str kept =>
    rw [kept, chars, String.toList_ofList]
    exact kept
  | list given ih =>
    rw [ofChars_list] at several ⊢
    rw [chars, List.cons_append, ofChars_list, map_ofChars_itemTexts given several.2 ih]
  | tuple given ih =>
    rw [ofChars_tuple] at several ⊢
    rw [chars_tuple, if_neg several.1, List.append_nil, ofChars_tuple, map_ofChars_itemTexts given several.2 ih]

/-- Printed and read again, a value without floating-point numbers is what it was exactly if no tuple of one item is
inside. -/
theorem ofText_text_iff {text : String} (floatless : (ofText text).Every NotFloat) :
    ofText (ofText text).text = ofText text ↔ (ofText text).Every NotSingle := by
  have printed : ofText (ofText text).text = ofChars (ofText text).chars :=
    congrArg ofChars (String.toList_ofList)
  rw [printed]
  constructor
  · intro again
    have floatlessAgain : (ofChars (ofText text).chars).Every NotFloat := by
      rw [again]
      exact floatless
    have outlined := (outlined_of_floatless (floatless_of_every floatlessAgain)).2
    rw [again] at outlined
    exact outlined.mp rfl
  · exact ofChars_chars (floatless_of_every floatless)

/-- Brackets that do not match are kept as they are. -/
theorem ofText_text_iff_unmatched :
    ofText "[(1,+2),a]),(]" = .list [.tuple [.int 1, .int 2], .str "a])", .str "("] ∧
    (ofText "[(1,+2),a]),(]").text = "[(1, 2), a]), (]" ∧
    ofText "[(1, 2), a]), (]" = ofText "[(1,+2),a]),(]" := by
  have pair : ofChars "(1,+2)".toList = .tuple [.int 1, .int 2] := by
    have items : itemTexts "1,+2".toList = ["1".toList, "+2".toList] := by decide
    have one : ofChars "1".toList = .int 1 := by rw [ofChars_eq]; rfl
    have two : ofChars "+2".toList = .int 2 := by rw [ofChars_eq]; rfl
    have read := ofChars_tuple "1,+2".toList
    rwa [items, List.map_cons, List.map_singleton, one, two] at read
  have read : ofText "[(1,+2),a]),(]" = .list [.tuple [.int 1, .int 2], .str "a])", .str "("] := by
    have items : itemTexts "(1,+2),a]),(".toList = ["(1,+2)".toList, "a])".toList, "(".toList] := by decide
    have closings : ofChars "a])".toList = .str "a])" := by rw [ofChars_eq]; rfl
    have opening : ofChars "(".toList = .str "(" := by rw [ofChars_eq]; rfl
    have read := ofChars_list "(1,+2),a]),(".toList
    rwa [items, List.map_cons, List.map_cons, List.map_singleton, pair, closings, opening] at read
  have print : (ofText "[(1,+2),a]),(]").text = "[(1, 2), a]), (]" := by
    rw [read]
    rfl
  have floatless : (ofText "[(1,+2),a]),(]").Every NotFloat := by
    rw [read]
    simp [Every, EveryItem, NotFloat]
  have several : (ofText "[(1,+2),a]),(]").Every NotSingle := by
    rw [read]
    simp [Every, EveryItem, NotSingle]
  exact ⟨read, print, print ▸ (ofText_text_iff floatless).mpr several⟩

/-- A tuple of one item comes back with an empty text as its second. -/
theorem ofText_text_single_fails :
    (ofText "(7)").Every NotFloat ∧ (ofText "(7)").text = "(7,)" ∧ ofText "(7,)" = .tuple [.int 7, .str ""] ∧
    ofText (ofText "(7)").text ≠ ofText "(7)" := by
  have seven : ofChars "7".toList = .int 7 := by rw [ofChars_eq]; rfl
  have single : ofText "(7)" = .tuple [.int 7] := by
    have items : itemTexts "7".toList = ["7".toList] := by decide
    have read := ofChars_tuple "7".toList
    rwa [items, List.map_singleton, seven] at read
  have double : ofText "(7,)" = .tuple [.int 7, .str ""] := by
    have items : itemTexts "7,".toList = ["7".toList, "".toList] := by decide
    have empty : ofChars "".toList = .str "" := by rw [ofChars_eq]; rfl
    have read := ofChars_tuple "7,".toList
    rwa [items, List.map_cons, List.map_singleton, seven, empty] at read
  have print : (ofText "(7)").text = "(7,)" := by
    rw [single]
    rfl
  refine ⟨?_, print, double, ?_⟩
  · rw [single]
    simp [Every, EveryItem, NotFloat]
  · rw [print, double, single]
    simp

end Value
end ParamSweep
