import Mathlib.Data.List.Nodup
import ParamSweep.Proofs.Combinations
import ParamSweep.Proofs.LineWrapping
import ParamSweep.Proofs.VariedLabels

/-! Labels of sweep points. White space aside, which is all that wrapping changes, a label is the option text of what
the sweep varies at its point, and that can be read off it again. What it leaves out is the same at every point or
absent, so points with the same label are the same. -/

namespace ParamSweep

namespace Config

/-- Without repeated candidates no choice is made twice. -/
theorem nodup_choices {axes : List Axis} (distinct : ∀ axis ∈ axes, axis.2.Nodup) : (choices axes).Nodup := by
  induction axes with
  | nil => exact List.nodup_singleton _
  | cons axis rest ih =>
    obtain ⟨here, later⟩ := List.forall_mem_cons.mp distinct
    rw [choices, List.nodup_flatMap]
    refine ⟨fun value _ => (ih later).map List.cons_injective, here.imp fun differs choice one another => ?_⟩
    obtain ⟨_, -, rfl⟩ := List.mem_map.mp one
    obtain ⟨_, -, same⟩ := List.mem_map.mp another
    exact differs (Prod.mk.inj (List.cons.inj same).1).2.symm

theorem nodup_combinations {config : Config} (distinct : ∀ axis ∈ config.axes, axis.2.Nodup) :
    config.combinations.Nodup := by
  apply List.Nodup.of_map Dict.entries
  rw [map_entries_combinations]
  exact nodup_choices distinct

end Config

namespace Text

section
variable {pattern replacement : List Char}

/-- Whether replacement turns one text into another, whatever follows it. -/
def Replaces (pattern replacement text image : List Char) : Prop :=
  ∀ rest, replaceAll pattern replacement (text ++ rest) = image ++ replaceAll pattern replacement rest

theorem Replaces.replaceAll_eq {text image : List Char} (present : pattern ≠ [])
    (replaces : Replaces pattern replacement text image) : replaceAll pattern replacement text = image := by
  have whole := replaces []
  rwa [List.append_nil, replaceAll, replaceAll, replaceFrom, if_neg (by simpa using present), List.append_nil] at whole

theorem Replaces.append {left right leftImage rightImage : List Char}
    (before : Replaces pattern replacement left leftImage) (after : Replaces pattern replacement right rightImage) :
    Replaces pattern replacement (left ++ right) (leftImage ++ rightImage) := by
  intro rest
  rw [List.append_assoc, before, after, List.append_assoc]

theorem replaces_intercalate {α : Type} {spell image : α → List Char} {mark : List Char} {items : List α}
    (between : Replaces pattern replacement mark mark)
    (each : ∀ item ∈ items, Replaces pattern replacement (spell item) (image item)) :
    Replaces pattern replacement (mark.intercalate (items.map spell)) (mark.intercalate (items.map image)) := by
  induction items with
  | nil => exact fun _ => rfl
  | cons first rest ih =>
    obtain ⟨here, later⟩ := List.forall_mem_cons.mp each
    cases rest with
    | nil => simpa using here
    | cons next others =>
      simp only [List.map_cons, List.intercalate_cons_cons] at ih ⊢
      exact (here.append between).append (ih later)

/-- A text without the first character of the pattern is passed over. -/
theorem replaces_of_absent {first : Char} {text : List Char} (absent : first ∉ text) :
    Replaces (first :: pattern) replacement text text := by
  intro rest
  induction text with
  | nil => rfl
  | cons char text ih =>
    obtain ⟨differs, absent⟩ : first ≠ char ∧ first ∉ text := by simpa using absent
    rw [List.cons_append, replaceAll, replaceFrom, if_neg (by simp), if_neg (by simp [differs])]
    exact congrArg (char :: ·) (ih absent)

private theorem replaceFrom_length (covered rest : List Char) :
    replaceFrom pattern replacement covered.length (covered ++ rest) = replaceAll pattern replacement rest := by
  induction covered with
  | nil => rfl
  | cons char covered ih => rwa [List.length_cons, List.cons_append, replaceFrom]

theorem replaces_self (present : pattern ≠ []) : Replaces pattern replacement pattern replacement := by
  intro rest
  obtain ⟨first, others, rfl⟩ := List.exists_cons_of_ne_nil present
  rw [replaceAll, List.cons_append, replaceFrom, if_neg (by simp), if_pos (by simp), List.length_cons,
    Nat.add_sub_cancel, replaceFrom_length]

end

/-- The characters of words that labels of sweeps show as they are. -/
def ItemChar (char : Char) : Prop := PlainChar char ∧ char ≠ ':' ∧ char ≠ '\x7b' ∧ char ≠ '\x7d'

instance (char : Char) : Decidable (ItemChar char) :=
  inferInstanceAs (Decidable (PlainChar char ∧ char ≠ ':' ∧ char ≠ '\x7b' ∧ char ≠ '\x7d'))

def ItemText (text : String) : Prop := text ≠ "" ∧ ∀ char ∈ text.toList, ItemChar char

instance (text : String) : Decidable (ItemText text) :=
  @instDecidableAnd _ _ _ (List.decidableBAll ItemChar text.toList)

theorem ItemText.plain {text : String} (word : ItemText text) : PlainText text :=
  ⟨word.1, fun char member => (word.2 char member).1⟩

end Text

open Text

theorem Value.eq_none_of_isNone {value : Value} (absent : value.isNone = true) : value = .none := by
  cases value <;> simp_all [isNone]

theorem Value.Scalar.itemChar {value : Value} (scalar : Scalar ItemText value) : ∀ char ∈ value.chars, ItemChar char :=
  scalar.forall_chars (by decide) (fun _ digit => ⟨plainChar_of_isDigit digit, ne_of_isDigit digit (by decide),
    ne_of_isDigit digit (by decide), ne_of_isDigit digit (by decide)⟩) fun _ word => word.2

namespace Label
open Config
open Value (Scalar)

/-- Entries as the label of a sweep point lists them before it is wrapped. -/
def itemText (entries : List (String × Value)) : String :=
  replaceEach [("'", ""), ("\x7d", ""), ("\x7b", ""), (": ", "=")]
    (", ".intercalate (entries.map fun (key, value) => key ++ ": " ++ value.text))

/-- What a label shows of a point: what the sweep varies, absent values aside. -/
def sweptEntries (sweep config : Config) : List (String × Value) :=
  config.entries.filter fun (key, value) => isSwept sweep key && !value.isNone

theorem ofSweep_eq (sweep config : Config) :
    ofSweep sweep config = "\n".intercalate (wrap sweepWidth (itemText (sweptEntries sweep config))) := rfl

section
variable {entry : String × Value}

private def listed (entry : String × Value) : List Char := entry.1.toList ++ ([':', ' '] ++ entry.2.chars)

private theorem not_mem_listed {char : Char} (mark : ¬ItemChar char) (other : char ∉ [':', ' '])
    (key : ItemText entry.1) (scalar : Scalar ItemText entry.2) : char ∉ listed entry := by
  intro member
  rcases List.mem_append.mp member with inside | member
  · exact mark (key.2 char inside)
  · rcases List.mem_append.mp member with between | inside
    · exact other between
    · exact mark (scalar.itemChar char inside)

private theorem replaces_listed (key : ItemText entry.1) (scalar : Scalar ItemText entry.2) :
    Replaces [':', ' '] ['='] (listed entry) (Options.spellEntry Value.chars entry) := by
  have front : ':' ∉ entry.1.toList := fun inside => (key.2 ':' inside).2.1 rfl
  have back : ':' ∉ entry.2.chars := fun inside => (scalar.itemChar ':' inside).2.1 rfl
  exact (replaces_of_absent front).append ((replaces_self (by simp)).append (replaces_of_absent back))

private theorem visible_spellEntry (key : ItemText entry.1) (scalar : Scalar ItemText entry.2) :
    visible (Options.spellEntry Value.chars entry) = Options.spellEntry Value.label entry := by
  have whole : Value.label entry.2 = entry.2.chars := scalar.compact_chars fun _ word => word.plain
  rw [Options.spellEntry, Options.spellEntry, whole, visible, List.filter_eq_self]
  intro char member
  rcases List.mem_append.mp member with inside | member
  · simp [(key.2 char inside).1.1]
  · rcases List.mem_cons.mp member with rfl | inside
    · decide
    · simp [(scalar.itemChar char inside).1.1]

end

section
variable {entries : List (String × Value)} (spelled : ∀ entry ∈ entries, ItemText entry.1 ∧ Scalar ItemText entry.2)
include spelled

theorem toList_itemText :
    (itemText entries).toList = [',', ' '].intercalate (entries.map (Options.spellEntry Value.chars)) := by
  have listing : (", ".intercalate (entries.map fun (key, value) => key ++ ": " ++ value.text)).toList =
      [',', ' '].intercalate (entries.map listed) := by
    rw [String.toList_intercalate, List.map_map]
    refine congrArg [',', ' '].intercalate (List.map_congr_left fun entry _ => ?_)
    simp [listed, Value.text]
  have untouched {char : Char} (mark : ¬ItemChar char) (other : char ∉ [',', ' ', ':']) :
      replaceAll [char] [] ([',', ' '].intercalate (entries.map listed)) =
        [',', ' '].intercalate (entries.map listed) := by
    obtain ⟨comma, space, colon⟩ : char ≠ ',' ∧ char ≠ ' ' ∧ char ≠ ':' := by simpa using other
    refine (replaces_intercalate (replaces_of_absent (by simp [comma, space])) fun entry member => ?_).replaceAll_eq
      (by simp)
    obtain ⟨key, scalar⟩ := spelled entry member
    exact replaces_of_absent (not_mem_listed mark (by simp [colon, space]) key scalar)
  have marked : replaceAll [':', ' '] ['='] ([',', ' '].intercalate (entries.map listed)) =
      [',', ' '].intercalate (entries.map (Options.spellEntry Value.chars)) := by
    refine (replaces_intercalate (replaces_of_absent (by decide)) fun entry member => ?_).replaceAll_eq (by simp)
    exact replaces_listed (spelled entry member).1 (spelled entry member).2
  simp only [itemText, replaceEach, List.foldl_cons, List.foldl_nil, listing, String.toList_ofList]
  change replaceAll [':', ' '] ['='] (replaceAll ['\x7b'] [] (replaceAll ['\x7d'] [] (replaceAll ['\''] [] _))) = _
  rw [untouched (by decide) (by decide), untouched (by decide) (by decide), untouched (by decide) (by decide), marked]

/-- White space aside, the items of a label are an option text. -/
theorem visible_itemText : visible (itemText entries).toList = (optionText entries).toList := by
  rw [toList_itemText spelled, toList_optionText_of_plain fun entry member => (spelled entry member).1.plain, visible,
    filter_intercalate, List.map_map]
  congr 1
  apply List.map_congr_left
  intro entry member
  exact visible_spellEntry (spelled entry member).1 (spelled entry member).2

end

theorem visible_ofSweep (sweep config : Config) :
    visible (ofSweep sweep config).toList = visible (itemText (sweptEntries sweep config)).toList := by
  rw [ofSweep_eq, String.toList_intercalate]
  exact (visible_intercalate (by decide) _).trans (visible_flatten_wrap _ _)

/-- What a label shows of a point is read off it again. -/
theorem readOptionText_ofSweep {sweep config : Config}
    (spelled : ∀ entry ∈ sweptEntries sweep config, ItemText entry.1 ∧ Scalar ItemText entry.2) :
    readOptionText (visible (ofSweep sweep config).toList) = sweptEntries sweep config := by
  rw [visible_ofSweep, visible_itemText spelled]
  exact readOptionText_optionText fun entry member => ⟨(spelled entry member).1.plain,
    (spelled entry member).2.mono fun _ word => word.plain⟩

theorem mem_sweptEntries_iff {sweep config : Config} {key : String} {value : Value} :
    (key, value) ∈ sweptEntries sweep config ↔
      config.get? key = some value ∧ isSwept sweep key = true ∧ value.isNone = false := by
  simp [sweptEntries, Dict.get?_eq_some_iff]

/-- A label leaves out nothing that tells points apart. -/
theorem eq_of_sweptEntries {sweep left right : Config} (leftMember : left ∈ sweep.combinations)
    (rightMember : right ∈ sweep.combinations) (same : sweptEntries sweep left = sweptEntries sweep right) :
    left = right := by
  apply Dict.ext_get?
  intro key
  cases held : sweep.get? key with
  | none =>
    have absent := Dict.get?_eq_none_iff.mp held
    rw [Dict.get?_eq_none_iff.mpr (keys_of_mem_combinations leftMember ▸ absent),
      Dict.get?_eq_none_iff.mpr (keys_of_mem_combinations rightMember ▸ absent)]
  | some value =>
    obtain ⟨first, firstTaken, firstHeld⟩ := get?_of_mem_combinations leftMember held
    obtain ⟨second, secondTaken, secondHeld⟩ := get?_of_mem_combinations rightMember held
    rw [firstHeld, secondHeld]
    by_cases swept : isSwept sweep key = true
    · have carried {one other : Config} (same : sweptEntries sweep one = sweptEntries sweep other) {value : Value}
          (held : one.get? key = some value) (present : value.isNone = false) : other.get? key = some value :=
        (mem_sweptEntries_iff.mp (same ▸ mem_sweptEntries_iff.mpr ⟨held, swept, present⟩)).1
      cases present : first.isNone with
      | false => rw [← carried same firstHeld present, secondHeld]
      | true =>
        cases other : second.isNone with
        | false => rw [← carried same.symm secondHeld other, firstHeld]
        | true => rw [Value.eq_none_of_isNone present, Value.eq_none_of_isNone other]
    · -- A parameter that is not swept has a single candidate.
      rw [isSwept, held] at swept
      obtain ⟨only, single⟩ := List.length_eq_one_iff.mp (by simpa using swept)
      rw [single, List.mem_singleton] at firstTaken secondTaken
      rw [firstTaken, secondTaken]

/-- An axis whose choices a label can show. -/
structure Tellable (axis : Axis) : Prop where
  named : ItemText axis.1
  distinct : axis.2.Nodup
  spelled : ∀ value ∈ axis.2, Scalar ItemText value

theorem spelled_of_mem_combinations {sweep config : Config} (tellable : ∀ axis ∈ sweep.axes, Tellable axis)
    (member : config ∈ sweep.combinations) : ∀ entry ∈ config.entries, ItemText entry.1 ∧ Scalar ItemText entry.2 := by
  intro entry inside
  obtain ⟨axis, among, named, taken⟩ :=
    Outcome.exists_result_of_mem (mem_choices_iff.mp (mem_combinations_iff.mp member)) inside
  exact ⟨named ▸ (tellable axis among).named, (tellable axis among).spelled _ taken⟩

/-- Different points of a sweep have different labels, wherever their lines are broken. -/
theorem ofSweep_distinct {sweep : Config} (tellable : ∀ axis ∈ sweep.axes, Tellable axis) :
    (sweep.combinations.map (ofSweep sweep)).Nodup ∧
      ∀ left ∈ sweep.combinations, ∀ right ∈ sweep.combinations, left ≠ right →
        ofSweep sweep left ≠ ofSweep sweep right := by
  have read {config : Config} (member : config ∈ sweep.combinations) :
      readOptionText (visible (ofSweep sweep config).toList) = sweptEntries sweep config :=
    readOptionText_ofSweep fun entry shown =>
      spelled_of_mem_combinations tellable member entry (List.mem_filter.mp shown).1
  have faithful : ∀ left ∈ sweep.combinations, ∀ right ∈ sweep.combinations,
      ofSweep sweep left = ofSweep sweep right → left = right := by
    intro left leftMember right rightMember same
    apply eq_of_sweptEntries leftMember rightMember
    rw [← read leftMember, ← read rightMember, same]
  have points : sweep.combinations.Nodup := nodup_combinations fun axis member => (tellable axis member).distinct
  exact ⟨points.map_on faithful, fun left leftMember right rightMember differs same =>
    differs (faithful left leftMember right rightMember same)⟩

/-- A sweep over absent and other values, a fixed parameter and texts that fit on no line of a label. -/
def longTexts : Config :=
  Dict.ofList [("a", .list [.none, .bool true, .int (-3)]), ("b", .list [.int 7]),
    ("text", .list [.str "the_first_text_is_longer_than_a_line_of_fifty_characters",
      .str "the_other_text_is_longer_than_a_line_of_fifty_characters"])]

theorem ofSweep_distinct_long_texts :
    longTexts.combinations.length = 6 ∧ (longTexts.combinations.map (ofSweep longTexts)).Nodup := by
  have first : Scalar ItemText (.str "the_first_text_is_longer_than_a_line_of_fifty_characters") := by
    refine .str (by decide) ?_
    rw [Value.ofText, Value.ofChars_eq]
    rfl
  have other : Scalar ItemText (.str "the_other_text_is_longer_than_a_line_of_fifty_characters") := by
    refine .str (by decide) ?_
    rw [Value.ofText, Value.ofChars_eq]
    rfl
  have tellable : ∀ axis ∈ longTexts.axes, Tellable axis := by
    refine List.forall_mem_cons.mpr ⟨⟨by decide, ?_, ?_⟩, List.forall_mem_cons.mpr ⟨⟨by decide, ?_, ?_⟩,
      List.forall_mem_singleton.mpr ⟨by decide, ?_, ?_⟩⟩⟩
    all_goals simp [Value.candidates, Scalar.none, Scalar.bool, Scalar.int, first, other]
  exact ⟨by decide, (ofSweep_distinct tellable).1⟩

end Label
end ParamSweep
