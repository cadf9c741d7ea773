import ParamSweep.Proofs.AxisOrder
import ParamSweep.Proofs.BracketOutline
import ParamSweep.Proofs.ValueTexts

/-! Options written out and read again. Values are written as they are printed, lists and tuples with a space behind
each comma. Brackets keep the commas of a value from dividing the options. -/

namespace ParamSweep

namespace Value
open Text

/-- Values that options are written with: no floating-point numbers and no dictionaries, texts that are read as
themselves, and no tuple of one item, whose print ends in a comma. -/
inductive Legible : Value → Prop
  | scalar {value : Value} (given : Scalar Options.Bare value) : Legible value
  | list {items : List Value} (given : ∀ item ∈ items, Legible item) : Legible (.list items)
  | tuple {items : List Value} (several : items.length ≠ 1) (given : ∀ item ∈ items, Legible item) :
      Legible (.tuple items)

/-- What makes a print an item among others: it spells its value and is not empty. -/
structure Shown (value : Value) : Prop where
  spells : Options.Spells value.chars value
  present : value.chars ≠ []

theorem Scalar.shown {value : Value} (scalar : Scalar Options.Bare value) : Shown value where
  spells := scalar.spells_chars
  present := by
    cases scalar with
    | none => exact List.cons_ne_nil _ _
    | bool value => cases value <;> exact List.cons_ne_nil _ _
    | int number => simp [chars, Number.intText, Nat.toDigits_ne_nil]
    | str bare => exact fun empty => bare.present (String.toList_injective empty)

section
variable {items : List Value}

/-- The texts between the commas of printed items. -/
def printed (items : List Value) : List (List Char) := spaced (items.map chars)

theorem charsOfItems_eq_printed (items : List Value) : charsOfItems items = [','].intercalate (printed items) := by
  rw [charsOfItems_eq, printed, intercalate_spaced]

private theorem mem_printed {piece : List Char} (member : piece ∈ printed items) :
    ∃ item ∈ items, piece = item.chars ∨ piece = ' ' :: item.chars := by
  unfold printed at member
  cases items with
  | nil => cases member
  | cons first rest =>
    rcases List.mem_cons.mp member with rfl | member
    · exact ⟨first, List.mem_cons_self, .inl rfl⟩
    · obtain ⟨text, inside, rfl⟩ := List.mem_map.mp member
      obtain ⟨item, among, rfl⟩ := List.mem_map.mp inside
      exact ⟨item, List.mem_cons_of_mem _ among, .inr rfl⟩

theorem intact_printed (shown : ∀ item ∈ items, Shown item) :
    ∀ piece ∈ printed items, Intact (outside ',') piece ∧ '=' ∉ piece := by
  have space : Intact (outside ',') [' '] := by
    refine intact_of_bracketless (fun char member => ?_) fun char member => outside_of_ne ?_
    all_goals
      rw [List.mem_singleton.mp member]
      decide
  intro piece member
  obtain ⟨item, among, rfl | rfl⟩ := mem_printed member
  · exact ⟨(shown item among).spells.intact, (shown item among).spells.unequal⟩
  · refine ⟨space.append (shown item among).spells.intact, fun inside => ?_⟩
    rcases List.mem_cons.mp inside with mark | inside
    · cases mark
    · exact (shown item among).spells.unequal inside

theorem read_printed (shown : ∀ item ∈ items, Shown item) : (itemTexts (charsOfItems items)).map ofChars = items := by
  have trimmed : (printed items).map trim = items.map chars :=
    map_trim_spaced (List.forall_mem_map.mpr fun item among => (shown item among).spells.trimmed)
  have single : ∀ piece, printed items = [piece] → trim piece ≠ [] := by
    intro piece alone
    rw [alone] at trimmed
    have among : trim piece ∈ items.map chars := trimmed ▸ List.mem_singleton_self _
    obtain ⟨item, inside, same⟩ := List.mem_map.mp among
    exact same ▸ (shown item inside).present
  have texts := itemTexts_intercalate (fun piece member => (intact_printed shown piece member).1) single
  rw [charsOfItems_eq_printed, texts, trimmed, List.map_map]
  exact (List.map_congr_left fun item among => (shown item among).spells.read).trans (List.map_id _)

end

theorem Legible.shown {value : Value} (legible : Legible value) : Shown value := by
  induction legible with
  | scalar given => exact given.shown
  | @list items _ ih =>
    have read := ofChars_list (charsOfItems items)
    rw [read_printed ih, charsOfItems_eq_printed] at read
    have print : chars (.list items) = '[' :: ([','].intercalate (printed items) ++ [']']) := by
      rw [← charsOfItems_eq_printed]
      rfl
    refine ⟨?_, print ▸ List.cons_ne_nil _ _⟩
    rw [print]
    exact spells_enclosed (by decide) (by decide) (intact_printed ih) read
  | @tuple items several _ ih =>
    have read := ofChars_tuple (charsOfItems items)
    rw [read_printed ih, charsOfItems_eq_printed] at read
    have print : chars (.tuple items) = '(' :: ([','].intercalate (printed items) ++ [')']) := by
      rw [← charsOfItems_eq_printed, chars, if_neg several]
      rfl
    refine ⟨?_, print ▸ List.cons_ne_nil _ _⟩
    rw [print]
    exact spells_enclosed (by decide) (by decide) (intact_printed ih) read

end Value

namespace Options

/-- Entries as an option text. -/
def write (entries : List (String × Value)) : String :=
  ",".intercalate (entries.map fun entry => entry.1 ++ "=" ++ entry.2.text)

theorem write_eq (entries : List (String × Value)) :
    write entries = String.ofList ([','].intercalate (entries.map (spellEntry Value.chars))) := by
  have pieces : (entries.map fun entry => entry.1 ++ "=" ++ entry.2.text).map String.toList =
      entries.map (spellEntry Value.chars) := by
    rw [List.map_map]
    exact List.map_congr_left fun entry _ => by simp [spellEntry, Value.text]
  apply String.toList_injective
  rw [write, String.toList_intercalate, pieces]
  exact String.toList_ofList.symm

/-- Written in any order of its entries, a dictionary is read again. -/
theorem parse_write {options : Config} {entries : List (String × Value)}
    (legible : ∀ entry ∈ options.entries, Bare entry.1 ∧ Value.Legible entry.2) (order : entries.Perm options.entries) :
    parse Dict.empty (write entries) = .ok options := by
  have spelled : ∀ entry ∈ entries, Bare entry.1 ∧ Spells (Value.chars entry.2) entry.2 := fun entry member =>
    have given := legible entry (order.mem_iff.mp member)
    ⟨given.1, given.2.shown.spells⟩
  have same : Dict.ofList entries = options :=
    (Dict.ofList_of_perm order.symm options.nodup_keys).symm.trans options.ofList_entries
  rw [write_eq, parse_spelled spelled, same]

def nestedOptions : Config :=
  Dict.ofList [("max steps", .list [.tuple [.int (-3), .str "a b"], .list [], .tuple []]), ("on", .list [.none])]

theorem parse_write_nested :
    write nestedOptions.entries.reverse = "on=[None],max steps=[(-3, a b), [], ()]" ∧
    parse Dict.empty "on=[None],max steps=[(-3, a b), [], ()]" = .ok nestedOptions := by
  have written : write nestedOptions.entries.reverse = "on=[None],max steps=[(-3, a b), [], ()]" := rfl
  have kept : Value.ofText "a b" = .str "a b" := by
    rw [Value.ofText, Value.ofChars_eq]
    rfl
  have words : Value.Legible (.str "a b") := .scalar (.str (by decide) kept)
  have number : Value.Legible (.int (-3)) := .scalar (.int (-3))
  have pair : Value.Legible (.tuple [.int (-3), .str "a b"]) := .tuple (by decide) (by simp [number, words])
  have empty : Value.Legible (.list []) ∧ Value.Legible (.tuple []) := ⟨.list (by simp), .tuple (by decide) (by simp)⟩
  have first : Value.Legible (.list [.tuple [.int (-3), .str "a b"], .list [], .tuple []]) :=
    .list (by simp [pair, empty])
  have second : Value.Legible (.list [.none]) := .list (by simp [Value.Legible.scalar .none])
  have legible : ∀ entry ∈ nestedOptions.entries, Bare entry.1 ∧ Value.Legible entry.2 :=
    List.forall_mem_cons.mpr ⟨⟨by decide, first⟩, List.forall_mem_singleton.mpr ⟨by decide, second⟩⟩
  exact ⟨written, written ▸ parse_write legible (List.reverse_perm _)⟩

end Options
end ParamSweep
