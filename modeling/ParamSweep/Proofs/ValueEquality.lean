import Mathlib.Data.List.Forall2
import ParamSweep.Dict.Lemmas
import ParamSweep.Value.Basic

/-! Equality of parameters. It is symmetric and transitive, and a value equals itself exactly if no NaN is inside.
Configurations are equal exactly if they hold equal values under the same keys. -/

namespace ParamSweep

namespace Dict

universe u

variable {α : Type u}

private theorem lookup_eq_none_of_lt {entries : List (String × α)} {key : String}
    (above : ∀ entry ∈ entries, key < entry.1) : entries.lookup key = none := by
  apply List.lookup_eq_none_iff.mpr
  intro entry member
  exact bne_iff_ne.mpr fun same => String.lt_irrefl key (lt_of_lt_of_eq (above entry member) same.symm)

private theorem lookup_eq_none_of_lt_head {first : String × α} {rest : List (String × α)} {key : String}
    (above : ∀ entry ∈ rest, first.1 < entry.1) (before : key < first.1) : (first :: rest).lookup key = none := by
  apply lookup_eq_none_of_lt
  intro entry member
  rcases List.mem_cons.mp member with rfl | member
  · exact before
  · exact String.lt_trans before (above entry member)

variable [BEq α]

/-- Whether two look-ups find equal values, or both nothing. -/
abbrev SameFound (left right : Option α) : Prop := Option.Rel (fun first second => (first == second) = true) left right

theorem SameFound.bind {β : Type u} [BEq β] {left right : Option α} (same : SameFound left right) {step : α → Option β}
    (keeps : ∀ {first second}, (first == second) = true → SameFound (step first) (step second)) :
    SameFound (left.bind step) (right.bind step) := by
  cases same with
  | none => exact .none
  | some equal => exact keeps equal

theorem cons_beq_cons {left right : String × α} {lefts rights : List (String × α)} :
    (left :: lefts == right :: rights) = true ↔
      left.1 = right.1 ∧ (left.2 == right.2) = true ∧ (lefts == rights) = true := by
  have unfolded : (left :: lefts == right :: rights) =
    ((left.1 == right.1 && left.2 == right.2) && lefts == rights) := rfl
  simp [unfolded, and_assoc]

theorem sameFound_lookup {lefts rights : List (String × α)} (same : (lefts == rights) = true) (key : String) :
    SameFound (lefts.lookup key) (rights.lookup key) := by
  induction lefts generalizing rights with
  | nil =>
    cases rights with
    | nil => exact .none
    | cons right rights => cases same
  | cons left lefts ih =>
    cases rights with
    | nil => cases same
    | cons right rights =>
      obtain ⟨sameKey, sameValue, sameRest⟩ := cons_beq_cons.mp same
      rw [List.lookup_cons, List.lookup_cons, sameKey]
      split
      · exact .some sameValue
      · exact ih sameRest

private theorem beq_of_sameFound {lefts rights : List (String × α)}
    (leftSorted : lefts.Pairwise (fun first second => first.1 < second.1))
    (rightSorted : rights.Pairwise (fun first second => first.1 < second.1))
    (same : ∀ key, SameFound (lefts.lookup key) (rights.lookup key)) : (lefts == rights) = true := by
  induction lefts generalizing rights with
  | nil =>
    cases rights with
    | nil => rfl
    | cons right rights =>
      have found := same right.1
      rw [List.lookup_cons_self] at found
      cases found
  | cons left lefts ih =>
    obtain ⟨aboveLeft, leftTail⟩ := List.pairwise_cons.mp leftSorted
    have atLeft := same left.1
    rw [List.lookup_cons_self] at atLeft
    cases rights with
    | nil => cases atLeft
    | cons right rights =>
      obtain ⟨aboveRight, rightTail⟩ := List.pairwise_cons.mp rightSorted
      have atRight := same right.1
      rw [List.lookup_cons_self] at atRight
      have notBefore : ¬left.1 < right.1 := fun before => by
        rw [lookup_eq_none_of_lt_head aboveRight before] at atLeft
        cases atLeft
      have notBehind : ¬right.1 < left.1 := fun behind => by
        rw [lookup_eq_none_of_lt_head aboveLeft behind] at atRight
        cases atRight
      have sameKey : left.1 = right.1 := String.le_antisymm (String.not_lt.mp notBehind) (String.not_lt.mp notBefore)
      have sameValue : (left.2 == right.2) = true := by
        rw [sameKey, List.lookup_cons_self] at atLeft
        cases atLeft
        assumption
      refine cons_beq_cons.mpr ⟨sameKey, sameValue, ih leftTail rightTail fun key => ?_⟩
      by_cases head : key = left.1
      · rw [head, lookup_eq_none_of_lt aboveLeft, sameKey, lookup_eq_none_of_lt aboveRight]
        exact .none
      · have elsewhere := same key
        rwa [List.lookup_cons, List.lookup_cons, beq_false_of_ne head, beq_false_of_ne (sameKey ▸ head)] at elsewhere

/-- Dictionaries are equal exactly if they hold equal values under the same keys. -/
theorem beq_iff_get? {left right : Dict α} :
    (left == right) = true ↔ ∀ key, SameFound (left.get? key) (right.get? key) :=
  ⟨sameFound_lookup, beq_of_sameFound left.sorted right.sorted⟩

theorem insert_beq {left right : Dict α} (same : (left == right) = true) (key : String) {value other : α}
    (sameValue : (value == other) = true) : (left.insert key value == right.insert key other) = true := by
  apply beq_iff_get?.mpr
  intro asked
  rw [get?_insert, get?_insert]
  split
  · exact .some sameValue
  · exact beq_iff_get?.mp same asked

private theorem foldl_insert_beq {lefts rights : List (String × α)} (same : (lefts == rights) = true)
    {left right : Dict α} (start : (left == right) = true) :
    (lefts.foldl (fun dict entry => dict.insert entry.1 entry.2) left ==
      rights.foldl (fun dict entry => dict.insert entry.1 entry.2) right) = true := by
  induction lefts generalizing rights left right with
  | nil =>
    cases rights with
    | nil => exact start
    | cons => cases same
  | cons first lefts ih =>
    cases rights with
    | nil => cases same
    | cons second rights =>
      obtain ⟨sameKey, sameValue, sameRest⟩ := cons_beq_cons.mp same
      rw [List.foldl_cons, List.foldl_cons, sameKey]
      exact ih sameRest (insert_beq start second.1 sameValue)

theorem ofList_beq {lefts rights : List (String × α)} (same : (lefts == rights) = true) :
    (ofList lefts == ofList rights) = true :=
  foldl_insert_beq same rfl

end Dict

namespace Binary64

theorem beq_eq (left right : Binary64) :
    (left == right) = (!left.isNaN && !right.isNaN && (left.bits == right.bits || (left.isZero && right.isZero))) := rfl

theorem beq_comm (left right : Binary64) : (left == right) = (right == left) := by
  rw [beq_eq, beq_eq, Bool.beq_comm (a := left.bits)]
  cases left.isNaN <;> cases right.isNaN <;> cases left.isZero <;> cases right.isZero <;> rfl

private theorem ext_bits {left right : Binary64} (same : left.bits = right.bits) : left = right := by
  cases left
  cases right
  exact congrArg mk same

theorem beq_trans {first second third : Binary64} (here : (first == second) = true) (there : (second == third) = true) :
    (first == third) = true := by
  rw [beq_eq] at *
  simp only [Bool.and_eq_true, Bool.or_eq_true, Bool.not_eq_true', beq_iff_eq] at *
  obtain ⟨⟨firstNumber, _⟩, first⟩ := here
  obtain ⟨⟨_, thirdNumber⟩, third⟩ := there
  refine ⟨⟨firstNumber, thirdNumber⟩, ?_⟩
  rcases first with sameBits | ⟨firstZero, secondZero⟩
  · cases ext_bits sameBits
    exact third
  · rcases third with sameBits | ⟨_, thirdZero⟩
    · cases ext_bits sameBits
      exact .inr ⟨firstZero, secondZero⟩
    · exact .inr ⟨firstZero, thirdZero⟩

theorem beq_self_iff (number : Binary64) : (number == number) = true ↔ number.isNaN = false := by
  simp [beq_eq]

end Binary64

namespace Value

mutual

theorem equal_comm (left right : Value) : left.equal right = right.equal left :=
  match left with
  | .none => by cases right <;> rfl
  | .bool value => by cases right <;> simp [equal, Bool.beq_comm]
  | .int value => by cases right <;> simp [equal, Bool.beq_comm]
  | .float value => by cases right <;> simp [equal, Binary64.beq_comm]
  | .str text => by cases right <;> simp [equal, Bool.beq_comm]
  | .list items => by cases right <;> simp [equal, equalItems_comm items]
  | .tuple items => by cases right <;> simp [equal, equalItems_comm items]
  | .dict entries => by cases right <;> simp [equal, equalEntries_comm entries]
termination_by structural left

theorem equalItems_comm (lefts rights : List Value) : equalItems lefts rights = equalItems rights lefts :=
  match lefts with
  | [] => by cases rights <;> rfl
  | left :: lefts => by
    cases rights with
    | nil => rfl
    | cons right rights => simp [equalItems, equal_comm left right, equalItems_comm lefts rights]
termination_by structural lefts

theorem equalEntries_comm (lefts rights : List (String × Value)) :
    equalEntries lefts rights = equalEntries rights lefts :=
  match lefts with
  | [] => by cases rights <;> rfl
  | (leftKey, left) :: lefts => by
    cases rights with
    | nil => rfl
    | cons right rights =>
      simp [equalEntries, equal_comm left right.2, equalEntries_comm lefts rights, Bool.beq_comm (a := leftKey)]
termination_by structural lefts

end

mutual

theorem equal_trans {first second third : Value} (here : first.equal second = true)
    (there : second.equal third = true) : first.equal third = true :=
  match first with
  | .none => by cases second <;> cases third <;> simp_all [equal]
  | .bool value => by cases second <;> cases third <;> simp_all [equal]
  | .int value => by cases second <;> cases third <;> simp_all [equal]
  | .float value => by
    cases second <;> cases third <;> simp only [equal, Bool.false_eq_true] at here there ⊢
    exact Binary64.beq_trans here there
  | .str text => by cases second <;> cases third <;> simp_all [equal]
  | .list items => by
    cases second <;> cases third <;> simp only [equal, Bool.false_eq_true] at here there ⊢
    exact equalItems_trans here there
  | .tuple items => by
    cases second <;> cases third <;> simp only [equal, Bool.false_eq_true] at here there ⊢
    exact equalItems_trans here there
  | .dict entries => by
    cases second <;> cases third <;> simp only [equal, Bool.false_eq_true] at here there ⊢
    exact equalEntries_trans here there
termination_by structural first

theorem equalItems_trans {firsts seconds thirds : List Value} (here : equalItems firsts seconds = true)
    (there : equalItems seconds thirds = true) : equalItems firsts thirds = true :=
  match firsts with
  | [] => by cases seconds <;> cases thirds <;> simp_all [equalItems]
  | first :: firsts => by
    cases seconds <;> cases thirds <;> simp only [equalItems, Bool.and_eq_true, Bool.false_eq_true] at here there ⊢
    exact ⟨equal_trans here.1 there.1, equalItems_trans here.2 there.2⟩
termination_by structural firsts

theorem equalEntries_trans {firsts seconds thirds : List (String × Value)} (here : equalEntries firsts seconds = true)
    (there : equalEntries seconds thirds = true) : equalEntries firsts thirds = true :=
  match firsts with
  | [] => by cases seconds <;> cases thirds <;> simp_all [equalEntries]
  | (key, first) :: firsts => by
    cases seconds <;> cases thirds <;>
      simp only [equalEntries, Bool.and_eq_true, beq_iff_eq, Bool.false_eq_true] at here there ⊢
    exact ⟨⟨here.1.1.trans there.1.1, equal_trans here.1.2 there.1.2⟩, equalEntries_trans here.2 there.2⟩
termination_by structural firsts

end

mutual

/-- Whether a property holds of a value and of every value inside it. -/
def Every (property : Value → Prop) : Value → Prop
  | .list items => property (.list items) ∧ EveryItem property items
  | .tuple items => property (.tuple items) ∧ EveryItem property items
  | .dict entries => property (.dict entries) ∧ EveryEntry property entries
  | value => property value
termination_by structural value => value

def EveryItem (property : Value → Prop) : List Value → Prop
  | [] => True
  | item :: rest => item.Every property ∧ EveryItem property rest
termination_by structural items => items

def EveryEntry (property : Value → Prop) : List (String × Value) → Prop
  | [] => True
  | (_, value) :: rest => value.Every property ∧ EveryEntry property rest
termination_by structural entries => entries

end

section
variable {property : Value → Prop}

theorem Every.here {value : Value} (every : value.Every property) : property value := by
  cases value with
  | list items => exact every.1
  | tuple items => exact every.1
  | dict entries => exact every.1
  | none | bool | int | float | str => exact every

theorem everyItem_iff {items : List Value} : EveryItem property items ↔ ∀ item ∈ items, item.Every property := by
  induction items with
  | nil => simp [EveryItem]
  | cons first rest ih => simp [EveryItem, ih]

theorem everyEntry_iff {entries : List (String × Value)} :
    EveryEntry property entries ↔ ∀ entry ∈ entries, entry.2.Every property := by
  induction entries with
  | nil => simp [EveryEntry]
  | cons first rest ih => simp [EveryEntry, ih]

theorem Every.inside {entries : List (String × Value)} (every : (dict entries).Every property) :
    ∀ entry ∈ entries, entry.2.Every property := everyEntry_iff.mp every.2

theorem Every.candidates {value : Value} (every : value.Every property) :
    ∀ candidate ∈ value.candidates, candidate.Every property := by
  cases value with
  | list items => exact everyItem_iff.mp every.2
  | none | bool | int | float | str | tuple | dict =>
    intro candidate member
    rwa [List.mem_singleton.mp member]

end

def NotNan : Value → Prop
  | .float number => number.isNaN = false
  | _ => True

/-- The entries of a dictionary stand in increasing key order, as those of a configuration do. -/
def KeysInOrder : Value → Prop
  | .dict entries => entries.Pairwise fun left right => left.1 < right.1
  | _ => True

mutual

theorem equal_self_iff (value : Value) : value.equal value = true ↔ value.Every NotNan :=
  match value with
  | .none => by simp [equal, Every, NotNan]
  | .bool value => by simp [equal, Every, NotNan]
  | .int value => by simp [equal, Every, NotNan]
  | .float value => by simp [equal, Every, NotNan, Binary64.beq_self_iff]
  | .str text => by simp [equal, Every, NotNan]
  | .list items => by simp [equal, Every, NotNan, equalItems_self_iff items]
  | .tuple items => by simp [equal, Every, NotNan, equalItems_self_iff items]
  | .dict entries => by simp [equal, Every, NotNan, equalEntries_self_iff entries]
termination_by structural value

theorem equalItems_self_iff (items : List Value) : equalItems items items = true ↔ EveryItem NotNan items :=
  match items with
  | [] => by simp [equalItems, EveryItem]
  | item :: rest => by simp [equalItems, EveryItem, equal_self_iff item, equalItems_self_iff rest]
termination_by structural items

theorem equalEntries_self_iff (entries : List (String × Value)) :
    equalEntries entries entries = true ↔ EveryEntry NotNan entries :=
  match entries with
  | [] => by simp [equalEntries, EveryEntry]
  | (_, value) :: rest => by simp [equalEntries, EveryEntry, equal_self_iff value, equalEntries_self_iff rest]
termination_by structural entries

end

theorem beq_symm {left right : Value} (same : (left == right) = true) : (right == left) = true :=
  (equal_comm right left).trans same

theorem beq_trans {first second third : Value} (here : (first == second) = true)
    (there : (second == third) = true) : (first == third) = true :=
  equal_trans here there

theorem Every.beq_self {value : Value} (every : value.Every NotNan) : (value == value) = true :=
  (equal_self_iff value).mpr every

theorem equalEntries_eq_beq (lefts rights : List (String × Value)) : equalEntries lefts rights = (lefts == rights) := by
  induction lefts generalizing rights with
  | nil => cases rights <;> rfl
  | cons left lefts ih =>
    cases rights with
    | nil => rfl
    | cons right rights =>
      rw [equalEntries, ih]
      rfl

theorem entries_beq_self_iff {entries : List (String × Value)} :
    (entries == entries) = true ↔ ∀ entry ∈ entries, entry.2.Every NotNan := by
  rw [← equalEntries_eq_beq, equalEntries_self_iff, everyEntry_iff]

theorem beq_ofConfig (left right : Config) : (ofConfig left == ofConfig right) = (left == right) :=
  equalEntries_eq_beq left.entries right.entries

/-- Of equal values one holds a dictionary exactly if the other does, and the dictionaries are equal. -/
theorem sameFound_dict? {left right : Value} (same : (left == right) = true) :
    Dict.SameFound left.dict? right.dict? := by
  change left.equal right = true at same
  cases left <;> cases right <;> simp only [equal, Bool.false_eq_true] at same
  case dict.dict lefts rights => exact .some (Dict.ofList_beq ((equalEntries_eq_beq lefts rights).symm.trans same))
  all_goals exact .none

/-- With its keys in order a dictionary is a value of its own. -/
theorem eq_ofConfig_of_dict? {value : Value} {dict : Config} (found : value.dict? = some dict)
    (ordered : value.Every KeysInOrder) : value = ofConfig dict := by
  cases value with
  | dict entries =>
    have same : Dict.ofList entries = ⟨entries, ordered.here⟩ := Dict.ofList_entries ⟨entries, ordered.here⟩
    cases (Option.some.inj found).symm.trans same
    rfl
  | none | bool | int | float | str | list | tuple => cases found

end Value

namespace Config

/-- Whether a property holds of all values in a configuration. -/
def Every (property : Value → Prop) (config : Config) : Prop := ∀ entry ∈ config.entries, entry.2.Every property

theorem Every.of_get? {property : Value → Prop} {config : Config} (every : config.Every property) {key : String}
    {value : Value} (held : config.get? key = some value) : value.Every property :=
  every _ (Dict.get?_eq_some_iff.mp held)

theorem get?_of_bind_dict? {config dict : Config} {key : String}
    (found : (config.get? key).bind Value.dict? = some dict) (ordered : config.Every Value.KeysInOrder) :
    config.get? key = some (.ofConfig dict) := by
  obtain ⟨value, held, inside⟩ := Option.bind_eq_some_iff.mp found
  rw [held, Value.eq_ofConfig_of_dict? inside (ordered.of_get? held)]

theorem sameFound_self {config : Config} (proper : config.Every Value.NotNan) (key : String) :
    Dict.SameFound (config.get? key) (config.get? key) := by
  cases held : config.get? key with
  | none => exact .none
  | some value => exact .some (proper.of_get? held).beq_self

end Config
end ParamSweep
