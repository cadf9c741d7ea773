import ParamSweep.Proofs.PartitionLevels

/-! A partition loses nothing and keeps nothing shared: what is common, merged with what remains of a configuration,
is the configuration again, and what remains of all has no entry in common. -/

namespace ParamSweep

namespace Value

mutual

/-- A value over what a key holds already. Only a dictionary can be over another value, which is one too. -/
def over? : Value → Option Value → Option Value
  | value, Option.none => some value
  | .dict entries, some (.dict below) => (overEntries? entries (Dict.ofList below)).map ofConfig
  | _, some _ => Option.none
termination_by structural value => value

def overEntries? : List (String × Value) → Config → Option Config
  | [], below => some below
  | (key, value) :: rest, below => do
    let whole ← value.over? (below.get? key)
    overEntries? rest (below.insert key whole)
termination_by structural entries => entries

end

theorem over?_none (value : Value) : value.over? Option.none = some value := by
  cases value <;> rfl

theorem exists_overEntries {entries : List (String × Value)} (distinct : (entries.map Prod.fst).Nodup) {below : Config}
    (fits : ∀ entry ∈ entries, ∃ whole, entry.2.over? (below.get? entry.1) = some whole) :
    ∃ result, overEntries? entries below = some result ∧ ∀ key, result.get? key =
      (entries.lookup key).elim (below.get? key) (·.over? (below.get? key)) := by
  induction entries generalizing below with
  | nil => exact ⟨below, rfl, fun _ => rfl⟩
  | cons first rest ih =>
    obtain ⟨absent, distinct⟩ := List.nodup_cons.mp distinct
    obtain ⟨whole, placed⟩ := fits first List.mem_cons_self
    have elsewhere {key : String} (other : key ≠ first.1) : (below.insert first.1 whole).get? key = below.get? key :=
      Dict.get?_insert_of_ne other below whole
    have later : ∀ entry ∈ rest, ∃ whole', entry.2.over? ((below.insert first.1 whole).get? entry.1) = some whole' := by
      intro entry member
      rw [elsewhere fun same => absent (same ▸ List.mem_map_of_mem member)]
      exact fits entry (List.mem_cons_of_mem _ member)
    obtain ⟨result, merged, found⟩ := ih distinct later
    refine ⟨result, ?_, fun key => ?_⟩
    · rw [overEntries?, placed]
      exact merged
    · rw [found, List.lookup_cons]
      by_cases same : key = first.1
      · have missing : rest.lookup key = Option.none := List.lookup_eq_none_iff.mpr fun entry member =>
          bne_iff_ne.mpr fun equal => absent (same ▸ equal ▸ List.mem_map_of_mem member)
        rw [missing, same]
        simp [placed]
      · rw [elsewhere same, beq_false_of_ne same]

end Value

namespace Config

/-- Deep merge: dictionaries under one key are merged in their turn. It fails if another value is under a key of
both configurations. -/
def merge? (config other : Config) : Option Config := Value.overEntries? other.entries config

theorem exists_merge {config other : Config}
    (fits : ∀ key value, other.get? key = some value → ∃ whole, value.over? (config.get? key) = some whole) :
    ∃ whole, config.merge? other = some whole ∧ ∀ key, whole.get? key =
      (other.get? key).elim (config.get? key) (·.over? (config.get? key)) :=
  Value.exists_overEntries other.nodup_keys fun entry member =>
    fits entry.1 entry.2 (Dict.get?_eq_some_iff.mpr member)

theorem over?_ofConfig (config other : Config) :
    (Value.ofConfig other).over? (some (.ofConfig config)) = (config.merge? other).map .ofConfig := by
  rw [Value.ofConfig, Value.ofConfig, Value.over?, Dict.ofList_entries]
  rfl

/-- How what is common and what remains make up what was held under a key. -/
inductive Rejoins : Option Value → Option Value → Option Value → Prop where
  | common {value found : Value} (same : (value == found) = true) : Rejoins (some value) none (some found)
  | rest {held found : Option Value} (same : Dict.SameFound held found) : Rejoins none held found
  | both {common rest whole : Config} {found : Value} (merged : common.merge? rest = some whole)
      (same : (Value.ofConfig whole == found) = true) :
      Rejoins (some (.ofConfig common)) (some (.ofConfig rest)) (some found)

theorem Rejoins.over? {common rest held : Option Value} (rejoins : Rejoins common rest held) :
    (∀ value, rest = some value → ∃ whole, value.over? common = some whole) ∧
      Dict.SameFound (rest.elim common (·.over? common)) held := by
  cases rejoins with
  | common same => exact ⟨by simp, .some same⟩
  | rest same =>
    refine ⟨fun value _ => ⟨value, Value.over?_none value⟩, ?_⟩
    cases rest with
    | none => exact same
    | some value =>
      rw [Option.elim_some, Value.over?_none]
      exact same
  | both merged same =>
    have placed := (over?_ofConfig _ _).trans (congrArg (Option.map Value.ofConfig) merged)
    refine ⟨fun value equal => ⟨_, Option.some.inj equal ▸ placed⟩, ?_⟩
    rw [Option.elim_some, placed]
    exact .some same

theorem exists_merge_of_rejoins {common rest config : Config}
    (rejoins : ∀ key, Rejoins (common.get? key) (rest.get? key) (config.get? key)) :
    ∃ whole, common.merge? rest = some whole ∧ (whole == config) = true := by
  obtain ⟨whole, merged, found⟩ := exists_merge fun key => (rejoins key).over?.1
  refine ⟨whole, merged, Dict.beq_iff_get?.mpr fun key => ?_⟩
  rw [found]
  exact (rejoins key).over?.2

end Config

namespace Partition
open Config
open Value (NotNan KeysInOrder)

/-- What remains of a configuration and what is common hold together what it holds. -/
theorem get?_eq_of_slot {levels : Nat} {default : Option Config} {configs : List Config} {key : String}
    {common : Option Value} {held : List (Option Value)}
    (slots : slot key (toLevel levels default configs) = (common, held)) {index : Nat} {rest : Config}
    (there : (toLevel levels default configs).varied[index]? = some rest) :
    (toLevel levels default configs).common.get? key = common ∧ held[index]? = some (rest.get? key) := by
  refine ⟨get?_common_of_slot slots, ?_⟩
  cases slots
  rw [column, List.getElem?_map, there]
  rfl

theorem exists_dict_at {configs dicts : List Config} {key : String} (inside : nested? key configs = some dicts)
    {index : Nat} {config : Config} (here : configs[index]? = some config) (ordered : config.Every KeysInOrder) :
    ∃ dict, dicts[index]? = some dict ∧ config.get? key = some (.ofConfig dict) := by
  obtain ⟨dict, found, bound⟩ := Outcome.exists_result_at (nested?_eq_some_iff.mp inside) here
  exact ⟨dict, found, get?_of_bind_dict? bound ordered⟩

/-- A property of all values in configurations is one of all values in the dictionaries that they hold. -/
theorem every_of_nested {property : Value → Prop} {configs dicts : List Config} {key : String}
    (inside : nested? key configs = some dicts) (ordered : ∀ config ∈ configs, config.Every KeysInOrder)
    (every : ∀ config ∈ configs, config.Every property) : ∀ dict ∈ dicts, dict.Every property := by
  intro dict member
  obtain ⟨config, among, bound⟩ := Outcome.exists_item_of_mem (nested?_eq_some_iff.mp inside) member
  exact ((every config among).of_get? (get?_of_bind_dict? bound (ordered config among))).inside

theorem rejoins_toLevel (levels : Nat) {default : Option Config} {configs : List Config}
    (numbers : ∀ config ∈ configs, config.Every NotNan) (ordered : ∀ config ∈ configs, config.Every KeysInOrder)
    {index : Nat} {config rest : Config} (here : configs[index]? = some config)
    (there : (toLevel levels default configs).varied[index]? = some rest) (key : String) :
    Rejoins ((toLevel levels default configs).common.get? key) (rest.get? key) (config.get? key) := by
  induction levels using Nat.strongRecOn generalizing default configs index config rest key with
  | ind levels ih =>
    have member := List.mem_of_getElem? here
    have proper := numbers config member
    cases fate (List.ne_nil_of_mem member) levels default key with
    | shared value kept held =>
      obtain ⟨common, remains⟩ := get?_eq_of_slot held there
      obtain ⟨found, holds, same⟩ := heldByAll_of_shared kept (List.mem_append_right _ member) proper config
        (List.mem_append_right _ member)
      rw [List.getElem?_map, here] at remains
      rw [common, holds, ← Option.some.inj remains]
      exact .common (Value.beq_symm same)
    | apart unshared _ held =>
      obtain ⟨common, remains⟩ := get?_eq_of_slot held there
      rw [column, List.getElem?_map, here] at remains
      rw [common, ← Option.some.inj remains]
      exact .rest (sameFound_self proper key)
    | nested below dicts deeper unshared inside held =>
      obtain ⟨common, remains⟩ := get?_eq_of_slot held there
      obtain ⟨dict, found, holds⟩ := exists_dict_at inside here (ordered config member)
      rw [List.getElem?_map] at remains
      obtain ⟨part, inRests, bound⟩ := Option.map_eq_some_iff.mp remains
      obtain ⟨whole, merged, same⟩ := exists_merge_of_rejoins (ih below (by omega) (every_of_nested inside ordered numbers)
        (every_of_nested inside ordered ordered) found inRests)
      rw [common, holds, ← bound]
      exact .both merged ((Value.beq_ofConfig whole dict).trans same)

theorem exists_rest_of_mem (levels : Nat) (default : Option Config) {configs : List Config} {config : Config}
    (member : config ∈ configs) : ∃ (index : Nat) (rest : Config),
      configs[index]? = some config ∧ (toLevel levels default configs).varied[index]? = some rest := by
  obtain ⟨index, here⟩ := List.mem_iff_getElem?.mp member
  have bound : index < (toLevel levels default configs).varied.length := by
    rw [length_toLevel]
    exact (List.getElem?_eq_some_iff.mp here).1
  exact ⟨index, _, here, List.getElem?_eq_getElem bound⟩

/-- A key is on both sides of a partition only where there was a level to go down. -/
theorem dicts_of_both {levels : Nat} {default : Option Config} {configs : List Config} {index : Nat}
    {config rest : Config} (here : configs[index]? = some config)
    (there : (toLevel levels default configs).varied[index]? = some rest) {key : String} {left right : Value}
    (common : (toLevel levels default configs).common.get? key = some left) (remains : rest.get? key = some right) :
    0 < levels ∧ (∃ dict, left = .ofConfig dict) ∧ ∃ dict, right = .ofConfig dict := by
  cases fate (List.ne_nil_of_mem (List.mem_of_getElem? here)) levels default key with
  | shared value kept held =>
    obtain ⟨-, after⟩ := get?_eq_of_slot held there
    rw [List.getElem?_map, here, remains] at after
    cases after
  | apart unshared _ held =>
    obtain ⟨before, -⟩ := get?_eq_of_slot held there
    cases common.symm.trans before
  | nested below dicts deeper unshared inside held =>
    obtain ⟨before, after⟩ := get?_eq_of_slot held there
    rw [List.getElem?_map, remains] at after
    obtain ⟨part, -, bound⟩ := Option.map_eq_some_iff.mp after
    exact ⟨by omega, ⟨_, Option.some.inj (common.symm.trans before)⟩, ⟨part, (Option.some.inj bound).symm⟩⟩

/-- Equal configurations that share nothing hold nothing. -/
theorem get?_eq_none_of_equal {rests : List Config} {value : Value}
    (apart : ∀ key found, ¬HeldByAll rests key found) (equal : ∀ rest ∈ rests, (Value.ofConfig rest == value) = true)
    {rest : Config} (member : rest ∈ rests) (key : String) : rest.get? key = none := by
  apply Option.eq_none_iff_forall_ne_some.mpr
  intro found holds
  refine apart key found fun other among => ?_
  have same := Value.beq_trans (equal other among) (Value.beq_symm (equal rest member))
  have there := Dict.beq_iff_get?.mp ((Value.beq_ofConfig other rest).symm.trans same) key
  rw [holds] at there
  generalize other.get? key = held at there
  cases there with
  | some same => exact ⟨_, rfl, same⟩

/-- Where nothing remains, what is common is all that there was. -/
theorem common_beq_of_empty (levels : Nat) {default : Option Config} {configs : List Config}
    (numbers : ∀ config ∈ configs, config.Every NotNan) (ordered : ∀ config ∈ configs, config.Every KeysInOrder)
    (empty : ∀ rest ∈ (toLevel levels default configs).varied, ∀ key, rest.get? key = none) {config : Config}
    (member : config ∈ configs) : ((toLevel levels default configs).common == config) = true := by
  obtain ⟨index, rest, here, there⟩ := exists_rest_of_mem levels default member
  apply Dict.beq_iff_get?.mpr
  intro key
  have rejoined := (rejoins_toLevel levels numbers ordered here there key).over?.2
  rwa [empty rest (List.mem_of_getElem? there) key] at rejoined

theorem equal_of_heldByAll {partition : Partition} {key : String} {common : Option Value} {rests : List Config}
    (slots : slot key partition = (common, rests.map fun rest => some (.ofConfig rest))) {value : Value}
    (all : HeldByAll partition.varied key value) : ∀ rest ∈ rests, (Value.ofConfig rest == value) = true := by
  intro rest member
  have inColumn : some (Value.ofConfig rest) ∈ column key partition.varied := by
    rw [show column key partition.varied = _ from congrArg Prod.snd slots]
    exact List.mem_map_of_mem member
  obtain ⟨config, among, holds⟩ := List.mem_map.mp inColumn
  obtain ⟨found, there, same⟩ := all config among
  cases holds.symm.trans there
  exact same

/-- Without a default nothing that remains is held by all. -/
theorem not_heldByAll_toLevel (levels : Nat) {configs : List Config} (present : configs ≠ [])
    (numbers : ∀ config ∈ configs, config.Every NotNan) (ordered : ∀ config ∈ configs, config.Every KeysInOrder)
    (key : String) (value : Value) : ¬HeldByAll (toLevel levels none configs).varied key value := by
  induction levels using Nat.strongRecOn generalizing configs key value with
  | ind levels ih =>
    intro all
    cases fate present levels none key with
    | shared kept shared held =>
      obtain ⟨config, member⟩ := List.exists_mem_of_ne_nil _ present
      obtain ⟨index, rest, here, there⟩ := exists_rest_of_mem levels none member
      obtain ⟨-, remains⟩ := get?_eq_of_slot held there
      obtain ⟨found, holds, -⟩ := all rest (List.mem_of_getElem? there)
      rw [List.getElem?_map, here, holds] at remains
      cases remains
    | apart unshared _ held =>
      have before : HeldByAll configs key value := by
        intro config member
        obtain ⟨index, rest, here, there⟩ := exists_rest_of_mem levels none member
        obtain ⟨-, remains⟩ := get?_eq_of_slot held there
        rw [column, List.getElem?_map, here, Option.map_some, Option.some.injEq] at remains
        rw [remains]
        exact all rest (List.mem_of_getElem? there)
      obtain ⟨kept, shared⟩ := exists_shared_of_heldByAll present before
      cases unshared.symm.trans shared
    | nested below dicts deeper unshared inside held =>
      -- One level down nothing is left, so all the dictionaries are what they have in common: the key is shared.
      have numbersBelow := every_of_nested inside ordered numbers
      have orderedBelow := every_of_nested inside ordered ordered
      have apart := ih below (by omega) (ne_nil_of_nested inside present) numbersBelow orderedBelow
      have before : HeldByAll configs key (.ofConfig (toLevel below none dicts).common) := by
        intro config member
        obtain ⟨index, here⟩ := List.mem_iff_getElem?.mp member
        obtain ⟨dict, found, holds⟩ := exists_dict_at inside here (ordered config member)
        have same := common_beq_of_empty below numbersBelow orderedBelow
          (fun part among => get?_eq_none_of_equal apart (equal_of_heldByAll held all) among) (List.mem_of_getElem? found)
        exact ⟨_, holds, Value.beq_symm ((Value.beq_ofConfig _ dict).trans same)⟩
      obtain ⟨kept, shared⟩ := exists_shared_of_heldByAll present before
      cases unshared.symm.trans shared

/-- Nothing is lost and nothing shared remains. Only dictionaries are on both sides of a partition, and without
levels to go down nothing is. -/
theorem of_merges {configs : List Config} (numbers : ∀ config ∈ configs, config.Every NotNan)
    (ordered : ∀ config ∈ configs, config.Every KeysInOrder) (default : Option Config) (recursive : Bool) :
    (of recursive default configs).varied.length = configs.length ∧
    (∀ (index : Nat) (config rest : Config), configs[index]? = some config →
      (of recursive default configs).varied[index]? = some rest →
        (∃ whole, (of recursive default configs).common.merge? rest = some whole ∧ (whole == config) = true) ∧
        ∀ key left right, (of recursive default configs).common.get? key = some left → rest.get? key = some right →
          recursive = true ∧ (∃ dict, left = .ofConfig dict) ∧ ∃ dict, right = .ofConfig dict) ∧
    (recursive = false → configs ≠ [] → ∀ key, key ∈ (of recursive default configs).common.keys ↔
      ∃ value, HeldByAll (default.toList ++ configs) key value) ∧
    (default = none → configs ≠ [] → ∀ key value, ¬HeldByAll (of recursive default configs).varied key value) := by
  refine ⟨length_toLevel _ default configs, ?_, ?_, ?_⟩
  · intro index config rest here there
    have rejoins := rejoins_toLevel _ numbers ordered here there
    refine ⟨exists_merge_of_rejoins rejoins, fun key left right common remains => ?_⟩
    obtain ⟨deeper, dicts⟩ := dicts_of_both here there common remains
    refine ⟨?_, dicts⟩
    cases recursive with
    | true => rfl
    | false => exact absurd deeper (Nat.lt_irrefl 0)
  · rintro rfl present key
    rw [Dict.mem_keys_iff]
    constructor
    · rintro ⟨value, kept⟩
      obtain ⟨config, member⟩ := List.exists_mem_of_ne_nil _ present
      exact ⟨value, heldByAll_of_shared kept (List.mem_append_right _ member) (numbers config member)⟩
    · rintro ⟨value, held⟩
      exact exists_shared_of_heldByAll (List.append_ne_nil_of_right_ne_nil _ present) held
  · rintro rfl present key value
    exact not_heldByAll_toLevel _ present numbers ordered key value

def nestedPair : List Config :=
  [⟨[("f", .dict [("a", .dict [("x", .int 1), ("y", .int 2)]), ("b", .int 1)]), ("q", .int 1)], by decide⟩,
    ⟨[("e", .int 1), ("f", .dict [("a", .dict [("x", .int 1), ("y", .int 1)]), ("b", .int 1)]), ("q", .int 1)],
      by decide⟩]

theorem of_merges_nested_pair :
    ∃ rest whole, (of true none nestedPair).varied[1]? = some rest ∧
      (of true none nestedPair).common.merge? rest = some whole ∧
      rest.keys = ["e", "f"] ∧ whole.keys = ["e", "f", "q"] ∧ (of true none nestedPair).common.keys = ["f", "q"] := by
  have numbers : ∀ config ∈ nestedPair, config.Every NotNan := by
    simp only [nestedPair, Config.Every, List.forall_mem_cons, Value.Every, Value.EveryEntry, NotNan]
    simp
  have ordered : ∀ config ∈ nestedPair, config.Every KeysInOrder := by
    simp only [nestedPair, Config.Every, List.forall_mem_cons, Value.Every, Value.EveryEntry, KeysInOrder,
      List.not_mem_nil, false_implies, implies_true]
    decide
  obtain ⟨-, merges, -⟩ := of_merges numbers ordered none true
  obtain ⟨⟨whole, merged, same⟩, -⟩ := merges 1 _ _ rfl rfl
  refine ⟨_, whole, rfl, merged, ?_, ?_, ?_⟩
  · rfl
  · cases merged
    rfl
  · rfl

end Partition
end ParamSweep
