import ParamSweep.Proofs.PartitionLevels

/-! What a partition with defaults reports as shared. The default takes part in the first level only: further down an
entry is common as soon as all configurations have it, whatever the default holds there. -/

namespace ParamSweep

namespace Value

theorem nestingOfEntries_le_iff {entries : List (String × Value)} {bound : Nat} :
    nestingOfEntries entries ≤ bound ↔ ∀ entry ∈ entries, entry.2.nesting ≤ bound := by
  induction entries with
  | nil => simp [nestingOfEntries]
  | cons first rest ih => rw [nestingOfEntries, Nat.max_le, List.forall_mem_cons, ih]

theorem nesting_dict? {value : Value} {dict : Config} (inside : value.dict? = some dict) :
    nestingOfEntries dict.entries < value.nesting := by
  cases value with
  | dict entries =>
    cases inside
    apply Nat.lt_succ_of_le
    apply nestingOfEntries_le_iff.mpr
    intro entry member
    exact nestingOfEntries_le_iff.mp (Nat.le_refl _) entry (Dict.mem_of_get?_ofList (Dict.get?_eq_some_iff.mpr member))
  | none | bool | int | float | str | list | tuple => cases inside

end Value

namespace Config

/-- The value at a path of keys, through nested dictionaries. -/
def reach? : Config → String → List String → Option Value
  | config, key, [] => config.get? key
  | config, key, next :: path => ((config.get? key).bind Value.dict?).bind (·.reach? next path)

section
variable {config other : Config} {key : String}

theorem reach?_congr (same : config.get? key = other.get? key) (path : List String) :
    config.reach? key path = other.reach? key path := by
  cases path <;> simp only [reach?, same]

theorem reach?_of_absent (absent : config.get? key = none) (path : List String) : config.reach? key path = none := by
  cases path <;> simp only [reach?, absent, Option.bind_none]

theorem reach?_inside {dict : Config} (inside : (config.get? key).bind Value.dict? = some dict) (next : String)
    (path : List String) : config.reach? key (next :: path) = dict.reach? next path := by
  simp only [reach?, inside, Option.bind_some]

theorem bind_dict?_ofConfig {dict : Config} (held : config.get? key = some (.ofConfig dict)) :
    (config.get? key).bind Value.dict? = some dict := by
  rw [held]
  exact congrArg some (Dict.ofList_entries dict)

theorem sameFound_reach? (same : Dict.SameFound (config.get? key) (other.get? key)) (path : List String) :
    Dict.SameFound (config.reach? key path) (other.reach? key path) := by
  induction path generalizing config other key with
  | nil => exact same
  | cons next path ih =>
    have inside := same.bind Value.sameFound_dict?
    exact inside.bind fun dicts => ih (Dict.beq_iff_get?.mp dicts next)

theorem reach?_of_equal {value held : Value} (equal : (held == value) = true) (there : config.get? key = some held)
    (here : other.get? key = some value) {path : List String} {last : Value}
    (reached : other.reach? key path = some last) :
    ∃ found, config.reach? key path = some found ∧ (found == last) = true := by
  have follows : Dict.SameFound (config.get? key) (other.get? key) := by
    rw [there, here]
    exact .some equal
  have both := sameFound_reach? follows path
  rw [reached] at both
  generalize config.reach? key path = found at both
  cases both with
  | some equal => exact ⟨_, rfl, equal⟩

end

/-- Whether a configuration has a value at a path, or an equal one. -/
def Holds (config : Config) (key : String) (path : List String) (value : Value) : Prop :=
  ∃ found, config.reach? key path = some found ∧ (found = value ∨ (found == value) = true)

/-- Whether configurations share the value that the first of them has at a path. -/
def SharedAt (configs : List Config) (key : String) (path : List String) (value : Value) : Prop :=
  match configs.map (·.reach? key path) with
  | [] => False
  | first :: others => first = some value ∧ ∀ other ∈ others, ∃ found, other = some found ∧ (found == value) = true

section
variable {configs : List Config} {key : String} {path : List String} {value : Value}

theorem SharedAt.exists_reached (all : SharedAt configs key path value) {config : Config} (member : config ∈ configs) :
    ∃ found, config.reach? key path = some found := by
  cases configs with
  | nil => cases member
  | cons first rest =>
    obtain ⟨here, later⟩ := all
    rcases List.mem_cons.mp member with rfl | among
    · exact ⟨value, here⟩
    · obtain ⟨found, there, -⟩ := later _ (List.mem_map_of_mem among)
      exact ⟨found, there⟩

theorem SharedAt.exists_holder (all : SharedAt configs key path value) :
    ∃ config ∈ configs, config.reach? key path = some value := by
  cases configs with
  | nil => cases all
  | cons first rest => exact ⟨first, List.mem_cons_self, all.1⟩

theorem get?_shared_of_sharedAt (all : SharedAt configs key [] value) :
    (sharedByAll configs).get? key = some value := by
  cases configs with
  | nil => cases all
  | cons first rest =>
    apply get?_foldl_shared_iff.mpr
    exact ⟨all.1, fun other member => all.2 _ (List.mem_map_of_mem member)⟩

/-- Below a key that is shared everything is. -/
theorem sharedAt_iff_of_shared {kept : Value} (shared : (sharedByAll configs).get? key = some kept) :
    SharedAt configs key path value ↔ (sharedByAll configs).reach? key path = some value := by
  cases configs with
  | nil => cases shared
  | cons first rest =>
    obtain ⟨here, later⟩ := get?_foldl_shared_iff.mp shared
    have same : (sharedByAll (first :: rest)).reach? key path = first.reach? key path :=
      reach?_congr (shared.trans here.symm) path
    rw [same]
    refine ⟨fun all => all.1, fun reached => ⟨reached, fun other member => ?_⟩⟩
    obtain ⟨config, among, rfl⟩ := List.mem_map.mp member
    obtain ⟨found, holds, equal⟩ := later config among
    exact reach?_of_equal equal holds here reached

end

end Config

namespace Partition
open Config

section
variable {configs dicts : List Config} {key : String} {path : List String} {value : Value}

theorem sharedAt_inside_iff {next : String} (inside : nested? key configs = some dicts) :
    SharedAt configs key (next :: path) value ↔ SharedAt dicts next path value := by
  have same : configs.map (·.reach? key (next :: path)) = dicts.map (·.reach? next path) := by
    rw [← List.forall₂_eq_eq_eq, List.forall₂_map_left_iff, List.forall₂_map_right_iff]
    exact (nested?_eq_some_iff.mp inside).imp fun _ _ found => reach?_inside found next path
  unfold SharedAt
  rw [same]

theorem exists_nested (dicts : ∀ config ∈ configs, ∃ dict, (config.get? key).bind Value.dict? = some dict) :
    ∃ dicts, nested? key configs = some dicts := by
  simp only [nested?_eq_some_iff]
  induction configs with
  | nil => exact ⟨[], .nil⟩
  | cons first rest ih =>
    obtain ⟨dict, found⟩ := dicts first List.mem_cons_self
    obtain ⟨others, pairs⟩ := ih fun config member => dicts config (List.mem_cons_of_mem _ member)
    exact ⟨dict :: others, .cons found pairs⟩

theorem exists_nested_of_sharedAt {next : String} (all : SharedAt configs key (next :: path) value) :
    ∃ dicts, nested? key configs = some dicts := by
  apply exists_nested
  intro config member
  obtain ⟨found, reached⟩ := all.exists_reached member
  obtain ⟨dict, inside, -⟩ := Option.bind_eq_some_iff.mp reached
  exact ⟨dict, inside⟩

theorem levelsOf_le_iff {bound : Nat} :
    levelsOf configs ≤ bound ↔ ∀ config ∈ configs, Value.nestingOfEntries config.entries ≤ bound := by
  have general (depths : List Nat) (start : Nat) :
      depths.foldl max start ≤ bound ↔ start ≤ bound ∧ ∀ depth ∈ depths, depth ≤ bound := by
    induction depths generalizing start with
    | nil => simp
    | cons first rest ih => rw [List.foldl_cons, ih, Nat.max_le, List.forall_mem_cons, and_assoc]
  simp [levelsOf, general]

theorem levelsOf_inside (inside : nested? key configs = some dicts) (present : configs ≠ []) :
    levelsOf dicts < levelsOf configs := by
  have pairs := nested?_eq_some_iff.mp inside
  have lower {config dict : Config} (member : config ∈ configs)
      (found : (config.get? key).bind Value.dict? = some dict) :
      Value.nestingOfEntries dict.entries < levelsOf configs := by
    obtain ⟨value, held, holds⟩ := Option.bind_eq_some_iff.mp found
    apply Nat.lt_of_lt_of_le (Value.nesting_dict? holds)
    exact Value.nestingOfEntries_le_iff.mp (levelsOf_le_iff.mp (Nat.le_refl _) config member) _
      (Dict.get?_eq_some_iff.mp held)
  obtain ⟨config, member⟩ := List.exists_mem_of_ne_nil _ present
  obtain ⟨dict, -, found⟩ := Outcome.exists_result_of_mem pairs member
  have positive := lower member found
  have bound : levelsOf dicts ≤ levelsOf configs - 1 := by
    apply levelsOf_le_iff.mpr
    intro dict among
    obtain ⟨config, member, found⟩ := Outcome.exists_item_of_mem pairs among
    have := lower member found
    omega
  omega

/-- Without a default, and with levels for all dictionaries, exactly the entries that all share are common. -/
theorem reach?_common_iff (levels : Nat) (present : configs ≠ []) (deep : levelsOf configs ≤ levels)
    (plain : value.dict? = none) :
    (toLevel levels none configs).common.reach? key path = some value ↔ SharedAt configs key path value := by
  induction levels using Nat.strongRecOn generalizing configs key path with
  | ind levels ih =>
    cases fate present levels none key with
    | shared kept shared held =>
      rw [reach?_congr ((get?_common_of_slot held).trans shared.symm) path]
      exact (sharedAt_iff_of_shared shared).symm
    | apart unshared flat held =>
      rw [reach?_of_absent (get?_common_of_slot held) path]
      refine ⟨nofun, fun all => ?_⟩
      cases path with
      | nil => cases unshared.symm.trans (get?_shared_of_sharedAt all)
      | cons next path =>
        obtain ⟨dicts, inside⟩ := exists_nested_of_sharedAt all
        have lower := levelsOf_inside inside present
        rcases flat with rfl | unnested
        · omega
        · cases unnested.symm.trans inside
    | nested below dicts deeper unshared inside held =>
      have lower := levelsOf_inside inside present
      have common := get?_common_of_slot held
      cases path with
      | nil =>
        constructor
        · intro reached
          cases common.symm.trans reached
          cases plain
        · intro all
          cases unshared.symm.trans (get?_shared_of_sharedAt all)
      | cons next path =>
        rw [reach?_inside (bind_dict?_ofConfig common), sharedAt_inside_iff inside]
        exact ih below (by omega) (ne_nil_of_nested inside present) (by omega)

/-- An entry that is common is in the default, or below a key that was partitioned without it. -/
theorem holds_of_common {default : Config} (levels : Nat) (deep : 0 < levels → levelsOf configs ≤ levels)
    (plain : value.dict? = none)
    (reached : (toLevel levels (some default) configs).common.reach? key path = some value) :
    default.Holds key path value ∨
      0 < levels ∧ ∃ next rest, path = next :: rest ∧ SharedAt configs key path value := by
  by_cases present : configs = []
  · subst present
    have onlyDefault : (toLevel levels (some default) []).common = default := by
      cases levels <;> rfl
    exact .inl ⟨value, onlyDefault ▸ reached, .inl rfl⟩
  cases fate present levels (some default) key with
  | shared kept shared held =>
    left
    obtain ⟨inDefault, -⟩ := get?_foldl_shared_iff.mp shared
    rw [reach?_congr ((get?_common_of_slot held).trans inDefault.symm) path] at reached
    exact ⟨value, reached, .inl rfl⟩
  | apart _ _ held =>
    rw [reach?_of_absent (get?_common_of_slot held) path] at reached
    cases reached
  | nested below dicts deeper _ inside held =>
    right
    have common := get?_common_of_slot held
    have lower := levelsOf_inside inside present
    cases path with
    | nil =>
      cases common.symm.trans reached
      cases plain
    | cons next rest =>
      rw [reach?_inside (bind_dict?_ofConfig common)] at reached
      refine ⟨by omega, next, rest, rfl, (sharedAt_inside_iff inside).mpr ?_⟩
      exact (reach?_common_iff below (ne_nil_of_nested inside present) (by omega) plain).mp reached

theorem holds_or_common {default : Config} (levels : Nat) (deep : levelsOf configs ≤ levels) {next : String}
    (plain : value.dict? = none) (all : SharedAt configs key (next :: path) value) :
    default.Holds key (next :: path) value ∨
      (toLevel levels (some default) configs).common.reach? key (next :: path) = some value := by
  obtain ⟨dicts, inside⟩ := exists_nested_of_sharedAt all
  obtain ⟨config, member, reached⟩ := all.exists_holder
  have present := List.ne_nil_of_mem member
  have lower := levelsOf_inside inside present
  cases fate present levels (some default) key with
  | shared kept shared held =>
    left
    obtain ⟨inDefault, later⟩ := get?_foldl_shared_iff.mp shared
    obtain ⟨found, there, equal⟩ := later config member
    obtain ⟨last, inside, same⟩ := reach?_of_equal (Value.beq_symm equal) inDefault there reached
    exact ⟨last, inside, .inr same⟩
  | apart _ flat _ =>
    rcases flat with rfl | unnested
    · omega
    · cases unnested.symm.trans inside
  | nested below dicts' deeper _ inside' held =>
    right
    cases inside.symm.trans inside'
    rw [reach?_inside (bind_dict?_ofConfig (get?_common_of_slot held))]
    exact (reach?_common_iff below (ne_nil_of_nested inside present) (by omega) plain).mpr
      ((sharedAt_inside_iff inside).mp all)

/-- Nothing but entries of the default is common exactly if the default has all that the configurations share below
their keys; without levels to go down this is always so. -/
theorem common_within_default_iff (default : Config) (recursive : Bool) (configs : List Config) :
    (∀ key path value, (of recursive (some default) configs).common.reach? key path = some value →
      value.dict? = none → default.Holds key path value) ↔
    (recursive = true → ∀ key next path value, value.dict? = none → SharedAt configs key (next :: path) value →
      default.Holds key (next :: path) value) := by
  constructor
  · rintro within rfl key next path value plain all
    rcases holds_or_common (levelsOf configs) (Nat.le_refl _) plain all with holds | reached
    · exact holds
    · exact within key (next :: path) value reached plain
  · intro below key path value reached plain
    cases recursive with
    | false =>
      rcases holds_of_common 0 (absurd · (Nat.lt_irrefl 0)) plain reached with holds | ⟨impossible, -⟩
      · exact holds
      · exact absurd impossible (Nat.lt_irrefl 0)
    | true =>
      rcases holds_of_common (levelsOf configs) (fun _ => Nat.le_refl _) plain reached with
        holds | ⟨-, next, rest, rfl, all⟩
      · exact holds
      · exact below rfl key next rest value plain all

end

def insidePair : List Config :=
  [⟨[("a", .dict [("y", .int 1)])], by decide⟩, ⟨[("a", .dict [("y", .int 1), ("z", .int 3)])], by decide⟩]

def insideDefault : Config := ⟨[("a", .dict [("y", .int 2)])], by decide⟩

theorem common_within_default_fails :
    ¬∀ key path value, (of true (some insideDefault) insidePair).common.reach? key path = some value →
      value.dict? = none → insideDefault.Holds key path value := by
  intro within
  obtain ⟨found, reached, same⟩ := within "a" ["y"] (.int 1) rfl rfl
  have two : found = .int 2 := Option.some.inj reached.symm
  rcases same with same | same
  · cases two.symm.trans same
  · rw [two] at same
    cases same

end Partition
end ParamSweep
