import ParamSweep.Proofs.AxisOrder
import ParamSweep.Proofs.SweepRepeats

/-! Where a combination stands. Its position, read as a number with a digit for each axis and the last axis lowest,
says which candidate it takes of each. -/

namespace ParamSweep.Config

theorem spread_append (front back : List Axis) : spread (front ++ back) = spread front * spread back := by
  induction front with
  | nil => simp [spread]
  | cons axis rest ih => simp only [List.cons_append, spread, ih, Nat.mul_assoc]

/-- The choices of an axis lie between those of the axes before it and those of the axes behind it. -/
theorem spread_around {axes : List Axis} {place : Nat} {axis : Axis} (found : axes[place]? = some axis) :
    spread axes = spread (axes.take place) * axis.2.length * spread (axes.drop (place + 1)) := by
  obtain ⟨inside, rfl⟩ := List.getElem?_eq_some_iff.mp found
  calc
    spread axes = spread (axes.take place ++ axes.drop place) := by rw [List.take_append_drop]
    _ = spread (axes.take place) * spread (axes.drop place) := spread_append _ _
    _ = _ := by rw [List.drop_eq_getElem_cons inside, spread, Nat.mul_assoc]

/-- Of lists of one length that follow each other, an index says which it falls into and where. -/
theorem getElem?_flatMap_of_length {α β : Type} {parts : α → List β} {size : Nat} (positive : 0 < size)
    (sized : ∀ item, (parts item).length = size) (items : List α) (index : Nat) :
    (items.flatMap parts)[index]? = items[index / size]?.bind fun item => (parts item)[index % size]? := by
  induction items generalizing index with
  | nil => simp
  | cons first rest ih =>
    rw [List.flatMap_cons, List.getElem?_append, sized]
    split
    next inside => simp [Nat.div_eq_of_lt inside, Nat.mod_eq_of_lt inside]
    next beyond =>
      obtain ⟨later, rfl⟩ := Nat.exists_eq_add_of_le' (Nat.not_lt.mp beyond)
      simp [ih, Nat.add_div_right later positive]

/-- The choice at a position takes of each axis the candidate that the axis's digit of the position says. -/
theorem exists_choice_at {axes : List Axis} {index : Nat} (inside : index < spread axes) :
    ∃ choice, (choices axes)[index]? = some choice ∧ ∀ place axis, axes[place]? = some axis →
      ∃ value, axis.2[index / spread (axes.drop (place + 1)) % axis.2.length]? = some value ∧
        choice[place]? = some (axis.1, value) := by
  induction axes generalizing index with
  | nil =>
    obtain rfl : index = 0 := by simpa [spread] using inside
    exact ⟨[], rfl, by simp⟩
  | cons axis rest ih =>
    obtain ⟨name, candidates⟩ := axis
    have positive : 0 < spread rest := Nat.pos_of_mul_pos_left (Nat.zero_lt_of_lt inside)
    have digit : index / spread rest < candidates.length := (Nat.div_lt_iff_lt_mul positive).mpr inside
    obtain ⟨others, chosen, takes⟩ := ih (Nat.mod_lt index positive)
    refine ⟨(name, candidates[index / spread rest]) :: others, ?_, ?_⟩
    · rw [choices, getElem?_flatMap_of_length positive (by simp)]
      simp [chosen, digit]
    · rintro (_ | place) axis found
      · cases found
        exact ⟨candidates[index / spread rest], by simp [Nat.mod_eq_of_lt digit, digit], rfl⟩
      · obtain ⟨value, taken, held⟩ := takes place axis found
        refine ⟨value, ?_, held⟩
        have later : rest[place]? = some axis := found
        rwa [spread_around later, Nat.mod_mul_left_div_self, Nat.mod_mul_left_mod] at taken

/-- Whether configurations are the choices from some axes by position, where the last axis varies fastest. -/
structure Enumerates (axes : List Axis) (configs : List Config) : Prop where
  length : configs.length = spread axes
  keys : ∀ config ∈ configs, ∀ key, key ∈ config.keys ↔ key ∈ axes.map Prod.fst
  position : ∀ index config, configs[index]? = some config → ∀ place axis, axes[place]? = some axis →
    ∃ value, axis.2[index / spread (axes.drop (place + 1)) % axis.2.length]? = some value ∧
      config.get? axis.1 = some value
  choice : ∀ pick : String → Value, (∀ axis ∈ axes, pick axis.1 ∈ axis.2) →
    ∃ config ∈ configs, ∀ axis ∈ axes, config.get? axis.1 = some (pick axis.1)

theorem enumerates_combinationsOf {axes : List Axis} (distinct : (axes.map Prod.fst).Nodup) :
    Enumerates axes (combinationsOf axes) := by
  have held {choice : List (String × Value)} (chosen : choice ∈ choices axes) (key : String) (value : Value) :
      (Dict.ofList choice).get? key = some value ↔ (key, value) ∈ choice :=
    Dict.get?_ofList_eq_some_iff (map_fst_of_mem_choices chosen ▸ distinct)
  constructor
  · rw [combinationsOf, List.length_map, length_choices]
  · intro config member key
    obtain ⟨choice, chosen, rfl⟩ := List.mem_map.mp member
    simp only [Dict.mem_keys_iff, held chosen, ← map_fst_of_mem_choices chosen]
    simp
  · intro index config found place axis there
    rw [combinationsOf, List.getElem?_map, Option.map_eq_some_iff] at found
    obtain ⟨choice, found, rfl⟩ := found
    have inside : index < spread axes := length_choices axes ▸ (List.getElem?_eq_some_iff.mp found).1
    obtain ⟨other, same, takes⟩ := exists_choice_at inside
    cases found.symm.trans same
    obtain ⟨value, taken, stands⟩ := takes place axis there
    exact ⟨value, taken, (held (List.mem_of_getElem? found) _ _).mpr (List.mem_of_getElem? stands)⟩
  · intro pick picks
    have chosen : (axes.map fun axis => (axis.1, pick axis.1)) ∈ choices axes := by
      rw [mem_choices_iff, List.forall₂_map_left_iff, List.forall₂_same]
      exact fun axis member => ⟨rfl, picks axis member⟩
    refine ⟨_, List.mem_map_of_mem chosen, fun axis member => (held chosen _ _).mpr ?_⟩
    exact List.mem_map_of_mem member

theorem nodup_names_axes (config : Config) : (config.axes.map Prod.fst).Nodup := by
  have named : config.axes.map Prod.fst = config.keys := by
    rw [axes, List.map_map]
    rfl
  exact named ▸ Dict.nodup_keys config

/-- A value without candidates to choose from never stands in the way, so only lists can repeat a candidate. -/
theorem unequal_candidates_iff {config : Config} :
    (∀ axis ∈ config.axes, axis.2.Pairwise fun left right => (left == right) = false) ↔
      ∀ key items, config.get? key = some (.list items) →
        items.Pairwise fun left right => (left == right) = false := by
  simp only [axes, List.forall_mem_map]
  constructor
  · intro apart key items held
    exact apart (key, .list items) (Dict.get?_eq_some_iff.mp held)
  · rintro apart ⟨key, value⟩ member
    cases value with
    | list items => exact apart key items (Dict.get?_eq_some_iff.mpr member)
    | none | bool | int | float | str | tuple | dict => exact List.pairwise_singleton _ _

/-- The combinations of a configuration stand in the order of their positions, and so do those of axes with different
names in the order that they are given in. Without NaN, combinations are unequal exactly if no list repeats a
candidate, provided there are any. -/
theorem combinations_by_position :
    (∀ config : Config, Enumerates config.axes config.combinations ∧
      (config.Every Value.NotNan → config.combinations ≠ [] → (Unequal config.combinations ↔
        ∀ key items, config.get? key = some (.list items) →
          items.Pairwise fun left right => (left == right) = false))) ∧
    ∀ axes : List Axis, (axes.map Prod.fst).Nodup → Enumerates axes (combinationsOf axes) := by
  refine ⟨fun config => ⟨enumerates_combinationsOf (nodup_names_axes config), fun proper present => ?_⟩,
    fun axes distinct => enumerates_combinationsOf distinct⟩
  have filled : ¬∃ axis ∈ config.axes, axis.2 = [] := by
    rw [← choices_eq_nil_iff, ← map_entries_combinations, List.map_eq_nil_iff]
    exact present
  rw [unequal_combinations_iff proper, or_iff_right filled, unequal_candidates_iff]

/-- A table of two parameters with candidates and one without between them. -/
def sixPoints : Config :=
  Dict.ofList [("a", .list [.int 1, .int 2, .int 3]), ("b", .tuple [.int 7]), ("c", .list [.str "x", .str "y"])]

theorem combinations_by_position_six_points :
    sixPoints.combinations.length = 6 ∧
    (∃ config, sixPoints.combinations[3]? = some config ∧ config.get? "a" = some (.int 2) ∧
      config.get? "b" = some (.tuple [.int 7]) ∧ config.get? "c" = some (.str "y")) ∧
    Unequal sixPoints.combinations ∧
    (combinationsOf [("z", [.int 1, .int 2]), ("a", [.int 5])]).length = 2 := by
  obtain ⟨table, ordered⟩ := combinations_by_position
  obtain ⟨enumerated, unequal⟩ := table sixPoints
  have apart : ∀ key items, sixPoints.get? key = some (.list items) →
      items.Pairwise fun left right => (left == right) = false := by
    rw [← unequal_candidates_iff]
    decide
  have proper : sixPoints.Every Value.NotNan := Value.entries_beq_self_iff.mp (by decide)
  refine ⟨enumerated.length, ?_, (unequal proper (by decide)).mpr apart, (ordered _ (by decide)).length⟩
  obtain ⟨config, found⟩ : ∃ config, sixPoints.combinations[3]? = some config := ⟨_, rfl⟩
  refine ⟨config, found, ?_, ?_, ?_⟩
  · obtain ⟨value, taken, held⟩ := enumerated.position 3 config found 0 _ rfl
    rwa [← taken] at held
  · obtain ⟨value, taken, held⟩ := enumerated.position 3 config found 1 _ rfl
    rwa [← taken] at held
  · obtain ⟨value, taken, held⟩ := enumerated.position 3 config found 2 _ rfl
    rwa [← taken] at held

end ParamSweep.Config
