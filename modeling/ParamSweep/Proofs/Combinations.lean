import ParamSweep.Config.Combination
import ParamSweep.Dict.Lemmas
import ParamSweep.Proofs.Outcome

/-! What a combination holds. It has the keys of the configuration it comes from, and under each key one
of the candidates. A key with a single candidate may as well be added after the choice. -/

namespace ParamSweep

namespace Dict

universe u v

variable {α : Type u} {β : Type v}

theorem get?_eq_none_iff {dict : Dict α} {key : String} : dict.get? key = none ↔ key ∉ dict.keys := by
  rw [← contains_iff_mem_keys]
  simp [contains]

theorem mem_keys_extend_iff {dict winners : Dict α} {key : String} :
    key ∈ (dict.extend winners).keys ↔ key ∈ winners.keys ∨ key ∈ dict.keys := by
  simp only [mem_keys_iff, get?_extend]
  cases winners.get? key <;> simp

theorem extend_of_covered {dict winners : Dict α} (covered : ∀ key ∈ dict.keys, key ∈ winners.keys) :
    dict.extend winners = winners := by
  apply ext_get?
  intro key
  rw [get?_extend]
  cases found : winners.get? key with
  | some value => rfl
  | none =>
    have absent : key ∉ dict.keys := fun member => get?_eq_none_iff.mp found (covered key member)
    rw [get?_eq_none_iff.mpr absent, Option.or_none]

theorem ofList_of_sorted {entries : List (String × α)}
    (sorted : entries.Pairwise fun left right => left.1 < right.1) : ofList entries = ⟨entries, sorted⟩ :=
  ofList_entries ⟨entries, sorted⟩

theorem map_place (f : α → β) (key : String) (value : α) (entries : List (String × α)) :
    (place key value entries).map (fun entry => (entry.1, f entry.2)) =
      place key (f value) (entries.map fun entry => (entry.1, f entry.2)) := by
  induction entries with
  | nil => rfl
  | cons first rest ih =>
    simp only [place, List.map_cons]
    split
    · rfl
    · split
      · rfl
      · rw [List.map_cons, ih]

end Dict

theorem Value.candidates_of_single {value : Value} (single : value.items? = Option.none) :
    value.candidates = [value] := by
  cases value <;> simp_all [items?, candidates]

namespace Config

/-- A choice names the axes in their order and takes a candidate of each. -/
theorem mem_choices_iff {axes : List Axis} {choice : List (String × Value)} :
    choice ∈ choices axes ↔
      List.Forall₂ (fun (entry : String × Value) (axis : Axis) => entry.1 = axis.1 ∧ entry.2 ∈ axis.2)
        choice axes := by
  induction axes generalizing choice with
  | nil => simp [choices]
  | cons axis rest ih =>
    obtain ⟨name, candidates⟩ := axis
    simp only [choices, List.mem_flatMap, List.mem_map]
    constructor
    · rintro ⟨value, taken, others, chosen, rfl⟩
      exact .cons ⟨rfl, taken⟩ (ih.mp chosen)
    · intro related
      cases related with
      | @cons entry _ others _ here later =>
        obtain ⟨rfl, taken⟩ := here
        exact ⟨entry.2, taken, others, ih.mpr later, rfl⟩

theorem map_fst_of_mem_choices {axes : List Axis} {choice : List (String × Value)}
    (chosen : choice ∈ choices axes) : choice.map Prod.fst = axes.map Prod.fst := by
  have related := mem_choices_iff.mp chosen
  clear chosen
  induction related with
  | nil => rfl
  | cons here _ ih => rw [List.map_cons, List.map_cons, here.1, ih]

/-- An axis with a single candidate adds its entry to every choice and leaves their order. -/
theorem choices_place {key : String} {axes : List Axis} (fresh : key ∉ axes.map Prod.fst) (value : Value) :
    choices (Dict.place key [value] axes) = (choices axes).map (Dict.place key value) := by
  induction axes with
  | nil => rfl
  | cons axis rest ih =>
    obtain ⟨name, candidates⟩ := axis
    obtain ⟨differs, fresh⟩ : key ≠ name ∧ key ∉ rest.map Prod.fst := by simpa using fresh
    simp only [Dict.place, if_neg differs]
    split
    next before => simp [choices, Dict.place, before, List.map_flatMap, Function.comp_def]
    next notBefore =>
      simp [choices, ih fresh, Dict.place, differs, notBefore, List.map_flatMap, Function.comp_def]

private theorem map_fst_axes (config : Config) : config.axes.map Prod.fst = config.keys := by
  simp [axes, Dict.keys]

private theorem axes_insert (config : Config) (key : String) (value : Value) :
    axes (config.insert key value) = Dict.place key value.candidates config.axes :=
  Dict.map_place Value.candidates key value config.entries

private theorem sorted_of_mem_choices {config : Config} {choice : List (String × Value)}
    (chosen : choice ∈ choices config.axes) : choice.Pairwise fun left right => left.1 < right.1 := by
  have named : choice.map Prod.fst = config.entries.map Prod.fst :=
    (map_fst_of_mem_choices chosen).trans (map_fst_axes config)
  have ordered := List.pairwise_map.mpr config.sorted
  rw [← named] at ordered
  exact List.pairwise_map.mp ordered

/-- The axes of a configuration stand in key order, so its combinations have their choices as entries. -/
theorem map_entries_combinations (config : Config) : config.combinations.map Dict.entries = choices config.axes := by
  rw [combinations, combinationsOf, List.map_map]
  calc
    _ = (choices config.axes).map id := by
      apply List.map_congr_left
      intro choice chosen
      rw [Function.comp_apply, Dict.ofList_of_sorted (sorted_of_mem_choices chosen), id]
    _ = choices config.axes := List.map_id _

theorem mem_combinations_iff {config combination : Config} :
    combination ∈ config.combinations ↔ combination.entries ∈ choices config.axes := by
  rw [← map_entries_combinations, List.mem_map_of_injective fun _ _ => Dict.ext]

theorem keys_of_mem_combinations {config combination : Config} (member : combination ∈ config.combinations) :
    combination.keys = config.keys :=
  (map_fst_of_mem_choices (mem_combinations_iff.mp member)).trans (map_fst_axes config)

theorem get?_of_mem_combinations {config combination : Config} {key : String} {value : Value}
    (member : combination ∈ config.combinations) (held : config.get? key = some value) :
    ∃ candidate ∈ value.candidates, combination.get? key = some candidate := by
  have axis : (key, value.candidates) ∈ config.axes :=
    List.mem_map.mpr ⟨(key, value), Dict.get?_eq_some_iff.mp held, rfl⟩
  obtain ⟨⟨name, candidate⟩, inside, same, taken⟩ :=
    Outcome.exists_item_of_mem (mem_choices_iff.mp (mem_combinations_iff.mp member)) axis
  dsimp only at same taken
  subst same
  exact ⟨candidate, taken, Dict.get?_eq_some_iff.mpr inside⟩

theorem get?_of_mem_combinations_of_single {config combination : Config} {key : String} {value : Value}
    (member : combination ∈ config.combinations) (held : config.get? key = some value)
    (single : value.items? = none) : combination.get? key = some value := by
  obtain ⟨candidate, taken, chosen⟩ := get?_of_mem_combinations member held
  rw [Value.candidates_of_single single, List.mem_singleton] at taken
  rw [chosen, taken]

private theorem choices_of_single {entries : List (String × Value)}
    (single : ∀ entry ∈ entries, entry.2.items? = none) :
    choices (entries.map fun entry => (entry.1, entry.2.candidates)) = [entries] := by
  induction entries with
  | nil => rfl
  | cons first rest ih =>
    have here := Value.candidates_of_single (single first List.mem_cons_self)
    have later := ih fun entry member => single entry (List.mem_cons_of_mem _ member)
    simp [choices, here, later]

/-- Without candidates to choose from a configuration is its own only combination. -/
theorem combinations_of_single {config : Config} (single : ∀ entry ∈ config.entries, entry.2.items? = none) :
    config.combinations = [config] := by
  rw [combinations, combinationsOf, axes, choices_of_single single, List.map_singleton, Dict.ofList_entries]

/-- Adding a single value under a new key before the choice is adding it to every combination. -/
theorem combinations_insert {config : Config} {key : String} {value : Value}
    (fresh : config.get? key = none) (single : value.candidates = [value]) :
    combinations (config.insert key value) =
      config.combinations.map fun combination => combination.insert key value := by
  have absent : key ∉ config.axes.map Prod.fst := map_fst_axes config ▸ Dict.get?_eq_none_iff.mp fresh
  unfold combinations combinationsOf
  rw [axes_insert, single, choices_place absent, List.map_map, List.map_map]
  apply List.map_congr_left
  intro choice chosen
  have sorted := sorted_of_mem_choices chosen
  have placed := Dict.sorted_place key value sorted
  simp only [Function.comp_apply, Dict.ofList_of_sorted sorted, Dict.ofList_of_sorted placed, Dict.insert]

end Config
end ParamSweep
