import ParamSweep.Proofs.SweepRepeats

/-! Projections of grids. A parameter that is projected away only repeats the combinations of the parameters behind it,
so what is new comes in the order in which the other parameters alone are combined. -/

namespace ParamSweep

namespace Config

section
variable {α β γ : Type} [BEq α] [BEq β]

/-- The items of a list that are new, where a test says what is known before it. An item that is new is known from
then on, and so is what equals it. -/
def fresh (known : α → Bool) : List α → List α
  | [] => []
  | item :: rest =>
    if known item then fresh known rest else item :: fresh (fun other => known other || item == other) rest

theorem fresh_append (known : α → Bool) (left right : List α) :
    fresh known (left ++ right) =
      fresh known left ++ fresh (fun other => known other || (fresh known left).any (· == other)) right := by
  induction left generalizing known with
  | nil => simp [fresh]
  | cons item rest ih =>
    rw [List.cons_append, fresh, fresh]
    split
    · exact ih known
    · simp only [ih, List.cons_append, List.any_cons, Bool.or_assoc]

theorem fresh_eq_nil {known : α → Bool} {items : List α} (covered : ∀ item ∈ items, known item = true) :
    fresh known items = [] := by
  induction items with
  | nil => rfl
  | cons item rest ih =>
    rw [fresh, if_pos (covered item List.mem_cons_self),
      ih fun other later => covered other (List.mem_cons_of_mem _ later)]

/-- Behind a list its items are known. -/
theorem known_after {known : α → Bool} {items : List α} {item : α} (member : item ∈ items)
    (same : (item == item) = true) : (known item || (fresh known items).any (· == item)) = true := by
  induction items generalizing known with
  | nil => cases member
  | cons first rest ih =>
    rw [fresh]
    split
    next old =>
      rcases List.mem_cons.mp member with rfl | later
      · rw [old, Bool.true_or]
      · exact ih later
    next =>
      rcases List.mem_cons.mp member with rfl | later
      · simp [same]
      · rw [List.any_cons, ← Bool.or_assoc]
        exact @ih (fun other => known other || first == other) later

theorem fresh_map {f : α → β} (faithful : ∀ left right, (f left == f right) = (left == right)) (known : β → Bool)
    (items : List α) : fresh known (items.map f) = (fresh (fun item => known (f item)) items).map f := by
  induction items generalizing known with
  | nil => rfl
  | cons item rest ih =>
    rw [List.map_cons, fresh, fresh]
    split
    · exact ih known
    · rw [List.map_cons, ih]
      simp only [faithful]

theorem fresh_flatMap_congr {left right : γ → List α} {items : List γ}
    (same : ∀ item ∈ items, ∀ known, fresh known (left item) = fresh known (right item)) (known : α → Bool) :
    fresh known (items.flatMap left) = fresh known (items.flatMap right) := by
  induction items generalizing known with
  | nil => rfl
  | cons item rest ih =>
    rw [List.flatMap_cons, List.flatMap_cons, fresh_append, fresh_append, same item List.mem_cons_self,
      ih fun other later => same other (List.mem_cons_of_mem _ later)]

/-- A list that is repeated holds nothing new from the second time on. -/
theorem fresh_repeated {repeats : List γ} {items : List α} (present : repeats ≠ [])
    (same : ∀ item ∈ items, (item == item) = true) (known : α → Bool) :
    fresh known (repeats.flatMap fun _ => items) = fresh known items := by
  obtain ⟨first, rest, rfl⟩ := List.exists_cons_of_ne_nil present
  have old : ∀ item ∈ rest.flatMap fun _ => items, (known item || (fresh known items).any (· == item)) = true := by
    intro item member
    obtain ⟨-, -, member⟩ := List.mem_flatMap.mp member
    exact known_after member (same item member)
  rw [List.flatMap_cons, fresh_append, fresh_eq_nil old, List.append_nil]

end

theorem foldl_addNew_eq (configs seen : List Config) :
    configs.foldl addNew seen = seen ++ fresh (fun other => seen.any (· == other)) configs := by
  induction configs generalizing seen with
  | nil => simp [fresh]
  | cons config rest ih =>
    rw [List.foldl_cons, ih, addNew_eq, fresh]
    simp only [List.any_eq_true]
    split
    · rfl
    · simp [List.any_append]

theorem distinct_eq_fresh (configs : List Config) : distinct configs = fresh (fun _ => false) configs :=
  foldl_addNew_eq configs []

/-- Choices that are cut down to some axes are new where the choices from these axes alone are. -/
theorem fresh_map_filter_choices {axes : List Axis} (filled : ∀ axis ∈ axes, axis.2 ≠ [])
    (proper : ∀ axis ∈ axes, ∀ value ∈ axis.2, value.Every Value.NotNan) (keep : String → Bool)
    (known : List (String × Value) → Bool) :
    fresh known ((choices axes).map (List.filter fun entry => keep entry.1)) =
      fresh known (choices (axes.filter fun axis => keep axis.1)) := by
  induction axes generalizing known with
  | nil => rfl
  | cons axis rest ih =>
    obtain ⟨name, candidates⟩ := axis
    obtain ⟨present, filled⟩ := List.forall_mem_cons.mp filled
    obtain ⟨here, later⟩ := List.forall_mem_cons.mp proper
    rw [choices, List.map_flatMap]
    simp only [List.map_map]
    by_cases kept : keep name = true
    · have cut (value : Value) : (List.filter fun entry => keep entry.1) ∘ ((name, value) :: ·) =
          ((name, value) :: ·) ∘ List.filter fun entry => keep entry.1 := by
        funext choice
        exact List.filter_cons_of_pos kept
      rw [List.filter_cons, if_pos kept, choices]
      apply fresh_flatMap_congr
      intro value taken known
      have faithful (left right : List (String × Value)) :
          (((name, value) :: left) == ((name, value) :: right)) = (left == right) := by
        rw [Bool.eq_iff_iff, Dict.cons_beq_cons]
        simp [(here value taken).beq_self]
      rw [cut, ← List.map_map, fresh_map faithful, fresh_map faithful, ih filled later]
    · have cut (value : Value) : (List.filter fun entry => keep entry.1) ∘ ((name, value) :: ·) =
          List.filter fun entry => keep entry.1 := by
        funext choice
        exact List.filter_cons_of_neg kept
      have same : ∀ choice ∈ (choices rest).map (List.filter fun entry => keep entry.1), (choice == choice) = true := by
        intro choice member
        obtain ⟨whole, chosen, rfl⟩ := List.mem_map.mp member
        exact Value.entries_beq_self_iff.mpr fun entry inside =>
          proper_of_mem_choices later chosen entry (List.mem_filter.mp inside).1
      simp only [cut]
      rw [fresh_repeated present same, ih filled later, List.filter_cons, if_neg kept]

theorem axes_restrict (config : Config) (keys : List String) :
    axes (config.restrict keys) = config.axes.filter fun axis => keys.contains axis.1 := by
  simp only [axes, restrict, Dict.filter, List.filter_map]
  rfl

theorem entries_restrict (keys : List String) :
    Dict.entries ∘ (fun config : Config => config.restrict keys) =
      (List.filter fun entry => keys.contains entry.1) ∘ Dict.entries := rfl

end Config

namespace Sweep
open Config

/-- Projected to some keys, the combinations of a table are those of its part under these keys, each once. -/
theorem project_combinations {varied : Config} (proper : varied.Every Value.NotNan)
    (filled : ∀ key items, varied.get? key = some (.list items) → items ≠ []) (keys : List String) :
    project keys varied.combinations = distinct (combinations (varied.restrict keys)) := by
  have present : ∀ axis ∈ varied.axes, axis.2 ≠ [] := by
    simp only [axes, List.forall_mem_map]
    rintro ⟨key, value⟩ member
    cases value with
    | list items => exact filled key items (Dict.get?_eq_some_iff.mpr member)
    | none | bool | int | float | str | tuple | dict => exact List.cons_ne_nil _ _
  have faithful (left right : Config) : (left.entries == right.entries) = (left == right) := rfl
  have injective : Function.Injective (List.map (Dict.entries (α := Value))) :=
    List.map_injective_iff.mpr fun _ _ => Dict.ext
  apply injective
  calc
    (project keys varied.combinations).map Dict.entries
      = fresh (fun _ => false) ((varied.combinations.map (·.restrict keys)).map Dict.entries) := by
        rw [project, distinct_eq_fresh, fresh_map faithful]
    _ = fresh (fun _ => false) ((choices varied.axes).map (List.filter fun entry => keys.contains entry.1)) := by
        rw [List.map_map, entries_restrict, ← List.map_map, map_entries_combinations]
    _ = fresh (fun _ => false) ((combinations (varied.restrict keys)).map Dict.entries) := by
        rw [fresh_map_filter_choices present (proper_axes proper), map_entries_combinations, axes_restrict]
    _ = (distinct (combinations (varied.restrict keys))).map Dict.entries := by
        rw [distinct_eq_fresh, fresh_map faithful]

/-- A table with a parameter between two others, and with a candidate listed twice. -/
def twiceListed : Config :=
  Dict.ofList [("a", .list [.int 1, .int 2, .int 1]), ("b", .list [.str "x", .str "y"]), ("c", .list [.bool true, .none])]

theorem project_combinations_around :
    twiceListed.combinations.length = 12 ∧
    project ["c", "d", "a", "c"] twiceListed.combinations =
      distinct (combinations (twiceListed.restrict ["c", "d", "a", "c"])) ∧
    (project ["c", "d", "a", "c"] twiceListed.combinations).length = 4 := by
  have listed : ∀ entry ∈ twiceListed.entries, entry.2.items?.all (fun items => !items.isEmpty) = true := by decide
  have filled : ∀ key items, twiceListed.get? key = some (.list items) → items ≠ [] := by
    rintro key items held rfl
    cases listed _ (Dict.get?_eq_some_iff.mp held)
  have same := project_combinations (Value.entries_beq_self_iff.mp (by decide)) filled ["c", "d", "a", "c"]
  exact ⟨by decide, same, by rw [same]; decide⟩

end Sweep
end ParamSweep
