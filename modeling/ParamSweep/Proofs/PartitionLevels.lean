import ParamSweep.Label.Partition
import ParamSweep.Proofs.Outcome
import ParamSweep.Proofs.SharedEntries

/-! Partition key by key. What a partition holds under a key depends only on what the configurations hold under it:
a shared value is common, dictionaries are partitioned one level down, and all else stays where it is. -/

namespace ParamSweep.Partition
open Config

/-- What configurations hold under a key. -/
def column (key : String) (configs : List Config) : List (Option Value) := configs.map (·.get? key)

/-- The dictionaries of a column, if it holds nothing else. -/
def dicts? (held : List (Option Value)) : Option (List Config) := held.mapM (·.bind Value.dict?)

/-- What is common under a key, and what each of the rest holds there. -/
def slot (key : String) (partition : Partition) : Option Value × List (Option Value) :=
  (partition.common.get? key, column key partition.varied)

theorem get?_common_of_slot {key : String} {partition : Partition} {common : Option Value}
    {held : List (Option Value)} (slots : slot key partition = (common, held)) : partition.common.get? key = common :=
  congrArg Prod.fst slots

theorem nested?_eq (key : String) (configs : List Config) : nested? key configs = dicts? (column key configs) := by
  rw [nested?, dicts?, column, List.mapM_map]
  rfl

private theorem mapM_eq_some_iff {α β : Type} {step : α → Option β} {items : List α} {results : List β} :
    items.mapM step = some results ↔ List.Forall₂ (fun item result => step item = some result) items results := by
  induction items generalizing results with
  | nil => cases results <;> simp
  | cons first rest ih =>
    rw [List.mapM_cons]
    cases found : step first with
    | none => cases results <;> simp [found]
    | some result =>
      cases others : rest.mapM step with
      | none => cases results <;> simp [found, others, ← ih]
      | some tail => cases results <;> simp [found, others, ← ih]

theorem nested?_eq_some_iff {key : String} {configs dicts : List Config} :
    nested? key configs = some dicts ↔
      List.Forall₂ (fun config dict => (config.get? key).bind Value.dict? = some dict) configs dicts :=
  mapM_eq_some_iff

theorem ne_nil_of_nested {key : String} {configs dicts : List Config} (inside : nested? key configs = some dicts)
    (present : configs ≠ []) : dicts ≠ [] := by
  rintro rfl
  exact present (List.eq_nil_of_length_eq_zero (nested?_eq_some_iff.mp inside).length_eq)

theorem dicts?_none_of_mem {held : List (Option Value)} (member : none ∈ held) : dicts? held = none := by
  cases found : dicts? held with
  | none => rfl
  | some dicts =>
    obtain ⟨dict, -, impossible⟩ := Outcome.exists_result_of_mem (mapM_eq_some_iff.mp found) member
    cases impossible

theorem mem_keysOf {key : String} {configs : List Config} :
    key ∈ keysOf configs ↔ ∃ config ∈ configs, ∃ value, config.get? key = some value := by
  rw [keysOf, Dict.mem_keys_iff, ← not_iff_not, not_exists]
  simp only [Dict.get?_ofList, ← Option.eq_none_iff_forall_ne_some, List.lookup_eq_none_iff, Dict.get?_eq_some_iff]
  constructor
  · rintro absent ⟨config, member, value, held⟩
    have differs := absent (key, value) (List.mem_reverse.mpr (List.mem_flatMap.mpr ⟨config, member, held⟩))
    exact bne_iff_ne.mp differs rfl
  · intro absent entry member
    obtain ⟨config, among, held⟩ := List.mem_flatMap.mp (List.mem_reverse.mp member)
    exact bne_iff_ne.mpr fun same => absent ⟨config, among, entry.2, same ▸ held⟩

theorem nodup_keysOf (configs : List Config) : (keysOf configs).Nodup := Dict.nodup_keys _

/-- Configurations with the rests of their dictionaries in place. -/
def refill (key : String) (configs rests : List Config) : List Config :=
  configs.zipWith (fun config rest => config.insert key (.ofConfig rest)) rests

theorem column_refill_self {key : String} {configs rests : List Config} (length : configs.length = rests.length) :
    column key (refill key configs rests) = rests.map fun rest => some (.ofConfig rest) := by
  induction configs generalizing rests with
  | nil => cases rests <;> simp_all [column, refill]
  | cons config configs ih =>
    cases rests with
    | nil => cases length
    | cons rest rests => exact congrArg₂ List.cons (Dict.get?_insert_self config key _) (ih (Nat.succ.inj length))

theorem column_refill_of_ne {key other : String} (distinct : other ≠ key) {configs rests : List Config}
    (length : configs.length = rests.length) : column other (refill key configs rests) = column other configs := by
  induction configs generalizing rests with
  | nil => rfl
  | cons config configs ih =>
    cases rests with
    | nil => cases length
    | cons rest rests =>
      exact congrArg₂ List.cons (Dict.get?_insert_of_ne distinct config _) (ih (Nat.succ.inj length))

section
variable {below : List Config → Partition}

theorem length_descend (keeps : ∀ dicts, (below dicts).varied.length = dicts.length) (partition : Partition)
    (key : String) : (descend below partition key).varied.length = partition.varied.length := by
  unfold descend
  split
  · rfl
  next dicts found =>
    have same := (nested?_eq_some_iff.mp found).length_eq
    simp [keeps, same]

theorem slot_descend_of_ne {key other : String} (distinct : other ≠ key)
    (keeps : ∀ dicts, (below dicts).varied.length = dicts.length) (partition : Partition) :
    slot other (descend below partition key) = slot other partition := by
  unfold descend
  split
  · rfl
  next dicts found =>
    have same := (nested?_eq_some_iff.mp found).length_eq
    exact Prod.ext (Dict.get?_insert_of_ne distinct partition.common _)
      (column_refill_of_ne distinct (same.trans (keeps dicts).symm))

/-- What one level down makes of what is held under a key. -/
def descendSlot (below : List Config → Partition) :
    Option Value × List (Option Value) → Option Value × List (Option Value)
  | (common, held) => match dicts? held with
    | none => (common, held)
    | some dicts => (some (.ofConfig (below dicts).common), (below dicts).varied.map fun rest => some (.ofConfig rest))

theorem slot_descend_self (keeps : ∀ dicts, (below dicts).varied.length = dicts.length) (partition : Partition)
    (key : String) : slot key (descend below partition key) = descendSlot below (slot key partition) := by
  unfold descend
  rw [nested?_eq]
  split
  next none => simp [slot, descendSlot, none]
  next dicts found =>
    have same := (mapM_eq_some_iff.mp found).length_eq
    rw [column, List.length_map] at same
    simp only [slot, descendSlot, found]
    exact Prod.ext (Dict.get?_insert_self partition.common key _) (column_refill_self (same.trans (keeps dicts).symm))

theorem slot_foldl_descend (keeps : ∀ dicts, (below dicts).varied.length = dicts.length) (partition : Partition)
    {keys : List String} (distinct : keys.Nodup) (key : String) :
    slot key (keys.foldl (descend below) partition) =
      if key ∈ keys then descendSlot below (slot key partition) else slot key partition := by
  induction keys generalizing partition with
  | nil => simp
  | cons first rest ih =>
    obtain ⟨absent, distinct⟩ := List.nodup_cons.mp distinct
    rw [List.foldl_cons, ih _ distinct]
    by_cases same : key = first
    · rw [same, if_neg absent, if_pos List.mem_cons_self, slot_descend_self keeps]
    · rw [slot_descend_of_ne same keeps]
      simp [same]

end

theorem length_toLevel (levels : Nat) (default : Option Config) (configs : List Config) :
    (toLevel levels default configs).varied.length = configs.length := by
  induction levels generalizing default configs with
  | zero => exact List.length_map _
  | succ levels ih =>
    have kept (keys : List String) (partition : Partition) :
        (keys.foldl (descend (toLevel levels none)) partition).varied.length = partition.varied.length := by
      induction keys generalizing partition with
      | nil => rfl
      | cons key keys next => exact (next _).trans (length_descend (ih none) partition key)
    exact (kept _ _).trans (List.length_map _)

section
variable {default : Option Config} {configs : List Config} {key : String}

theorem slot_flat_of_shared {value : Value} (shared : (sharedByAll (default.toList ++ configs)).get? key = some value) :
    slot key (flat default configs) = (some value, configs.map fun _ => none) := by
  refine Prod.ext shared ?_
  simp only [slot, column, flat, List.map_map]
  apply List.map_congr_left
  intro config _
  exact (Dict.get?_eraseAll config _ key).trans (if_pos (Dict.mem_keys_iff.mpr ⟨value, shared⟩))

theorem slot_flat_of_apart (apart : (sharedByAll (default.toList ++ configs)).get? key = none) :
    slot key (flat default configs) = (none, column key configs) := by
  refine Prod.ext apart ?_
  simp only [slot, column, flat, List.map_map]
  apply List.map_congr_left
  intro config _
  exact (Dict.get?_eraseAll config _ key).trans (if_neg (by simp [Dict.mem_keys_iff, apart]))

/-- A level more partitions what the first one leaves under each key. -/
theorem slot_toLevel_succ (present : configs ≠ []) (levels : Nat) :
    slot key (toLevel (levels + 1) default configs) =
      descendSlot (toLevel levels none) (slot key (flat default configs)) := by
  rw [toLevel, slot_foldl_descend (length_toLevel levels none) _ (nodup_keysOf _)]
  split
  · rfl
  next absent =>
    have missing : none ∈ column key (flat default configs).varied := by
      obtain ⟨config, among⟩ := List.exists_mem_of_ne_nil _ present
      have member : config.eraseAll (flat default configs).common.keys ∈ (flat default configs).varied :=
        List.mem_map.mpr ⟨config, among, rfl⟩
      refine List.mem_map.mpr ⟨_, member, ?_⟩
      apply Option.eq_none_iff_forall_ne_some.mpr
      intro value held
      exact absent (mem_keysOf.mpr ⟨_, member, value, held⟩)
    simp only [slot, descendSlot, dicts?_none_of_mem missing]

theorem slot_of_shared (present : configs ≠ []) (levels : Nat) {value : Value}
    (shared : (sharedByAll (default.toList ++ configs)).get? key = some value) :
    slot key (toLevel levels default configs) = (some value, configs.map fun _ => none) := by
  cases levels with
  | zero => exact slot_flat_of_shared shared
  | succ levels =>
    obtain ⟨config, among⟩ := List.exists_mem_of_ne_nil _ present
    have missing : (none : Option Value) ∈ configs.map fun _ => none := List.mem_map.mpr ⟨config, among, rfl⟩
    rw [slot_toLevel_succ present, slot_flat_of_shared shared]
    simp only [descendSlot, dicts?_none_of_mem missing]

theorem slot_of_nested (present : configs ≠ []) (levels : Nat) {dicts : List Config}
    (apart : (sharedByAll (default.toList ++ configs)).get? key = none) (nested : nested? key configs = some dicts) :
    slot key (toLevel (levels + 1) default configs) =
      (some (.ofConfig (toLevel levels none dicts).common),
        (toLevel levels none dicts).varied.map fun rest => some (.ofConfig rest)) := by
  rw [nested?_eq] at nested
  rw [slot_toLevel_succ present, slot_flat_of_apart apart]
  simp only [descendSlot, nested]

theorem slot_of_unnested (present : configs ≠ []) (levels : Nat)
    (apart : (sharedByAll (default.toList ++ configs)).get? key = none) (unnested : nested? key configs = none) :
    slot key (toLevel levels default configs) = (none, column key configs) := by
  cases levels with
  | zero => exact slot_flat_of_apart apart
  | succ levels =>
    rw [nested?_eq] at unnested
    rw [slot_toLevel_succ present, slot_flat_of_apart apart]
    simp only [descendSlot, unnested]

end

/-- What can become of a key: its value is shared, its values stay apart, or its dictionaries are partitioned. -/
inductive Fate (levels : Nat) (default : Option Config) (configs : List Config) (key : String) : Prop where
  | shared (value : Value) (kept : (sharedByAll (default.toList ++ configs)).get? key = some value)
      (held : slot key (toLevel levels default configs) = (some value, configs.map fun _ => none))
  | apart (unshared : (sharedByAll (default.toList ++ configs)).get? key = none)
      (flat : levels = 0 ∨ nested? key configs = none)
      (held : slot key (toLevel levels default configs) = (none, column key configs))
  | nested (below : Nat) (dicts : List Config) (deeper : levels = below + 1)
      (unshared : (sharedByAll (default.toList ++ configs)).get? key = none)
      (inside : nested? key configs = some dicts)
      (held : slot key (toLevel levels default configs) =
        (some (.ofConfig (toLevel below none dicts).common),
          (toLevel below none dicts).varied.map fun rest => some (.ofConfig rest)))

theorem fate {configs : List Config} (present : configs ≠ []) (levels : Nat) (default : Option Config) (key : String) :
    Fate levels default configs key := by
  cases kept : (sharedByAll (default.toList ++ configs)).get? key with
  | some value => exact .shared value kept (slot_of_shared present levels kept)
  | none =>
    cases inside : nested? key configs with
    | none => exact .apart kept (.inr inside) (slot_of_unnested present levels kept inside)
    | some dicts =>
      cases levels with
      | zero => exact .apart kept (.inl rfl) (slot_flat_of_apart kept)
      | succ below => exact .nested below dicts rfl kept inside (slot_of_nested present below kept inside)

end ParamSweep.Partition
