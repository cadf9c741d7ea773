import ParamSweep.Proofs.Combinations
import ParamSweep.Proofs.PlainTokens
import ParamSweep.Proofs.ValueEquality
import ParamSweep.Sweep

/-! Repetitions in sweeps. A constraint keeps the first of equal configurations and drops empty ones. Without a
constraint nothing looks for either: a table spans no empty configuration exactly if it has a parameter, and no equal
ones exactly if no parameter has equal candidates or some parameter has none at all. -/

namespace ParamSweep

namespace Config

theorem beq_comm (left right : Config) : (left == right) = (right == left) := by
  rw [← Value.beq_ofConfig, ← Value.beq_ofConfig]
  exact Value.equal_comm _ _

/-- Whether no two configurations are equal. -/
def Unequal (configs : List Config) : Prop := configs.Pairwise fun left right => (left == right) = false

/-- Whether configurations are those of a list that equal none before them, in order: no two are equal, and in each
front part of the list every one has its like among those that are kept of that part. -/
structure KeepsFirst (configs kept : List Config) : Prop where
  unequal : Unequal kept
  fronts : ∀ before after, configs = before ++ after → ∃ front back, kept = front ++ back ∧
    front.Sublist before ∧ back.Sublist after ∧
      ∀ config ∈ before, ∃ first ∈ front, first = config ∨ (first == config) = true

theorem addNew_eq (seen : List Config) (config : Config) :
    addNew seen config = if ∃ other ∈ seen, (other == config) = true then seen else seen ++ [config] := by
  unfold addNew
  simp only [List.contains_eq_any_beq, List.any_eq_true, beq_comm config]

/-- Going on from configurations that were seen adds only such as equal none of them. -/
theorem exists_added (configs seen : List Config) :
    ∃ added, configs.foldl addNew seen = seen ++ added ∧ added.Sublist configs ∧
      (∀ config ∈ configs, ∃ first ∈ seen ++ added, first = config ∨ (first == config) = true) ∧
      (Unequal seen → Unequal (seen ++ added)) := by
  induction configs generalizing seen with
  | nil => exact ⟨[], by simp, .refl _, by simp, by simp⟩
  | cons config rest ih =>
    rw [List.foldl_cons, addNew_eq]
    split
    next known =>
      obtain ⟨added, folded, inside, covered, unequal⟩ := ih seen
      refine ⟨added, folded, inside.cons config, ?_, unequal⟩
      intro other member
      rcases List.mem_cons.mp member with rfl | member
      · obtain ⟨first, among, same⟩ := known
        exact ⟨first, List.mem_append_left _ among, .inr same⟩
      · exact covered other member
    next new =>
      obtain ⟨added, folded, inside, covered, unequal⟩ := ih (seen ++ [config])
      rw [List.append_assoc] at folded covered unequal
      refine ⟨config :: added, folded, inside.cons_cons config, ?_, fun apart => unequal ?_⟩
      · intro other member
        rcases List.mem_cons.mp member with rfl | member
        · exact ⟨other, by simp, .inl rfl⟩
        · exact covered other member
      · refine List.pairwise_append.mpr ⟨apart, List.pairwise_singleton _ _, fun other among last member => ?_⟩
        rw [List.mem_singleton.mp member]
        exact Bool.eq_false_iff.mpr fun same => new ⟨other, among, same⟩

theorem keepsFirst_distinct (configs : List Config) : KeepsFirst configs (distinct configs) := by
  constructor
  · obtain ⟨added, folded, -, -, unequal⟩ := exists_added configs []
    rw [distinct, folded]
    exact unequal .nil
  · rintro before after rfl
    obtain ⟨front, first, inFront, covered, -⟩ := exists_added before []
    obtain ⟨back, second, inBack, -, -⟩ := exists_added after front
    rw [List.nil_append] at first covered
    refine ⟨front, back, ?_, inFront, inBack, covered⟩
    rw [distinct, List.foldl_append, first, second]

theorem KeepsFirst.sublist {configs kept : List Config} (keeps : KeepsFirst configs kept) : kept.Sublist configs := by
  obtain ⟨front, back, rfl, inFront, inBack, -⟩ := keeps.fronts configs [] (List.append_nil _).symm
  rwa [List.sublist_nil.mp inBack, List.append_nil]

/-- Unequal configurations are all kept. -/
theorem foldl_addNew_of_unequal {seen configs : List Config} (unequal : Unequal (seen ++ configs)) :
    configs.foldl addNew seen = seen ++ configs := by
  induction configs generalizing seen with
  | nil => simp
  | cons config rest ih =>
    have new : ¬∃ other ∈ seen, (other == config) = true := by
      rintro ⟨other, among, same⟩
      have differs := (List.pairwise_append.mp unequal).2.2 other among config List.mem_cons_self
      rw [same] at differs
      cases differs
    rw [List.foldl_cons, addNew_eq, if_neg new, ih (by rwa [List.append_assoc]), List.append_assoc]
    rfl

/-- Whether no configuration is empty and no two are equal. -/
def Unrepeated (configs : List Config) : Prop := (∀ config ∈ configs, config.isEmpty = false) ∧ Unequal configs

theorem choices_eq_nil_iff {axes : List Axis} : choices axes = [] ↔ ∃ axis ∈ axes, axis.2 = [] := by
  induction axes with
  | nil => simp [choices]
  | cons axis rest ih =>
    obtain ⟨name, candidates⟩ := axis
    simp only [choices, List.flatMap_eq_nil_iff, List.map_eq_nil_iff, List.exists_mem_cons_iff, ← ih]
    cases candidates with
    | nil => simp
    | cons first others =>
      constructor
      · exact fun none => .inr (none first List.mem_cons_self)
      · exact fun stuck _ _ => by simpa using stuck

private theorem beq_cons {name : String} {value other : Value} {left right : List (String × Value)} :
    ((name, value) :: left == (name, other) :: right) = (value == other && left == right) := by
  rw [Bool.eq_iff_iff, Dict.cons_beq_cons, Bool.and_eq_true, and_iff_right rfl]

theorem proper_of_mem_choices {axes : List Axis}
    (proper : ∀ axis ∈ axes, ∀ value ∈ axis.2, value.Every Value.NotNan) {choice : List (String × Value)}
    (chosen : choice ∈ choices axes) : ∀ entry ∈ choice, entry.2.Every Value.NotNan := by
  intro entry member
  obtain ⟨axis, among, -, taken⟩ := Outcome.exists_result_of_mem (mem_choices_iff.mp chosen) member
  exact proper axis among entry.2 taken

/-- Where every axis has candidates, no two choices are equal exactly if no axis has equal candidates. -/
theorem pairwise_choices_iff {axes : List Axis} (filled : ∀ axis ∈ axes, axis.2 ≠ [])
    (proper : ∀ axis ∈ axes, ∀ value ∈ axis.2, value.Every Value.NotNan) :
    (choices axes).Pairwise (fun left right => (left == right) = false) ↔
      ∀ axis ∈ axes, axis.2.Pairwise fun left right => (left == right) = false := by
  induction axes with
  | nil => simp [choices]
  | cons axis rest ih =>
    obtain ⟨name, candidates⟩ := axis
    obtain ⟨present, filled⟩ := List.forall_mem_cons.mp filled
    obtain ⟨here, proper⟩ := List.forall_mem_cons.mp proper
    have spanned : choices rest ≠ [] := fun none => by
      obtain ⟨axis, member, empty⟩ := choices_eq_nil_iff.mp none
      exact filled axis member empty
    obtain ⟨choice, chosen⟩ := List.exists_mem_of_ne_nil _ spanned
    rw [List.forall_mem_cons, ← ih filled proper, choices, List.pairwise_flatMap]
    simp only [List.pairwise_map, List.forall_mem_map, beq_cons]
    constructor
    · rintro ⟨within, across⟩
      refine ⟨across.imp fun differ => ?_, ?_⟩
      · have apart := differ choice chosen choice chosen
        rwa [Value.entries_beq_self_iff.mpr (proper_of_mem_choices proper chosen), Bool.and_true] at apart
      · obtain ⟨value, taken⟩ := List.exists_mem_of_ne_nil _ present
        refine (within value taken).imp fun differ => ?_
        rwa [(here value taken).beq_self, Bool.true_and] at differ
    · rintro ⟨across, within⟩
      refine ⟨fun value _ => within.imp fun differ => ?_, across.imp fun differ _ _ _ _ => ?_⟩
      · rw [differ, Bool.and_false]
      · rw [differ, Bool.false_and]

/-- Whether a table has a parameter, and none with equal candidates. Where a parameter has no candidates at all, those
of the others do not matter. -/
def Separates (table : Config) : Prop :=
  table.isEmpty = false ∧ ((∃ axis ∈ table.axes, axis.2 = []) ∨
    ∀ axis ∈ table.axes, axis.2.Pairwise fun left right => (left == right) = false)

theorem proper_axes {table : Config} (proper : table.Every Value.NotNan) :
    ∀ axis ∈ table.axes, ∀ value ∈ axis.2, value.Every Value.NotNan := by
  intro axis member
  obtain ⟨entry, inside, rfl⟩ := List.mem_map.mp member
  exact (proper entry inside).candidates

private theorem isEmpty_eq_false_iff {config : Config} : config.isEmpty = false ↔ config.keys ≠ [] := by
  rw [Dict.isEmpty, List.isEmpty_eq_false_iff, Dict.keys, ne_eq, ne_eq, List.map_eq_nil_iff]

theorem unequal_combinations_iff {table : Config} (proper : table.Every Value.NotNan) :
    Unequal table.combinations ↔ (∃ axis ∈ table.axes, axis.2 = []) ∨
      ∀ axis ∈ table.axes, axis.2.Pairwise fun left right => (left == right) = false := by
  have spread : Unequal table.combinations ↔
      (choices table.axes).Pairwise fun left right => (left == right) = false := by
    rw [← map_entries_combinations, List.pairwise_map]
    rfl
  by_cases stuck : ∃ axis ∈ table.axes, axis.2 = []
  · simp only [spread, choices_eq_nil_iff.mpr stuck, stuck, List.Pairwise.nil, true_or]
  · have filled : ∀ axis ∈ table.axes, axis.2 ≠ [] := fun axis member none => stuck ⟨axis, member, none⟩
    simp only [spread, pairwise_choices_iff filled (proper_axes proper), stuck, false_or]

theorem unrepeated_combinations_iff {table : Config} (proper : table.Every Value.NotNan) :
    Unrepeated table.combinations ↔ table.Separates := by
  rw [Unrepeated, Separates, ← unequal_combinations_iff proper]
  by_cases empty : table.isEmpty = true
  · have none : table.entries = [] := List.isEmpty_iff.mp empty
    have spans : Dict.empty ∈ table.combinations :=
      mem_combinations_iff.mpr (by simp [axes, none, choices, Dict.empty])
    simp only [empty, Bool.true_eq_false, false_and, iff_false]
    rintro ⟨nonempty, -⟩
    exact absurd (nonempty _ spans) (by decide)
  · rw [Bool.not_eq_true] at empty
    have nonempty : ∀ config ∈ table.combinations, config.isEmpty = false := fun config member => by
      rw [isEmpty_eq_false_iff, keys_of_mem_combinations member]
      exact isEmpty_eq_false_iff.mp empty
    simp only [empty, true_and, and_iff_right nonempty]

/-- What a constraint makes of the configurations that it accepts, without those that it leaves empty. -/
def offered (accepts : Constraint) (configs : List Config) : List Config :=
  (configs.filterMap accepts).filter fun config => !config.isEmpty

theorem isEmpty_of_mem_offered {accepts : Constraint} {configs : List Config} {config : Config}
    (member : config ∈ offered accepts configs) : config.isEmpty = false := by
  have nonempty := (List.mem_filter.mp member).2
  rwa [Bool.not_eq_true'] at nonempty

theorem offered_some {configs : List Config} (nonempty : ∀ config ∈ configs, config.isEmpty = false) :
    offered some configs = configs := by
  rw [offered, List.filterMap_some, List.filter_eq_self]
  intro config member
  rw [nonempty config member]
  rfl

end Config

namespace Sweep
open Config

/-- A constraint only offers, and what it offers is kept once. -/
theorem constrain_eq (accepts : Constraint) (configs : List Config) :
    constrain accepts configs = distinct (offered accepts configs) := by
  have going : ∀ kept : List Config,
      configs.foldl (accept accepts) kept = (offered accepts configs).foldl addNew kept := by
    induction configs with
    | nil => exact fun _ => rfl
    | cons config rest ih =>
      intro kept
      rw [List.foldl_cons, ih, accept, offered, offered, List.filterMap_cons]
      cases accepts config with
      | none => rfl
      | some edited => cases empty : edited.isEmpty <;> simp [empty]
  exact going []

theorem keepsFirst_constrain (accepts : Constraint) (configs : List Config) :
    KeepsFirst (offered accepts configs) (constrain accepts configs) :=
  constrain_eq accepts configs ▸ keepsFirst_distinct _

theorem unrepeated_constrain (accepts : Constraint) (configs : List Config) :
    Unrepeated (constrain accepts configs) :=
  have keeps := keepsFirst_constrain accepts configs
  ⟨fun _ member => isEmpty_of_mem_offered (keeps.sublist.subset member), keeps.unequal⟩

/-- Accepting all configurations changes nothing exactly if there is nothing to drop. -/
theorem constrain_some_iff {configs : List Config} : constrain some configs = configs ↔ Unrepeated configs := by
  constructor
  · intro same
    exact same ▸ unrepeated_constrain some configs
  · rintro ⟨nonempty, unequal⟩
    rw [constrain_eq, offered_some nonempty]
    exact foldl_addNew_of_unequal unequal

/-- The table that a sweep spans. -/
def cut (slices : Option (Dict Selector)) (fallback : Selector) (varied : Config) : Except Error Config :=
  match slices with
  | some slices => restrict slices fallback varied
  | none => .ok varied

/-- What of a table's combinations a sweep takes. -/
def kept (constraint : Option Constraint) (configs : List Config) : List Config :=
  match constraint with
  | some accepts => constrain accepts configs
  | none => configs

theorem build_eq (constraint : Option Constraint) (slices : Option (Dict Selector)) (fallback : Selector)
    (varied : Config) : build constraint slices fallback varied =
      (cut slices fallback varied).map fun table => labelled varied (kept constraint table.combinations) := by
  unfold build cut
  cases slices with
  | none => rfl
  | some slices => cases restrict slices fallback varied <;> rfl

section
variable {slices : Option (Dict Selector)} {fallback : Selector} {varied table : Config}

private theorem proper_restrict {slices : Dict Selector} (proper : varied.Every Value.NotNan)
    (restricted : restrict slices fallback varied = .ok table) : table.Every Value.NotNan := by
  obtain ⟨entries, selected, last⟩ := Outcome.bind_eq_ok_iff.mp restricted
  cases last
  rintro ⟨key, value⟩ member
  have listed := Dict.mem_of_get?_ofList (Dict.get?_eq_some_iff.mpr member)
  obtain ⟨⟨name, held⟩, inside, made⟩ := Outcome.exists_item_of_mem (Outcome.mapM_eq_ok_iff.mp selected) listed
  have every := proper _ inside
  cases held with
  | list items =>
    obtain ⟨chosen, accepted, last⟩ := Outcome.bind_eq_ok_iff.mp made
    cases last
    exact ⟨trivial, Value.everyItem_iff.mpr fun item taken =>
      Value.everyItem_iff.mp every.2 item (Selector.mem_of_mem_select accepted taken)⟩
  | none | bool | int | float | str | tuple | dict =>
    cases made
    exact every

theorem proper_cut (proper : varied.Every Value.NotNan) (made : cut slices fallback varied = .ok table) :
    table.Every Value.NotNan := by
  cases slices with
  | none =>
    cases made
    exact proper
  | some slices => exact proper_restrict proper made

theorem keepsFirst_kept_iff {constraint : Option Constraint} (proper : table.Every Value.NotNan) :
    Unrepeated (kept constraint table.combinations) ∧
        KeepsFirst (offered (constraint.getD some) table.combinations) (kept constraint table.combinations) ↔
      constraint.isSome = true ∨ table.Separates := by
  cases constraint with
  | some accepts =>
    simp only [kept, Option.getD_some, Option.isSome_some, true_or, iff_true]
    exact ⟨unrepeated_constrain accepts _, keepsFirst_constrain accepts _⟩
  | none =>
    simp only [kept, Option.getD_none, Option.isSome_none, Bool.false_eq_true, false_or,
      ← unrepeated_combinations_iff proper]
    refine and_iff_left_of_imp fun unrepeated => ?_
    have keeps := keepsFirst_constrain some table.combinations
    rwa [constrain_some_iff.mpr unrepeated] at keeps

/-- A sweep has a label for each of its configurations. They are the first of equal ones and none is empty if there is
a constraint, and else exactly if the table that is spanned separates its combinations. Just then a constraint that
accepts all of them is as good as none. -/
theorem build_unrepeated_iff {constraint : Option Constraint} {sweep : Sweep} (proper : varied.Every Value.NotNan)
    (built : build constraint slices fallback varied = .ok sweep) :
    ∃ table, cut slices fallback varied = .ok table ∧ sweep.labels = sweep.configs.map (Label.ofSweep varied) ∧
      (constraint = none → sweep.configs = table.combinations) ∧
      (Unrepeated sweep.configs ∧ KeepsFirst (offered (constraint.getD some) table.combinations) sweep.configs ↔
        constraint.isSome = true ∨ table.Separates) ∧
      (build (some some) slices fallback varied = build none slices fallback varied ↔ table.Separates) := by
  rw [build_eq] at built
  obtain ⟨table, made, rfl⟩ := Outcome.map_eq_ok_iff.mp built
  have properTable := proper_cut proper made
  refine ⟨table, made, rfl, ?_, keepsFirst_kept_iff properTable, ?_⟩
  · rintro rfl
    rfl
  · rw [build_eq, build_eq, made, ← unrepeated_combinations_iff properTable, ← constrain_some_iff]
    constructor
    · intro same
      exact congrArg Sweep.configs (Except.ok.inj same)
    · intro same
      simp only [Outcome.map_ok, kept, same]

/-- A table with candidates for one parameter. -/
def single (candidates : List Value) : Config := Dict.ofList [("a", .list candidates)]

/-- A selector for it that picks the first candidate twice. -/
def doubled : Dict Selector := Dict.ofList [("a", .indices [0, 2, 0])]

theorem build_unrepeated_iff_doubled :
    ∃ table sweep, cut (some doubled) (.indices []) (single [.int 1, .int 2, .int 3]) = .ok table ∧
      build (some some) (some doubled) (.indices []) (single [.int 1, .int 2, .int 3]) = .ok sweep ∧
      ¬table.Separates ∧ Unrepeated sweep.configs ∧ sweep.configs.length = 2 ∧ sweep.labels.length = 2 := by
  have proper : (single [.int 1, .int 2, .int 3]).Every Value.NotNan :=
    List.forall_mem_singleton.mpr ⟨trivial, trivial, trivial, trivial, trivial⟩
  have built : build (some some) (some doubled) (.indices []) (single [.int 1, .int 2, .int 3]) =
      .ok (labelled (single [.int 1, .int 2, .int 3]) [Dict.ofList [("a", .int 1)], Dict.ofList [("a", .int 3)]]) :=
    rfl
  obtain ⟨table, made, -, -, kept, same⟩ := build_unrepeated_iff proper built
  refine ⟨table, _, made, built, fun separates => ?_, (kept.mpr (.inl rfl)).1, rfl, rfl⟩
  have lengths := congrArg (fun outcome => outcome.toOption.map fun sweep => sweep.configs.length) (same.mpr separates)
  exact absurd (Option.some.inj lengths) (by decide)

/-- Without a constraint a candidate that is listed twice gives two equal configurations, with one that accepts all
of them it gives one. -/
theorem build_unrepeated_fails :
    ∃ sweep, build none none (.slice (some 0) (some 1) none) (single [.int 1, .int 1]) = .ok sweep ∧
      ¬Unrepeated sweep.configs ∧ sweep.configs.length = 2 ∧
      build (some some) none (.slice (some 0) (some 1) none) (single [.int 1, .int 1]) ≠
        build none none (.slice (some 0) (some 1) none) (single [.int 1, .int 1]) := by
  refine ⟨_, rfl, fun unrepeated => ?_, rfl, fun same => ?_⟩
  · have differ := List.rel_of_pairwise_cons unrepeated.2 List.mem_cons_self
    exact absurd differ (by decide)
  · have lengths := congrArg (fun outcome => outcome.toOption.map fun sweep => sweep.configs.length) same
    exact absurd (Option.some.inj lengths) (by decide)

end
end Sweep
end ParamSweep
