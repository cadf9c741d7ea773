import Mathlib.Data.List.Nodup
import Mathlib.Data.List.Perm.Basic
import ParamSweep.Param.Family
import ParamSweep.Proofs.Combinations
import ParamSweep.Search.Grid

/-! The order of axes. Axes in another order span the same configurations in another order. A table holds its axes
in key order, so axes that stand in key order already are spanned as their table is. -/

namespace ParamSweep

namespace Dict

universe u

variable {α : Type u} {entries : List (String × α)}

/-- Without repeated keys every entry counts. -/
theorem get?_ofList_eq_some_iff (distinct : (entries.map Prod.fst).Nodup) {key : String} {value : α} :
    (ofList entries).get? key = some value ↔ (key, value) ∈ entries := by
  refine ⟨mem_of_get?_ofList, fun member => ?_⟩
  cases found : (ofList entries).get? key with
  | none =>
    rw [get?_ofList, List.lookup_eq_none_iff] at found
    exact absurd rfl (bne_iff_ne.mp (found (key, value) (List.mem_reverse.mpr member)))
  | some held =>
    have same := List.inj_on_of_nodup_map distinct (mem_of_get?_ofList found) member rfl
    rw [(Prod.mk.inj same).2]

theorem ofList_of_perm {other : List (String × α)} (perm : entries.Perm other)
    (distinct : (entries.map Prod.fst).Nodup) : ofList entries = ofList other := by
  have distinctOther : (other.map Prod.fst).Nodup := (perm.map Prod.fst).nodup_iff.mp distinct
  apply ext_get?
  intro key
  apply Option.ext
  intro value
  rw [get?_ofList_eq_some_iff distinct, get?_ofList_eq_some_iff distinctOther, perm.mem_iff]

theorem entries_ofList_perm (distinct : (entries.map Prod.fst).Nodup) : (ofList entries).entries.Perm entries := by
  refine (List.perm_ext_iff_of_nodup (nodup_keys (ofList entries)).of_map distinct.of_map).mpr ?_
  rintro ⟨key, value⟩
  rw [← get?_eq_some_iff, get?_ofList_eq_some_iff distinct]

/-- Under a new key it makes no difference whether an entry comes first or last. -/
theorem ofList_cons {key : String} {value : α} (distinct : (((key, value) :: entries).map Prod.fst).Nodup) :
    ofList ((key, value) :: entries) = (ofList entries).insert key value := by
  rw [ofList_of_perm (List.perm_append_singleton (key, value) entries).symm distinct, ofList, List.foldl_append]
  rfl

theorem insert_comm {key other : String} (distinct : key ≠ other) (dict : Dict α) (value held : α) :
    (dict.insert key value).insert other held = (dict.insert other held).insert key value := by
  apply ext_get?
  intro asked
  simp only [get?_insert]
  split
  next same => rw [if_neg fun here => distinct (here.symm.trans same)]
  next => rfl

end Dict

namespace Config

theorem combinationsOf_cons {axis : Axis} {rest : List Axis} (distinct : ((axis :: rest).map Prod.fst).Nodup) :
    combinationsOf (axis :: rest) =
      axis.2.flatMap fun value => (combinationsOf rest).map fun config => config.insert axis.1 value := by
  obtain ⟨name, candidates⟩ := axis
  simp only [combinationsOf, choices, List.map_flatMap, List.map_map]
  congr
  funext value
  apply List.map_congr_left
  intro choice chosen
  apply Dict.ofList_cons
  rwa [List.map_cons, map_fst_of_mem_choices chosen]

private theorem flatMap_swap {α β γ : Type} (lefts : List α) (rights : List β) (f : α → β → List γ) :
    (lefts.flatMap fun left => rights.flatMap fun right => f left right).Perm
      (rights.flatMap fun right => lefts.flatMap fun left => f left right) := by
  induction lefts with
  | nil => simp
  | cons first rest ih =>
    simp only [List.flatMap_cons]
    exact (ih.append_left _).trans (List.flatMap_append_perm rights (f first) _)

/-- Axes of different names may be taken in any order. -/
theorem combinationsOf_perm {axes other : List Axis} (perm : axes.Perm other) (distinct : (axes.map Prod.fst).Nodup) :
    (combinationsOf axes).Perm (combinationsOf other) := by
  induction perm with
  | nil => exact .refl _
  | cons axis perm ih =>
    rw [combinationsOf_cons distinct, combinationsOf_cons (((perm.cons axis).map Prod.fst).nodup_iff.mp distinct)]
    apply List.Perm.flatMap_left
    intro value _
    exact (ih (List.nodup_cons.mp distinct).2).map _
  | swap first second rest =>
    have swapped := ((List.Perm.swap first second rest).map Prod.fst).nodup_iff.mp distinct
    rw [combinationsOf_cons distinct, combinationsOf_cons (List.nodup_cons.mp distinct).2,
      combinationsOf_cons swapped, combinationsOf_cons (List.nodup_cons.mp swapped).2]
    have differ : first.1 ≠ second.1 := fun same => (List.nodup_cons.mp distinct).1 (same ▸ List.mem_cons_self)
    simp only [List.map_flatMap, List.map_map, Function.comp_def, Dict.insert_comm differ]
    exact flatMap_swap second.2 first.2 _
  | trans front _ first second => exact (first distinct).trans (second ((front.map Prod.fst).nodup_iff.mp distinct))

/-- Axes as a table, each name with the list of its candidates. -/
def tabulate (axes : List Axis) : Config := Dict.ofList (axes.map fun axis => (axis.1, .list axis.2))

private theorem names_listed (axes : List Axis) :
    (axes.map fun axis => (axis.1, Value.list axis.2)).map Prod.fst = axes.map Prod.fst := by
  rw [List.map_map]
  rfl

private theorem candidates_listed (axes : List Axis) :
    (axes.map fun axis => (axis.1, Value.list axis.2)).map (fun entry => (entry.1, entry.2.candidates)) = axes := by
  rw [List.map_map]
  exact List.map_id axes

theorem axes_tabulate_perm {axes : List Axis} (distinct : (axes.map Prod.fst).Nodup) :
    (tabulate axes).axes.Perm axes := by
  rw [← names_listed] at distinct
  have listed := (Dict.entries_ofList_perm distinct).map fun entry => (entry.1, entry.2.candidates)
  rwa [candidates_listed] at listed

theorem axes_tabulate_of_sorted {axes : List Axis} (sorted : (axes.map Prod.fst).Pairwise (· < ·)) :
    (tabulate axes).axes = axes := by
  rw [← names_listed] at sorted
  rw [tabulate, Dict.ofList_of_sorted (List.pairwise_map.mp sorted)]
  exact candidates_listed axes

theorem combinationsOf_perm_tabulate {axes : List Axis} (distinct : (axes.map Prod.fst).Nodup) :
    (combinationsOf axes).Perm (combinations (tabulate axes)) :=
  combinationsOf_perm (axes_tabulate_perm distinct).symm distinct

end Config

namespace Family

theorem table_eq (family : Family) : family.table = Config.tabulate family.basis := by
  rw [table, Config.tabulate, basis, List.map_map]
  rfl

theorem slices?_of_unsliced {family : Family} (unsliced : ∀ param ∈ family.params, param.slice = none) :
    family.slices? = none := by
  have none : (family.params.filterMap fun param => param.slice.map fun slice => (param.key, slice)) = [] := by
    apply List.filterMap_eq_nil_iff.mpr
    intro param member
    rw [unsliced param member, Option.map_none]
  rw [slices?, none]
  rfl

theorem sweep_of_unsliced {family : Family} (unsliced : ∀ param ∈ family.params, param.slice = none)
    (unconstrained : family.constraint = none) (fallback : Selector) :
    family.sweep fallback = .ok (Sweep.labelled family.table family.table.combinations) := by
  rw [sweep, slices?_of_unsliced unsliced, unconstrained]
  rfl

end Family

namespace Config

/-- Axes span the same configurations in the order that they are given in and as a table, where they stand in key
order. So a sweep over a whole family has the points of a search over its basis. -/
theorem combinations_in_any_order :
    (∀ axes : List Axis, (axes.map Prod.fst).Nodup →
      (combinationsOf axes).Perm (combinations (tabulate axes)) ∧
      ((axes.map Prod.fst).Pairwise (· ≤ ·) → combinationsOf axes = combinations (tabulate axes))) ∧
    ∀ family : Family, family.keys.Nodup → (∀ param ∈ family.params, param.slice = none) → family.constraint = none →
      ∀ (fallback : Selector) (label : Option String), ∃ sweep, family.sweep fallback = .ok sweep ∧
        sweep.configs.Perm (GridSearch.new label family.basis).points := by
  refine ⟨fun axes distinct => ⟨combinationsOf_perm_tabulate distinct, fun ordered => ?_⟩, ?_⟩
  · have sorted : (axes.map Prod.fst).Pairwise (· < ·) :=
      (ordered.and distinct).imp fun both => Decidable.byContradiction fun notBefore =>
        both.2 (String.le_antisymm both.1 (String.not_lt.mp notBefore))
    rw [combinations, axes_tabulate_of_sorted sorted]
  · intro family distinct unsliced unconstrained fallback label
    have names : family.basis.map Prod.fst = family.keys := by
      rw [Family.basis, List.map_map]
      rfl
    refine ⟨_, Family.sweep_of_unsliced unsliced unconstrained fallback, ?_⟩
    rw [family.table_eq]
    exact (combinationsOf_perm_tabulate (names ▸ distinct)).symm

/-- Parameters whose keys stand in falling order. -/
def fallingPair : Family where
  name := "pair"
  params := [{ Param.flag "z" with candidates := [.bool true, .bool false] },
    { Param.keyed "a" .none with candidates := [.int 1, .int 2, .int 3] }]
  constraint := none

theorem combinations_in_any_order_falling_pair :
    combinationsOf fallingPair.basis ≠ combinations (tabulate fallingPair.basis) ∧
    (combinationsOf fallingPair.basis).Perm (combinations (tabulate fallingPair.basis)) ∧
    combinationsOf fallingPair.basis.reverse = combinations (tabulate fallingPair.basis.reverse) ∧
    ∃ sweep, fallingPair.sweep (.indices []) = .ok sweep ∧
      sweep.configs.Perm (GridSearch.new none fallingPair.basis).points ∧ sweep.configs.length = 6 := by
  obtain ⟨ordered, swept⟩ := combinations_in_any_order
  obtain ⟨sweep, built, spanned⟩ := swept fallingPair (by decide) (by simp [fallingPair, Param.flag, Param.keyed]) rfl
    (.indices []) none
  refine ⟨fun same => ?_, (ordered fallingPair.basis (by decide)).1,
    (ordered fallingPair.basis.reverse (by decide)).2 (by decide), sweep, built, spanned, spanned.length_eq⟩
  have second := congrArg (fun configs => configs[1]?.bind fun config => config.get? "z") same
  exact absurd (Value.bool.inj (Option.some.inj second)) (by decide)

end Config
end ParamSweep
