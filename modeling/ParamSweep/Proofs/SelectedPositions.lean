import Mathlib.Algebra.Order.Floor.Div
import ParamSweep.Proofs.SelectorRoundTrip

/-! The positions that a selector takes of a list. A slice takes those on a grid from its start up to its stop, in
ascending order, and never fails. Listed positions are taken as they are listed, or the first that the list does not
have is reported. -/

namespace ParamSweep.Selector

variable {α : Type}

/-- Which positions of a list of some length are on the grid of a slice. A stop beyond the end is cut down to it. -/
def gridOf (start stop step : Option Nat) (length : Nat) : List Nat :=
  (List.range (min (stop.getD length) length)).filter fun position =>
    start.getD 0 ≤ position ∧ step.getD 1 ∣ position - start.getD 0

/-- Passing over a front of a list is waiting that long. -/
theorem everyNth_drop (skip wait : Nat) (items : List α) :
    everyNth skip 0 (items.drop wait) = everyNth skip wait items := by
  induction wait generalizing items with
  | zero => rw [List.drop_zero]
  | succ wait ih =>
    cases items with
    | nil => rfl
    | cons _ rest => exact ih rest

/-- After the wait every position is taken whose distance from there the stride divides. -/
theorem map_some_everyNth (skip wait : Nat) (items : List α) :
    (everyNth skip wait items).map some =
      ((List.range items.length).filter fun position =>
        wait ≤ position ∧ skip + 1 ∣ position - wait).map (items[·]?) := by
  induction items generalizing wait with
  | nil => cases wait <;> rfl
  | cons item rest ih =>
    rw [List.length_cons, List.range_succ_eq_map, List.filter_cons, List.filter_map]
    cases wait with
    | zero =>
      -- The next position is taken when the stride has passed over what it skips.
      have next (position : Nat) : skip + 1 ∣ position + 1 ↔ skip ≤ position ∧ skip + 1 ∣ position - skip := by
        constructor
        · intro divides
          have reached := Nat.le_of_dvd position.succ_pos divides
          refine ⟨Nat.le_of_succ_le_succ reached, ?_⟩
          have shorter := Nat.dvd_sub divides (dvd_refl (skip + 1))
          rwa [Nat.add_sub_add_right] at shorter
        · rintro ⟨reached, divides⟩
          have longer := Nat.dvd_add divides (dvd_refl (skip + 1))
          rwa [← Nat.add_assoc, Nat.sub_add_cancel reached] at longer
      simp [everyNth, ih, Function.comp_def, next]
    | succ wait => simp [everyNth, ih, Function.comp_def]

theorem length_everyNth (skip wait : Nat) (items : List α) :
    (everyNth skip wait items).length = (items.length - wait) ⌈/⌉ (skip + 1) := by
  simp only [Nat.ceilDiv_eq_add_pred_div, Nat.add_succ_sub_one]
  induction items generalizing wait with
  | nil => simp [everyNth, Nat.div_eq_of_lt skip.lt_succ_self]
  | cons item rest ih =>
    cases wait with
    | zero =>
      rw [everyNth, List.length_cons, ih, Nat.sub_zero, List.length_cons, Nat.add_right_comm, Nat.add_assoc,
        Nat.add_div_right _ skip.succ_pos]
      by_cases reached : skip ≤ rest.length
      · rw [Nat.sub_add_cancel reached]
      · have few : rest.length < skip + 1 := by omega
        rw [Nat.sub_eq_zero_of_le (Nat.le_of_not_le reached), Nat.zero_add, Nat.div_eq_of_lt few,
          Nat.div_eq_of_lt skip.lt_succ_self]
    | succ wait => simp [everyNth, ih]

variable {start stop step : Option Nat}

theorem exists_stride (advances : step ≠ some 0) : ∃ skip, step.getD 1 = skip + 1 := by
  apply Nat.exists_eq_succ_of_ne_zero
  cases step with
  | none => exact Nat.one_ne_zero
  | some step => exact fun zero => advances (congrArg some zero)

/-- A slice that advances takes the positions on its grid. -/
theorem select_slice (advances : step ≠ some 0) (items : List α) :
    ∃ kept, select (.slice start stop step) items = .ok kept ∧
      kept.map some = (gridOf start stop step items.length).map (items[·]?) ∧
      kept.length = (min (stop.getD items.length) items.length - start.getD 0) ⌈/⌉ step.getD 1 := by
  obtain ⟨skip, stride⟩ := exists_stride advances
  have walk : everyNth skip 0 (between (start.getD 0) (stop.getD items.length) items) =
      everyNth skip (start.getD 0) (items.take (stop.getD items.length)) := everyNth_drop skip (start.getD 0) _
  refine ⟨everyNth skip 0 (between (start.getD 0) (stop.getD items.length) items), ?_, ?_, ?_⟩
  · simp only [select, stride]
  · rw [walk, map_some_everyNth, List.length_take, gridOf, stride]
    apply List.map_congr_left
    intro position member
    have inside := List.mem_range.mp (List.mem_filter.mp member).1
    rw [List.getElem?_take_of_lt (Nat.lt_of_lt_of_le inside (Nat.min_le_left _ _))]
  · rw [walk, length_everyNth, List.length_take, stride]

section
variable {positions : List Nat} {items : List α}

private def itemAt (items : List α) (index : Nat) : Except Error α :=
  match items[index]? with
  | some item => .ok item
  | none => .error (.indexOutOfRange index items.length)

private theorem select_indices (positions : List Nat) (items : List α) :
    select (.indices positions) items = positions.mapM (itemAt items) := rfl

private theorem itemAt_eq_ok_iff {index : Nat} {item : α} :
    itemAt items index = .ok item ↔ items[index]? = some item := by
  unfold itemAt
  cases items[index]? <;> simp

private theorem exists_itemAt_iff {index : Nat} : (∃ item, itemAt items index = .ok item) ↔ index < items.length := by
  simp [itemAt_eq_ok_iff, ← Option.isSome_iff_exists]

private theorem itemAt_eq_error_iff {index : Nat} {error : Error} :
    itemAt items index = .error error ↔ items.length ≤ index ∧ error = .indexOutOfRange index items.length := by
  rw [← List.getElem?_eq_none_iff, itemAt]
  cases items[index]? <;> simp [eq_comm]

/-- Listed positions give the items that stand there, in the order of the list and as often as it has them. -/
theorem select_indices_eq_ok_iff {kept : List α} :
    select (.indices positions) items = .ok kept ↔ kept.map some = positions.map (items[·]?) := by
  rw [select_indices, Outcome.mapM_eq_ok_iff, eq_comm, ← List.forall₂_eq_eq_eq, List.forall₂_map_left_iff,
    List.forall₂_map_right_iff]
  simp only [itemAt_eq_ok_iff]

theorem select_indices_eq_error_iff {error : Error} :
    select (.indices positions) items = .error error ↔
      ∃ before index after, positions = before ++ index :: after ∧ (∀ position ∈ before, position < items.length) ∧
        items.length ≤ index ∧ error = .indexOutOfRange index items.length := by
  rw [select_indices, Outcome.mapM_eq_error_iff]
  simp only [exists_itemAt_iff, itemAt_eq_error_iff]

theorem exists_select_indices_iff :
    (∃ kept, select (.indices positions) items = .ok kept) ↔ ∀ position ∈ positions, position < items.length := by
  constructor
  · rintro ⟨kept, taken⟩ position member
    obtain ⟨item, -, found⟩ := Outcome.exists_result_of_mem (Outcome.mapM_eq_ok_iff.mp taken) member
    exact exists_itemAt_iff.mp ⟨item, found⟩
  · intro inside
    cases outcome : select (.indices positions) items with
    | ok kept => exact ⟨kept, rfl⟩
    | error error =>
      obtain ⟨before, index, after, rfl, -, outside, -⟩ := select_indices_eq_error_iff.mp outcome
      exact absurd (inside index (by simp)) (Nat.not_lt.mpr outside)

end

/-- What is read as a selector picks by position. A slice is never refused: it takes exactly the positions on its grid,
from the first to the last. Listed positions give the items there exactly if all of them exist, and else the first that
does not is reported. -/
theorem select_of_parse {source : String} {selector : Selector} (accepted : parse source = .ok selector)
    (items : List α) :
    match selector with
    | .slice start stop step =>
      ∃ kept, select (.slice start stop step) items = .ok kept ∧
        kept.map some = (gridOf start stop step items.length).map (items[·]?) ∧
        kept.length = (min (stop.getD items.length) items.length - start.getD 0) ⌈/⌉ step.getD 1
    | .indices positions =>
      (∀ kept, select (.indices positions) items = .ok kept ↔ kept.map some = positions.map (items[·]?)) ∧
      ((∃ kept, select (.indices positions) items = .ok kept) ↔ ∀ position ∈ positions, position < items.length) ∧
      ∀ error, select (.indices positions) items = .error error ↔
        ∃ before index after, positions = before ++ index :: after ∧ (∀ position ∈ before, position < items.length) ∧
          items.length ≤ index ∧ error = .indexOutOfRange index items.length := by
  cases wellFormed_of_parse accepted with
  | slice _ advances => exact select_slice advances items
  | indices =>
    exact ⟨fun _ => select_indices_eq_ok_iff, exists_select_indices_iff, fun _ => select_indices_eq_error_iff⟩

/-- Every third of five items from the second on, and positions of which the fourth is the first to be missing. -/
theorem select_of_parse_five_items :
    parse "1::3" = .ok (.slice (some 1) none (some 3)) ∧
    (∃ kept, select (.slice (some 1) none (some 3)) ['a', 'b', 'c', 'd', 'e'] = .ok kept ∧
      kept.map some = [some 'b', some 'e'] ∧ kept.length = 2) ∧
    parse "4,0,4,9,7" = .ok (.indices [4, 0, 4, 9, 7]) ∧
    select (.indices [4, 0, 4, 9, 7]) ['a', 'b', 'c', 'd', 'e'] = .error (.indexOutOfRange 9 5) := by
  have slice : parse "1::3" = .ok (.slice (some 1) none (some 3)) := rfl
  have positions : parse "4,0,4,9,7" = .ok (.indices [4, 0, 4, 9, 7]) := rfl
  refine ⟨slice, select_of_parse slice _, positions, ?_⟩
  exact ((select_of_parse positions _).2.2 _).mpr ⟨[4, 0, 4], 9, [7], rfl, by decide, by decide, rfl⟩

end ParamSweep.Selector
