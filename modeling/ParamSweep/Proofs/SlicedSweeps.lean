import Mathlib.Data.List.Flatten
import ParamSweep.Proofs.Combinations
import ParamSweep.Proofs.PlainTokens
import ParamSweep.Proofs.SelectedPositions
import ParamSweep.Sweep

/-! Sweeps over a part of the candidates. Slices leave out candidates and keep the order of the others, so the sweep
that they leave is a selection from the whole one, and each configuration keeps its label. -/

namespace ParamSweep

namespace Selector

variable {α : Type}

/-- Whether a selector is a slice with a step other than zero. -/
def IsSlice : Selector → Prop
  | .indices _ => False
  | .slice _ _ step => step ≠ some 0

theorem exists_select_of_isSlice {selector : Selector} (slices : selector.IsSlice) (items : List α) :
    ∃ kept, selector.select items = .ok kept ∧ kept.Sublist items := by
  cases selector with
  | indices positions => exact slices.elim
  | slice start stop step =>
    have inside : (between (start.getD 0) (stop.getD items.length) items).Sublist items :=
      (List.drop_sublist _ _).trans (List.take_sublist _ _)
    obtain ⟨skip, stride⟩ := exists_stride slices
    refine ⟨everyNth skip 0 (between (start.getD 0) (stop.getD items.length) items), ?_,
      (everyNth_sublist skip 0 _).trans inside⟩
    simp only [select, stride]

end Selector

namespace Config

/-- With some candidates left out, what remains of the choices keeps its order. -/
theorem choices_sublist {cut whole : List Axis}
    (inside : List.Forall₂ (fun part axis : Axis => part.1 = axis.1 ∧ part.2.Sublist axis.2) cut whole) :
    (choices cut).Sublist (choices whole) := by
  induction inside with
  | nil => exact .refl _
  | @cons part axis cut whole here _ ih =>
    obtain ⟨name, candidates⟩ := part
    obtain ⟨rfl, fewer⟩ := here
    have fewerBehind : (choices ((axis.1, candidates) :: cut)).Sublist
        (candidates.flatMap fun value => (choices whole).map ((axis.1, value) :: ·)) :=
      List.Sublist.flatMap_right _ fun value _ => ih.map _
    exact fewerBehind.trans (fewer.flatMap _)

theorem combinations_sublist {part whole : Config}
    (inside : List.Forall₂ (fun part axis : Axis => part.1 = axis.1 ∧ part.2.Sublist axis.2) part.axes whole.axes) :
    part.combinations.Sublist whole.combinations := (choices_sublist inside).map Dict.ofList

end Config

namespace Sweep
open Config

/-- What slices leave of an entry. -/
def cutEntry (slices : Dict Selector) (fallback : Selector) (entry : String × Value) : Except Error (String × Value) :=
  match entry.2 with
  | .list items =>
    (((slices.get? entry.1).getD fallback).select items).map fun kept => (entry.1, .list kept)
  | other => .ok (entry.1, other)

theorem restrict_eq (slices : Dict Selector) (fallback : Selector) (varied : Config) :
    restrict slices fallback varied = (varied.entries.mapM (cutEntry slices fallback)).map Dict.ofList := rfl

section
variable {slices : Dict Selector} {fallback : Selector}

theorem exists_cutEntry (sliced : ∀ key selector, slices.get? key = some selector → selector.IsSlice)
    (otherwise : fallback.IsSlice) (entry : String × Value) :
    ∃ part, cutEntry slices fallback entry = .ok part ∧ part.1 = entry.1 ∧
      part.2.candidates.Sublist entry.2.candidates := by
  obtain ⟨key, value⟩ := entry
  cases value with
  | list items =>
    have chosen : ((slices.get? key).getD fallback).IsSlice := by
      cases found : slices.get? key with
      | none => exact otherwise
      | some selector => exact sliced key selector found
    obtain ⟨kept, selected, inside⟩ := Selector.exists_select_of_isSlice chosen items
    exact ⟨(key, .list kept), by simp only [cutEntry, selected, Outcome.map_ok], rfl, inside⟩
  | none | bool | int | float | str | tuple | dict => exact ⟨_, rfl, rfl, .refl _⟩

/-- Slices leave each parameter its place and a part of its candidates. -/
theorem exists_restrict_of_slices (sliced : ∀ key selector, slices.get? key = some selector → selector.IsSlice)
    (otherwise : fallback.IsSlice) (varied : Config) :
    ∃ table, restrict slices fallback varied = .ok table ∧
      List.Forall₂ (fun part axis : Axis => part.1 = axis.1 ∧ part.2.Sublist axis.2) table.axes varied.axes := by
  have cuts : List.Forall₂ (fun entry whole : String × Value => ∃ part, cutEntry slices fallback entry = .ok part ∧
      (part.1 = whole.1 ∧ part.2.candidates.Sublist whole.2.candidates)) varied.entries varied.entries :=
    List.forall₂_same.mpr fun entry _ => exists_cutEntry sliced otherwise entry
  obtain ⟨parts, walked, related⟩ := Outcome.exists_mapM_eq_ok cuts
  have named : varied.entries.map Prod.fst = parts.map Prod.fst := by
    rw [← List.forall₂_eq_eq_eq, List.forall₂_map_left_iff, List.forall₂_map_right_iff]
    exact related.imp fun _ _ both => both.1.symm
  have sorted : parts.Pairwise fun left right => left.1 < right.1 := by
    have ordered := List.pairwise_map.mpr varied.sorted
    rw [named] at ordered
    exact List.pairwise_map.mp ordered
  refine ⟨⟨parts, sorted⟩, ?_, ?_⟩
  · rw [restrict_eq, walked, Outcome.map_ok, Dict.ofList_of_sorted sorted]
  · rw [axes, axes, List.forall₂_map_left_iff, List.forall₂_map_right_iff]
    exact related.flip

/-- Cut by slices, a sweep without a constraint is a selection from the whole sweep, in its order and with its labels.
The default that the whole sweep is given plays no part. -/
theorem build_sliced (sliced : ∀ key selector, slices.get? key = some selector → selector.IsSlice)
    (otherwise : fallback.IsSlice) (varied : Config) (other : Selector) :
    ∃ sweep whole, build none (some slices) fallback varied = .ok sweep ∧ build none none other varied = .ok whole ∧
      sweep.labels.length = sweep.configs.length ∧ whole.labels.length = whole.configs.length ∧
      (sweep.configs.zip sweep.labels).Sublist (whole.configs.zip whole.labels) := by
  obtain ⟨table, restricted, inside⟩ := exists_restrict_of_slices sliced otherwise varied
  refine ⟨labelled varied table.combinations, labelled varied varied.combinations, ?_, rfl, by simp [labelled],
    by simp [labelled], ?_⟩
  · rw [build, restricted]
    rfl
  · simp only [labelled, ← List.map_prod_left_eq_zip]
    exact (combinations_sublist inside).map _

end

/-- Slices for two parameters of which one is not swept: every other candidate, and the first. -/
def everyOther : Dict Selector := Dict.ofList [("a", .slice none (some 9) (some 2)), ("c", .slice none (some 1) none)]

/-- A table with candidates for two parameters. -/
def threeByTwo : Config :=
  Dict.ofList [("a", .list [.int 1, .int 2, .int 3]), ("b", .list [.str "x", .str "y"]), ("c", .int 0)]

theorem build_sliced_every_other :
    ∃ sweep whole, build none (some everyOther) (.slice (some 1) none none) threeByTwo = .ok sweep ∧
      build none none (.indices [5]) threeByTwo = .ok whole ∧
      (sweep.configs.zip sweep.labels).Sublist (whole.configs.zip whole.labels) ∧
      sweep.configs.length = 2 ∧ whole.configs.length = 6 := by
  have sliced : ∀ key selector, everyOther.get? key = some selector → selector.IsSlice := by
    intro key selector held
    have member := Dict.get?_eq_some_iff.mp held
    have entries : everyOther.entries =
      [("a", .slice none (some 9) (some 2)), ("c", .slice none (some 1) none)] := rfl
    rw [entries] at member
    simp only [List.mem_cons, Prod.mk.injEq, List.not_mem_nil, or_false] at member
    rcases member with ⟨-, rfl⟩ | ⟨-, rfl⟩ <;> simp [Selector.IsSlice]
  have otherwise : (Selector.slice (some 1) none none).IsSlice := nofun
  obtain ⟨sweep, whole, cut, built, -, -, inside⟩ :=
    build_sliced sliced otherwise threeByTwo (.indices [5])
  refine ⟨sweep, whole, cut, built, inside, ?_, ?_⟩
  · cases cut
    decide
  · cases built
    decide

end Sweep
end ParamSweep
