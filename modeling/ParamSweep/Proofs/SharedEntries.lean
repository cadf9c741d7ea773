import ParamSweep.Config.Shared
import ParamSweep.Proofs.ValueEquality

/-! What configurations share. An entry is shared exactly if all of them hold an equal value under its key, and the
first of them gives the value that is kept. -/

namespace ParamSweep.Config

theorem get?_shared_eq_some_iff {config other : Config} {key : String} {value : Value} :
    (config.shared other).get? key = some value ↔
      config.get? key = some value ∧ ∃ found, other.get? key = some found ∧ (found == value) = true := by
  rw [shared, Dict.get?_filter, Option.filter_eq_some_iff]
  cases other.get? key <;> simp

theorem get?_foldl_shared_iff {first : Config} {rest : List Config} {key : String} {value : Value} :
    (rest.foldl shared first).get? key = some value ↔
      first.get? key = some value ∧
        ∀ other ∈ rest, ∃ found, other.get? key = some found ∧ (found == value) = true := by
  induction rest generalizing first with
  | nil => simp
  | cons next others ih => rw [List.foldl_cons, ih, get?_shared_eq_some_iff, List.forall_mem_cons, and_assoc]

/-- Whether configurations hold values under a key that equal a given one. -/
def HeldByAll (configs : List Config) (key : String) (value : Value) : Prop :=
  ∀ config ∈ configs, ∃ found, config.get? key = some found ∧ (found == value) = true

/-- A value that is kept equals those of all configurations, once one of them equals itself. -/
theorem heldByAll_of_shared {configs : List Config} {key : String} {value : Value}
    (held : (sharedByAll configs).get? key = some value) {config : Config} (member : config ∈ configs)
    (proper : config.Every Value.NotNan) : HeldByAll configs key value := by
  cases configs with
  | nil => cases member
  | cons first rest =>
    obtain ⟨here, later⟩ := get?_foldl_shared_iff.mp held
    have self : (value == value) = true := by
      rcases List.mem_cons.mp member with rfl | member
      · exact (proper.of_get? here).beq_self
      · obtain ⟨found, -, same⟩ := later config member
        exact Value.beq_trans (Value.beq_symm same) same
    intro other among
    rcases List.mem_cons.mp among with rfl | among
    · exact ⟨value, here, self⟩
    · exact later other among

theorem exists_shared_of_heldByAll {configs : List Config} {key : String} {value : Value}
    (present : configs ≠ []) (held : HeldByAll configs key value) :
    ∃ kept, (sharedByAll configs).get? key = some kept := by
  cases configs with
  | nil => exact absurd rfl present
  | cons first rest =>
    obtain ⟨kept, here, same⟩ := held first List.mem_cons_self
    refine ⟨kept, get?_foldl_shared_iff.mpr ⟨here, fun other member => ?_⟩⟩
    obtain ⟨found, there, equal⟩ := held other (List.mem_cons_of_mem _ member)
    exact ⟨found, there, Value.beq_trans equal (Value.beq_symm same)⟩

end ParamSweep.Config
