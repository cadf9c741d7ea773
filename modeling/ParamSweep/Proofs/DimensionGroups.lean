import Mathlib.Algebra.GroupWithZero.Nat
import ParamSweep.Proofs.CombinationPositions
import ParamSweep.Proofs.GridProjection
import ParamSweep.Proofs.RankOrder

/-! Statistics of a dimension. Its groups part the scored points by their values, in the order in which the values
first appear, and each group's statistics are those of its own scores. A grid that has points and all their scores has
a group for each candidate, and they are of one size. -/

namespace ParamSweep

namespace Config

section
variable {α : Type} [BEq α]

end

/-- The values of an axis along the combinations: each candidate as often as there are choices behind the axis, and
all of it again for each choice before it. -/
def layout (candidates : List Value) (before behind : Nat) : List Value :=
  (List.range before).flatMap fun _ => candidates.flatMap (List.replicate behind)

section
variable {candidates values : List Value} {before behind : Nat}

end
end Config

namespace GridSearch
open Config

section
variable {α : Type}

def alike (value : Value) (entries : List (Value × α)) : List (Value × α) :=
  entries.filter fun entry => value == entry.1

end

section
variable {values : List Value} {scores : List Binary64}

/-- Scores with their positions and with the values there. -/
def placed (values : List Value) (scores : List Binary64) : List (Value × Binary64 × Nat) := values.zip scores.zipIdx

end

end GridSearch
end ParamSweep
