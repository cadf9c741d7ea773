/-! Dictionaries with text keys. Entries stand in strictly increasing key order, by code point, so two
dictionaries with the same bindings are the same value and every walk visits the keys in that order. -/

namespace ParamSweep

universe u

/-- A finite map from text keys, held as its entries in increasing key order. -/
structure Dict (α : Type u) where
  entries : List (String × α)
  sorted : entries.Pairwise (fun left right => left.1 < right.1)

namespace Dict

variable {α : Type u}

@[ext] theorem ext {left right : Dict α} (same : left.entries = right.entries) : left = right := by
  cases left; cases right; simp_all

instance [DecidableEq α] : DecidableEq (Dict α) := fun left right =>
  decidable_of_iff (left.entries = right.entries) ⟨ext, fun same => same ▸ rfl⟩

instance [BEq α] : BEq (Dict α) := ⟨fun left right => left.entries == right.entries⟩

def empty : Dict α := ⟨[], .nil⟩

instance : EmptyCollection (Dict α) := ⟨empty⟩
instance : Inhabited (Dict α) := ⟨empty⟩

def keys (dict : Dict α) : List String := dict.entries.map Prod.fst

def isEmpty (dict : Dict α) : Bool := dict.entries.isEmpty

def size (dict : Dict α) : Nat := dict.entries.length

def get? (dict : Dict α) (key : String) : Option α := dict.entries.lookup key

def contains (dict : Dict α) (key : String) : Bool := (dict.get? key).isSome

/-- Puts an entry at its place in a sorted list, over an entry with the same key. -/
def place (key : String) (value : α) : List (String × α) → List (String × α)
  | [] => [(key, value)]
  | entry :: rest =>
    if key < entry.1 then (key, value) :: entry :: rest
    else if key = entry.1 then (key, value) :: rest
    else entry :: place key value rest

theorem fst_of_mem_place {key : String} {value : α} {entries : List (String × α)} {entry : String × α}
    (mem : entry ∈ place key value entries) : entry.1 = key ∨ entry ∈ entries := by
  induction entries with
  | nil => simp_all [place]
  | cons first rest ih =>
    unfold place at mem
    split at mem
    · rcases List.mem_cons.mp mem with rfl | found <;> simp_all
    · split at mem
      · rcases List.mem_cons.mp mem with rfl | found <;> simp_all
      · rcases List.mem_cons.mp mem with rfl | found
        · simp
        · rcases ih found with same | found <;> simp_all

theorem sorted_place (key : String) (value : α) {entries : List (String × α)}
    (sorted : entries.Pairwise (fun left right => left.1 < right.1)) :
    (place key value entries).Pairwise (fun left right => left.1 < right.1) := by
  induction entries with
  | nil => simp [place]
  | cons first rest ih =>
    obtain ⟨above, tail⟩ := List.pairwise_cons.mp sorted
    unfold place
    split
    next before =>
      refine List.pairwise_cons.mpr ⟨fun entry mem => ?_, sorted⟩
      rcases List.mem_cons.mp mem with rfl | found
      · exact before
      · exact String.lt_trans before (above entry found)
    next notBefore =>
      split
      next same => exact List.pairwise_cons.mpr ⟨fun entry found => same ▸ above entry found, tail⟩
      next other =>
        refine List.pairwise_cons.mpr ⟨fun entry mem => ?_, ih tail⟩
        rcases fst_of_mem_place mem with same | found
        · have reverse : first.1 ≤ key := String.not_lt.mp notBefore
          rw [same]
          exact Decidable.byContradiction fun stuck =>
            other (String.le_antisymm (String.not_lt.mp stuck) reverse)
        · exact above entry found

/-- Binds a key, replacing what it held. -/
def insert (dict : Dict α) (key : String) (value : α) : Dict α :=
  ⟨place key value dict.entries, sorted_place key value dict.sorted⟩

/-- Keeps the entries that a test on key and value accepts. -/
def filter (keep : String → α → Bool) (dict : Dict α) : Dict α :=
  ⟨dict.entries.filter fun entry => keep entry.1 entry.2, dict.sorted.filter _⟩

def erase (dict : Dict α) (key : String) : Dict α := dict.filter fun other _ => other != key

def eraseAll (dict : Dict α) (keys : List String) : Dict α := keys.foldl erase dict

/-- Builds a dictionary from entries in any order; the last entry of a key holds. -/
def ofList (entries : List (String × α)) : Dict α :=
  entries.foldl (fun dict entry => dict.insert entry.1 entry.2) empty

/-- Adds all entries of `winners`, which win over those of `dict`. -/
def extend (dict winners : Dict α) : Dict α :=
  winners.entries.foldl (fun dict entry => dict.insert entry.1 entry.2) dict

end Dict
end ParamSweep
