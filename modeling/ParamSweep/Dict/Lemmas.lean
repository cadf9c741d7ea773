import ParamSweep.Dict.Basic

/-! What each operation does to the look-up of a dictionary. Look-ups determine a dictionary. -/

namespace ParamSweep.Dict

universe u

variable {α : Type u}

@[simp] theorem get?_empty (key : String) : (empty : Dict α).get? key = none := rfl

private theorem lookup_place_self (key : String) (value : α) (entries : List (String × α)) :
    (place key value entries).lookup key = some value := by
  induction entries with
  | nil => simp [place]
  | cons first rest ih =>
    obtain ⟨present, held⟩ := first
    unfold place
    split
    · simp
    · split
      · simp
      next other =>
        have differs : ¬key = present := other
        simp [List.lookup_cons, beq_false_of_ne differs, ih]

private theorem lookup_place_of_ne {key other : String} (distinct : other ≠ key) (value : α)
    (entries : List (String × α)) : (place key value entries).lookup other = entries.lookup other := by
  induction entries with
  | nil => simp [place, List.lookup_cons, beq_false_of_ne distinct]
  | cons first rest ih =>
    obtain ⟨present, held⟩ := first
    unfold place
    split
    · simp [List.lookup_cons, beq_false_of_ne distinct]
    · split
      next same =>
        have differs : ¬other = present := fun equal => distinct (equal.trans same.symm)
        simp [List.lookup_cons, beq_false_of_ne distinct, beq_false_of_ne differs]
      next => simp [List.lookup_cons, ih]

@[simp] theorem get?_insert_self (dict : Dict α) (key : String) (value : α) :
    (dict.insert key value).get? key = some value := lookup_place_self key value dict.entries

theorem get?_insert_of_ne {key other : String} (distinct : other ≠ key) (dict : Dict α) (value : α) :
    (dict.insert key value).get? other = dict.get? other := lookup_place_of_ne distinct value dict.entries

theorem get?_insert (dict : Dict α) (key other : String) (value : α) :
    (dict.insert key value).get? other = if other = key then some value else dict.get? other := by
  split
  next same => subst same; simp
  next distinct => exact get?_insert_of_ne distinct dict value

private theorem lookup_eq_some_iff {entries : List (String × α)} {key : String} {value : α}
    (sorted : entries.Pairwise (fun left right => left.1 < right.1)) :
    entries.lookup key = some value ↔ (key, value) ∈ entries := by
  induction entries with
  | nil => simp
  | cons first rest ih =>
    obtain ⟨present, held⟩ := first
    obtain ⟨above, tail⟩ := List.pairwise_cons.mp sorted
    by_cases same : key = present
    · subst same
      have absent : (key, value) ∉ rest := fun mem => String.lt_irrefl key (above _ mem)
      simp [absent, eq_comm]
    · simp [List.lookup_cons, beq_false_of_ne same, same, ih tail]

theorem get?_eq_some_iff {dict : Dict α} {key : String} {value : α} :
    dict.get? key = some value ↔ (key, value) ∈ dict.entries := lookup_eq_some_iff dict.sorted

theorem contains_iff_mem_keys {dict : Dict α} {key : String} : dict.contains key ↔ key ∈ dict.keys := by
  simp [contains, keys, Option.isSome_iff_exists, get?_eq_some_iff]

theorem mem_keys_iff {dict : Dict α} {key : String} :
    key ∈ dict.keys ↔ ∃ value, dict.get? key = some value := by
  rw [← contains_iff_mem_keys, contains, Option.isSome_iff_exists]

theorem nodup_keys (dict : Dict α) : dict.keys.Nodup := by
  refine List.pairwise_map.mpr (dict.sorted.imp ?_)
  intro left right before same
  rw [same] at before
  exact String.lt_irrefl _ before

theorem get?_filter (dict : Dict α) (keep : String → α → Bool) (key : String) :
    (dict.filter keep).get? key = (dict.get? key).filter (keep key) := by
  apply Option.ext
  intro value
  rw [get?_eq_some_iff, Option.filter_eq_some_iff, get?_eq_some_iff]
  simp [filter]

theorem get?_erase (dict : Dict α) (key other : String) :
    (dict.erase key).get? other = if other = key then none else dict.get? other := by
  rw [erase, get?_filter]
  by_cases same : other = key <;> cases dict.get? other <;> simp [same]

theorem get?_eraseAll (dict : Dict α) (keys : List String) (key : String) :
    (dict.eraseAll keys).get? key = if key ∈ keys then none else dict.get? key := by
  unfold eraseAll
  induction keys generalizing dict with
  | nil => simp
  | cons first rest ih =>
    rw [List.foldl_cons, ih, get?_erase]
    by_cases same : key = first <;> simp [same]

private theorem eq_of_mem_iff {left right : List (String × α)}
    (leftSorted : left.Pairwise (fun first second => first.1 < second.1))
    (rightSorted : right.Pairwise (fun first second => first.1 < second.1))
    (same : ∀ entry, entry ∈ left ↔ entry ∈ right) : left = right := by
  induction left generalizing right with
  | nil =>
    exact (List.eq_nil_iff_forall_not_mem.mpr fun entry mem => by simpa using (same entry).mpr mem).symm
  | cons first lefts ih =>
    cases right with
    | nil => exact absurd ((same first).mp List.mem_cons_self) (by simp)
    | cons second rights =>
      obtain ⟨aboveFirst, leftTail⟩ := List.pairwise_cons.mp leftSorted
      obtain ⟨aboveSecond, rightTail⟩ := List.pairwise_cons.mp rightSorted
      have heads : first = second := by
        rcases List.mem_cons.mp ((same first).mp List.mem_cons_self) with equal | inRight
        · exact equal
        · rcases List.mem_cons.mp ((same second).mpr List.mem_cons_self) with equal | inLeft
          · exact equal.symm
          · exact absurd (aboveFirst _ inLeft) (String.lt_asymm (aboveSecond _ inRight))
      subst heads
      congr 1
      refine ih leftTail rightTail fun entry => ⟨fun mem => ?_, fun mem => ?_⟩
      · rcases List.mem_cons.mp ((same entry).mp (List.mem_cons_of_mem _ mem)) with equal | found
        · exact absurd (aboveFirst _ mem) (equal ▸ String.lt_irrefl _)
        · exact found
      · rcases List.mem_cons.mp ((same entry).mpr (List.mem_cons_of_mem _ mem)) with equal | found
        · exact absurd (aboveSecond _ mem) (equal ▸ String.lt_irrefl _)
        · exact found

/-- Dictionaries with the same look-ups are equal. -/
theorem ext_get? {left right : Dict α} (same : ∀ key, left.get? key = right.get? key) : left = right := by
  apply ext
  refine eq_of_mem_iff left.sorted right.sorted fun entry => ?_
  obtain ⟨key, value⟩ := entry
  rw [← get?_eq_some_iff, ← get?_eq_some_iff, same]

private theorem get?_foldl_insert (entries : List (String × α)) (dict : Dict α) (key : String) :
    (entries.foldl (fun current entry => current.insert entry.1 entry.2) dict).get? key =
      (entries.reverse.lookup key).or (dict.get? key) := by
  induction entries generalizing dict with
  | nil => simp
  | cons first rest ih =>
    obtain ⟨present, held⟩ := first
    rw [List.foldl_cons, ih, get?_insert, List.reverse_cons, List.lookup_append]
    by_cases same : key = present
    · simp [same]
    · simp [List.lookup_cons, beq_false_of_ne same, same]

/-- Of repeated keys the last entry holds. -/
theorem get?_ofList (entries : List (String × α)) (key : String) :
    (ofList entries).get? key = entries.reverse.lookup key := by
  simp [ofList, get?_foldl_insert]

theorem mem_of_get?_ofList {entries : List (String × α)} {key : String} {value : α}
    (found : (ofList entries).get? key = some value) : (key, value) ∈ entries := by
  rw [get?_ofList] at found
  obtain ⟨before, after, cut, -⟩ := List.lookup_eq_some_iff.mp found
  rw [← List.mem_reverse, cut]
  exact List.mem_append_right before List.mem_cons_self

private theorem lookup_reverse {entries : List (String × α)} {key : String}
    (sorted : entries.Pairwise (fun left right => left.1 < right.1)) :
    entries.reverse.lookup key = entries.lookup key := by
  induction entries with
  | nil => rfl
  | cons first rest ih =>
    obtain ⟨present, held⟩ := first
    obtain ⟨above, tail⟩ := List.pairwise_cons.mp sorted
    rw [List.reverse_cons, List.lookup_append, ih tail]
    by_cases same : key = present
    · subst same
      have absent : rest.lookup key = none := by
        apply Option.eq_none_iff_forall_ne_some.mpr
        intro value found
        exact String.lt_irrefl key (above _ ((lookup_eq_some_iff tail).mp found))
      simp [absent]
    · simp [List.lookup_cons, beq_false_of_ne same]

/-- Entries of the second dictionary win. -/
theorem get?_extend (dict winners : Dict α) (key : String) :
    (dict.extend winners).get? key = (winners.get? key).or (dict.get? key) := by
  have found := get?_foldl_insert winners.entries dict key
  rwa [lookup_reverse winners.sorted] at found

theorem ofList_entries (dict : Dict α) : ofList dict.entries = dict :=
  ext_get? fun key => (get?_ofList dict.entries key).trans (lookup_reverse dict.sorted)

end ParamSweep.Dict
