import Mathlib.Data.Set.Finite.Basic
import ParamSweep.Options
import ParamSweep.Proofs.Combinations

/-! Renaming of option keys. The renames run one after another, in the order of the old names, so an option
that one of them moves may be moved again by a later one. All options end under their own new names exactly if
these runs come out as a single rename of each. -/

namespace ParamSweep.Options

/-- The new name of a key, which is the key itself unless the table renames it. -/
def target (aliases : Dict String) (key : String) : String := (aliases.get? key).getD key

/-- Where renames take a key, one after another. -/
def follow (renames : List (String × String)) (key : String) : String :=
  renames.foldl (fun current entry => if current = entry.1 then entry.2 else current) key

/-- Whether a result holds every option under its own new name, and nothing else. -/
def RenamedAtOnce (aliases : Dict String) (options renamed : Config) : Prop :=
  (∀ key ∈ options.keys, renamed.get? (target aliases key) = options.get? key) ∧
    ∀ key ∈ renamed.keys, ∃ old ∈ options.keys, target aliases old = key

section
variable {options : Config} {old new : String}

private theorem rename_of_absent (absent : options.get? old = none) : rename options old new = options := by
  unfold rename
  rw [absent]

private theorem get?_rename {value : Value} (held : options.get? old = some value) (key : String) :
    (rename options old new).get? key =
      if key = new then some value else if key = old then none else options.get? key := by
  unfold rename
  rw [held]
  dsimp only
  rw [Dict.get?_insert, Dict.get?_erase]

theorem exists_origin_of_rename {key : String} {value : Value}
    (found : (rename options old new).get? key = some value) :
    ∃ origin, options.get? origin = some value ∧ (if origin = old then new else origin) = key := by
  cases held : options.get? old with
  | none =>
    rw [rename_of_absent held] at found
    refine ⟨key, found, if_neg ?_⟩
    intro same
    subst same
    rw [held] at found
    cases found
  | some moved =>
    rw [get?_rename held] at found
    split at found
    next arrived =>
      cases found
      exact ⟨old, held, (if_pos rfl).trans arrived.symm⟩
    · split at found
      · cases found
      next other => exact ⟨key, found, if_neg other⟩

theorem mem_keys_rename {key : String} (member : key ∈ options.keys) :
    (if key = old then new else key) ∈ (rename options old new).keys := by
  cases held : options.get? old with
  | none =>
    rw [rename_of_absent held, if_neg]
    · exact member
    · intro same
      subst same
      exact Dict.get?_eq_none_iff.mp held member
  | some moved =>
    obtain ⟨value, kept⟩ := Dict.mem_keys_iff.mp member
    rw [Dict.mem_keys_iff, get?_rename held]
    by_cases same : key = old
    · exact ⟨moved, by rw [if_pos same, if_pos rfl]⟩
    · rw [if_neg same]
      by_cases arrived : key = new
      · exact ⟨moved, if_pos arrived⟩
      · exact ⟨value, by rw [if_neg arrived, if_neg same, kept]⟩

end

private theorem exists_origin_of_renames (renames : List (String × String)) {options : Config} {key : String}
    {value : Value}
    (found : (renames.foldl (fun options entry => rename options entry.1 entry.2) options).get? key = some value) :
    ∃ origin, options.get? origin = some value ∧ follow renames origin = key := by
  induction renames generalizing options with
  | nil => exact ⟨key, found, rfl⟩
  | cons first rest ih =>
    obtain ⟨middle, held, arrives⟩ := ih found
    obtain ⟨origin, held, moves⟩ := exists_origin_of_rename held
    refine ⟨origin, held, ?_⟩
    rw [← arrives, ← moves]
    rfl

private theorem mem_keys_renames (renames : List (String × String)) {options : Config} {key : String}
    (member : key ∈ options.keys) :
    follow renames key ∈ (renames.foldl (fun options entry => rename options entry.1 entry.2) options).keys := by
  induction renames generalizing options key with
  | nil => exact member
  | cons first rest ih => exact ih (mem_keys_rename member)

variable {aliases : Dict String} {options : Config}

theorem exists_origin_of_renameAll {key : String} {value : Value}
    (found : (renameAll aliases options).get? key = some value) :
    ∃ origin, options.get? origin = some value ∧ follow aliases.entries origin = key :=
  exists_origin_of_renames aliases.entries found

theorem mem_keys_renameAll {key : String} (member : key ∈ options.keys) :
    follow aliases.entries key ∈ (renameAll aliases options).keys :=
  mem_keys_renames aliases.entries member

theorem get?_renameAll {key : String} (member : key ∈ options.keys)
    (alone : ∀ other ∈ options.keys, follow aliases.entries other = follow aliases.entries key → other = key) :
    (renameAll aliases options).get? (follow aliases.entries key) = options.get? key := by
  have moved : follow aliases.entries key ∈ (renameAll aliases options).keys := mem_keys_renameAll member
  obtain ⟨value, found⟩ := Dict.mem_keys_iff.mp moved
  obtain ⟨origin, held, meets⟩ := exists_origin_of_renameAll found
  have same : origin = key := alone origin (Dict.mem_keys_iff.mpr ⟨value, held⟩) meets
  rw [found, ← same, held]

theorem renamedAtOnce_iff
    (apart : ∀ left ∈ options.keys, ∀ right ∈ options.keys, target aliases left = target aliases right → left = right) :
    RenamedAtOnce aliases options (renameAll aliases options) ↔
      ∀ key ∈ options.keys, ∃ other ∈ options.keys,
        follow aliases.entries other = target aliases key ∧ options.get? other = options.get? key := by
  constructor
  · intro renamed key member
    obtain ⟨value, held⟩ := Dict.mem_keys_iff.mp member
    have arrived := (renamed.1 key member).trans held
    obtain ⟨other, same, arrives⟩ := exists_origin_of_renameAll arrived
    exact ⟨other, Dict.mem_keys_iff.mpr ⟨value, same⟩, arrives, same.trans held.symm⟩
  · intro given
    choose! source inside arrives same using given
    -- Distinct new names come from distinct sources, so every option is the source of one.
    have distinct : Set.InjOn source {key | key ∈ options.keys} := by
      intro left leftMember right rightMember equal
      apply apart left leftMember right rightMember
      rw [← arrives left leftMember, equal, arrives right rightMember]
    have onto : Set.SurjOn source {key | key ∈ options.keys} {key | key ∈ options.keys} :=
      ((options.keys.finite_toSet.injOn_iff_bijOn_of_mapsTo inside).mp distinct).surjOn
    refine ⟨fun key member => ?_, fun key member => ?_⟩
    · have alone : ∀ other ∈ options.keys,
          follow aliases.entries other = follow aliases.entries (source key) → other = source key := by
        intro other otherMember meets
        obtain ⟨origin, originMember, rfl⟩ := onto otherMember
        rw [arrives origin originMember, arrives key member] at meets
        rw [apart origin originMember key member meets]
      rw [← arrives key member, get?_renameAll (inside key member) alone, same key member]
    · obtain ⟨value, found⟩ := Dict.mem_keys_iff.mp member
      obtain ⟨origin, held, reaches⟩ := exists_origin_of_renameAll found
      obtain ⟨old, oldMember, rfl⟩ := onto (Dict.mem_keys_iff.mpr ⟨value, held⟩)
      exact ⟨old, oldMember, (arrives old oldMember).symm.trans reaches⟩

private theorem follow_eq_self {renames : List (String × String)} {key : String}
    (fixed : ∀ entry ∈ renames, entry.1 = key → entry.2 = key) : follow renames key = key := by
  induction renames with
  | nil => rfl
  | cons first rest ih =>
    have later := ih fun entry member => fixed entry (List.mem_cons_of_mem _ member)
    have stays : (if key = first.1 then first.2 else key) = key := by
      split
      next same => exact fixed first List.mem_cons_self same.symm
      · rfl
    unfold follow
    rw [List.foldl_cons, stays]
    exact later

/-- A key is renamed once unless its new name is itself renamed, and later than it. -/
theorem follow_eq_target {key : String}
    (settled : target aliases (target aliases key) = target aliases key ∨ target aliases key < key) :
    follow aliases.entries key = target aliases key := by
  cases found : aliases.get? key with
  | none =>
    have unnamed : target aliases key = key := by rw [target, found, Option.getD_none]
    rw [unnamed]
    apply follow_eq_self
    intro entry member same
    have held : aliases.get? entry.1 = some entry.2 := Dict.get?_eq_some_iff.mpr member
    rw [same, found] at held
    cases held
  | some new =>
    have named : target aliases key = new := by rw [target, found, Option.getD_some]
    rw [named] at settled ⊢
    -- The entries stand in order of their old names, so those ahead of the key's own leave the key as it is.
    obtain ⟨before, after, cut⟩ := List.append_of_mem (Dict.get?_eq_some_iff.mp found)
    have sorted := aliases.sorted
    rw [cut, List.pairwise_append, List.pairwise_cons] at sorted
    obtain ⟨-, ⟨above, -⟩, below⟩ := sorted
    have first : follow before key = key := by
      apply follow_eq_self
      intro entry member same
      have less := below entry member (key, new) List.mem_cons_self
      exact absurd (same ▸ less) (String.lt_irrefl key)
    have last : follow after new = new := by
      apply follow_eq_self
      intro entry member same
      rcases settled with fixed | earlier
      · have held : aliases.get? new = some entry.2 := by
          rw [← same, Dict.get?_eq_some_iff, cut]
          exact List.mem_append_right before (List.mem_cons_of_mem _ member)
        rwa [target, held, Option.getD_some] at fixed
      · have greater := above entry member
        exact absurd (same ▸ greater) (String.lt_asymm earlier)
    unfold follow at first last ⊢
    rw [cut, List.foldl_append, first, List.foldl_cons, if_pos rfl, last]

theorem renamedAtOnce_of_settled
    (apart : ∀ left ∈ options.keys, ∀ right ∈ options.keys, target aliases left = target aliases right → left = right)
    (settled : ∀ key ∈ options.keys,
      target aliases (target aliases key) = target aliases key ∨ target aliases key < key) :
    RenamedAtOnce aliases options (renameAll aliases options) :=
  (renamedAtOnce_iff apart).mpr fun key member => ⟨key, member, follow_eq_target (settled key member), rfl⟩

theorem parse_eq_map_renameAll (aliases : Dict String) (text : String) :
    parse aliases text = (parse Dict.empty text).map (renameAll aliases) := by
  unfold parse
  cases split text with
  | error error => rfl
  | ok fragments =>
    rw [Outcome.ok_bind, Outcome.ok_bind]
    cases readFragments true fragments <;> rfl

/-- Options with distinct new names all end under them exactly if each finds there an option of its value that the
renames, one after another, take to that name. In any case the keys are those that the renames lead to. -/
theorem parse_renamed_iff {text : String} (read : parse Dict.empty text = .ok options)
    (apart : ∀ left ∈ options.keys, ∀ right ∈ options.keys, target aliases left = target aliases right → left = right) :
    ∃ renamed, parse aliases text = .ok renamed ∧
      (RenamedAtOnce aliases options renamed ↔
        ∀ key ∈ options.keys, ∃ other ∈ options.keys,
          follow aliases.entries other = target aliases key ∧ options.get? other = options.get? key) ∧
      ∀ key, key ∈ renamed.keys ↔ ∃ old ∈ options.keys, follow aliases.entries old = key := by
  refine ⟨renameAll aliases options, ?_, renamedAtOnce_iff apart, fun key => ⟨fun member => ?_, ?_⟩⟩
  · rw [parse_eq_map_renameAll, read, Outcome.map_ok]
  · obtain ⟨value, found⟩ := Dict.mem_keys_iff.mp member
    obtain ⟨origin, held, arrives⟩ := exists_origin_of_renameAll found
    exact ⟨origin, Dict.mem_keys_iff.mpr ⟨value, held⟩, arrives⟩
  · rintro ⟨old, member, rfl⟩
    exact mem_keys_renameAll member

def shifted : Dict String := Dict.ofList [("b", "a"), ("c", "b")]

theorem parse_renamed_shifted :
    ∃ options renamed, parse Dict.empty "b=1,c=2" = .ok options ∧ parse shifted "b=1,c=2" = .ok renamed ∧
      renamed.keys = ["a", "b"] ∧ RenamedAtOnce shifted options renamed := by
  obtain ⟨renamed, read, atOnce, -⟩ := @parse_renamed_iff shifted _ "b=1,c=2" rfl (by decide)
  refine ⟨_, renamed, rfl, read, ?_, atOnce.mpr fun key member => ⟨key, member, follow_eq_target ?_, rfl⟩⟩
  · cases read
    rfl
  · revert key
    decide

def swapped : Dict String := Dict.ofList [("a", "b"), ("b", "a")]

/-- The first rename overwrites the second option, which is lost. -/
theorem parse_renamed_swapped_fails :
    ∃ options renamed, parse Dict.empty "a=1,b=2" = .ok options ∧ options.keys = ["a", "b"] ∧
      options.keys.map (target swapped) = ["b", "a"] ∧ parse swapped "a=1,b=2" = .ok renamed ∧
      renamed.keys = ["a"] ∧ ¬RenamedAtOnce swapped options renamed := by
  refine ⟨_, _, rfl, rfl, rfl, rfl, rfl, fun atOnce => ?_⟩
  have second := atOnce.1 "a" (by decide)
  cases second

end ParamSweep.Options
