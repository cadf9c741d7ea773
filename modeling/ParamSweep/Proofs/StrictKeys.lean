import ParamSweep.Proofs.ExpansionRecord

/-! What a strict policy refuses. Keys are checked against those that were given or against the parameters of the
base, and reserved keys are refused along with unknown ones. Without anything to check against nothing is refused. -/

namespace ParamSweep

namespace KeyPolicy
open Config

/-- Whether there are keys to check against: those that were given, or the parameters of the base. -/
def HasSchema (policy : KeyPolicy) (base : Config) : Prop :=
  policy.validKeys.isSome = true ∨ ∃ key ∈ base.keys, isReserved key = false

/-- Whether a key may be overridden. Keys that were given take the place of those of the base. -/
def Permits (policy : KeyPolicy) (base : Config) (key : String) : Prop :=
  isReserved key = false ∧ key ∈ policy.validKeys.getD base.keys

def schema (policy : KeyPolicy) : KeySchema := if policy.validKeys.isSome then .validKeys else .baseConfig

instance (policy : KeyPolicy) (base : Config) : Decidable (policy.HasSchema base) :=
  inferInstanceAs (Decidable (policy.validKeys.isSome = true ∨ ∃ key ∈ base.keys, isReserved key = false))

instance (policy : KeyPolicy) (base : Config) (key : String) : Decidable (policy.Permits base key) :=
  inferInstanceAs (Decidable (isReserved key = false ∧ key ∈ policy.validKeys.getD base.keys))

theorem permitted?_eq (policy : KeyPolicy) (base : Config) :
    policy.permitted? base =
      if policy.HasSchema base then some (policy.validKeys.getD (base.keys.filter (!isReserved ·)), policy.schema)
      else none := by
  obtain ⟨aliases, validKeys, strict⟩ := policy
  unfold permitted?
  cases validKeys with
  | some keys => rfl
  | none =>
    dsimp only
    cases parameters : base.keys.filter (!isReserved ·) with
    | nil =>
      have reserved := List.filter_eq_nil_iff.mp parameters
      rw [if_neg]
      rintro (given | ⟨key, inside, free⟩)
      · cases given
      · exact reserved key inside (by rw [free]; rfl)
    | cons first rest =>
      have member : first ∈ base.keys.filter (!isReserved ·) := parameters ▸ List.mem_cons_self
      obtain ⟨inside, free⟩ := List.mem_filter.mp member
      rw [if_pos (.inr ⟨first, inside, by simpa using free⟩)]
      rfl

theorem refused_iff (policy : KeyPolicy) (base : Config) (key : String) :
    (isReserved key || !(policy.validKeys.getD (base.keys.filter (!isReserved ·))).contains key) = true ↔
      ¬policy.Permits base key := by
  unfold Permits
  cases reserved : isReserved key <;> cases policy.validKeys <;> simp [reserved]

-- Overrides without keys have none to refuse, so the test for them changes nothing.
private theorem check_eq_of_strict {policy : KeyPolicy} (strict : policy.strict = true) (overrides base : Config) :
    policy.check overrides base =
      match policy.permitted? base with
      | none => .ok ()
      | some (keys, schema) =>
        match overrides.keys.filter fun key => isReserved key || !keys.contains key with
        | [] => .ok ()
        | unknown => .error (.unknownKeys unknown schema) := by
  unfold check
  by_cases empty : overrides.isEmpty = true
  · have keyless : overrides.keys = [] := by rw [Dict.keys, List.isEmpty_iff.mp empty, List.map_nil]
    rw [empty, keyless]
    cases policy.permitted? base <;> simp
  · exact if_neg (by simp [strict, empty])

theorem check_of_strict {policy : KeyPolicy} (strict : policy.strict = true) (overrides base : Config) :
    policy.check overrides base =
      if policy.HasSchema base ∧ ∃ key ∈ overrides.keys, ¬policy.Permits base key then
        .error (.unknownKeys (overrides.keys.filter fun key => ¬policy.Permits base key) policy.schema)
      else .ok () := by
  have refused : (overrides.keys.filter fun key =>
        isReserved key || !(policy.validKeys.getD (base.keys.filter (!isReserved ·))).contains key) =
      overrides.keys.filter fun key => ¬policy.Permits base key := by
    apply List.filter_congr
    intro key _
    rw [Bool.eq_iff_iff, refused_iff, decide_eq_true_iff]
  rw [check_eq_of_strict strict, permitted?_eq]
  split
  next unchecked =>
    split at unchecked
    · cases unchecked
    next schemaless => rw [if_neg fun both => schemaless both.1]
  next keys found given =>
    split at given
    next checked =>
      cases given
      rw [refused]
      split
      next empty =>
        have accepted := List.filter_eq_nil_iff.mp empty
        rw [if_neg]
        rintro ⟨-, key, member, denied⟩
        exact accepted key member (decide_eq_true denied)
      next nonempty =>
        obtain ⟨key, listed⟩ := List.exists_mem_of_ne_nil _ nonempty
        obtain ⟨member, denied⟩ := List.mem_filter.mp listed
        rw [if_pos ⟨checked, key, member, of_decide_eq_true denied⟩]
    · cases given

end KeyPolicy

namespace Config
open KeyPolicy

/-- A strict policy refuses an expansion exactly if there is anything to check against and some override is
reserved or not among it. The refusal names all such overrides, each once and in order. -/
theorem expand_refused_iff {policy : KeyPolicy} {tag : Option String} {name options : String} {offset : Nat}
    {base overrides : Config} (strict : policy.strict = true) (read : policy.parse options = .ok overrides) :
    ((∃ error, expand policy tag name options offset base = .error error) ↔
      policy.HasSchema base ∧ ∃ key ∈ overrides.keys, ¬policy.Permits base key) ∧
    (∀ error, expand policy tag name options offset base = .error error →
      ∃ keys, error = .unknownKeys keys policy.schema ∧ keys.Pairwise (· < ·) ∧
        ∀ key, key ∈ keys ↔ key ∈ overrides.keys ∧ ¬policy.Permits base key) ∧
    (policy.HasSchema base → ∀ configs, expand policy tag name options offset base = .ok configs →
      overrides.Plain) := by
  have expanded : expand policy tag name options offset base = (policy.check overrides base).bind fun _ => .ok
      ((combinations (identify tag name (base.extend overrides))).mapIdx fun index config =>
        stamp (sourceText name options) (offset + index) config) := by
    unfold expand
    rw [read]
    rfl
  rw [expanded, check_of_strict strict]
  split
  next refused =>
    refine ⟨⟨fun _ => refused, fun _ => ⟨_, rfl⟩⟩, ?_, ?_⟩
    · intro error failed
      cases failed
      refine ⟨_, rfl, ?_, fun key => ?_⟩
      · exact (List.pairwise_map.mpr overrides.sorted).filter _
      · rw [List.mem_filter, decide_eq_true_iff]
    · intro _ configs impossible
      cases impossible
  next accepted =>
    refine ⟨⟨?_, fun refused => absurd refused accepted⟩, ?_, ?_⟩
    · rintro ⟨error, impossible⟩
      cases impossible
    · intro error impossible
      cases impossible
    · intro checked configs _ key member
      apply Classical.byContradiction
      intro reserved
      exact accepted ⟨checked, key, member, fun permitted => reserved permitted.1⟩

theorem expand_refused_two_keys :
    ∃ error keys, expand .default none "n" "k,zz,_cfgindex=9" 0 (Dict.ofList [("k", .none)]) = .error error ∧
      error = .unknownKeys keys .baseConfig ∧ "_cfgindex" ∈ keys ∧ "zz" ∈ keys ∧ "k" ∉ keys := by
  obtain ⟨refuses, names, -⟩ := @expand_refused_iff .default none "n" "k,zz,_cfgindex=9" 0
    (Dict.ofList [("k", .none)]) _ rfl rfl
  obtain ⟨error, failed⟩ := refuses.mpr ⟨by decide, by decide⟩
  obtain ⟨keys, rfl, -, listed⟩ := names error failed
  refine ⟨_, keys, failed, rfl, (listed _).mpr ?_, (listed _).mpr ?_, fun member => absurd ((listed _).mp member) ?_⟩
  all_goals decide

/-- Without parameters in the base a reserved key is swept, and what it held is overwritten. -/
theorem expand_reserved_unchecked :
    ∃ overrides configs, KeyPolicy.default.strict = true ∧
      KeyPolicy.default.parse "_cfgindex=[1,2]" = .ok overrides ∧ overrides.keys = [indexKey] ∧
      isReserved indexKey = true ∧
      expand .default none "n" "_cfgindex=[1,2]" 0 Dict.empty = .ok configs ∧
      configs.map (·.get? indexKey) = [some (.int 0), some (.int 1)] := by
  have candidates : Value.ofChars "[1,2]".toList = .list (["1".toList, "2".toList].map Value.ofChars) := by
    rw [Value.ofChars_eq]
    rfl
  have read : KeyPolicy.default.parse "_cfgindex=[1,2]" =
      .ok (Dict.ofList [(indexKey, Value.ofChars "[1,2]".toList)]) := rfl
  rw [candidates] at read
  exact ⟨_, _, rfl, read, rfl, rfl, expand_eq_ok_iff.mpr ⟨_, read, rfl, rfl⟩, rfl⟩

end Config
end ParamSweep
