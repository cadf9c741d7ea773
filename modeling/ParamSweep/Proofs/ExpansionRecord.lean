import Mathlib.Algebra.Group.Nat.Defs
import ParamSweep.Expansion
import ParamSweep.Proofs.Combinations

/-! What an expansion records. Beside the combination that it comes from, a configuration holds its
position and where it comes from; all else is the combination's own. -/

namespace ParamSweep.Config

/-- A configuration of parameters alone. -/
def Plain (config : Config) : Prop := ∀ key ∈ config.keys, isReserved key = false

instance (config : Config) : Decidable config.Plain :=
  inferInstanceAs (Decidable (∀ key ∈ config.keys, isReserved key = false))

/-- The value that records a position, which is a word of sixty-four bits. -/
def ordinal (index : Nat) : Value := .int (Int64.ofNat index)

theorem isReserved_eq_false_iff {key : String} :
    isReserved key = false ↔ key ≠ sourceKey ∧ key ≠ nameKey ∧ key ≠ tagKey ∧ key ≠ indexKey := by
  simp [isReserved, reservedKeys]

theorem Plain.get?_eq_none {config : Config} (plain : config.Plain) {key : String}
    (reserved : isReserved key = true) : config.get? key = none :=
  Dict.get?_eq_none_iff.mpr fun member => by simp [plain key member] at reserved

theorem Plain.free {config : Config} (plain : config.Plain) {key : String} {value : Value}
    (held : config.get? key = some value) : isReserved key = false :=
  plain key (Dict.mem_keys_iff.mpr ⟨value, held⟩)

theorem Plain.extend {base overrides : Config} (plainBase : base.Plain) (plainOverrides : overrides.Plain) :
    Plain (base.extend overrides) := by
  intro key member
  apply Bool.eq_false_iff.mpr
  intro reserved
  refine absurd member (Dict.get?_eq_none_iff.mp ?_)
  rw [Dict.get?_extend, plainBase.get?_eq_none reserved, plainOverrides.get?_eq_none reserved]
  rfl

theorem get?_stamp (source : String) (index : Nat) (config : Config) (key : String) :
    (stamp source index config).get? key =
      if key = sourceKey then some (.str source)
      else if key = indexKey then some (ordinal index) else config.get? key := by
  simp only [stamp, Dict.get?_insert, ordinal]

theorem get?_identify (tag : Option String) (name : String) (config : Config) (key : String) :
    (identify tag name config).get? key =
      if key = nameKey then some (.str name)
      else if key = tagKey then some (tag.elim .none .str) else config.get? key := by
  simp only [identify, Dict.get?_insert]

/-- Tag and name have one candidate each, so they may as well be recorded after the choice. -/
theorem combinations_identify (tag : Option String) (name : String) {config : Config} (plain : config.Plain) :
    combinations (identify tag name config) = config.combinations.map (identify tag name) := by
  have single : (tag.elim Value.none Value.str).candidates = [tag.elim Value.none Value.str] := by
    cases tag <;> rfl
  have fresh : (config.insert tagKey (tag.elim .none .str)).get? nameKey = none := by
    rw [Dict.get?_insert_of_ne (by decide), plain.get?_eq_none (by decide)]
  unfold identify
  rw [combinations_insert fresh rfl, combinations_insert (plain.get?_eq_none (by decide)) single, List.map_map]
  rfl

theorem get?_recorded {source name : String} {index : Nat} {tag : Option String} {config : Config} {key : String}
    (free : isReserved key = false) : (stamp source index (identify tag name config)).get? key = config.get? key := by
  obtain ⟨notSource, notName, notTag, notIndex⟩ := isReserved_eq_false_iff.mp free
  rw [get?_stamp, if_neg notSource, if_neg notIndex, get?_identify, if_neg notName, if_neg notTag]

theorem expand_eq_ok_iff {policy : KeyPolicy} {tag : Option String} {name options : String} {offset : Nat}
    {base : Config} {configs : List Config} :
    expand policy tag name options offset base = .ok configs ↔
      ∃ overrides, policy.parse options = .ok overrides ∧ policy.check overrides base = .ok () ∧
        (combinations (identify tag name (base.extend overrides))).mapIdx
          (fun index config => stamp (sourceText name options) (offset + index) config) = configs := by
  simp only [expand, Outcome.bind_eq_ok_iff, Outcome.mapError_eq_ok_iff, Except.ok.injEq]
  constructor
  · rintro ⟨overrides, read, ⟨⟩, checked, same⟩
    exact ⟨overrides, read, checked, same⟩
  · rintro ⟨overrides, read, checked, same⟩
    exact ⟨overrides, read, (), checked, same⟩

section
variable {policy : KeyPolicy} {tag : Option String} {name options : String} {offset : Nat} {base config : Config}
  {configs : List Config}

theorem get?_nameKey_of_expand (expanded : expand policy tag name options offset base = .ok configs)
    (member : config ∈ configs) : config.get? nameKey = some (.str name) := by
  obtain ⟨overrides, -, -, rfl⟩ := expand_eq_ok_iff.mp expanded
  obtain ⟨index, inside, rfl⟩ := List.mem_mapIdx.mp member
  rw [get?_stamp, if_neg (by decide), if_neg (by decide)]
  refine get?_of_mem_combinations_of_single (List.getElem_mem inside) ?_ rfl
  rw [get?_identify, if_pos rfl]

/-- Reserved keys aside, an expanded configuration has the keys of the base and of the overrides. -/
theorem mem_keys_of_expand {overrides : Config} (read : policy.parse options = .ok overrides)
    (expanded : expand policy tag name options offset base = .ok configs) (member : config ∈ configs) {key : String}
    (free : isReserved key = false) : key ∈ config.keys ↔ key ∈ overrides.keys ∨ key ∈ base.keys := by
  obtain ⟨same, sameRead, -, rfl⟩ := expand_eq_ok_iff.mp expanded
  cases read.symm.trans sameRead
  obtain ⟨index, inside, rfl⟩ := List.mem_mapIdx.mp member
  have kept := keys_of_mem_combinations (List.getElem_mem inside)
  obtain ⟨notSource, notName, notTag, notIndex⟩ := isReserved_eq_false_iff.mp free
  rw [Dict.mem_keys_iff, get?_stamp, if_neg notSource, if_neg notIndex, ← Dict.mem_keys_iff, kept,
    Dict.mem_keys_iff, get?_identify, if_neg notName, if_neg notTag, ← Dict.mem_keys_iff, Dict.mem_keys_extend_iff]

/-- An expansion of parameters alone adds its records to the combinations of the base with the overrides. -/
theorem eq_mapIdx_of_expand {overrides : Config} (plainBase : base.Plain) (plainOverrides : overrides.Plain)
    (read : policy.parse options = .ok overrides)
    (expanded : expand policy tag name options offset base = .ok configs) :
    configs = (combinations (base.extend overrides)).mapIdx fun index combination =>
      stamp (sourceText name options) (offset + index) (identify tag name combination) := by
  obtain ⟨same, sameRead, -, rfl⟩ := expand_eq_ok_iff.mp expanded
  cases read.symm.trans sameRead
  rw [combinations_identify tag name (plainBase.extend plainOverrides)]
  apply List.ext_getElem?
  intro index
  simp only [List.getElem?_mapIdx, List.getElem?_map, Option.map_map, Function.comp_def]

end

/-- The expansion of parameters alone: one configuration for each combination of the base with the overrides, which
win, and it is that combination with the four reserved keys added. -/
theorem expand_records {policy : KeyPolicy} {tag : Option String} {name options : String} {offset : Nat}
    {base overrides : Config} {configs : List Config} (plainBase : base.Plain) (plainOverrides : overrides.Plain)
    (read : policy.parse options = .ok overrides)
    (expanded : expand policy tag name options offset base = .ok configs) :
    (∀ key, (base.extend overrides).get? key = (overrides.get? key).or (base.get? key)) ∧
      configs.length = (combinations (base.extend overrides)).length ∧
      ∀ index config, configs[index]? = some config →
        ∃ combination, (combinations (base.extend overrides))[index]? = some combination ∧
          combination.Plain ∧
          (∀ key, isReserved key = false → config.get? key = combination.get? key) ∧
          config.get? tagKey = some (tag.elim .none .str) ∧
          config.get? nameKey = some (.str name) ∧
          config.get? sourceKey = some (.str (if options = "" then name else name ++ ":" ++ options)) ∧
          (∃ position, config.get? indexKey = some (.int position) ∧ position = Int64.ofNat (offset + index) ∧
            (offset + index < 2 ^ 63 → position.toInt = offset + index)) ∧
          (∀ key value, overrides.get? key = some value →
            ∃ candidate ∈ value.candidates, config.get? key = some candidate) ∧
          ∀ key value, overrides.get? key = none → base.get? key = some value → value.items? = none →
            config.get? key = some value := by
  have plain := plainBase.extend plainOverrides
  have shape := eq_mapIdx_of_expand plainBase plainOverrides read expanded
  refine ⟨Dict.get?_extend base overrides, by rw [shape, List.length_mapIdx], fun index config found => ?_⟩
  rw [shape, List.getElem?_mapIdx] at found
  obtain ⟨combination, chosen, rfl⟩ := Option.map_eq_some_iff.mp found
  have member := List.mem_of_getElem? chosen
  refine ⟨combination, chosen, ?_, fun key free => get?_recorded free, ?_, ?_, ?_, ⟨_, ?_, rfl, ?_⟩, ?_, ?_⟩
  · intro key inside
    exact plain key (keys_of_mem_combinations member ▸ inside)
  · rw [get?_stamp, if_neg (by decide), if_neg (by decide), get?_identify, if_neg (by decide), if_pos rfl]
  · rw [get?_stamp, if_neg (by decide), if_neg (by decide), get?_identify, if_pos rfl]
  · simp [get?_stamp, sourceText]
  · rw [get?_stamp, if_neg (by decide), if_pos rfl, ordinal]
  · exact fun small => Int64.toInt_ofNat_of_lt small
  · intro key value overriding
    rw [get?_recorded (plainOverrides.free overriding)]
    apply get?_of_mem_combinations member
    rw [Dict.get?_extend, overriding, Option.some_or]
  · intro key value kept held single
    rw [get?_recorded (plainBase.free held)]
    refine get?_of_mem_combinations_of_single member ?_ single
    rw [Dict.get?_extend, kept, held, Option.none_or]

theorem expand_records_two_candidates :
    let base : Config := Dict.ofList [("k", .list [.none, .bool true]), ("x", .int 3), ("y", .int 4)]
    let overrides : Config := Dict.ofList [("x", .bool true)]
    base.Plain ∧ overrides.Plain ∧ KeyPolicy.default.parse "x" = .ok overrides ∧
    ∃ configs : List Config, expand .default none "n" "x" 5 base = .ok configs ∧ configs.length = 2 ∧
      ∀ (index : Nat) (config : Config), configs[index]? = some config →
        config.get? "x" = some (.bool true) ∧ config.get? "y" = some (.int 4) ∧
        config.get? nameKey = some (.str "n") ∧ config.get? sourceKey = some (.str "n:x") := by
  intro base overrides
  have plainBase : base.Plain := by decide
  have plainOverrides : overrides.Plain := by decide
  have read : KeyPolicy.default.parse "x" = .ok overrides := rfl
  obtain ⟨-, count, records⟩ := @expand_records .default none "n" "x" 5 base overrides _ plainBase plainOverrides read rfl
  refine ⟨plainBase, plainOverrides, read, _, rfl, count, fun index config found => ?_⟩
  obtain ⟨-, -, -, -, -, named, source, -, overridden, kept⟩ := records index config found
  obtain ⟨candidate, taken, held⟩ := overridden "x" (.bool true) rfl
  cases List.mem_singleton.mp taken
  exact ⟨held, kept "y" (.int 4) rfl rfl rfl, named, source⟩

end ParamSweep.Config
