import ParamSweep.Proofs.LabelTexts
import ParamSweep.Proofs.StrictKeys
import ParamSweep.Proofs.TokenText

/-! Labels as tokens. A label of literal parameters is read as the name and those parameters. Given to the same
base they are nothing new: they cover it, the policy that let them in lets them in again, and no candidates are
left among them. -/

namespace ParamSweep

namespace Value

theorem Literal.items?_eq_none {value : Value} (literal : Literal value) : value.items? = Option.none := by
  cases literal with
  | scalar given => cases given <;> rfl
  | tuple => rfl

end Value

namespace Config

section
variable {policy : KeyPolicy} {tag : Option String} {name options : String} {offset : Nat} {base config : Config}
  {configs : List Config}

theorem mem_keys_parameters_iff {key : String} :
    key ∈ config.parameters.keys ↔ isReserved key = false ∧ key ∈ config.keys := by
  simp only [Dict.mem_keys_iff, get?_parameters]
  cases isReserved key <;> simp

/-- The parameters of an expanded configuration are those of the base and the overrides. -/
theorem mem_keys_parameters_of_expand {overrides : Config} (read : policy.parse options = .ok overrides)
    (expanded : expand policy tag name options offset base = .ok configs) (member : config ∈ configs) {key : String} :
    key ∈ config.parameters.keys ↔ isReserved key = false ∧ (key ∈ overrides.keys ∨ key ∈ base.keys) := by
  rw [mem_keys_parameters_iff]
  exact and_congr_right fun free => mem_keys_of_expand read expanded member free

theorem plain_parameters : Plain config.parameters := fun _ member => (mem_keys_parameters_iff.mp member).1

/-- Overrides that cover their base and leave no choice expand to themselves. -/
theorem expand_of_covered {overrides : Config} (plain : overrides.Plain) (read : policy.parse options = .ok overrides)
    (checked : policy.check overrides base = .ok ()) (covered : ∀ key ∈ base.keys, key ∈ overrides.keys)
    (single : ∀ entry ∈ overrides.entries, entry.2.items? = none) :
    expand policy tag name options offset base =
      .ok [stamp (sourceText name options) offset (identify tag name overrides)] := by
  refine expand_eq_ok_iff.mpr ⟨overrides, read, checked, ?_⟩
  rw [Dict.extend_of_covered covered, combinations_identify tag name plain, combinations_of_single single]
  rfl

/-- A policy without keys of its own that let an expansion through lets its parameters through again. -/
theorem check_parameters (keyless : policy.validKeys = none)
    (expanded : expand policy tag name options offset base = .ok configs) (member : config ∈ configs) :
    policy.check config.parameters base = .ok () := by
  cases strict : policy.strict with
  | false => simp [KeyPolicy.check, strict]
  | true =>
    obtain ⟨overrides, read, checked, -⟩ := expand_eq_ok_iff.mp expanded
    rw [KeyPolicy.check_of_strict strict] at checked ⊢
    split at checked
    · cases checked
    next accepted =>
      rw [if_neg]
      rintro ⟨schema, key, present, refused⟩
      apply refused
      obtain ⟨free, known⟩ := (mem_keys_parameters_of_expand read expanded member).mp present
      rcases known with overridden | inherited
      · exact Classical.byContradiction fun denied => accepted ⟨schema, key, overridden, denied⟩
      · refine ⟨free, ?_⟩
        rwa [keyless, Option.getD_none]

end

end Config

namespace Label
open Config
open Value (Word Literal label)

theorem ofConfig_named {config : Config} {name : String} (named : config.get? nameKey = some (.str name))
    (colonless : ':' ∉ name.toList) :
    ofConfig none reservedKeys [] config = .ok (name ++ ":" ++ optionText config.parameters.entries) := by
  unfold ofConfig
  rw [named]
  exact under_of_colonless colonless config

theorem parse_parameters {config : Config} (spelled : config.Spelled Word Literal) :
    Options.parse Dict.empty (optionText config.parameters.entries) = .ok config.parameters := by
  have text : optionText config.parameters.entries =
      String.ofList ([','].intercalate (config.parameters.entries.map (Options.spellEntry label))) := by
    apply String.toList_injective
    rw [toList_optionText_of_plain fun entry member => (spelled.of_mem_parameters member).1.1, String.toList_ofList]
  rw [text, Options.parse_spelled, Dict.ofList_entries]
  intro entry member
  obtain ⟨word, literal⟩ := spelled.of_mem_parameters member
  exact ⟨word.bare, literal.spells⟩

/-- The label of an expanded configuration is a token of the same name, whose options the same base expands to
one configuration with the same parameters and the same label. -/
theorem expand_label {policy : KeyPolicy} {tag : Option String} {name options : String} {offset : Nat}
    {base config : Config} {configs : List Config} (plainBase : base.Plain)
    (unaliased : policy.aliases.getD Dict.empty = Dict.empty) (keyless : policy.validKeys = none)
    (plain : Token.PlainName name) (expanded : expand policy tag name options offset base = .ok configs)
    (member : config ∈ configs) (spelled : config.Spelled Word Literal) :
    ∃ text parameters, ofConfig none reservedKeys [] config = .ok text ∧
      Token.parse text = .ok ⟨name, parameters, none⟩ ∧
      ∀ tag offset, ∃ again, expand policy tag name parameters offset base = .ok [again] ∧
        (∀ key, isReserved key = false → again.get? key = config.get? key) ∧
        ofConfig none reservedKeys [] again = .ok text := by
  obtain ⟨overrides, read, -, -⟩ := expand_eq_ok_iff.mp expanded
  have labelled := ofConfig_named (get?_nameKey_of_expand expanded member) plain.2
  refine ⟨_, _, labelled, Token.parse_unselected plain _, fun tag offset => ?_⟩
  have readAgain : policy.parse (optionText config.parameters.entries) = .ok config.parameters := by
    rw [KeyPolicy.parse, unaliased, parse_parameters spelled]
  have covered : ∀ key ∈ base.keys, key ∈ config.parameters.keys := fun key inside =>
    (mem_keys_parameters_of_expand read expanded member).mpr ⟨plainBase key inside, .inr inside⟩
  have single : ∀ entry ∈ config.parameters.entries, entry.2.items? = none := fun entry inside =>
    (spelled.of_mem_parameters inside).2.items?_eq_none
  have expandedAgain : expand policy tag name (optionText config.parameters.entries) offset base =
      .ok [stamp (sourceText name (optionText config.parameters.entries)) offset
        (identify tag name config.parameters)] :=
    expand_of_covered plain_parameters readAgain (check_parameters keyless expanded member) covered single
  have kept : ∀ key, isReserved key = false →
      (stamp (sourceText name (optionText config.parameters.entries)) offset
        (identify tag name config.parameters)).get? key = config.get? key := by
    intro key free
    rw [get?_recorded free, get?_parameters, free, if_neg Bool.false_ne_true]
  refine ⟨_, expandedAgain, kept, ?_⟩
  have again := ofConfig_named (get?_nameKey_of_expand expandedAgain List.mem_cons_self) plain.2
  rwa [parameters_eq_iff.mpr kept] at again

def tupleBase : Config := Dict.ofList [("k", .list [.int (-3), .tuple [.none, .bool true]]), ("x", .none)]

theorem expand_label_two_candidates :
    ∃ configs, expand .default none "n" "x" 0 tupleBase = .ok configs ∧ configs.length = 2 ∧
      ∀ config ∈ configs, ∃ text parameters, ofConfig none reservedKeys [] config = .ok text ∧
        Token.parse text = .ok ⟨"n", parameters, none⟩ ∧
        ∀ tag offset, ∃ again, expand .default tag "n" parameters offset tupleBase = .ok [again] ∧
          (∀ key, isReserved key = false → again.get? key = config.get? key) ∧
          ofConfig none reservedKeys [] again = .ok text := by
  have expanded : expand .default none "n" "x" 0 tupleBase = .ok
      ([(0, .int (-3)), (1, .tuple [.none, .bool true])].map fun (index, value) =>
        stamp "n:x" index (identify none "n" (Dict.ofList [("k", value), ("x", .bool true)]))) := rfl
  have literal : ∀ entry ∈ [(0, Value.int (-3)), (1, .tuple [.none, .bool true])], Value.Literal entry.2 := by
    have truth : Value.Literal (.bool true) := .scalar (.bool true)
    have absent : Value.Literal .none := .scalar .none
    simp [Value.Literal.scalar (.int (-3)), Value.Literal.tuple, truth, absent]
  refine ⟨_, expanded, rfl, fun config member => ?_⟩
  refine expand_label (by decide) rfl rfl (by decide) expanded member ?_
  obtain ⟨⟨index, value⟩, inside, rfl⟩ := List.mem_map.mp member
  rintro ⟨key, given⟩ held free
  have found := Dict.get?_eq_some_iff.mpr held
  dsimp only at found free ⊢
  rw [get?_recorded free, Dict.get?_ofList] at found
  simp only [List.reverse_cons, List.reverse_nil, List.nil_append, List.cons_append, List.lookup_cons] at found
  split at found
  next same =>
    obtain rfl := beq_iff_eq.mp same
    cases found
    exact ⟨by decide, .scalar (.bool true)⟩
  · split at found
    next same =>
      obtain rfl := beq_iff_eq.mp same
      cases found
      exact ⟨by decide, literal _ inside⟩
    · cases found

end Label
end ParamSweep
