import ParamSweep.Proofs.AxisOrder
import ParamSweep.Proofs.DeclaredOptions
import ParamSweep.Proofs.KeyRenaming

/-! The order of options. Texts that set different keys are read as the same options in whatever order commas join
them, and an expansion shows by the source that it records, and by nothing else, what text its options stood in. -/

namespace ParamSweep

namespace Dict

universe u

variable {α : Type u}

/-- Dictionaries without common keys may be put together in any order. -/
theorem ofList_flatMap_of_perm {parts reordered : List (Dict α)} (order : parts.Perm reordered)
    (distinct : (parts.flatMap keys).Nodup) :
    ofList (parts.flatMap entries) = ofList (reordered.flatMap entries) := by
  apply ofList_of_perm (order.flatMap_right entries)
  rwa [List.map_flatMap]

end Dict

namespace Options

/-- Joined by commas, option texts set what they set one after another. -/
theorem parse_intercalate {texts : List String} {parts : List Config}
    (read : List.Forall₂ (fun text options => parse Dict.empty text = .ok options) texts parts) :
    parse Dict.empty (",".intercalate texts) = .ok (Dict.ofList (parts.flatMap Dict.entries)) := by
  induction read with
  | nil => rfl
  | @cons text options _ others here later ih =>
    cases later with
    | nil => simpa [Dict.ofList_entries] using here
    | cons =>
      rw [String.intercalate_cons_cons, List.flatMap_cons, Dict.ofList_append, Dict.ofList_entries]
      exact parse_append here ih

theorem parse_reordered {texts reordered : List String} {parts : List Config} (order : texts.Perm reordered)
    (read : texts.mapM (parse Dict.empty) = .ok parts) (distinct : (parts.flatMap Dict.keys).Nodup)
    (aliases : Dict String) :
    parse aliases (",".intercalate texts) = parse aliases (",".intercalate reordered) := by
  have read := Outcome.mapM_eq_ok_iff.mp read
  obtain ⟨moved, readMoved, orderMoved⟩ := List.perm_comp_forall₂ order.symm read
  rw [parse_eq_map_renameAll, parse_intercalate read, Dict.ofList_flatMap_of_perm orderMoved.symm distinct,
    ← parse_intercalate readMoved, ← parse_eq_map_renameAll]

end Options

namespace Config

/-- Texts that are read as the same options make the same of a base, the recorded source aside. -/
theorem map_unsourced_expand {policy : KeyPolicy} {text other : String} (same : policy.parse text = policy.parse other)
    (tag : Option String) (name : String) (offset : Nat) (base : Config) :
    (expand policy tag name text offset base).map (List.map unsourced) =
      (expand policy tag name other offset base).map (List.map unsourced) := by
  unfold expand
  rw [same]
  cases policy.parse other with
  | error error => rfl
  | ok overrides =>
    simp only [Outcome.mapError_ok, Outcome.ok_bind]
    cases policy.check overrides base with
    | error error => rfl
    | ok => exact congrArg Except.ok (map_stamp (fun index => unsourced_stamp _ _ (offset + index)) _)

/-- Option texts that set different keys, whether one each or several, expand a base to the same in whatever order
they are joined: the same error, or the same configurations in the same order, and only the recorded source tells
the orders apart. -/
theorem expand_reordered {texts reordered : List String} {parts : List Config} (order : texts.Perm reordered)
    (read : texts.mapM (Options.parse Dict.empty) = .ok parts) (distinct : (parts.flatMap Dict.keys).Nodup)
    (policy : KeyPolicy) (tag : Option String) (name : String) (offset : Nat) (base : Config) :
    (expand policy tag name (",".intercalate texts) offset base).map (List.map unsourced) =
      (expand policy tag name (",".intercalate reordered) offset base).map (List.map unsourced) :=
  map_unsourced_expand (Options.parse_reordered order read distinct _) tag name offset base

/-- A policy that knows one of its keys by another name too. -/
def withAlias : KeyPolicy := ⟨some (Dict.ofList [("w", "a")]), some ["a", "x"], true⟩

theorem expand_reordered_with_alias :
    let base : Config := Dict.ofList [("z", .list [.none, .bool true])]
    let result (source : String) (index : Int64) (chosen : Value) : Config :=
      Dict.ofList [(sourceKey, .str source), (nameKey, .str "n"), (tagKey, .none), (indexKey, .int index),
        ("a", .bool true), ("x", .bool true), ("z", chosen)]
    expand withAlias none "n" "w,,x" 5 base = .ok [result "n:w,,x" 5 .none, result "n:w,,x" 6 (.bool true)] ∧
      expand withAlias none "n" "x,w," 5 base = .ok [result "n:x,w," 5 .none, result "n:x,w," 6 (.bool true)] ∧
      (expand withAlias none "n" "w,,x" 5 base).map (List.map unsourced) =
        (expand withAlias none "n" "x,w," 5 base).map (List.map unsourced) := by
  intro base result
  have order : ["w", "", "x"].Perm ["x", "w", ""] := by decide
  exact ⟨rfl, rfl, @expand_reordered ["w", "", "x"] ["x", "w", ""] _ order rfl (by decide) withAlias none "n" 5 base⟩

end Config
end ParamSweep
