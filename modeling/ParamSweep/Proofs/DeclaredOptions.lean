import ParamSweep.Proofs.Marks
import ParamSweep.Proofs.OptionTexts
import ParamSweep.Proofs.PlainTokens
import ParamSweep.Proofs.TokenText

/-! Declared options. A declaration makes its options the base of its name, so options that are declared first
and options that are given later come to the same as all of them given at once. -/

namespace ParamSweep

namespace KeyPolicy

/-- A policy that neither renames keys nor refuses any. -/
structure Open (policy : KeyPolicy) : Prop where
  lenient : policy.strict = false
  unaliased : policy.aliases.getD Dict.empty = Dict.empty

theorem Open.parse_eq {policy : KeyPolicy} (opened : policy.Open) (text : String) :
    policy.parse text = Options.parse Dict.empty text := by
  rw [parse, opened.unaliased]

theorem Open.check_eq {policy : KeyPolicy} (opened : policy.Open) (overrides base : Config) :
    policy.check overrides base = .ok () := by
  simp [check, opened.lenient]

end KeyPolicy

namespace Config

def unsourced (config : Config) : Config := config.erase sourceKey

theorem unsourced_stamp (source other : String) (index : Nat) (config : Config) :
    (stamp source index config).unsourced = (stamp other index config).unsourced := by
  apply Dict.ext_get?
  intro key
  simp only [unsourced, Dict.get?_erase, get?_stamp]
  split <;> rfl

/-- Options may as well be in the base already: only the recorded source tells. -/
theorem exists_expand_of_extend {policy : KeyPolicy} {text joined : String} {first second : Config}
    (opened : policy.Open) (read : Options.parse Dict.empty text = .ok second)
    (readJoined : Options.parse Dict.empty joined = .ok (first.extend second)) (tag : Option String) (name : String)
    (offset : Nat) :
    ∃ apart together, expand policy tag name text offset first = .ok apart ∧
      expand policy tag name joined offset Dict.empty = .ok together ∧
      apart.map unsourced = together.map unsourced := by
  refine ⟨_, _, expand_eq_ok_iff.mpr ⟨second, ?_, opened.check_eq _ _, rfl⟩,
    expand_eq_ok_iff.mpr ⟨first.extend second, ?_, opened.check_eq _ _, rfl⟩, ?_⟩
  · rw [opened.parse_eq, read]
  · rw [opened.parse_eq, readJoined]
  · rw [Dict.empty_extend]
    exact map_stamp (fun index => unsourced_stamp _ _ (offset + index)) _

end Config

namespace Request
open Config Text

/-- Options that make no mark, neither among themselves nor with the colon in front of them. -/
def Unmarked (options : String) : Prop :=
  options.toList.head? ≠ some ':' ∧ isJoined options = false ∧ isDeclaration options = false

instance (options : String) : Decidable (Unmarked options) :=
  inferInstanceAs (Decidable (options.toList.head? ≠ some ':' ∧ isJoined options = false ∧
    isDeclaration options = false))

theorem Unmarked.append {left right : String} (before : Unmarked left) (after : Unmarked right) :
    Unmarked (left ++ "," ++ right) := by
  obtain ⟨colonless, unjoined, undeclared⟩ := before
  obtain ⟨-, unjoinedAfter, undeclaredAfter⟩ := after
  have comma (mark : Char) (absent : hasPair mark ':' right.toList = false) (other : mark ≠ ',') :
      hasPair mark ':' (',' :: right.toList) = false :=
    hasPair_cons_eq_false_iff.mpr ⟨fun both => other both.1.symm, absent⟩
  have joined : (left ++ "," ++ right).toList = left.toList ++ ',' :: right.toList := by simp
  refine ⟨?_, ?_, ?_⟩
  · rw [joined, List.head?_append]
    cases first : left.toList.head? with
    | none => simp
    | some char => simpa [first] using colonless
  · rw [isJoined, joined, hasPair_append_eq_false_iff]
    exact ⟨unjoined, comma ':' unjoinedAfter (by decide), by simp⟩
  · rw [isDeclaration, joined, hasPair_append_eq_false_iff]
    exact ⟨undeclared, comma '=' undeclaredAfter (by decide), by simp⟩

section
variable {name options : String}

private theorem hasPair_token {mark : Char} (plain : Token.PlainName name) (apart : name.toList.getLast? ≠ some mark)
    (absent : hasPair mark ':' options.toList = false) (first : ¬(mark = ':' ∧ options.toList.head? = some ':')) :
    hasPair mark ':' (name ++ ":" ++ options).toList = false := by
  have token : (name ++ ":" ++ options).toList = name.toList ++ ':' :: options.toList := by simp
  rw [token, hasPair_append_eq_false_iff, hasPair_cons_eq_false_iff]
  exact ⟨hasPair_of_second_not_mem plain.2, ⟨fun both => first ⟨both.1.symm, both.2⟩, absent⟩,
    fun seam => apart seam.1⟩

theorem unjoined_of_unmarked (plain : Token.PlainName name) (unmarked : Unmarked options) :
    isJoined (name ++ ":" ++ options) = false :=
  hasPair_token plain (fun last => plain.2 (List.mem_of_getLast? last)) unmarked.2.1 fun both => unmarked.1 both.2

theorem undeclared_of_unmarked (plain : Token.PlainName name) (apart : name.toList.getLast? ≠ some '=')
    (unmarked : Unmarked options) : isDeclaration (name ++ ":" ++ options) = false :=
  hasPair_token plain apart unmarked.2.2 fun both => absurd both.1 (by decide)

theorem isDeclaration_declaration (name declared : String) : isDeclaration (name ++ "=:" ++ declared) = true := by
  have token : (name ++ "=:" ++ declared).toList = name.toList ++ '=' :: ':' :: declared.toList := by simp
  rw [isDeclaration, token, hasPair_append_iff]
  exact .inr (.inl (by simp [hasPair]))

theorem declare_declaration {request : Request} {declared : String} {defaults : Config}
    (unregistered : request.registry = none) (plain : Token.PlainName name)
    (read : request.policy.parse declared = .ok defaults) :
    request.declare (name ++ "=:" ++ declared) = .ok (name, .fixed [defaults]) := by
  have token : name ++ "=:" ++ declared = (name ++ "=") ++ ":" ++ declared := by
    apply String.toList_injective
    simp
  have plainMark : Token.PlainName (name ++ "=") := by
    simpa [Token.PlainName] using plain
  have declares : declaredName (name ++ "=:" ++ declared) ⟨name ++ "=", declared, none⟩ = .ok name := by
    simp [declaredName]
  unfold declare
  rw [token, Token.parse_unselected plainMark, ← token]
  simp only [Outcome.mapError_ok, Outcome.ok_bind, declares, unregistered, Registry.lookup, read, List.map_cons,
    List.map_nil, Dict.empty_extend]

/-- A token without a selector expands its only base as it stands. -/
theorem expandPlain_of_single {request : Request} {token name options : String} {base : Config}
    (read : Token.parse token = .ok ⟨name, options, none⟩)
    (found : Registry.lookup request.registry request.metadata name = .ok [base]) :
    request.expandPlain token = (Config.expand request.policy request.tag name options 0 base).map fun configs =>
      [request.nodes configs] := by
  unfold expandPlain
  rw [read, Outcome.mapError_ok, Outcome.ok_bind, found, Outcome.ok_bind, expandBases_single]
  unfold expandBase
  cases Config.expand request.policy request.tag name options 0 base <;> rfl

theorem expand_undeclared_name {request : Request} (unregistered : request.registry = none)
    (plain : Token.PlainName name) (apart : name.toList.getLast? ≠ some '=') (unmarked : Unmarked options) :
    request.expand [name ++ ":" ++ options] =
      (Config.expand request.policy request.tag name options 0 Dict.empty).map fun configs =>
        [request.nodes configs] := by
  have found : Registry.lookup request.registry request.metadata name = .ok [Dict.empty] := by
    rw [unregistered]
    rfl
  rw [expand_plain request (undeclared_of_unmarked plain apart unmarked) (unjoined_of_unmarked plain unmarked),
    expandPlain_of_single (Token.parse_unselected plain options) found]

theorem expand_declared_name {request : Request} {declared : String} {defaults : Config}
    (unregistered : request.registry = none) (plain : Token.PlainName name)
    (apart : name.toList.getLast? ≠ some '=') (read : request.policy.parse declared = .ok defaults)
    (unmarked : Unmarked options) :
    request.expand [name ++ "=:" ++ declared, name ++ ":" ++ options] =
      (Config.expand request.policy request.tag name options 0 defaults).map fun configs =>
        [request.nodes configs] := by
  have undeclared : isDeclaration (name ++ ":" ++ options) = false := undeclared_of_unmarked plain apart unmarked
  have resolved : request.resolveRegistry [name ++ "=:" ++ declared, name ++ ":" ++ options] =
      .ok (some (Dict.ofList [(name, .fixed [defaults])])) := by
    simp [resolveRegistry, isDeclaration_declaration, undeclared, declare_declaration unregistered plain read,
      unregistered, pure, Except.pure]
  have rest : [name ++ "=:" ++ declared, name ++ ":" ++ options].filter (!isDeclaration ·) =
      [name ++ ":" ++ options] := by
    simp [isDeclaration_declaration, undeclared]
  have found : Registry.lookup (some (Dict.ofList [(name, .fixed [defaults])])) request.metadata name =
      .ok [defaults] := by
    simp [Registry.lookup, Dict.get?_ofList, Entry.resolve]
  unfold expand
  rw [resolved, Outcome.ok_bind, rest, List.mapM_cons, List.mapM_nil, expandToken,
    unjoined_of_unmarked plain unmarked, if_neg Bool.false_ne_true,
    expandPlain_of_single (Token.parse_unselected plain options) found]
  cases Config.expand request.policy request.tag name options 0 defaults <;> rfl

end

/-- Declaring options and giving more to the name is giving all of them at once. -/
theorem expand_declared {request : Request} {name declared options : String} {defaults overrides : Config}
    (unregistered : request.registry = none) (opened : request.policy.Open) (plain : Token.PlainName name)
    (apart : name.toList.getLast? ≠ some '=') (readDeclared : Options.parse Dict.empty declared = .ok defaults)
    (readOptions : Options.parse Dict.empty options = .ok overrides) (unmarkedDeclared : Unmarked declared)
    (unmarked : Unmarked options) :
    ∃ separate joined, request.expand [name ++ "=:" ++ declared, name ++ ":" ++ options] = .ok separate ∧
      request.expand [name ++ ":" ++ declared ++ "," ++ options] = .ok joined ∧
      (Group.listed separate).map unsourced = (Group.listed joined).map unsourced := by
  have together : name ++ ":" ++ declared ++ "," ++ options = name ++ ":" ++ (declared ++ "," ++ options) := by
    apply String.toList_injective
    simp
  have read : request.policy.parse declared = .ok defaults := (opened.parse_eq declared).trans readDeclared
  obtain ⟨later, whole, expandedLater, expandedWhole, same⟩ := exists_expand_of_extend opened readOptions
    (Options.parse_append readDeclared readOptions) request.tag name 0
  refine ⟨[request.nodes later], [request.nodes whole], ?_, ?_, ?_⟩
  · rw [expand_declared_name unregistered plain apart read unmarked, expandedLater, Outcome.map_ok]
  · rw [together, expand_undeclared_name unregistered plain apart (unmarkedDeclared.append unmarked), expandedWhole,
      Outcome.map_ok]
  · rw [Group.listed_singleton, Group.listed_singleton, flatten_nodes, flatten_nodes, same]

/-- A request without a registry that takes any options. -/
def openRequest : Request where
  registry := none
  tag := none
  policy := ⟨none, none, false⟩
  groupByToken := true
  nested := false
  join := none
  metadata := none

theorem expand_declared_flags :
    ∃ separate joined, openRequest.expand ["n=:a,b,", "n:b,c"] = .ok separate ∧
      openRequest.expand ["n:a,b,,b,c"] = .ok joined ∧ (Group.listed joined).length = 1 ∧
      (Group.listed separate).map unsourced = (Group.listed joined).map unsourced := by
  obtain ⟨separate, joined, first, second, same⟩ := @expand_declared openRequest "n" "a,b," "b,c" _ _ rfl ⟨rfl, rfl⟩
    (by decide) (by decide) rfl rfl (by decide) (by decide)
  refine ⟨separate, joined, first, second, ?_, same⟩
  cases second
  rfl

end Request
end ParamSweep
