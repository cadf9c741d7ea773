import ParamSweep.Proofs.Faults
import ParamSweep.Proofs.PlainTokens

/-! Strictness as a gate. Checks take no part in what a request does: it goes on as it would without them, or it
refuses keys. Without checks no keys are refused, so a refusal is all that a strict policy adds. -/

namespace ParamSweep

universe u

variable {α β : Type u}

/-- Whether keys were refused. -/
def Refuses (outcome : Except Error α) : Prop := ∃ keys schema, outcome = .error (.unknownKeys keys schema)

theorem not_refuses_ok (value : α) : ¬Refuses (.ok value) := by
  rintro ⟨_, _, impossible⟩
  cases impossible

theorem refuses_error_iff {error : Error} :
    Refuses (.error error : Except Error α) ↔ ∃ keys schema, error = .unknownKeys keys schema := by
  simp [Refuses]

theorem refuses_bind_iff {first : Except Error α} {next : α → Except Error β} :
    Refuses (first >>= next) ↔ Refuses first ∨ ∃ value, first = .ok value ∧ Refuses (next value) := by
  cases first with
  | error error => simp [refuses_error_iff]
  | ok value => simp [not_refuses_ok]

theorem not_refuses_grammar (outcome : Except GrammarError α) : ¬Refuses (outcome.mapError .grammar) := by
  rintro ⟨_, _, failed⟩
  obtain ⟨_, -, impossible⟩ := Outcome.mapError_eq_error_iff.mp failed
  cases impossible

theorem Registry.not_refuses_lookup (registry : Option Registry) (metadata : Option Json) (name : String) :
    ¬Refuses (lookup registry metadata name) := by
  rintro ⟨_, _, failed⟩
  obtain ⟨_, impossible⟩ := fault_of_lookup failed
  cases impossible

theorem Selector.not_refuses_select {γ : Type} (selector : Selector) (items : List γ) :
    ¬Refuses (selector.select items) := by
  rintro ⟨_, _, failed⟩
  rcases fault_of_select failed with ⟨_, impossible⟩ | impossible
  · cases impossible
  · cases impossible

/-- Whether an outcome with checks is the one without them, unless keys were refused. -/
structure Gated (checked unchecked : Except Error α) : Prop where
  same_or_refuses : checked = unchecked ∨ Refuses checked
  accepts : ¬Refuses unchecked

namespace Gated

theorem refl {outcome : Except Error α} (accepts : ¬Refuses outcome) : Gated outcome outcome := ⟨.inl rfl, accepts⟩

theorem ok (value : α) : Gated (.ok value) (.ok value) := refl (not_refuses_ok value)

/-- What comes after a gate is gated if each of its steps is. -/
theorem bind {checked unchecked : Except Error α} (gated : Gated checked unchecked)
    {next other : α → Except Error β} (steps : ∀ value, Gated (next value) (other value)) :
    Gated (checked >>= next) (unchecked >>= other) := by
  constructor
  · rcases gated.same_or_refuses with rfl | refused
    · cases checked with
      | error error => exact .inl rfl
      | ok value => exact (steps value).same_or_refuses
    · exact .inr (refuses_bind_iff.mpr (.inl refused))
  · rw [refuses_bind_iff]
    rintro (refused | ⟨value, -, refused⟩)
    · exact gated.accepts refused
    · exact (steps value).accepts refused

theorem mapM {checked unchecked : α → Except Error β} (steps : ∀ item, Gated (checked item) (unchecked item))
    (items : List α) : Gated (items.mapM checked) (items.mapM unchecked) := by
  induction items with
  | nil => exact ok []
  | cons first rest ih =>
    rw [List.mapM_cons, List.mapM_cons]
    exact (steps first).bind fun result => ih.bind fun results => ok (result :: results)

end Gated

theorem KeyPolicy.gated_check (policy : KeyPolicy) (overrides base : Config) :
    Gated (policy.check overrides base) (policy.lenient.check overrides base) := by
  have unchecked : policy.lenient.check overrides base = .ok () := rfl
  rw [unchecked]
  cases checked : policy.check overrides base with
  | ok => exact .ok ()
  | error error => exact ⟨.inr (refuses_error_iff.mpr (fault_of_check checked)), not_refuses_ok ()⟩

theorem Config.gated_expand (policy : KeyPolicy) (tag : Option String) (name options : String) (offset : Nat)
    (base : Config) :
    Gated (expand policy tag name options offset base) (expand policy.lenient tag name options offset base) :=
  (Gated.refl (not_refuses_grammar (policy.parse options))).bind fun overrides =>
    (policy.gated_check overrides base).bind fun _ => .ok _

namespace Request

/-- The request without checks of keys. -/
def unchecked (request : Request) : Request := { request with policy := request.policy.lenient }

section
variable (request : Request)

theorem gated_expandBase (token : Token) (offset : Nat) (base : Config) :
    Gated (request.expandBase token offset base) (request.unchecked.expandBase token offset base) := by
  refine (Config.gated_expand request.policy request.tag token.name token.options offset base).bind fun configs => ?_
  split
  · exact .refl (Selector.not_refuses_select _ configs)
  · exact .ok configs

theorem gated_expandBases (token : Token) (group : Group) (bases : List Config) :
    Gated (request.expandBases token group bases) (request.unchecked.expandBases token group bases) := by
  induction bases generalizing group with
  | nil => exact .ok _
  | cons base rest ih =>
    refine (request.gated_expandBase token group.length base).bind fun configs => ?_
    -- Checks change neither mode, so both requests go on in the same way.
    change Gated (if request.groupByToken then _ else _) (if request.groupByToken then _ else _)
    split
    · exact ih _
    · exact (ih group).bind fun groups => .ok _

theorem gated_expandPlain (token : String) :
    Gated (request.expandPlain token) (request.unchecked.expandPlain token) :=
  (Gated.refl (not_refuses_grammar (Token.parse token))).bind fun parsed =>
    (Gated.refl (Registry.not_refuses_lookup request.registry request.metadata parsed.name)).bind fun bases =>
      request.gated_expandBases parsed [] bases

theorem gated_expandToken (token : String) :
    Gated (request.expandToken token) (request.unchecked.expandToken token) := by
  unfold expandToken
  split
  · have parts := Gated.mapM ({ request with nested := false } : Request).gated_expandPlain (segments token)
    exact parts.bind fun parts => .ok _
  · exact request.gated_expandPlain token

theorem not_refuses_declare (token : String) : ¬Refuses (request.declare token) := by
  unfold declare
  simp only [refuses_bind_iff, not_or, not_exists, not_and]
  refine ⟨not_refuses_grammar _, fun parsed _ => ⟨not_refuses_grammar _, fun name _ => ?_⟩⟩
  refine ⟨Registry.not_refuses_lookup _ _ name, fun bases _ => ?_⟩
  exact ⟨not_refuses_grammar _, fun options _ => not_refuses_ok _⟩

theorem gated_resolveRegistry (tokens : List String) :
    Gated (request.resolveRegistry tokens) (request.unchecked.resolveRegistry tokens) := by
  have declared := Gated.mapM (fun token => .refl (request.not_refuses_declare token)) (tokens.filter isDeclaration)
  refine declared.bind fun declared => .refl ?_
  split
  · exact not_refuses_ok _
  · exact not_refuses_ok _

theorem gated_expand (tokens : List String) : Gated (request.expand tokens) (request.unchecked.expand tokens) :=
  (request.gated_resolveRegistry tokens).bind fun registry =>
    (Gated.mapM ({ request with registry } : Request).gated_expandToken (tokens.filter (!isDeclaration ·))).bind
      fun groups => .ok groups.flatten

end

/-- Where a request gives groups, or fails in another way than by refusing keys, it does the same without checks.
Without them it never refuses any. -/
theorem expand_gate (request : Request) (tokens : List String) :
    (∀ groups, request.expand tokens = .ok groups →
      request.unchecked.expand tokens = .ok groups ∧ request.configs tokens = .ok (Group.listed groups)) ∧
    (∀ error, request.expand tokens = .error error → (∀ keys schema, error ≠ .unknownKeys keys schema) →
      request.unchecked.expand tokens = .error error) ∧
    ∀ keys schema, request.unchecked.expand tokens ≠ .error (.unknownKeys keys schema) := by
  have gated := request.gated_expand tokens
  refine ⟨fun groups given => ?_, fun error failed other => ?_, fun keys schema refused => ?_⟩
  · have same : request.unchecked.expand tokens = .ok groups := by
      rcases gated.same_or_refuses with same | refused
      · rw [← same, given]
      · rw [given] at refused
        exact absurd refused (not_refuses_ok groups)
    refine ⟨same, ?_⟩
    change (request.unchecked.expand tokens >>= fun groups => .ok (Group.listed groups)) = _
    rw [same, Outcome.ok_bind]
  · rcases gated.same_or_refuses with same | refused
    · rw [← same, failed]
    · rw [failed, refuses_error_iff] at refused
      obtain ⟨keys, schema, refused⟩ := refused
      exact absurd refused (other keys schema)
  · exact gated.accepts ⟨keys, schema, refused⟩

/-- A strict request in which one name stands for a base with two candidates. -/
def guarded : Request where
  registry := some (Dict.ofList [("a", .fixed [Dict.ofList [("k", .list [.int 1, .int 2])], Dict.empty])])
  tag := none
  policy := .default
  groupByToken := true
  nested := false
  join := none
  metadata := none

/-- The checks accept the first list, are not reached in the second, and refuse a key of the third. -/
theorem expand_gate_three_lists :
    guarded.policy.strict = true ∧
    (∃ groups, guarded.expand ["a[0]:k", "a::a:k"] = .ok groups ∧
      guarded.unchecked.expand ["a[0]:k", "a::a:k"] = .ok groups ∧
      guarded.configs ["a[0]:k", "a::a:k"] = .ok (Group.listed groups) ∧ (Group.listed groups).length = 7) ∧
    guarded.unchecked.expand ["a[7]", "a:zz"] = .error (.indexOutOfRange 7 2) ∧
    guarded.expand ["a:zz"] = .error (.unknownKeys ["zz"] .baseConfig) := by
  obtain ⟨accepted, -, -⟩ := expand_gate guarded ["a[0]:k", "a::a:k"]
  obtain ⟨same, listed⟩ := accepted _ rfl
  obtain ⟨-, failed, -⟩ := expand_gate guarded ["a[7]", "a:zz"]
  refine ⟨rfl, ⟨_, rfl, same, listed, rfl⟩, failed _ rfl ?_, rfl⟩
  intro keys schema impossible
  cases impossible

end Request
end ParamSweep
