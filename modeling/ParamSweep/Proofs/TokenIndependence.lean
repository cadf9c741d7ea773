import ParamSweep.Proofs.PlainTokens

/-! Independence of tokens. Without declarations every token is expanded as if it stood alone, so a request can be
cut anywhere: its groups are those of the front and then those of the rest, and it fails as the first part that
does. -/

namespace ParamSweep.Request

section
variable {request : Request}

theorem expand_each {tokens : List String} (undeclared : ∀ token ∈ tokens, isDeclaration token = false) :
    request.expand tokens = (tokens.mapM fun token => request.expand [token]).map List.flatten := by
  have alone : (tokens.mapM fun token => request.expand [token]) = tokens.mapM request.expandToken := by
    apply Outcome.mapM_congr
    intro token member
    exact expand_single request (undeclared token member)
  rw [alone, expand_undeclared request undeclared]

theorem expand_append_eq {before after : List String}
    (undeclared : ∀ token ∈ before ++ after, isDeclaration token = false) :
    request.expand (before ++ after) = (do
      let first ← request.expand before
      let second ← request.expand after
      .ok (first ++ second)) := by
  rw [expand_undeclared request undeclared, List.mapM_append,
    expand_undeclared request fun token member => undeclared token (List.mem_append_left _ member),
    expand_undeclared request fun token member => undeclared token (List.mem_append_right _ member)]
  cases before.mapM request.expandToken with
  | error error => rfl
  | ok first =>
    cases after.mapM request.expandToken with
    | error error => rfl
    | ok second => exact congrArg Except.ok List.flatten_append

/-- Nothing passes from one token to another, neither on success nor on failure. -/
theorem expand_append {before after : List String}
    (undeclared : ∀ token ∈ before ++ after, isDeclaration token = false) :
    (∀ groups, request.expand (before ++ after) = .ok groups ↔
      ∃ first second, request.expand before = .ok first ∧ request.expand after = .ok second ∧
        groups = first ++ second) ∧
    (∀ error, request.expand (before ++ after) = .error error ↔
      request.expand before = .error error ∨
        (∃ first, request.expand before = .ok first) ∧ request.expand after = .error error) ∧
    request.expand (before ++ after) =
      ((before ++ after).mapM fun token => request.expand [token]).map List.flatten := by
  refine ⟨fun groups => ?_, fun error => ?_, expand_each undeclared⟩
  · rw [expand_append_eq undeclared, Outcome.bind_eq_ok_iff]
    constructor
    · rintro ⟨first, front, rest⟩
      obtain ⟨second, back, joined⟩ := Outcome.bind_eq_ok_iff.mp rest
      cases joined
      exact ⟨first, second, front, back, rfl⟩
    · rintro ⟨first, second, front, back, rfl⟩
      exact ⟨first, front, Outcome.bind_eq_ok_iff.mpr ⟨second, back, rfl⟩⟩
  · rw [expand_append_eq undeclared, Outcome.bind_eq_error_iff]
    apply or_congr_right
    constructor
    · rintro ⟨first, front, rest⟩
      rcases Outcome.bind_eq_error_iff.mp rest with failed | ⟨second, -, joined⟩
      · exact ⟨⟨first, front⟩, failed⟩
      · cases joined
    · rintro ⟨⟨first, front⟩, failed⟩
      exact ⟨first, front, Outcome.bind_eq_error_iff.mpr (.inl failed)⟩

end

/-- A request where one name stands for a base with two candidates and another for none. -/
def twoNames : Request where
  registry := some (Dict.ofList [("a", .fixed [Dict.ofList [("k", .list [.int 1, .int 2])], Dict.empty]), ("b", .fixed [])])
  tag := none
  policy := .default
  groupByToken := true
  nested := false
  join := some (Dict.ofList [("j", .none)])
  metadata := none

theorem expand_append_two_parts :
    (∃ first second, twoNames.expand ["a[0]"] = .ok first ∧ twoNames.expand ["a::b", "b"] = .ok second ∧
      twoNames.expand ["a[0]", "a::b", "b"] = .ok (first ++ second) ∧ (first ++ second).map List.length = [2, 2, 0]) ∧
    twoNames.expand ["a[0]", "c", "a[7]"] = .error (.unknownName "c" ["a", "b"]) := by
  obtain ⟨given, -⟩ := @expand_append twoNames ["a[0]"] ["a::b", "b"] (by decide)
  obtain ⟨first, second, front, back, -⟩ := (given _).mp rfl
  refine ⟨⟨first, second, front, back, (given _).mpr ⟨first, second, front, back, rfl⟩, ?_⟩, ?_⟩
  · cases front
    cases back
    rfl
  · obtain ⟨-, refused, -⟩ := @expand_append twoNames ["a[0]"] ["c", "a[7]"] (by decide)
    exact (refused _).mpr (.inr ⟨⟨first, front⟩, rfl⟩)

end ParamSweep.Request
