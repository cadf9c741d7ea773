import Mathlib.Algebra.GroupWithZero.Nat
import ParamSweep.Proofs.Marks
import ParamSweep.Proofs.PlainTokens

/-! Joined tokens. Each segment is a plain token, expanded as if it stood alone, and its configurations stay
together in one node. Segments are not crossed, so their numbers of configurations add up. -/

namespace ParamSweep.Request
open Text

/-- The segments of a joined token make it up again. None is joined itself and only the last may end in a colon,
so each cut is as far left as it can be. -/
theorem segments_of_joined {token : String} (joined : isJoined token = true) :
    2 ≤ (segments token).length ∧ "::".intercalate (segments token) = token ∧
      (∀ segment ∈ segments token, isJoined segment = false) ∧
      ∀ segment ∈ (segments token).dropLast, segment.toList.getLast? ≠ some ':' := by
  refine ⟨?_, ?_, ?_, ?_⟩
  · rw [segments, List.length_map]
    exact two_le_length_splitPair joined
  · apply String.toList_injective
    have same : String.toList ∘ String.ofList = id := by
      funext chars
      exact String.toList_ofList
    rw [String.toList_intercalate, segments, List.map_map, same, List.map_id]
    exact intercalate_splitPair ':' ':' token.toList
  · intro segment member
    obtain ⟨piece, inside, rfl⟩ := List.mem_map.mp member
    rw [isJoined, String.toList_ofList]
    exact hasPair_of_mem_splitPair inside
  · intro segment member
    rw [segments, ← List.map_dropLast] at member
    obtain ⟨piece, inside, rfl⟩ := List.mem_map.mp member
    rw [String.toList_ofList]
    exact getLast?_of_mem_dropLast_splitPair inside

theorem undeclared_of_mem_segments {token segment : String} (undeclared : isDeclaration token = false)
    (member : segment ∈ segments token) : isDeclaration segment = false := by
  obtain ⟨piece, inside, rfl⟩ := List.mem_map.mp member
  rw [isDeclaration, String.toList_ofList]
  exact unmarked_of_mem_splitPair undeclared inside

-- Join entries are added to what segments give, and have no part in giving it.
private theorem expandBases_any_join (request : Request) (join : Option Config) (token : Token) (group : Group)
    (bases : List Config) :
    ({ request with join } : Request).expandBases token group bases = request.expandBases token group bases := by
  induction bases generalizing group with
  | nil => rfl
  | cons base rest ih =>
    unfold expandBases
    simp only [ih]
    rfl

private theorem expandPlain_any_join (request : Request) (join : Option Config) (token : String) :
    ({ request with join } : Request).expandPlain token = request.expandPlain token := by
  unfold expandPlain
  simp only [expandBases_any_join]

/-- The request that a segment is expanded by. -/
def alone (request : Request) : Request := { request with nested := false, join := none }

theorem expand_alone (request : Request) {segment : String} (undeclared : isDeclaration segment = false)
    (unjoined : isJoined segment = false) :
    request.alone.expand [segment] = ({ request with nested := false } : Request).expandPlain segment := by
  rw [expand_plain request.alone undeclared unjoined]
  exact expandPlain_any_join { request with nested := false } none segment

theorem exists_group_of_expandPlain {request : Request} {token : String} {groups : List Group}
    (expanded : request.expandPlain token = .ok groups) (together : request.groupByToken = true) :
    ∃ group, groups = [group] := by
  obtain ⟨parsed, -, expanded⟩ := Outcome.bind_eq_ok_iff.mp expanded
  obtain ⟨bases, -, expanded⟩ := Outcome.bind_eq_ok_iff.mp expanded
  generalize ([] : Group) = group at expanded
  induction bases generalizing group with
  | nil =>
    rw [expandBases, if_pos together] at expanded
    cases expanded
    exact ⟨group, rfl⟩
  | cons base rest ih =>
    obtain ⟨configs, -, expanded⟩ := Outcome.bind_eq_ok_iff.mp expanded
    rw [if_pos together] at expanded
    exact ih _ expanded

private theorem map_flatten_of_single (make : List Config → Node) {parts : List (List Group)}
    (single : ∀ part ∈ parts, ∃ group, part = [group]) :
    (parts.flatten.map fun group => make group.flatten) = (parts.map Group.listed).map make := by
  induction parts with
  | nil => rfl
  | cons part rest ih =>
    obtain ⟨group, rfl⟩ := single part List.mem_cons_self
    rw [List.flatten_cons, List.map_append, List.map_cons, List.map_cons, Group.listed_singleton,
      ih fun part member => single part (List.mem_cons_of_mem _ member)]
    rfl

/-- A joined token is a walk over its segments that stops at the first failure. -/
theorem expand_joined_eq {request : Request} {token : String} (together : request.groupByToken = true)
    (joined : isJoined token = true) (undeclared : isDeclaration token = false) :
    request.expand [token] =
      ((segments token).mapM fun segment => (request.alone.expand [segment]).map Group.listed).map fun parts =>
        [parts.map fun part => Node.group (part.map request.addJoin)] := by
  obtain ⟨-, -, unjoined, -⟩ := segments_of_joined joined
  have walked : ((segments token).mapM fun segment => (request.alone.expand [segment]).map Group.listed) =
      ((segments token).mapM ({ request with nested := false } : Request).expandPlain).map (List.map Group.listed) := by
    rw [Outcome.map_mapM]
    apply Outcome.mapM_congr
    intro segment member
    rw [expand_alone request (undeclared_of_mem_segments undeclared member) (unjoined segment member)]
  rw [expand_single request undeclared, expandToken, joined, if_pos rfl, expandJoined, walked]
  cases expanded : (segments token).mapM ({ request with nested := false } : Request).expandPlain with
  | error error => rfl
  | ok parts =>
    -- Grouped by token a segment gives one group, so no bounds are lost where the groups are put together.
    have single : ∀ part ∈ parts, ∃ group, part = [group] := by
      intro part member
      obtain ⟨segment, -, given⟩ := Outcome.exists_item_of_mem (Outcome.mapM_eq_ok_iff.mp expanded) member
      exact exists_group_of_expandPlain given together
    simp only [Outcome.ok_bind, Outcome.map_ok]
    rw [map_flatten_of_single (fun configs => Node.group (configs.map request.addJoin)) single]

theorem length_listed_joined (f : Config → Config) (parts : List (List Config)) :
    (Group.listed [parts.map fun part => Node.group (part.map f)]).length = (parts.map List.length).sum := by
  rw [Group.listed_singleton, Group.flatten, List.flatMap_map, List.length_flatMap]
  simp only [Node.configs, List.length_map]

theorem get?_addJoin (request : Request) (config : Config) (key : String) :
    (request.addJoin config).get? key = (request.join.bind (·.get? key)).or (config.get? key) := by
  unfold addJoin
  cases request.join with
  | none => rfl
  | some join => exact Dict.get?_extend config join key

theorem expand_empty (request : Request) :
    request.expand [""] = (do
      let bases ← Registry.lookup request.registry request.metadata ""
      request.expandBases ⟨"", "", none⟩ [] bases) :=
  expand_plain request (by decide) (by decide)

/-- Grouped by token, a joined token gives one group with a node for each segment: what the segment gives alone,
with the join entries. It fails as its first failing segment does. -/
theorem expand_joined {request : Request} {token : String} (together : request.groupByToken = true)
    (joined : isJoined token = true) (undeclared : isDeclaration token = false) :
    (2 ≤ (segments token).length ∧ "::".intercalate (segments token) = token ∧
      (∀ segment ∈ segments token, isJoined segment = false) ∧
      ∀ segment ∈ (segments token).dropLast, segment.toList.getLast? ≠ some ':') ∧
    (∀ groups, request.expand [token] = .ok groups ↔
      ∃ parts, List.Forall₂ (fun segment part => (request.alone.expand [segment]).map Group.listed = .ok part)
          (segments token) parts ∧
        groups = [parts.map fun part => Node.group (part.map request.addJoin)] ∧
        (Group.listed groups).length = (parts.map List.length).sum) ∧
    (∀ error, request.expand [token] = .error error ↔
      ∃ before segment after, segments token = before ++ segment :: after ∧
        (∀ earlier ∈ before, ∃ groups, request.alone.expand [earlier] = .ok groups) ∧
        request.alone.expand [segment] = .error error) ∧
    (∀ config key, (request.addJoin config).get? key = (request.join.bind (·.get? key)).or (config.get? key)) ∧
    request.alone.expand [""] = (do
      let bases ← Registry.lookup request.registry request.metadata ""
      request.alone.expandBases ⟨"", "", none⟩ [] bases) := by
  refine ⟨segments_of_joined joined, fun groups => ?_, fun error => ?_, get?_addJoin request, expand_empty request.alone⟩
  · rw [expand_joined_eq together joined undeclared, Outcome.map_eq_ok_iff]
    constructor
    · rintro ⟨parts, walked, rfl⟩
      exact ⟨parts, Outcome.mapM_eq_ok_iff.mp walked, rfl, length_listed_joined request.addJoin parts⟩
    · rintro ⟨parts, pairs, rfl, -⟩
      exact ⟨parts, Outcome.mapM_eq_ok_iff.mpr pairs, rfl⟩
  · rw [expand_joined_eq together joined undeclared, Outcome.map_eq_error_iff, Outcome.mapM_eq_error_iff]
    simp only [Outcome.map_eq_ok_iff, Outcome.map_eq_error_iff]
    constructor
    · rintro ⟨before, segment, after, cut, passed, failed⟩
      refine ⟨before, segment, after, cut, fun earlier member => ?_, failed⟩
      obtain ⟨-, groups, given, -⟩ := passed earlier member
      exact ⟨groups, given⟩
    · rintro ⟨before, segment, after, cut, passed, failed⟩
      refine ⟨before, segment, after, cut, fun earlier member => ?_, failed⟩
      obtain ⟨groups, given⟩ := passed earlier member
      exact ⟨_, groups, given, rfl⟩

/-- A request in which one name stands for a base with three candidates and one for two bases. -/
def bindings : Request where
  registry := some (Dict.ofList
    [("a", .fixed [Dict.ofList [("k", .list [.int 1, .int 2, .int 3])]]), ("b", .fixed [Dict.empty, Dict.empty])])
  tag := none
  policy := .default
  groupByToken := true
  nested := true
  join := some (Dict.ofList [("k", .none)])
  metadata := none

theorem expand_joined_three_segments :
    ∃ parts : List (List Config), bindings.expand ["a::b::a[0:2]"] =
        .ok [parts.map fun part => Node.group (part.map bindings.addJoin)] ∧
      parts.map List.length = [3, 2, 2] := by
  obtain ⟨-, given, -⟩ := @expand_joined bindings "a::b::a[0:2]" rfl (by decide) (by decide)
  obtain ⟨parts, pairs, -⟩ := (given _).mp rfl
  refine ⟨parts, (given _).mpr ⟨parts, pairs, rfl, length_listed_joined _ parts⟩, ?_⟩
  rcases pairs with _ | ⟨first, _ | ⟨second, _ | ⟨third, _ | _⟩⟩⟩
  cases first
  cases second
  cases third
  rfl

end ParamSweep.Request
