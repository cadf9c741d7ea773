import Mathlib.Algebra.GroupWithZero.Nat
import ParamSweep.Proofs.PlainTokens

/-! The numbering within a group. Each base is numbered from the count of nodes before it, so a group is
numbered in order exactly when those nodes held as many configurations as they are. -/

namespace ParamSweep

namespace Config

/-- Whether configurations record the positions from an offset on, in order. -/
def NumberedFrom (offset : Nat) (configs : List Config) : Prop :=
  ∀ (index : Nat) (config : Config), configs[index]? = some config →
    config.get? indexKey = some (ordinal (offset + index))

theorem ordinal_add {left right : Nat} (same : ordinal left = ordinal right) (index : Nat) :
    ordinal (left + index) = ordinal (right + index) := by
  simp only [ordinal, Value.int.injEq, Int64.ofNat_add] at same ⊢
  rw [same]

theorem numberedFrom_nil (offset : Nat) : NumberedFrom offset [] := fun _ _ found => by cases found

theorem numberedFrom_append_iff {offset : Nat} {left right : List Config} :
    NumberedFrom offset (left ++ right) ↔ NumberedFrom offset left ∧ NumberedFrom (offset + left.length) right := by
  constructor
  · intro numbered
    refine ⟨fun index config found => ?_, fun index config found => ?_⟩
    · have inside := (List.getElem?_eq_some_iff.mp found).1
      exact numbered index config (by rw [List.getElem?_append_left inside, found])
    · rw [Nat.add_assoc]
      apply numbered
      rw [List.getElem?_append_right (by omega), Nat.add_sub_cancel_left, found]
  · intro ⟨first, second⟩ index config found
    by_cases inside : index < left.length
    · exact first index config (by rwa [List.getElem?_append_left inside] at found)
    · obtain ⟨rest, rfl⟩ := Nat.exists_eq_add_of_le (Nat.not_lt.mp inside)
      rw [List.getElem?_append_right (by omega), Nat.add_sub_cancel_left] at found
      rw [← Nat.add_assoc]
      exact second rest config found

/-- Two offsets number the same configurations only if they are the same word. -/
theorem numberedFrom_iff {start offset : Nat} {configs : List Config} (numbered : NumberedFrom start configs) :
    NumberedFrom offset configs ↔ (configs ≠ [] → ordinal offset = ordinal start) := by
  constructor
  · intro again present
    cases configs with
    | nil => exact absurd rfl present
    | cons config rest =>
      exact Option.some.inj ((again 0 config rfl).symm.trans (numbered 0 config rfl))
  · intro same index config found
    have present : configs ≠ [] := by
      rintro rfl
      cases found
    rw [numbered index config found, ordinal_add (same present) index]

theorem numberedFrom_expand {policy : KeyPolicy} {tag : Option String} {name options : String} {offset : Nat}
    {base : Config} {configs : List Config}
    (expanded : expand policy tag name options offset base = .ok configs) : NumberedFrom offset configs := by
  obtain ⟨overrides, -, -, rfl⟩ := expand_eq_ok_iff.mp expanded
  intro index config found
  rw [List.getElem?_mapIdx] at found
  obtain ⟨combination, -, rfl⟩ := Option.map_eq_some_iff.mp found
  rw [get?_stamp, if_neg (by decide), if_pos rfl]

end Config

namespace Group
open Config

def Numbered (group : Group) : Prop := NumberedFrom 0 group.flatten

/-- Whether each node is numbered from the count of nodes before it. -/
def NumberedByNode (start : Nat) (group : Group) : Prop :=
  ∀ (count : Nat) (node : Node), group[count]? = some node → NumberedFrom (start + count) node.configs

def sizes (group : Group) : List Nat := group.map (·.configs.length)

private theorem numberedFrom_flatten_iff {start offset : Nat} {group : Group}
    (numbered : group.NumberedByNode start) :
    NumberedFrom offset group.flatten ↔ ∀ count size, group.sizes[count]? = some size → size ≠ 0 →
      ordinal (offset + (group.sizes.take count).sum) = ordinal (start + count) := by
  induction group generalizing start offset with
  | nil => simp [flatten, sizes, numberedFrom_nil]
  | cons first rest ih =>
    -- Both counts move on, the nodes by one and the configurations by what the first node holds.
    have here : NumberedFrom start first.configs := numbered 0 first rfl
    have later : NumberedByNode (start + 1) rest := by
      intro count node found
      rw [Nat.add_right_comm, Nat.add_assoc]
      exact numbered (count + 1) node found
    have whole : sizes (first :: rest) = first.configs.length :: sizes rest := rfl
    rw [flatten_cons, numberedFrom_append_iff, numberedFrom_iff here, ih later, whole]
    constructor
    · rintro ⟨firstSame, restSame⟩ count size found present
      cases count with
      | zero =>
        cases found
        exact firstSame fun empty => present (by rw [empty]; rfl)
      | succ count =>
        rw [List.take_succ_cons, List.sum_cons, ← Nat.add_assoc, restSame count size found present]
        congr 1
        omega
    · intro all
      refine ⟨fun present => all 0 _ rfl (present ∘ List.length_eq_zero_iff.mp), ?_⟩
      intro count size found present
      have same := all (count + 1) size found present
      rw [List.take_succ_cons, List.sum_cons, ← Nat.add_assoc] at same
      rw [same]
      congr 1
      omega

/-- Whether the numbers before each one that is not zero add up to how many they are, counted in words of
sixty-four bits. -/
def Level (sizes : List Nat) : Prop :=
  ∀ count size, sizes[count]? = some size → size ≠ 0 → ordinal (sizes.take count).sum = ordinal count

/-- Numbered node by node, a group is numbered in order as long as its nodes hold one configuration each. -/
theorem numbered_iff_level {group : Group} (numbered : group.NumberedByNode 0) :
    group.Numbered ↔ Level group.sizes := by
  unfold Numbered Level
  rw [numberedFrom_flatten_iff numbered]
  simp only [Nat.zero_add]

theorem level_of_ones {sizes : List Nat} (ones : ∀ size ∈ sizes, size = 1) : Level sizes := by
  intro count size found _
  have inside := (List.getElem?_eq_some_iff.mp found).1
  rw [List.eq_replicate_of_mem ones, List.take_replicate, List.sum_replicate_nat, Nat.mul_one,
    Nat.min_eq_left (Nat.le_of_lt inside)]

end Group

namespace Request
open Config ParamSweep.Group

theorem sizes_nodes (request : Request) (configs : List Config) :
    sizes (request.nodes configs) = if request.nested then [configs.length] else configs.map fun _ => 1 := by
  unfold sizes nodes
  cases request.nested with
  | true => rfl
  | false =>
    simp only [Bool.false_eq_true, if_false, List.map_map]
    rfl

theorem numberedByNode_append {request : Request} {group : Group} {configs : List Config}
    (before : group.NumberedByNode 0) (numbered : NumberedFrom group.length configs) :
    NumberedByNode 0 (group ++ request.nodes configs) := by
  intro count node found
  rw [Nat.zero_add]
  by_cases inside : count < group.length
  · rw [List.getElem?_append_left inside] at found
    have held := before count node found
    rwa [Nat.zero_add] at held
  · obtain ⟨index, rfl⟩ := Nat.exists_eq_add_of_le (Nat.not_lt.mp inside)
    rw [List.getElem?_append_right (by omega), Nat.add_sub_cancel_left] at found
    cases together : request.nested with
    | true =>
      simp only [nodes, together, if_true] at found
      cases index with
      | zero =>
        cases found
        exact numbered
      | succ index => cases found
    | false =>
      simp only [nodes, together, Bool.false_eq_true, if_false, List.getElem?_map] at found
      obtain ⟨config, held, rfl⟩ := Option.map_eq_some_iff.mp found
      intro position other same
      cases position with
      | zero =>
        cases same
        exact numbered index config held
      | succ position => cases same

private theorem numberedFrom_expandBase {request : Request} {token : Token} {offset : Nat} {base : Config}
    {configs : List Config} (whole : token.selector = none)
    (taken : request.expandBase token offset base = .ok configs) : NumberedFrom offset configs := by
  unfold expandBase at taken
  rw [whole] at taken
  obtain ⟨expanded, walked, same⟩ := Outcome.bind_eq_ok_iff.mp taken
  cases same
  exact numberedFrom_expand walked

theorem exists_base_of_mem_expandBases {request : Request} {token : Token} {group : Group} {bases : List Config}
    {groups : List Group} (apart : request.groupByToken = false)
    (expanded : request.expandBases token group bases = .ok groups) :
    ∀ result ∈ groups, ∃ configs, (∃ base ∈ bases, request.expandBase token group.length base = .ok configs) ∧
      result = request.nodes configs := by
  induction bases generalizing groups with
  | nil =>
    simp only [expandBases, apart, Bool.false_eq_true, if_false, Except.ok.injEq] at expanded
    simp [← expanded]
  | cons base rest ih =>
    obtain ⟨configs, taken, expanded⟩ := Outcome.bind_eq_ok_iff.mp expanded
    rw [if_neg (by simp [apart])] at expanded
    obtain ⟨others, later, same⟩ := Outcome.bind_eq_ok_iff.mp expanded
    cases same
    intro result member
    rcases List.mem_cons.mp member with rfl | member
    · exact ⟨configs, ⟨base, List.mem_cons_self, taken⟩, rfl⟩
    · obtain ⟨configs, ⟨base, among, taken⟩, same⟩ := ih later result member
      exact ⟨configs, ⟨base, List.mem_cons_of_mem _ among, taken⟩, same⟩

/-- Grouped by token the bases give one group, in which the nodes of each base go on behind those of the bases
before it. What keeps the nodes numbered is that each base starts from the count of nodes that are there. -/
theorem exists_group_of_expandBases {request : Request} {token : Token} {group : Group} {bases : List Config}
    {groups : List Group} (together : request.groupByToken = true) (whole : token.selector = none)
    (before : group.NumberedByNode 0) (expanded : request.expandBases token group bases = .ok groups) :
    ∃ result parts, groups = [result] ∧ result.NumberedByNode 0 ∧
      bases.mapM (request.variants token) = .ok parts ∧
      result.sizes = group.sizes ++
        parts.flatMap fun part => if request.nested then [part.length] else part.map fun _ => 1 := by
  induction bases generalizing group groups with
  | nil =>
    simp only [expandBases, together, if_true, Except.ok.injEq] at expanded
    exact ⟨group, [], expanded.symm, before, rfl, (List.append_nil _).symm⟩
  | cons base rest ih =>
    obtain ⟨configs, taken, expanded⟩ := Outcome.bind_eq_ok_iff.mp expanded
    rw [if_pos together] at expanded
    have grown : NumberedByNode 0 (group ++ request.nodes configs) :=
      numberedByNode_append before (numberedFrom_expandBase whole taken)
    obtain ⟨result, parts, only, numbered, walked, counted⟩ := ih grown expanded
    have variant : request.variants token base = .ok (configs.map unnumbered) := by
      rw [← map_unnumbered_expandBase request token group.length base, taken, Outcome.map_ok]
    refine ⟨result, configs.map unnumbered :: parts, only, numbered, ?_, ?_⟩
    · rw [List.mapM_cons, variant, walked]
      rfl
    · rw [counted, sizes, List.map_append, ← sizes, ← sizes, sizes_nodes, List.append_assoc, List.flatMap_cons,
        List.length_map, List.map_map]
      rfl

private theorem numbered_iff_of_expandBases {request : Request} {token : Token} {bases : List Config}
    {groups : List Group} (whole : token.selector = none)
    (expanded : request.expandBases token [] bases = .ok groups) :
    ∃ parts, bases.mapM (request.variants token) = .ok parts ∧ ∀ group ∈ groups, group.Numbered ↔
      (request.groupByToken = true → request.nested = true → Level (parts.map List.length)) := by
  cases together : request.groupByToken with
  | false =>
    have walked := map_listed_expandBases request token [] bases
    rw [expanded, Outcome.map_ok] at walked
    obtain ⟨parts, taken, -⟩ := Outcome.map_eq_ok_iff.mp walked.symm
    refine ⟨parts, taken, fun group member => ?_⟩
    obtain ⟨configs, ⟨base, -, given⟩, rfl⟩ := exists_base_of_mem_expandBases together expanded group member
    have numbered : Numbered (request.nodes configs) := by
      unfold Numbered
      rw [flatten_nodes]
      exact numberedFrom_expandBase whole given
    simp [numbered]
  | true =>
    have empty : NumberedByNode 0 [] := fun count node found => by cases found
    obtain ⟨result, parts, rfl, byNode, taken, counted⟩ := exists_group_of_expandBases together whole empty expanded
    refine ⟨parts, taken, fun group member => ?_⟩
    obtain rfl := List.mem_singleton.mp member
    rw [numbered_iff_level byNode, counted]
    cases nested : request.nested with
    | true => simp [sizes, ← List.map_eq_flatMap]
    | false =>
      have level : Level (sizes [] ++ parts.flatMap fun part => part.map fun _ => 1) :=
        level_of_ones (by simp [sizes])
      simpa using level

/-- In the groups of a plain token without a selector the configurations are numbered from zero in order, unless
one group holds several bases whose configurations stay together: then they are so exactly if before each base
with configurations there are as many of them as bases. -/
theorem numbered_iff_of_expand {request : Request} {tokens : List String} {groups : List Group}
    (expanded : request.expand tokens = .ok groups) :
    ∃ registry parts, request.resolveRegistry tokens = .ok registry ∧ groups = parts.flatten ∧
      List.Forall₂ (fun token part => ({ request with registry }).expandToken token = .ok part ∧
          ∀ parsed, isJoined token = false → Token.parse token = .ok parsed → parsed.selector = none →
            ∃ bases taken, Registry.lookup registry request.metadata parsed.name = .ok bases ∧
              bases.mapM (({ request with registry }).variants parsed) = .ok taken ∧
              ∀ group ∈ part, group.Numbered ↔
                (request.groupByToken = true → request.nested = true → Level (taken.map List.length)))
        (tokens.filter (!isDeclaration ·)) parts := by
  obtain ⟨registry, resolved, expanded⟩ := Outcome.bind_eq_ok_iff.mp expanded
  obtain ⟨parts, walked, same⟩ := Outcome.bind_eq_ok_iff.mp expanded
  cases same
  have pairs := Outcome.mapM_eq_ok_iff.mp walked
  refine ⟨registry, parts, resolved, rfl, pairs.imp fun token part given => ⟨given, ?_⟩⟩
  intro parsed plain read whole
  rw [expandToken, plain, if_neg Bool.false_ne_true, expandPlain, read, Outcome.mapError_ok, Outcome.ok_bind] at given
  obtain ⟨bases, found, given⟩ := Outcome.bind_eq_ok_iff.mp given
  obtain ⟨taken, variants, numbered⟩ := numbered_iff_of_expandBases whole given
  exact ⟨bases, taken, found, variants, numbered⟩

/-- A request in which one name stands for a base with two candidates and a base with one. -/
def unevenBases (nested : Bool) : Request where
  registry := some (Dict.ofList
    [("b", .fixed [Dict.ofList [("k", .list [.bool true, .bool false])], Dict.ofList [("k", .none)]])])
  tag := none
  policy := .default
  groupByToken := true
  nested := nested
  join := none
  metadata := none

theorem numbered_single_nodes :
    ∃ groups, (unevenBases false).expand ["b"] = .ok groups ∧ groups.map (·.flatten.length) = [3] ∧
      ∀ group ∈ groups, group.Numbered := by
  refine ⟨_, rfl, rfl, fun group member => ?_⟩
  obtain ⟨registry, parts, -, same, pairs⟩ := @numbered_iff_of_expand (unevenBases false) ["b"] _ rfl
  rw [same] at member
  obtain ⟨part, within, inside⟩ := List.mem_flatten.mp member
  obtain ⟨token, listed, -, numbered⟩ := Outcome.exists_item_of_mem pairs within
  obtain rfl : token = "b" := by simpa using (List.mem_filter.mp listed).1
  obtain ⟨bases, taken, -, -, numbered⟩ := numbered ⟨"b", "", none⟩ (by decide) rfl rfl
  exact (numbered group inside).mpr fun _ impossible => by cases impossible

/-- Two configurations stay together in the first node, so the second base is numbered from one again. -/
theorem numbered_together_fails :
    isDeclaration "b" = false ∧ isJoined "b" = false ∧ Token.parse "b" = .ok ⟨"b", "", none⟩ ∧
      ∃ group, (unevenBases true).expand ["b"] = .ok [group] ∧
        group.flatten.map (·.get? indexKey) = [some (.int 0), some (.int 1), some (.int 1)] ∧ ¬group.Numbered := by
  have repeated (group : Group)
      (positions : group.flatten.map (·.get? indexKey) = [some (.int 0), some (.int 1), some (.int 1)]) :
      ¬group.Numbered := by
    intro numbered
    have third := congrArg (·[2]?) positions
    simp only [List.getElem?_map] at third
    obtain ⟨config, found, recorded⟩ := Option.map_eq_some_iff.mp third
    have same := (numbered 2 config found).symm.trans recorded
    exact absurd (Value.int.inj (Option.some.inj same)) (by decide)
  exact ⟨by decide, by decide, rfl, _, rfl, rfl, repeated _ rfl⟩

end Request
end ParamSweep
