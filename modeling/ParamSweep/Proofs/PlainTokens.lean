import ParamSweep.Group
import ParamSweep.Proofs.ExpansionRecord

/-! Plain tokens, positions aside. The configurations of a plain token are those that it takes of each base,
base after base. Neither the numbering nor the grouping has a part in this. -/

namespace ParamSweep

namespace Selector

variable {α β : Type}

private theorem everyNth_map (f : α → β) (skip wait : Nat) (items : List α) :
    everyNth skip wait (items.map f) = (everyNth skip wait items).map f := by
  induction items generalizing wait with
  | nil => cases wait <;> rfl
  | cons item rest ih => cases wait <;> simp [everyNth, ih]

private theorem between_map (f : α → β) (start stop : Nat) (items : List α) :
    between start stop (items.map f) = (between start stop items).map f := by
  simp [between, List.map_take, List.map_drop]

/-- A selector looks at positions only. -/
theorem select_map (f : α → β) (selector : Selector) (items : List α) :
    selector.select (items.map f) = (selector.select items).map (List.map f) := by
  cases selector with
  | indices positions =>
    simp only [select, Outcome.map_mapM, List.getElem?_map, List.length_map]
    congr
    funext index
    cases items[index]? <;> rfl
  | slice start stop step =>
    simp only [select, between_map, List.length_map, List.isEmpty_map]
    split
    · split <;> rfl
    · rw [everyNth_map]
      rfl

theorem everyNth_sublist (skip wait : Nat) (items : List α) :
    List.Sublist (everyNth skip wait items) items := by
  induction items generalizing wait with
  | nil => cases wait <;> exact List.Sublist.refl _
  | cons item rest ih =>
    cases wait with
    | zero => exact (ih skip).cons_cons item
    | succ wait => exact (ih wait).cons item

theorem mem_of_mem_select {selector : Selector} {items selected : List α} {item : α}
    (accepted : selector.select items = .ok selected) (member : item ∈ selected) : item ∈ items := by
  cases selector with
  | indices positions =>
    obtain ⟨index, -, found⟩ := Outcome.exists_item_of_mem (Outcome.mapM_eq_ok_iff.mp accepted) member
    split at found
    next held =>
      cases found
      exact List.mem_of_getElem? held
    · cases found
  | slice start stop step =>
    unfold select at accepted
    dsimp only at accepted
    split at accepted
    · split at accepted
      · cases accepted
        cases member
      · cases accepted
    · cases accepted
      exact List.mem_of_mem_take (List.mem_of_mem_drop ((everyNth_sublist _ _ _).subset member))

end Selector

namespace Config

def unnumbered (config : Config) : Config := config.erase indexKey

theorem get?_unnumbered (config : Config) (key : String) :
    config.unnumbered.get? key = if key = indexKey then none else config.get? key :=
  Dict.get?_erase config indexKey key

theorem unnumbered_eq_iff {left right : Config} :
    left.unnumbered = right.unnumbered ↔ ∀ key, key ≠ indexKey → left.get? key = right.get? key := by
  constructor
  · intro same key other
    have found := congrArg (fun config : Config => config.get? key) same
    simpa only [get?_unnumbered, if_neg other] using found
  · intro same
    apply Dict.ext_get?
    intro key
    rw [get?_unnumbered, get?_unnumbered]
    split
    · rfl
    next other => exact same key other

theorem unnumbered_stamp (source : String) (index other : Nat) (config : Config) :
    (stamp source index config).unnumbered = (stamp source other config).unnumbered := by
  apply unnumbered_eq_iff.mpr
  intro key differs
  rw [get?_stamp, get?_stamp, if_neg differs, if_neg differs]

/-- Stamps that a view of configurations does not tell apart are not told apart in an expansion. -/
theorem map_stamp {view : Config → Config} {source other : String} {offset start : Nat}
    (same : ∀ index config, view (stamp source (offset + index) config) = view (stamp other (start + index) config))
    (configs : List Config) :
    (configs.mapIdx fun index config => stamp source (offset + index) config).map view =
      (configs.mapIdx fun index config => stamp other (start + index) config).map view := by
  apply List.ext_getElem?
  intro index
  rw [List.getElem?_map, List.getElem?_map, List.getElem?_mapIdx, List.getElem?_mapIdx]
  cases configs[index]? with
  | none => rfl
  | some config => exact congrArg some (same index config)

/-- The offset of an expansion shows in the positions alone. -/
theorem map_unnumbered_expand (policy : KeyPolicy) (tag : Option String) (name options : String) (offset : Nat)
    (base : Config) :
    (expand policy tag name options offset base).map (List.map unnumbered) =
      (expand policy tag name options 0 base).map (List.map unnumbered) := by
  unfold expand
  cases (policy.parse options).mapError Error.grammar with
  | error error => rw [Outcome.error_bind, Outcome.error_bind]
  | ok overrides =>
    rw [Outcome.ok_bind, Outcome.ok_bind]
    cases policy.check overrides base with
    | error error => rw [Outcome.error_bind, Outcome.error_bind]
    | ok => exact congrArg Except.ok (map_stamp (fun index => unnumbered_stamp _ (offset + index) (0 + index)) _)

end Config

namespace Group

def listed (groups : List Group) : List Config := groups.flatMap flatten

theorem listed_singleton (group : Group) : listed [group] = group.flatten := List.append_nil _

theorem flatten_cons (node : Node) (rest : Group) : flatten (node :: rest) = node.configs ++ flatten rest := rfl

@[simp] theorem flatten_append (left right : Group) : flatten (left ++ right) = flatten left ++ flatten right :=
  List.flatMap_append

end Group

namespace Request
open Config

/-- What a token takes of one base, positions aside. -/
def variants (request : Request) (token : Token) (base : Config) : Except Error (List Config) :=
  (request.expandBase token 0 base).map (List.map unnumbered)

theorem map_unnumbered_expandBase (request : Request) (token : Token) (offset : Nat) (base : Config) :
    (request.expandBase token offset base).map (List.map unnumbered) = request.variants token base := by
  have same := map_unnumbered_expand request.policy request.tag token.name token.options offset base
  unfold variants expandBase
  cases shifted : Config.expand request.policy request.tag token.name token.options offset base with
  | error error =>
    rw [shifted] at same
    rw [Outcome.map_eq_error_iff.mp same.symm]
  | ok configs =>
    rw [shifted] at same
    obtain ⟨others, fromZero, equal⟩ := Outcome.map_eq_ok_iff.mp same.symm
    rw [fromZero]
    simp only [Outcome.ok_bind]
    cases token.selector with
    | none => simp only [Outcome.map_ok, equal]
    | some selector => rw [← Selector.select_map, ← Selector.select_map, equal]

/-- What a token takes of a base is part of the base's expansion. -/
theorem exists_expand_of_expandBase {request : Request} {token : Token} {offset : Nat} {base : Config}
    {selected : List Config} (taken : request.expandBase token offset base = .ok selected) :
    ∃ configs, Config.expand request.policy request.tag token.name token.options offset base = .ok configs ∧
      ∀ config ∈ selected, config ∈ configs := by
  obtain ⟨configs, expanded, chosen⟩ := Outcome.bind_eq_ok_iff.mp taken
  refine ⟨configs, expanded, fun config member => ?_⟩
  split at chosen
  · exact Selector.mem_of_mem_select chosen member
  · cases chosen
    exact member

theorem expandBases_single (request : Request) (token : Token) (base : Config) :
    request.expandBases token [] [base] = (request.expandBase token 0 base).map fun configs =>
      [request.nodes configs] := by
  unfold expandBases
  rw [List.length_nil]
  cases request.expandBase token 0 base with
  | error error => rfl
  | ok configs => cases together : request.groupByToken <;> simp [together, expandBases, pure, Except.pure]

@[simp] theorem flatten_nodes (request : Request) (configs : List Config) :
    Group.flatten (request.nodes configs) = configs := by
  unfold nodes Group.flatten
  split
  · simp [Node.configs]
  · simp [Node.configs, List.flatMap_map]

/-- Going on from a group that is there adds what the token takes of each base. -/
theorem map_listed_expandBases (request : Request) (token : Token) (group : Group) (bases : List Config) :
    (request.expandBases token group bases).map (fun groups => (Group.listed groups).map unnumbered) =
      (bases.mapM (request.variants token)).map fun parts =>
        (if request.groupByToken then group.flatten.map unnumbered else []) ++ parts.flatten := by
  induction bases generalizing group with
  | nil =>
    cases together : request.groupByToken <;> simp [expandBases, together, Group.listed, pure, Except.pure]
  | cons base rest ih =>
    have taken := map_unnumbered_expandBase request token group.length base
    rw [List.mapM_cons, ← taken, expandBases]
    cases request.expandBase token group.length base with
    | error error => rfl
    | ok configs =>
      simp only [Outcome.ok_bind, Outcome.map_ok]
      -- The group that is there grows only if the bases share it; else it comes to nothing.
      cases together : request.groupByToken with
      | true =>
        have later := ih (group ++ request.nodes configs)
        simp only [together, if_true] at later ⊢
        rw [later]
        cases rest.mapM (request.variants token) with
        | error error => rfl
        | ok parts => simp [pure, Except.pure]
      | false =>
        have later := ih group
        simp only [together] at later ⊢
        cases found : request.expandBases token group rest with
        | error error =>
          rw [found] at later
          rw [Outcome.map_eq_error_iff.mp later.symm]
          rfl
        | ok groups =>
          rw [found] at later
          obtain ⟨parts, walked, equal⟩ := Outcome.map_eq_ok_iff.mp later.symm
          rw [walked]
          simpa [pure, Except.pure, Group.listed] using equal.symm

/-- What a plain token stands for, positions aside. -/
def reading (request : Request) (token : String) : Except Error (List Config) := do
  let parsed ← (Token.parse token).mapError .grammar
  let bases ← Registry.lookup request.registry request.metadata parsed.name
  (bases.mapM (request.variants parsed)).map List.flatten

theorem map_listed_expandPlain (request : Request) (token : String) :
    (request.expandPlain token).map (fun groups => (Group.listed groups).map unnumbered) =
      request.reading token := by
  unfold expandPlain reading
  cases (Token.parse token).mapError Error.grammar with
  | error error => rfl
  | ok parsed =>
    simp only [Outcome.ok_bind]
    cases Registry.lookup request.registry request.metadata parsed.name with
    | error error => rfl
    | ok bases =>
      simp only [Outcome.ok_bind]
      rw [map_listed_expandBases]
      cases request.groupByToken <;> rfl

theorem resolveRegistry_of_undeclared (request : Request) {tokens : List String}
    (undeclared : ∀ token ∈ tokens, isDeclaration token = false) :
    request.resolveRegistry tokens = .ok request.registry := by
  have none : tokens.filter isDeclaration = [] :=
    List.filter_eq_nil_iff.mpr fun token member => by simp [undeclared token member]
  unfold resolveRegistry
  rw [none]
  cases request.registry <;> rfl

theorem expand_undeclared (request : Request) {tokens : List String}
    (undeclared : ∀ token ∈ tokens, isDeclaration token = false) :
    request.expand tokens = (tokens.mapM request.expandToken).map List.flatten := by
  have all : tokens.filter (!isDeclaration ·) = tokens :=
    List.filter_eq_self.mpr fun token member => by simp [undeclared token member]
  unfold expand
  rw [resolveRegistry_of_undeclared request undeclared, all]
  simp only [Outcome.ok_bind]
  cases tokens.mapM request.expandToken <;> rfl

theorem expand_single (request : Request) {token : String} (undeclared : isDeclaration token = false) :
    request.expand [token] = request.expandToken token := by
  rw [expand_undeclared request (by simpa using undeclared), List.mapM_cons, List.mapM_nil]
  cases request.expandToken token with
  | error error => rfl
  | ok groups => simp [pure, Except.pure]

theorem expand_plain (request : Request) {token : String} (undeclared : isDeclaration token = false)
    (unjoined : isJoined token = false) : request.expand [token] = request.expandPlain token := by
  rw [expand_single request undeclared, expandToken, unjoined, if_neg Bool.false_ne_true]

end Request
end ParamSweep
