import ParamSweep.Proofs.DeclaredOptions
import ParamSweep.Proofs.Faults
import ParamSweep.Proofs.JoinedTokens

/-! The scope of declarations. They are collected before any token is expanded, so a declaration counts for the
tokens before it as it does for those behind it. A token before it is left alone only if it lists nothing, or if
it overrides all that is declared for its name. -/

namespace ParamSweep

/-- Overrides that are accepted over a base are accepted over nothing. -/
theorem KeyPolicy.check_empty_of_check {policy : KeyPolicy} {overrides base : Config}
    (accepted : policy.check overrides base = .ok ()) : policy.check overrides Dict.empty = .ok () := by
  unfold check permitted? at accepted ⊢
  cases given : policy.validKeys with
  | none => split <;> rfl
  | some keys => simpa only [given] using accepted

namespace Request
open Config Text

/-- Whether every name that is known has a single base. -/
def SoleBases (request : Request) : Prop :=
  ∀ name bases, Registry.lookup request.registry request.metadata name = .ok bases → ∃ base, bases = [base]

/-- What a plain token takes of the only base of its name. -/
def pick (request : Request) (token : String) : Except Error (List Config) := do
  let parsed ← (Token.parse token).mapError .grammar
  let bases ← Registry.lookup request.registry request.metadata parsed.name
  request.expandBase parsed 0 (bases.headD Dict.empty)

/-- The plain tokens that a token is made of. -/
def pieces (token : String) : List String := if isJoined token then segments token else [token]

/-- The group that a token makes of what its pieces take. -/
def assemble (request : Request) (token : String) (parts : List (List Config)) : Group :=
  if isJoined token then parts.map fun part => .group (part.map request.addJoin) else request.nodes parts.flatten

section
variable {request : Request}

theorem expandPlain_of_sole (sole : request.SoleBases) (token : String) :
    request.expandPlain token = (request.pick token).map fun configs => [request.nodes configs] := by
  unfold expandPlain pick
  cases (Token.parse token).mapError Error.grammar with
  | error error => rfl
  | ok parsed =>
    simp only [Outcome.ok_bind]
    cases found : Registry.lookup request.registry request.metadata parsed.name with
    | error error => rfl
    | ok bases =>
      obtain ⟨base, rfl⟩ := sole parsed.name bases found
      exact expandBases_single request parsed base

theorem expandToken_of_sole (sole : request.SoleBases) (token : String) :
    request.expandToken token =
      ((pieces token).mapM request.pick).map fun parts => [request.assemble token parts] := by
  unfold expandToken pieces assemble
  split
  · have walked : (segments token).mapM ({ request with nested := false } : Request).expandPlain =
        ((segments token).mapM request.pick).map
          (List.map fun configs => [({ request with nested := false } : Request).nodes configs]) := by
      rw [Outcome.map_mapM]
      exact Outcome.mapM_congr fun segment _ =>
        @expandPlain_of_sole { request with nested := false } sole segment
    unfold expandJoined
    rw [walked]
    cases (segments token).mapM request.pick with
    | error error => rfl
    | ok parts =>
      simp only [Outcome.ok_bind, Outcome.map_ok, ← List.flatMap_def, ← List.map_eq_flatMap, List.map_map,
        Function.comp_def, flatten_nodes]
  · rw [expandPlain_of_sole sole, List.mapM_cons, List.mapM_nil]
    cases request.pick token <;> simp [pure, Except.pure]

theorem expand_of_sole (sole : request.SoleBases) {tokens : List String}
    (undeclared : ∀ token ∈ tokens, isDeclaration token = false) :
    request.expand tokens =
      tokens.mapM fun token => ((pieces token).mapM request.pick).map (request.assemble token) := by
  have single : tokens.mapM request.expandToken =
      (tokens.mapM fun token => ((pieces token).mapM request.pick).map (request.assemble token)).map
        (List.map fun group => [group]) := by
    rw [Outcome.map_mapM]
    apply Outcome.mapM_congr
    intro token _
    rw [expandToken_of_sole sole]
    cases (pieces token).mapM request.pick <;> rfl
  rw [expand_undeclared request undeclared, single]
  cases tokens.mapM fun token => ((pieces token).mapM request.pick).map (request.assemble token) with
  | error error => rfl
  | ok groups => simp only [Outcome.map_ok, ← List.flatMap_def, ← List.map_eq_flatMap, List.map_id']

theorem pick_eq_ok_iff {token : String} {configs : List Config} :
    request.pick token = .ok configs ↔
      ∃ parsed bases, Token.parse token = .ok parsed ∧
        Registry.lookup request.registry request.metadata parsed.name = .ok bases ∧
        request.expandBase parsed 0 (bases.headD Dict.empty) = .ok configs := by
  unfold pick
  simp only [Outcome.bind_eq_ok_iff, Outcome.mapError_eq_ok_iff]
  constructor
  · rintro ⟨parsed, read, bases, found, taken⟩
    exact ⟨parsed, bases, read, found, taken⟩
  · rintro ⟨parsed, bases, read, found, taken⟩
    exact ⟨parsed, read, bases, found, taken⟩

theorem exists_pick_of_expand (sole : request.SoleBases) {tokens : List String} {groups : List Group}
    (undeclared : ∀ token ∈ tokens, isDeclaration token = false) (expanded : request.expand tokens = .ok groups) :
    ∀ piece ∈ tokens.flatMap pieces, ∃ configs, request.pick piece = .ok configs := by
  intro piece member
  obtain ⟨token, among, inside⟩ := List.mem_flatMap.mp member
  rw [expand_of_sole sole undeclared] at expanded
  obtain ⟨group, -, made⟩ := Outcome.exists_result_of_mem (Outcome.mapM_eq_ok_iff.mp expanded) among
  obtain ⟨parts, walked, -⟩ := Outcome.map_eq_ok_iff.mp made
  obtain ⟨configs, -, picked⟩ := Outcome.exists_result_of_mem (Outcome.mapM_eq_ok_iff.mp walked) inside
  exact ⟨configs, picked⟩

/-- Only the look-up of a name reports an unknown one. -/
theorem pick_eq_unknownName_iff {registry : Registry} (registered : request.registry = some registry)
    {token name : String} {available : List String} :
    request.pick token = .error (.unknownName name available) ↔
      ∃ parsed, Token.parse token = .ok parsed ∧ parsed.name = name ∧ registry.get? name = none ∧
        available = registry.keys := by
  unfold pick
  rw [registered]
  constructor
  · intro failed
    rcases Outcome.bind_eq_error_iff.mp failed with unread | ⟨parsed, read, failed⟩
    · obtain ⟨cause, -, impossible⟩ := Outcome.mapError_eq_error_iff.mp unread
      cases impossible
    · refine ⟨parsed, Outcome.mapError_eq_ok_iff.mp read, ?_⟩
      rcases Outcome.bind_eq_error_iff.mp failed with unfound | ⟨bases, -, failed⟩
      · unfold Registry.lookup at unfound
        split at unfound
        · cases unfound
        next given =>
          cases given
          split at unfound
          · cases unfound
          next absent =>
            cases unfound
            exact ⟨rfl, absent, rfl⟩
      · rcases Outcome.bind_eq_error_iff.mp failed with unexpanded | ⟨configs, -, failed⟩
        · rcases fault_of_expand unexpanded with impossible | ⟨_, _, impossible⟩ | ⟨_, _, impossible⟩
          all_goals cases impossible
        · split at failed
          · rcases Selector.fault_of_select failed with ⟨_, impossible⟩ | impossible
            all_goals cases impossible
          · cases failed
  · rintro ⟨parsed, read, rfl, absent, rfl⟩
    rw [read, Outcome.mapError_ok, Outcome.ok_bind]
    simp [Registry.lookup, absent]

/-- An unknown name is reported for the first piece that fails, if that is one whose name is unknown. -/
theorem expand_eq_unknownName_iff (sole : request.SoleBases) {registry : Registry}
    (registered : request.registry = some registry) {tokens : List String}
    (undeclared : ∀ token ∈ tokens, isDeclaration token = false) {name : String} {available : List String} :
    request.expand tokens = .error (.unknownName name available) ↔
      ∃ before piece after, tokens.flatMap pieces = before ++ piece :: after ∧
        (∀ other ∈ before, ∃ groups, request.expandPlain other = .ok groups) ∧
        ∃ parsed, Token.parse piece = .ok parsed ∧ parsed.name = name ∧ registry.get? name = none ∧
          available = registry.keys := by
  have passes (token : String) :
      (∃ groups, request.expandPlain token = .ok groups) ↔ ∃ configs, request.pick token = .ok configs := by
    rw [expandPlain_of_sole sole, Outcome.exists_map_eq_ok_iff]
  have walked : (tokens.mapM fun token => (pieces token).mapM request.pick) = .error (.unknownName name available) ↔
      (tokens.flatMap pieces).mapM request.pick = .error (.unknownName name available) := by
    rw [Outcome.mapM_flatMap, Outcome.map_eq_error_iff]
  rw [expand_of_sole sole undeclared, Outcome.mapM_map_eq_error_iff, walked, Outcome.mapM_eq_error_iff]
  simp only [pick_eq_unknownName_iff registered, passes]

end

/-- A request whose names are those that are declared. -/
def declaring (request : Request) (declared : List (String × Entry)) : Request :=
  { request with registry := some (Dict.ofList declared) }

section
variable {request : Request} {tokens : List String} {declared : List (String × Entry)}

theorem soleBases_of_unregistered (unregistered : request.registry = none) : request.SoleBases := by
  intro name bases found
  rw [unregistered] at found
  cases found
  exact ⟨Dict.empty, rfl⟩

theorem exists_defaults_of_get? (unregistered : request.registry = none)
    (collected : tokens.mapM request.declare = .ok declared) {name : String} {entry : Entry}
    (found : (Dict.ofList declared).get? name = some entry) : ∃ defaults, entry = .fixed [defaults] := by
  obtain ⟨token, -, made⟩ :=
    Outcome.exists_item_of_mem (Outcome.mapM_eq_ok_iff.mp collected) (Dict.mem_of_get?_ofList found)
  obtain ⟨parsed, -, made⟩ := Outcome.bind_eq_ok_iff.mp made
  obtain ⟨declares, -, made⟩ := Outcome.bind_eq_ok_iff.mp made
  obtain ⟨bases, looked, made⟩ := Outcome.bind_eq_ok_iff.mp made
  obtain ⟨options, -, made⟩ := Outcome.bind_eq_ok_iff.mp made
  obtain ⟨base, rfl⟩ := soleBases_of_unregistered unregistered declares bases looked
  cases made
  exact ⟨base.extend options, rfl⟩

theorem soleBases_declaring (unregistered : request.registry = none)
    (collected : tokens.mapM request.declare = .ok declared) : (request.declaring declared).SoleBases := by
  intro name bases found
  unfold declaring Registry.lookup at found
  dsimp only at found
  split at found
  next entry held =>
    obtain ⟨defaults, rfl⟩ := exists_defaults_of_get? unregistered collected held
    cases found
    exact ⟨defaults, rfl⟩
  · cases found

def ListsNothing (request : Request) (token : String) : Prop :=
  ∃ groups, request.expandPlain token = .ok groups ∧ Group.listed groups = []

/-- Whether a plain token overrides all that is declared for its name. -/
def Overrides (request : Request) (registry : Registry) (token : String) : Prop :=
  ∃ parsed defaults overrides, Token.parse token = .ok parsed ∧
    registry.get? parsed.name = some (.fixed [defaults]) ∧ request.policy.parse parsed.options = .ok overrides ∧
    ∀ key ∈ defaults.keys, key ∈ overrides.keys

/-- Whether declared keys show: they are not reserved, and no join entry takes their place. -/
def Shows (request : Request) (registry : Registry) : Prop :=
  ∀ name defaults, registry.get? name = some (.fixed [defaults]) →
    ∀ key ∈ defaults.keys, isReserved key = false ∧ request.join.bind (·.get? key) = none

theorem listsNothing_iff (sole : request.SoleBases) {token : String} :
    request.ListsNothing token ↔ request.pick token = .ok [] := by
  unfold ListsNothing
  rw [expandPlain_of_sole sole]
  cases request.pick token <;> simp [Group.listed_singleton]

private theorem exists_defaults_of_pick (unregistered : request.registry = none)
    (collected : tokens.mapM request.declare = .ok declared) {token : String} {configs : List Config}
    (picked : (request.declaring declared).pick token = .ok configs) :
    ∃ parsed defaults, Token.parse token = .ok parsed ∧
      (Dict.ofList declared).get? parsed.name = some (.fixed [defaults]) ∧
      request.expandBase parsed 0 defaults = .ok configs := by
  obtain ⟨parsed, bases, read, found, taken⟩ := pick_eq_ok_iff.mp picked
  unfold declaring Registry.lookup at found
  dsimp only at found
  split at found
  next entry held =>
    obtain ⟨defaults, rfl⟩ := exists_defaults_of_get? unregistered collected held
    cases found
    exact ⟨parsed, defaults, read, held, taken⟩
  · cases found

private theorem pick_unregistered_iff (unregistered : request.registry = none) {token : String}
    {configs : List Config} :
    request.pick token = .ok configs ↔
      ∃ parsed, Token.parse token = .ok parsed ∧ request.expandBase parsed 0 Dict.empty = .ok configs := by
  rw [pick_eq_ok_iff, unregistered]
  constructor
  · rintro ⟨parsed, bases, read, found, taken⟩
    cases found
    exact ⟨parsed, read, taken⟩
  · rintro ⟨parsed, read, taken⟩
    exact ⟨parsed, [Dict.empty], read, rfl, taken⟩

/-- What a token takes of a base that it overrides, it takes without a base. -/
private theorem expandBase_of_covered {token : Token} {base overrides : Config} {configs : List Config}
    (read : request.policy.parse token.options = .ok overrides) (covered : ∀ key ∈ base.keys, key ∈ overrides.keys)
    (taken : request.expandBase token 0 base = .ok configs) : request.expandBase token 0 Dict.empty = .ok configs := by
  obtain ⟨whole, expanded, chosen⟩ := Outcome.bind_eq_ok_iff.mp taken
  obtain ⟨same, sameRead, checked, rfl⟩ := expand_eq_ok_iff.mp expanded
  cases read.symm.trans sameRead
  have same : base.extend overrides = Dict.empty.extend overrides := by
    rw [Dict.extend_of_covered covered, Dict.empty_extend]
  rw [same] at chosen
  exact Outcome.bind_eq_ok_iff.mpr
    ⟨_, expand_eq_ok_iff.mpr ⟨overrides, read, KeyPolicy.check_empty_of_check checked, rfl⟩, chosen⟩

theorem pick_of_overrides (unregistered : request.registry = none)
    (collected : tokens.mapM request.declare = .ok declared) {token : String} {configs : List Config}
    (picked : (request.declaring declared).pick token = .ok configs)
    (overridden : request.Overrides (Dict.ofList declared) token) : request.pick token = .ok configs := by
  obtain ⟨parsed, defaults, read, held, taken⟩ := exists_defaults_of_pick unregistered collected picked
  obtain ⟨same, sameDefaults, overrides, sameRead, sameHeld, options, covered⟩ := overridden
  cases read.symm.trans sameRead
  cases held.symm.trans sameHeld
  exact (pick_unregistered_iff unregistered).mpr ⟨parsed, read, expandBase_of_covered options covered taken⟩

/-- A declared key that is not overridden tells what a token lists with the declarations from what it lists
without them. -/
theorem overrides_of_pick (unregistered : request.registry = none)
    (collected : tokens.mapM request.declare = .ok declared) {token : String} {left right : List Config}
    (shows : request.Shows (Dict.ofList declared))
    (first : (request.declaring declared).pick token = .ok left) (second : request.pick token = .ok right)
    (same : left.map request.addJoin = right.map request.addJoin) :
    left = [] ∧ right = [] ∨ request.Overrides (Dict.ofList declared) token := by
  obtain ⟨parsed, defaults, read, held, taken⟩ := exists_defaults_of_pick unregistered collected first
  obtain ⟨sameParsed, sameRead, takenOthers⟩ := (pick_unregistered_iff unregistered).mp second
  cases read.symm.trans sameRead
  cases left with
  | nil => exact .inl ⟨rfl, List.map_eq_nil_iff.mp same.symm⟩
  | cons config rest =>
    cases right with
    | nil => cases same
    | cons other others =>
      obtain ⟨configs, expanded, subset⟩ := exists_expand_of_expandBase taken
      obtain ⟨configsOthers, expandedOthers, subsetOthers⟩ := exists_expand_of_expandBase takenOthers
      obtain ⟨overrides, options, -⟩ := expand_eq_ok_iff.mp expanded
      refine .inr ⟨parsed, defaults, overrides, read, held, options, fun key member => ?_⟩
      obtain ⟨free, unjoined⟩ := shows parsed.name defaults held key member
      have heads : request.addJoin config = request.addJoin other := (List.cons.inj same).1
      have equal := congrArg (fun config : Config => config.get? key) heads
      simp only [get?_addJoin, unjoined, Option.none_or] at equal
      have present : key ∈ config.keys :=
        (mem_keys_of_expand options expanded (subset config List.mem_cons_self) free).mpr (.inr member)
      have presentOther : key ∈ other.keys := by
        rw [Dict.mem_keys_iff, ← equal]
        exact Dict.mem_keys_iff.mp present
      rcases (mem_keys_of_expand options expandedOthers (subsetOthers other List.mem_cons_self) free).mp presentOther
        with given | impossible
      · exact given
      · cases impossible

end

/-- From the group of a token the configurations of its pieces can be told, join entries aside. -/
theorem map_addJoin_of_assemble {request : Request} {token : String} {left right : String → Except Error (List Config)}
    {parts others : List (List Config)} (first : (pieces token).mapM left = .ok parts)
    (second : (pieces token).mapM right = .ok others)
    (same : request.assemble token parts = request.assemble token others) :
    ∀ piece ∈ pieces token,
      (left piece).map (List.map request.addJoin) = (right piece).map (List.map request.addJoin) := by
  have equal : parts.map (List.map request.addJoin) = others.map (List.map request.addJoin) := by
    unfold assemble at same
    split at same
    · have configs := congrArg (List.map Node.configs) same
      rwa [List.map_map, List.map_map] at configs
    next plain =>
      have lone (step : String → Except Error (List Config)) {results : List (List Config)}
          (walked : (pieces token).mapM step = .ok results) : ∃ configs, results = [configs] := by
        rw [pieces, if_neg plain] at walked
        exact List.length_eq_one_iff.mp (Outcome.mapM_eq_ok_iff.mp walked).length_eq.symm
      obtain ⟨configs, rfl⟩ := lone left first
      obtain ⟨configsOthers, rfl⟩ := lone right second
      have flat := congrArg Group.flatten same
      rw [flatten_nodes, flatten_nodes, List.flatten_singleton, List.flatten_singleton] at flat
      rw [flat]
  have seen : ((pieces token).mapM fun piece => (left piece).map (List.map request.addJoin)) =
      .ok (parts.map (List.map request.addJoin)) := by
    rw [← Outcome.map_mapM, first, Outcome.map_ok]
  have seenOthers : ((pieces token).mapM fun piece => (right piece).map (List.map request.addJoin)) =
      .ok (parts.map (List.map request.addJoin)) := by
    rw [← Outcome.map_mapM, second, Outcome.map_ok, equal]
  exact Outcome.eq_of_mapM_eq_ok seen seenOthers

section
variable {request : Request} {earlier later : List String} {declaration : String} {declared : List (String × Entry)}

/-- The tokens around a declaration are all expanded with everything that is declared. -/
theorem expand_append_declaration (unregistered : request.registry = none)
    (undeclared : ∀ token ∈ earlier, isDeclaration token = false) (declares : isDeclaration declaration = true)
    (collected : ((earlier ++ declaration :: later).filter isDeclaration).mapM request.declare = .ok declared) :
    request.expand (earlier ++ declaration :: later) = (do
      let front ← (request.declaring declared).expand earlier
      let back ← (request.declaring declared).expand (later.filter (!isDeclaration ·))
      .ok (front ++ back)) := by
  have front : earlier.filter (!isDeclaration ·) = earlier :=
    List.filter_eq_self.mpr fun token member => by simp [undeclared token member]
  have others : (earlier ++ declaration :: later).filter (!isDeclaration ·) =
      earlier ++ later.filter (!isDeclaration ·) := by
    rw [List.filter_append, front, List.filter_cons_of_neg (by simp [declares])]
  have nonempty : declared.isEmpty = false := by
    rw [List.isEmpty_eq_false_iff]
    rintro rfl
    have empty := List.forall₂_nil_right_iff.mp (Outcome.mapM_eq_ok_iff.mp collected)
    have member : declaration ∈ (earlier ++ declaration :: later).filter isDeclaration :=
      List.mem_filter.mpr ⟨by simp, declares⟩
    rw [empty] at member
    cases member
  have resolved : request.resolveRegistry (earlier ++ declaration :: later) =
      .ok (some (Dict.ofList declared)) := by
    rw [resolveRegistry, collected, unregistered, Outcome.ok_bind, nonempty]
    rfl
  have behind : ∀ token ∈ later.filter (!isDeclaration ·), isDeclaration token = false := fun token member => by
    simpa using (List.mem_filter.mp member).2
  rw [expand_undeclared _ undeclared, expand_undeclared _ behind, expand, resolved, Outcome.ok_bind, others,
    List.mapM_append]
  change (earlier.mapM (request.declaring declared).expandToken >>= fun parts =>
    (later.filter (!isDeclaration ·)).mapM (request.declaring declared).expandToken >>= fun others =>
      pure (parts ++ others)) >>= _ = _
  cases earlier.mapM (request.declaring declared).expandToken with
  | error error => rfl
  | ok parts =>
    cases (later.filter (!isDeclaration ·)).mapM (request.declaring declared).expandToken with
    | error error => rfl
    | ok others => exact congrArg Except.ok List.flatten_append

private theorem map_addJoin_pick {groups : List Group} (sole : request.SoleBases)
    (soleDeclaring : (request.declaring declared).SoleBases)
    (undeclared : ∀ token ∈ earlier, isDeclaration token = false) (expanded : request.expand earlier = .ok groups)
    (given : (request.declaring declared).expand earlier = .ok groups) :
    ∀ piece ∈ earlier.flatMap pieces, ((request.declaring declared).pick piece).map (List.map request.addJoin) =
      (request.pick piece).map (List.map request.addJoin) := by
  intro piece member
  obtain ⟨token, among, inside⟩ := List.mem_flatMap.mp member
  rw [expand_of_sole soleDeclaring undeclared] at given
  rw [expand_of_sole sole undeclared] at expanded
  obtain ⟨group, -, made⟩ := Outcome.exists_result_of_mem (Outcome.mapM_eq_ok_iff.mp given) among
  have madeAlone := (Outcome.eq_of_mapM_eq_ok given expanded token among).symm.trans made
  obtain ⟨parts, walked, built⟩ := Outcome.map_eq_ok_iff.mp made
  obtain ⟨others, walkedAlone, builtAlone⟩ := Outcome.map_eq_ok_iff.mp madeAlone
  exact map_addJoin_of_assemble walked walkedAlone (built.trans builtAlone.symm) piece inside

/-- Whether a plain token means the same without the declarations: it lists nothing either way, or it overrides
all that is declared for its name. -/
def Untouched (request : Request) (declared : List (String × Entry)) (token : String) : Prop :=
  request.ListsNothing token ∧ (request.declaring declared).ListsNothing token ∨
    request.Overrides (Dict.ofList declared) token

/-- Tokens before a declaration are expanded with it as those behind it are. Then a name among them that is not
declared is unknown, and their groups are those of the tokens alone if each piece of them is untouched. Where
declared keys show, that is the only way. -/
theorem expand_around_declaration (unregistered : request.registry = none)
    (undeclared : ∀ token ∈ earlier, isDeclaration token = false) (declares : isDeclaration declaration = true)
    (collected : ((earlier ++ declaration :: later).filter isDeclaration).mapM request.declare = .ok declared) :
    (request.expand (earlier ++ declaration :: later) = (do
      let front ← (request.declaring declared).expand earlier
      let back ← (request.declaring declared).expand (later.filter (!isDeclaration ·))
      .ok (front ++ back))) ∧
    (∀ name available, (request.declaring declared).expand earlier = .error (.unknownName name available) ↔
      ∃ before piece after, earlier.flatMap pieces = before ++ piece :: after ∧
        (∀ other ∈ before, ∃ groups, (request.declaring declared).expandPlain other = .ok groups) ∧
        ∃ parsed, Token.parse piece = .ok parsed ∧ parsed.name = name ∧
          (Dict.ofList declared).get? name = none ∧ available = (Dict.ofList declared).keys) ∧
    ∀ front, (request.declaring declared).expand earlier = .ok front →
      ((∀ piece ∈ earlier.flatMap pieces, request.Untouched declared piece) → request.expand earlier = .ok front) ∧
      (request.Shows (Dict.ofList declared) → request.expand earlier = .ok front →
        ∀ piece ∈ earlier.flatMap pieces, request.Untouched declared piece) := by
  have sole := soleBases_of_unregistered unregistered
  have soleDeclaring := soleBases_declaring unregistered collected
  refine ⟨expand_append_declaration unregistered undeclared declares collected,
    fun name available => expand_eq_unknownName_iff soleDeclaring rfl undeclared, fun front given => ⟨?_, ?_⟩⟩
  · intro untouched
    have same : ∀ piece ∈ earlier.flatMap pieces, (request.declaring declared).pick piece = request.pick piece := by
      intro piece member
      rcases untouched piece member with ⟨nothing, nothingDeclaring⟩ | overridden
      · rw [(listsNothing_iff sole).mp nothing, (listsNothing_iff soleDeclaring).mp nothingDeclaring]
      · obtain ⟨configs, picked⟩ := exists_pick_of_expand soleDeclaring undeclared given piece member
        rw [picked, pick_of_overrides unregistered collected picked overridden]
    rw [← given, expand_of_sole soleDeclaring undeclared, expand_of_sole sole undeclared]
    apply Outcome.mapM_congr
    intro token member
    rw [Outcome.mapM_congr fun piece inside => same piece (List.mem_flatMap.mpr ⟨token, member, inside⟩)]
    rfl
  · intro shows expanded piece member
    obtain ⟨left, first⟩ := exists_pick_of_expand soleDeclaring undeclared given piece member
    obtain ⟨right, second⟩ := exists_pick_of_expand sole undeclared expanded piece member
    have same := map_addJoin_pick sole soleDeclaring undeclared expanded given piece member
    rw [first, second] at same
    rcases overrides_of_pick unregistered collected shows first second (Except.ok.inj same) with ⟨rfl, rfl⟩ | overridden
    · exact .inl ⟨(listsNothing_iff sole).mpr second, (listsNothing_iff soleDeclaring).mpr first⟩
    · exact .inr overridden

end

theorem expand_overridden_flag :
    ∃ front, openRequest.expand ["base:f"] = .ok front ∧ openRequest.expand ["base:f", "base=:f"] = .ok front := by
  obtain ⟨whole, -, kept⟩ := @expand_around_declaration openRequest ["base:f"] [] "base=:f"
    [("base", .fixed [Dict.ofList [("f", .bool true)]])] rfl (by decide) (by decide) rfl
  have untouched : ∀ piece ∈ ["base:f"].flatMap pieces,
      openRequest.Untouched [("base", .fixed [Dict.ofList [("f", .bool true)]])] piece := by
    intro piece member
    obtain rfl : piece = "base:f" := List.mem_singleton.mp member
    exact .inr ⟨⟨"base", "f", none⟩, _, _, rfl, rfl, rfl, by decide⟩
  exact ⟨_, (kept _ rfl).1 untouched, whole⟩

/-- A declaration changes what the token before it stands for, and a name before it that is not declared is no
longer known. -/
theorem expand_before_declaration_fails :
    (∃ alone whole, openRequest.expand ["base"] = .ok [alone] ∧ openRequest.expand ["base", "base=:f"] = .ok [whole] ∧
      alone.flatten.map (·.get? "f") = [none] ∧ whole.flatten.map (·.get? "f") = [some (.bool true)]) ∧
    (∃ alone, openRequest.expand ["x"] = .ok [alone]) ∧
    openRequest.expand ["x", "base=:f"] = .error (.unknownName "x" ["base"]) :=
  ⟨⟨_, _, rfl, rfl, rfl, rfl⟩, ⟨_, rfl⟩, rfl⟩

end Request
end ParamSweep
