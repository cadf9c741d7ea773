import ParamSweep.Proofs.JoinedTokens

/-! Expansion by recursion. A joined token may be expanded by expanding the list of its segments in turn. None of them
is joined or a declaration again, so the recursion is one call deep at most and comes to the same as expanding the
segments as plain tokens. -/

namespace ParamSweep.Request
open Text

/-- What a call comes back with, if it does. -/
abbrev Reply (α : Type) := ExceptT Error Option α

def reply {α : Type} (outcome : Except Error α) : Reply α := ExceptT.mk (some outcome)

/-- How a list of tokens is expanded. -/
abbrev Expander := Request → List String → Reply (List Group)

/-- A joined token is expanded by handing the list of its segments to `again`. -/
def expandTokenBy (again : Expander) (request : Request) (token : String) : Reply (List Group) :=
  if isJoined token then do
    let parts ← again request.alone (segments token)
    return [parts.map fun group => Node.group (group.flatten.map request.addJoin)]
  else reply (request.expandPlain token)

def expandBy (again : Expander) : Expander := fun request tokens => do
  let registry ← reply (request.resolveRegistry tokens)
  let groups ← (tokens.filter (!isDeclaration ·)).mapM (expandTokenBy again { request with registry })
  return groups.flatten

/-- The recursion cut off at a number of calls inside each other. -/
def expandWithin : Nat → Expander
  | 0 => fun _ _ => ExceptT.mk none
  | calls + 1 => expandBy (expandWithin calls)

section
variable {α β : Type}

theorem reply_ok_bind (value : α) (next : α → Reply β) : (reply (.ok value) >>= next) = next value := rfl

theorem reply_bind (outcome : Except Error α) (next : α → Except Error β) :
    (reply outcome >>= fun value => reply (next value)) = reply (outcome >>= next) := by
  cases outcome <;> rfl

theorem reply_map (outcome : Except Error α) (f : α → β) :
    (reply outcome >>= fun value => pure (f value)) = reply (outcome.map f) := by
  cases outcome <;> rfl

theorem mapM_reply {left : α → Reply β} {right : α → Except Error β} {items : List α}
    (same : ∀ item ∈ items, left item = reply (right item)) : items.mapM left = reply (items.mapM right) := by
  induction items with
  | nil => rfl
  | cons item rest ih =>
    rw [List.mapM_cons, List.mapM_cons, same item List.mem_cons_self,
      ih fun item member => same item (List.mem_cons_of_mem _ member), ← reply_bind]
    refine congrArg (reply (right item) >>= ·) (funext fun result => ?_)
    exact reply_map (rest.mapM right) (result :: ·)

end

/-- No segment of a joined token is joined, or a declaration if the token is none. -/
theorem plain_of_mem_segments {token : String} (joined : isJoined token = true) (undeclared : isDeclaration token = false)
    {segment : String} (member : segment ∈ segments token) :
    isJoined segment = false ∧ isDeclaration segment = false := by
  obtain ⟨-, -, unjoined, -⟩ := segments_of_joined joined
  exact ⟨unjoined segment member, undeclared_of_mem_segments undeclared member⟩

/-- A joined token binds what the list of its segments gives. -/
theorem expandJoined_eq_expand (request : Request) {token : String} (joined : isJoined token = true)
    (undeclared : isDeclaration token = false) :
    request.expandJoined token = (request.alone.expand (segments token)).map fun parts =>
      [parts.map fun group => Node.group (group.flatten.map request.addJoin)] := by
  have plain {segment : String} (member : segment ∈ segments token) :
      request.alone.expandToken segment = ({ request with nested := false } : Request).expandPlain segment := by
    obtain ⟨unjoined, undeclared⟩ := plain_of_mem_segments joined undeclared member
    rw [← expand_single request.alone undeclared, expand_alone request undeclared unjoined]
  rw [expand_undeclared request.alone fun segment member => (plain_of_mem_segments joined undeclared member).2,
    Outcome.mapM_congr fun segment member => plain member, expandJoined]
  cases (segments token).mapM ({ request with nested := false } : Request).expandPlain <;> rfl

/-- A call expands a token right if the call that it hands segments to does. -/
theorem expandTokenBy_eq {again : Expander} {request : Request} {token : String} (undeclared : isDeclaration token = false)
    (right : isJoined token = true →
      again request.alone (segments token) = reply (request.alone.expand (segments token))) :
    expandTokenBy again request token = reply (request.expandToken token) := by
  rw [expandTokenBy, expandToken]
  cases joined : isJoined token with
  | false => rfl
  | true =>
    simp only [if_true]
    rw [right joined, expandJoined_eq_expand request joined undeclared]
    exact reply_map _ _

theorem expandBy_eq {again : Expander} {request : Request} {tokens : List String}
    (right : ∀ (inner : Request), ∀ token ∈ tokens, isDeclaration token = false → isJoined token = true →
      again inner (segments token) = reply (inner.expand (segments token))) :
    expandBy again request tokens = reply (request.expand tokens) := by
  unfold expandBy expand
  rw [← reply_bind]
  refine congrArg (reply (request.resolveRegistry tokens) >>= ·) (funext fun registry => ?_)
  have each : ∀ token ∈ tokens.filter (!isDeclaration ·), expandTokenBy again { request with registry } token =
      reply (({ request with registry } : Request).expandToken token) := by
    intro token member
    obtain ⟨inside, undeclared⟩ := List.mem_filter.mp member
    have undeclared : isDeclaration token = false := by simpa using undeclared
    exact expandTokenBy_eq undeclared (right _ token inside undeclared)
  rw [mapM_reply each]
  exact reply_map _ _

/-- The segments of a joined token are expanded without a further call, whatever it would come back with. -/
theorem expandBy_segments (again : Expander) (request : Request) {token : String} (undeclared : isDeclaration token = false)
    (joined : isJoined token = true) :
    expandBy again request (segments token) = reply (request.expand (segments token)) := by
  refine expandBy_eq fun inner segment member _ nested => ?_
  rw [(plain_of_mem_segments joined undeclared member).1] at nested
  cases nested

/-- A joined token does take a call for its segments. -/
theorem expandWithin_one (request : Request) {token : String} (undeclared : isDeclaration token = false)
    (joined : isJoined token = true) : expandWithin 1 request [token] = ExceptT.mk none := by
  have resolved := resolveRegistry_of_undeclared request (List.forall_mem_singleton.mpr undeclared)
  have listed : [token].filter (!isDeclaration ·) = [token] := by simp [undeclared]
  rw [expandWithin, expandBy, resolved, listed, reply_ok_bind, List.mapM_cons, expandTokenBy, joined]
  rfl

/-- No segment of a joined token is joined, or a declaration if the token is none. So the call that expands the
segments makes no call of its own, whatever that would come back with, and with one call inside another all tokens are
expanded. -/
theorem expandWithin_two :
    (∀ token, isJoined token = true → isDeclaration token = false →
      (∀ segment ∈ segments token, isJoined segment = false ∧ isDeclaration segment = false) ∧
      (∀ (again : Expander) (request : Request),
        expandBy again request (segments token) = reply (request.expand (segments token))) ∧
      ∀ request, expandWithin 1 request [token] = ExceptT.mk none) ∧
    ∀ (request : Request) (tokens : List String) (calls : Nat), 2 ≤ calls →
      expandWithin calls request tokens = reply (request.expand tokens) := by
  constructor
  · intro token joined undeclared
    exact ⟨fun segment => plain_of_mem_segments joined undeclared,
      fun again request => expandBy_segments again request undeclared joined,
      fun request => expandWithin_one request undeclared joined⟩
  · intro request tokens calls enough
    obtain ⟨further, rfl⟩ := Nat.exists_eq_add_of_le' enough
    exact expandBy_eq fun inner token _ undeclared joined => expandBy_segments _ inner undeclared joined

/-- A request without a registry. -/
def unregistered : Request where
  registry := none
  tag := none
  policy := .default
  groupByToken := true
  nested := false
  join := none
  metadata := none

theorem expandWithin_two_colon_runs :
    isJoined "a:::b::::" = true ∧ isDeclaration "a:::b::::" = false ∧
    segments "a:::b::::" = ["a", ":b", "", ""] ∧ (isJoined ":b" = false ∧ isDeclaration ":b" = false) ∧
    expandWithin 1 unregistered ["a:::b::::"] = ExceptT.mk none ∧ 2 ≤ 2 ∧
    expandWithin 2 unregistered ["a:::b::::"] = reply (unregistered.expand ["a:::b::::"]) := by
  have joined : isJoined "a:::b::::" = true := by decide
  have undeclared : isDeclaration "a:::b::::" = false := by decide
  have cut : segments "a:::b::::" = ["a", ":b", "", ""] := rfl
  obtain ⟨below, enough⟩ := expandWithin_two
  obtain ⟨plain, -, short⟩ := below "a:::b::::" joined undeclared
  exact ⟨joined, undeclared, cut, plain ":b" (by simp [cut]), short unregistered, Nat.le_refl 2,
    enough unregistered ["a:::b::::"] 2 (Nat.le_refl 2)⟩

end ParamSweep.Request
