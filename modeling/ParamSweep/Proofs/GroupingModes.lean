import ParamSweep.Proofs.PlainTokens

/-! Grouping only groups. Whatever groups a request makes, what it lists is what its tokens stand for, one after
another, and neither mode has a part in that. Only positions may differ. -/

namespace ParamSweep

namespace Group

theorem map_listed_flatten (f : Config → Config) (parts : List (List Group)) :
    (listed parts.flatten).map f = (parts.map fun groups => (listed groups).map f).flatten := by
  induction parts with
  | nil => rfl
  | cons part rest ih =>
    rw [List.flatten_cons, List.map_cons, List.flatten_cons, ← ih, ← List.map_append]
    exact congrArg (List.map f) List.flatMap_append

theorem flatten_map_group (f : Config → Config) (groups : List Group) :
    flatten (groups.map fun group => Node.group (group.flatten.map f)) = (listed groups).map f := by
  unfold listed flatten
  rw [List.flatMap_map, List.map_flatMap]
  rfl

end Group

namespace Request
open Config

/-- An entry for the position that is added is lost along with the position. -/
theorem unnumbered_addJoin (request : Request) (config : Config) :
    (request.addJoin config).unnumbered = (request.addJoin config.unnumbered).unnumbered := by
  apply unnumbered_eq_iff.mpr
  intro key other
  unfold addJoin
  cases request.join with
  | none => rw [Option.elim_none, Option.elim_none, get?_unnumbered, if_neg other]
  | some join =>
    rw [Option.elim_some, Option.elim_some, Dict.get?_extend, Dict.get?_extend, get?_unnumbered, if_neg other]

/-- What a token stands for, positions aside. -/
def tokenReading (request : Request) (token : String) : Except Error (List Config) :=
  if isJoined token then
    ((segments token).mapM request.reading).map fun parts =>
      parts.flatten.map fun config => (request.addJoin config).unnumbered
  else request.reading token

theorem map_listed_expandToken (request : Request) (token : String) :
    (request.expandToken token).map (fun groups => (Group.listed groups).map unnumbered) =
      request.tokenReading token := by
  unfold expandToken tokenReading
  split
  next joined =>
    -- The bases of a segment are grouped as the request says, but their configurations never stay together.
    have walked : (segments token).mapM request.reading =
        ((segments token).mapM ({ request with nested := false } : Request).expandPlain).map
          (List.map fun groups => (Group.listed groups).map unnumbered) := by
      rw [Outcome.map_mapM]
      apply Outcome.mapM_congr
      intro segment _
      rw [map_listed_expandPlain]
      rfl
    unfold expandJoined
    rw [walked]
    cases (segments token).mapM ({ request with nested := false } : Request).expandPlain with
    | error error => rfl
    | ok parts =>
      have kept : Group.listed [parts.flatten.map fun group => Node.group (group.flatten.map request.addJoin)] =
          (Group.listed parts.flatten).map request.addJoin := by
        rw [Group.listed_singleton, Group.flatten_map_group]
      simp only [Outcome.ok_bind, Outcome.map_ok, Except.ok.injEq]
      rw [kept, ← Group.map_listed_flatten, List.map_map, List.map_map]
      apply List.map_congr_left
      intro config _
      exact unnumbered_addJoin request config
  next plain => exact map_listed_expandPlain request token

/-- What the tokens of a request stand for, positions aside. -/
def readings (request : Request) (tokens : List String) : Except Error (List Config) := do
  let registry ← request.resolveRegistry tokens
  let parts ← (tokens.filter (!isDeclaration ·)).mapM ({ request with registry }).tokenReading
  .ok parts.flatten

theorem map_listed_expand (request : Request) (tokens : List String) :
    (request.expand tokens).map (fun groups => (Group.listed groups).map unnumbered) = request.readings tokens := by
  unfold expand readings
  cases request.resolveRegistry tokens with
  | error error => rfl
  | ok registry =>
    have walked := Outcome.map_mapM ({ request with registry } : Request).expandToken
      (fun groups => (Group.listed groups).map unnumbered) (tokens.filter (!isDeclaration ·))
    simp only [map_listed_expandToken] at walked
    simp only [Outcome.ok_bind]
    rw [← walked]
    cases (tokens.filter (!isDeclaration ·)).mapM ({ request with registry } : Request).expandToken with
    | error error => rfl
    | ok parts =>
      simp only [Outcome.ok_bind, Outcome.map_ok, Except.ok.injEq]
      exact Group.map_listed_flatten unnumbered parts

/-- A request lists the same in every mode, positions aside, or fails with the same error. -/
theorem expand_any_mode (request : Request) (tokens : List String) (groupByToken nested : Bool) :
    (({ request with groupByToken, nested }).expand tokens).map (fun groups => (Group.listed groups).map unnumbered) =
      (request.expand tokens).map (fun groups => (Group.listed groups).map unnumbered) := by
  rw [map_listed_expand, map_listed_expand]
  rfl

end Request
end ParamSweep
