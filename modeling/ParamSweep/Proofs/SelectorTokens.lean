import ParamSweep.Proofs.Faults
import ParamSweep.Proofs.Marks
import ParamSweep.Proofs.PlainTokens
import ParamSweep.Proofs.SelectorText
import ParamSweep.Proofs.TokenText

/-! Selectors inside tokens. A token with a selector stands for what the selector picks of each base, unless
the text of the selector holds two colons in a row: then the token is cut there as a joined one and fails. -/

namespace ParamSweep.Request
open Config Text

/-- What a selector picks of the expansion of each base of a name, base after base. -/
def picks (request : Request) (name options : String) (selector : Selector) : Except Error (List Config) := do
  let bases ← Registry.lookup request.registry request.metadata name
  let parts ← bases.mapM fun base => do
    let configs ← Config.expand request.policy request.tag name options 0 base
    selector.select configs
  .ok parts.flatten

private theorem picks_ne_unclosed (request : Request) (name options : String) (selector : Selector) (token : String) :
    request.picks name options selector ≠ .error (.grammar (.unclosedSelector token)) := by
  intro failed
  rcases Outcome.bind_eq_error_iff.mp failed with unknown | ⟨bases, -, failed⟩
  · obtain ⟨available, impossible⟩ := Registry.fault_of_lookup unknown
    cases impossible
  · rcases Outcome.bind_eq_error_iff.mp failed with walked | ⟨parts, -, impossible⟩
    · obtain ⟨base, -, failed⟩ := Outcome.exists_of_mapM_eq_error walked
      rcases Outcome.bind_eq_error_iff.mp failed with unexpanded | ⟨configs, -, unselected⟩
      · rcases Config.fault_of_expand unexpanded with impossible | ⟨_, _, impossible⟩ | ⟨_, _, impossible⟩
        all_goals cases impossible
      · rcases Selector.fault_of_select unselected with ⟨_, impossible⟩ | impossible
        all_goals cases impossible
    · cases impossible

private theorem reading_eq_picks (request : Request) {token name options : String} {selector : Selector}
    (read : Token.parse token = .ok ⟨name, options, some selector⟩) :
    request.reading token = (request.picks name options selector).map (List.map unnumbered) := by
  unfold reading picks
  rw [read]
  simp only [Outcome.mapError_ok, Outcome.ok_bind]
  cases Registry.lookup request.registry request.metadata name with
  | error error => rfl
  | ok bases =>
    simp only [Outcome.ok_bind]
    have walked := Outcome.map_mapM (fun base => request.expandBase ⟨name, options, some selector⟩ 0 base)
      (List.map unnumbered) bases
    unfold variants
    rw [← walked]
    unfold expandBase
    dsimp only
    cases bases.mapM fun base => do
      let configs ← Config.expand request.policy request.tag name options 0 base
      selector.select configs with
    | error error => rfl
    | ok parts => simp [List.map_flatten]

section
variable {name text options : String}

private theorem toList_selected :
    (name ++ "[" ++ text ++ "]:" ++ options).toList =
      name.toList ++ '[' :: (text.toList ++ ']' :: ':' :: options.toList) := by
  simp

private theorem parse_selected {selector : Selector} (plain : Token.PlainName name)
    (accepted : Selector.parse text = .ok selector) :
    Token.parse (name ++ "[" ++ text ++ "]:" ++ options) = .ok ⟨name, options, some selector⟩ := by
  have spelled : name ++ "[" ++ text ++ "]:" ++ options = Token.spell name (some text) (some options) := by
    apply String.toList_injective
    simp [Token.toList_spell]
  have closed : ∀ inner ∈ some text, ']' ∉ inner.toList := by
    rintro _ ⟨⟩
    exact (Selector.not_mem_of_parse accepted).1
  rw [spelled, Token.parse_spell (some options) plain closed]
  simp only [Token.readSelector, accepted, Outcome.map_ok]
  rfl

private theorem isDeclaration_selected (plain : Token.PlainName name) (absent : '=' ∉ text.toList)
    (undeclared : hasPair '=' ':' options.toList = false) :
    isDeclaration (name ++ "[" ++ text ++ "]:" ++ options) = false := by
  simp only [isDeclaration, toList_selected, hasPair_append_eq_false_iff, hasPair_cons_eq_false_iff]
  simp [hasPair_of_second_not_mem plain.2, hasPair_of_first_not_mem absent, undeclared]

/-- Only the text of the selector can make a joined token of one with a selector. -/
private theorem isJoined_selected_iff (plain : Token.PlainName name)
    (single : hasPair ':' ':' (':' :: options.toList) = false) :
    isJoined (name ++ "[" ++ text ++ "]:" ++ options) = false ↔ hasPair ':' ':' text.toList = false := by
  obtain ⟨apart, single⟩ := hasPair_cons_eq_false_iff.mp single
  have apart : options.toList.head? ≠ some ':' := fun same => apart ⟨rfl, same⟩
  simp only [isJoined, toList_selected, hasPair_append_eq_false_iff, hasPair_cons_eq_false_iff]
  simp [hasPair_of_second_not_mem plain.2, single, apart]

/-- Cut at the first two colons of the selector, a token begins with a bracket that nothing closes. -/
private theorem expandToken_cut (request : Request) {token : String} (start rest : String)
    (plain : Token.PlainName name)
    (spelled : token.toList = name.toList ++ '[' :: (start.toList ++ ':' :: ':' :: rest.toList))
    (unended : ']' ∉ start.toList) (first : hasPair ':' ':' (start.toList ++ [':']) = false)
    (joined : isJoined token = true) :
    request.expandToken token = .error (.grammar (.unclosedSelector (name ++ "[" ++ start))) := by
  have absent : hasPair ':' ':' ((name ++ "[" ++ start).toList ++ [':']) = false := by
    have behind : (name ++ "[" ++ start).toList ++ [':'] = name.toList ++ '[' :: (start.toList ++ [':']) := by
      simp
    rw [behind, hasPair_append_eq_false_iff, hasPair_cons_eq_false_iff]
    simp [hasPair_of_second_not_mem plain.2, first]
  have cut : segments token = (name ++ "[" ++ start) :: (splitPair ':' ':' rest.toList).map String.ofList := by
    have whole : token.toList = (name ++ "[" ++ start).toList ++ ':' :: ':' :: rest.toList := by simp [spelled]
    rw [segments, whole, splitPair_append absent, List.map_cons, String.ofList_toList]
  have unclosed : ({ request with nested := false } : Request).expandPlain (name ++ "[" ++ start) =
      .error (.grammar (.unclosedSelector (name ++ "[" ++ start))) := by
    rw [expandPlain, Token.parse_unclosed plain unended]
    rfl
  rw [expandToken, joined, if_pos rfl, expandJoined, cut, List.mapM_cons, unclosed]
  rfl

private theorem expand_selected_double (request : Request) (plain : Token.PlainName name)
    (unended : ']' ∉ text.toList)
    (single : hasPair ':' ':' (':' :: options.toList) = false)
    (undeclared : isDeclaration (name ++ "[" ++ text ++ "]:" ++ options) = false)
    (double : hasPair ':' ':' text.toList = true) :
    ∃ start rest, text = start ++ "::" ++ rest ∧
      request.expand [name ++ "[" ++ text ++ "]:" ++ options] =
        .error (.grammar (.unclosedSelector (name ++ "[" ++ start))) := by
  obtain ⟨start, rest, cut, first⟩ := exists_of_hasPair double
  have inside : ']' ∉ start := fun member => unended (by simp [cut, member])
  have joined : isJoined (name ++ "[" ++ text ++ "]:" ++ options) = true := by
    rw [← Bool.not_eq_false, isJoined_selected_iff plain single, Bool.not_eq_false]
    exact double
  have failed := expandToken_cut request (String.ofList start) (String.ofList (rest ++ ']' :: ':' :: options.toList))
    plain (by simp [cut]) (by simpa using inside) (by simpa using first) joined
  refine ⟨String.ofList start, String.ofList rest, ?_, ?_⟩
  · apply String.toList_injective
    simp [cut]
  · rw [expand_single request undeclared, failed]

end

/-- A token with a selector stands for what the selector picks of each base exactly if the text of the selector
holds no two colons in a row. With two colons it fails for want of a closing bracket. -/
theorem expand_selected_iff (request : Request) {name text options : String} {selector : Selector}
    (plain : Token.PlainName name) (accepted : Selector.parse text = .ok selector)
    (single : hasPair ':' ':' (':' :: options.toList) = false)
    (undeclared : hasPair '=' ':' options.toList = false) :
    ((request.expand [name ++ "[" ++ text ++ "]:" ++ options]).map
          (fun groups => (Group.listed groups).map unnumbered) =
        (request.picks name options selector).map (List.map unnumbered) ↔
      hasPair ':' ':' text.toList = false) ∧
    (hasPair ':' ':' text.toList = true → ∃ start rest, text = start ++ "::" ++ rest ∧
      request.expand [name ++ "[" ++ text ++ "]:" ++ options] =
        .error (.grammar (.unclosedSelector (name ++ "[" ++ start)))) := by
  obtain ⟨unended, absent⟩ := Selector.not_mem_of_parse accepted
  have undeclaredToken := isDeclaration_selected plain absent undeclared
  have fails := expand_selected_double request plain unended single undeclaredToken
  refine ⟨⟨fun same => ?_, fun free => ?_⟩, fails⟩
  · rw [← Bool.not_eq_true]
    intro double
    obtain ⟨start, -, -, failed⟩ := fails double
    rw [failed, Outcome.map_error] at same
    exact picks_ne_unclosed request name options selector _ (Outcome.map_eq_error_iff.mp same.symm)
  · have unjoined := (isJoined_selected_iff plain single).mpr free
    rw [expand_plain request undeclaredToken unjoined, map_listed_expandPlain]
    exact reading_eq_picks request (parse_selected plain accepted)

/-- A request in which one name stands for a base with three candidates. -/
def threeCandidates : Request where
  registry := some (Dict.ofList [("a", .fixed [Dict.ofList [("k", .list [.int 1, .int 2, .int 3])]])])
  tag := none
  policy := .default
  groupByToken := true
  nested := false
  join := none
  metadata := none

theorem expand_selected_range :
    (threeCandidates.expand ["a" ++ "[" ++ "0:2" ++ "]:" ++ ""]).map
        (fun groups => (Group.listed groups).map unnumbered) =
      (threeCandidates.picks "a" "" (.slice (some 0) (some 2) none)).map (List.map unnumbered) :=
  (expand_selected_iff _ (by decide) rfl (by decide) (by decide)).1.mpr (by decide)

/-- The selector picks the first and the third configuration, and the token gives none. -/
theorem expand_selected_stride_fails :
    Token.PlainName "a" ∧ Selector.parse "::2" = .ok (.slice none none (some 2)) ∧
      (threeCandidates.picks "a" "" (.slice none none (some 2))).map List.length = .ok 2 ∧
      threeCandidates.expand ["a" ++ "[" ++ "::2" ++ "]:" ++ ""] = .error (.grammar (.unclosedSelector "a[")) ∧
      (threeCandidates.expand ["a" ++ "[" ++ "::2" ++ "]:" ++ ""]).map
          (fun groups => (Group.listed groups).map unnumbered) ≠
        (threeCandidates.picks "a" "" (.slice none none (some 2))).map (List.map unnumbered) := by
  have picked : (threeCandidates.picks "a" "" (.slice none none (some 2))).map List.length = .ok 2 := rfl
  have failed : threeCandidates.expand ["a" ++ "[" ++ "::2" ++ "]:" ++ ""] =
      .error (.grammar (.unclosedSelector "a[")) := rfl
  refine ⟨by decide, rfl, picked, failed, fun same => ?_⟩
  rw [failed, Outcome.map_error] at same
  rw [Outcome.map_eq_error_iff.mp same.symm] at picked
  cases picked

end ParamSweep.Request
