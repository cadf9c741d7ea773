import ParamSweep.Proofs.Marks
import ParamSweep.Proofs.PlainTokens
import ParamSweep.Proofs.SelectorTokens
import ParamSweep.Proofs.TokenText

/-! The recorded source is itself a token. It is written without the selector and without a colon that nothing
follows, so it stands for everything that the selector chose from. -/

namespace ParamSweep

namespace Config
open Text

private theorem toList_sourceText (name options : String) :
    (sourceText name options).toList = name.toList ++ if options = "" then [] else ':' :: options.toList := by
  unfold sourceText
  by_cases empty : options = "" <;> simp [empty]

private theorem sourceText_eq_spell (name options : String) :
    sourceText name options = Token.spell name none (if options = "" then none else some options) := by
  apply String.toList_injective
  rw [toList_sourceText, Token.toList_spell]
  by_cases empty : options = "" <;> simp [empty]

theorem parse_sourceText {name : String} (plain : Token.PlainName name) (options : String) :
    Token.parse (sourceText name options) = .ok ⟨name, options, none⟩ := by
  have closed : ∀ text ∈ (none : Option String), ']' ∉ text.toList := fun _ impossible => by cases impossible
  rw [sourceText_eq_spell, Token.parse_spell _ plain closed]
  by_cases empty : options = "" <;> simp [empty, Token.readSelector]

/-- A source has no mark that ends in a colon, unless a token that it was read from has it too or its name ends
in the first half of the mark. -/
theorem hasPair_sourceText {mark : Char} {name options : String} {selector written : Option String}
    (plain : Token.PlainName name) (read : options = written.getD "")
    (absent : hasPair mark ':' (Token.spell name selector written).toList = false)
    (apart : name.toList.getLast? ≠ some mark) : hasPair mark ':' (sourceText name options).toList = false := by
  rw [Token.toList_spell] at absent
  have behind := (hasPair_append_eq_false_iff.mp (hasPair_append_eq_false_iff.mp absent).2.1).2.1
  have kept : hasPair mark ':' (if options = "" then [] else ':' :: options.toList) = false := by
    split
    · rfl
    next present =>
      cases written with
      | none => exact absurd read present
      | some text =>
        rw [read]
        exact behind
  rw [toList_sourceText, hasPair_append_eq_false_iff]
  exact ⟨hasPair_of_second_not_mem plain.2, kept, fun seam => apart seam.1⟩

end Config

namespace Request
open Config

/-- A token takes of a base part of what it takes without its selector, and all of it records the same source. -/
theorem variants_subset {request : Request} {token : Token} {base : Config} {part : List Config}
    (taken : request.variants token base = .ok part) :
    ∃ whole, request.variants ⟨token.name, token.options, none⟩ base = .ok whole ∧
      ∀ config ∈ part, config ∈ whole ∧
        config.get? sourceKey = some (.str (sourceText token.name token.options)) := by
  obtain ⟨selected, picked, rfl⟩ := Outcome.map_eq_ok_iff.mp taken
  obtain ⟨configs, expanded, subset⟩ := exists_expand_of_expandBase picked
  refine ⟨configs.map unnumbered, ?_, ?_⟩
  · unfold variants expandBase
    rw [expanded]
    rfl
  · intro config member
    obtain ⟨numbered, inside, rfl⟩ := List.mem_map.mp member
    refine ⟨List.mem_map_of_mem (subset numbered inside), ?_⟩
    obtain ⟨overrides, -, -, rfl⟩ := expand_eq_ok_iff.mp expanded
    obtain ⟨index, inside, rfl⟩ := List.mem_mapIdx.mp (subset numbered inside)
    rw [get?_unnumbered, if_neg (by decide), get?_stamp, if_pos rfl]

/-- Whatever a plain token is read as, positions aside, its source is read as that and more. -/
theorem reading_subset {request : Request} {token : String} {parsed : Token} {configs : List Config}
    (read : Token.parse token = .ok parsed) (plain : Token.PlainName parsed.name)
    (taken : request.reading token = .ok configs) :
    ∃ again, request.reading (sourceText parsed.name parsed.options) = .ok again ∧
      ∀ config ∈ configs, config ∈ again ∧
        config.get? sourceKey = some (.str (sourceText parsed.name parsed.options)) := by
  unfold reading at taken ⊢
  rw [read, Outcome.mapError_ok, Outcome.ok_bind] at taken
  rw [parse_sourceText plain, Outcome.mapError_ok, Outcome.ok_bind]
  obtain ⟨bases, found, taken⟩ := Outcome.bind_eq_ok_iff.mp taken
  obtain ⟨parts, walked, rfl⟩ := Outcome.map_eq_ok_iff.mp taken
  obtain ⟨wholes, all, pairs⟩ :=
    Outcome.exists_mapM_eq_ok ((Outcome.mapM_eq_ok_iff.mp walked).imp fun _ _ given => variants_subset given)
  refine ⟨wholes.flatten, ?_, fun config member => ?_⟩
  · rw [found, Outcome.ok_bind, all, Outcome.map_ok]
  · obtain ⟨part, within, inside⟩ := List.mem_flatten.mp member
    obtain ⟨whole, among, holds⟩ := Outcome.exists_result_of_mem pairs within
    obtain ⟨kept, source⟩ := holds config inside
    exact ⟨List.mem_flatten.mpr ⟨whole, among, kept⟩, source⟩

/-- Every configuration of a plain token is found again, up to its position, in the expansion of the source that
it records. -/
theorem expand_source {request : Request} {token : String} {groups : List Group}
    (unjoined : isJoined token = false) (undeclared : isDeclaration token = false)
    (named : ∀ parsed, Token.parse token = .ok parsed → parsed.name.toList.getLast? ≠ some '=')
    (expanded : request.expand [token] = .ok groups) :
    ∀ config ∈ Group.listed groups, ∃ source, config.get? sourceKey = some (.str source) ∧
      ∃ again, request.expand [source] = .ok again ∧
        ∃ twin ∈ Group.listed again, ∀ key, key ≠ indexKey → twin.get? key = config.get? key := by
  rw [expand_plain request undeclared unjoined] at expanded
  have taken : request.reading token = .ok ((Group.listed groups).map unnumbered) := by
    rw [← map_listed_expandPlain, expanded, Outcome.map_ok]
  obtain ⟨parsed, read, -⟩ := Outcome.bind_eq_ok_iff.mp taken
  have read := Outcome.mapError_eq_ok_iff.mp read
  obtain ⟨selector, written, rfl, plain, -, -, options⟩ := Token.exists_spell_of_parse read
  obtain ⟨all, takenAgain, subset⟩ := reading_subset read plain taken
  have colonless : parsed.name.toList.getLast? ≠ some ':' := fun last => plain.2 (List.mem_of_getLast? last)
  have sourceUnjoined : isJoined (sourceText parsed.name parsed.options) = false :=
    hasPair_sourceText plain options unjoined colonless
  have sourceUndeclared : isDeclaration (sourceText parsed.name parsed.options) = false :=
    hasPair_sourceText plain options undeclared (named parsed read)
  rw [← map_listed_expandPlain] at takenAgain
  obtain ⟨again, expandedAgain, rfl⟩ := Outcome.map_eq_ok_iff.mp takenAgain
  intro config member
  obtain ⟨kept, source⟩ := subset config.unnumbered (List.mem_map_of_mem member)
  rw [get?_unnumbered, if_neg (by decide)] at source
  obtain ⟨twin, among, same⟩ := List.mem_map.mp kept
  refine ⟨_, source, again, ?_, twin, among, unnumbered_eq_iff.mp same⟩
  rw [expand_plain request sourceUndeclared sourceUnjoined, expandedAgain]

theorem expand_source_selected :
    ∃ groups, threeCandidates.expand ["a[0:2]:"] = .ok groups ∧ (Group.listed groups).length = 2 ∧
      ∀ config ∈ Group.listed groups, ∃ source, config.get? sourceKey = some (.str source) ∧
        ∃ again, threeCandidates.expand [source] = .ok again ∧
          ∃ twin ∈ Group.listed again, ∀ key, key ≠ indexKey → twin.get? key = config.get? key := by
  refine ⟨_, rfl, rfl, @expand_source threeCandidates "a[0:2]:" _ (by decide) (by decide) ?_ rfl⟩
  intro parsed read
  cases read
  decide

end Request
end ParamSweep
