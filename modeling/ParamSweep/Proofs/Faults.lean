import ParamSweep.Group
import ParamSweep.Proofs.Outcome

/-! Which errors each step of an expansion can report. Only the reading of a token itself reports what is
wrong with its name or its selector. -/

namespace ParamSweep

theorem Options.fault_of_parse {aliases : Dict String} {text : String} {error : GrammarError}
    (failed : parse aliases text = .error error) :
    error = .unbalanced text ∨ ∃ fragment fault, error = .option fragment fault := by
  rcases Outcome.bind_eq_error_iff.mp failed with uncut | ⟨fragments, -, failed⟩
  · unfold split at uncut
    split at uncut
    · cases uncut
    · cases uncut
      exact .inl rfl
  · rcases Outcome.bind_eq_error_iff.mp failed with unread | ⟨options, -, impossible⟩
    · obtain ⟨fragment, -, fault⟩ := Outcome.exists_of_mapM_eq_error (Outcome.map_eq_error_iff.mp unread)
      obtain ⟨cause, -, rfl⟩ := Outcome.mapError_eq_error_iff.mp fault
      exact .inr ⟨_, cause, rfl⟩
    · cases impossible

theorem KeyPolicy.fault_of_check {policy : KeyPolicy} {overrides base : Config} {error : Error}
    (failed : policy.check overrides base = .error error) : ∃ keys schema, error = .unknownKeys keys schema := by
  unfold check at failed
  split at failed
  · cases failed
  · split at failed
    · cases failed
    · split at failed
      · cases failed
      · cases failed
        exact ⟨_, _, rfl⟩

theorem Config.fault_of_expand {policy : KeyPolicy} {tag : Option String} {name options : String} {offset : Nat}
    {base : Config} {error : Error} (failed : expand policy tag name options offset base = .error error) :
    error = .grammar (.unbalanced options) ∨ (∃ fragment fault, error = .grammar (.option fragment fault)) ∨
      ∃ keys schema, error = .unknownKeys keys schema := by
  rcases Outcome.bind_eq_error_iff.mp failed with unread | ⟨overrides, -, failed⟩
  · obtain ⟨cause, reported, rfl⟩ := Outcome.mapError_eq_error_iff.mp unread
    rcases Options.fault_of_parse reported with rfl | ⟨fragment, fault, rfl⟩
    · exact .inl rfl
    · exact .inr (.inl ⟨fragment, fault, rfl⟩)
  · rcases Outcome.bind_eq_error_iff.mp failed with refused | ⟨-, -, impossible⟩
    · exact .inr (.inr (KeyPolicy.fault_of_check refused))
    · cases impossible

theorem Selector.fault_of_select {α : Type} {selector : Selector} {items : List α} {error : Error}
    (failed : selector.select items = .error error) :
    (∃ index, error = .indexOutOfRange index items.length) ∨ error = .zeroStep := by
  cases selector with
  | indices positions =>
    obtain ⟨index, -, missing⟩ := Outcome.exists_of_mapM_eq_error failed
    split at missing
    · cases missing
    · cases missing
      exact .inl ⟨index, rfl⟩
  | slice start stop step =>
    unfold select at failed
    dsimp only at failed
    split at failed
    · split at failed
      · cases failed
      · cases failed
        exact .inr rfl
    · cases failed

theorem Registry.fault_of_lookup {registry : Option Registry} {metadata : Option Json} {name : String}
    {error : Error} (failed : lookup registry metadata name = .error error) :
    ∃ available, error = .unknownName name available := by
  unfold lookup at failed
  split at failed
  · cases failed
  · split at failed
    · cases failed
    · cases failed
      exact ⟨_, rfl⟩

end ParamSweep
