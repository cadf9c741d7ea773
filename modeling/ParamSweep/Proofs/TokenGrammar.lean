import ParamSweep.Proofs.SelectorRoundTrip
import ParamSweep.Proofs.TokenText

/-! The grammar of tokens. A text is read exactly if it has the parts that the grammar names, and it has them in one
way only. Every other text is refused for one reason. What is read can be printed, and is then read again. -/

namespace ParamSweep.Token

/-- A name, the text of a selector in its brackets, and options behind their colon. -/
@[ext]
structure Parts where
  name : String
  selector : Option String
  options : Option String
  plain : PlainName name
  closed : ∀ text ∈ selector, ']' ∉ text.toList

def Parts.text (parts : Parts) : String := spell parts.name parts.selector parts.options

/-- What parts stand for. The text of the selector must be accepted; options that are left out are empty. -/
structure Parts.Denote (parts : Parts) (token : Token) : Prop where
  name : token.name = parts.name
  selector : readSelector parts.selector = .ok token.selector
  options : token.options = parts.options.getD ""

/-- Why a text is refused. A selector is looked at before what follows it. -/
inductive Refused (text : String) : GrammarError → Prop where
  | unclosed {name rest : String} (plain : PlainName name) (whole : text = name ++ "[" ++ rest)
      (unended : ']' ∉ rest.toList) : Refused text (.unclosedSelector text)
  | selector {name inner after : String} {fault : SelectorFault} (plain : PlainName name)
      (whole : text = name ++ "[" ++ inner ++ "]" ++ after) (closed : ']' ∉ inner.toList)
      (invalid : Selector.parse inner = .error (.selector inner fault)) : Refused text (.selector inner fault)
  | trailing {name inner after : String} {selector : Selector} (plain : PlainName name)
      (whole : text = name ++ "[" ++ inner ++ "]" ++ after) (closed : ']' ∉ inner.toList)
      (accepted : Selector.parse inner = .ok selector) (present : after ≠ "")
      (unmarked : after.toList.head? ≠ some ':') : Refused text (.trailingText text after)

theorem parse_eq_ok_iff {text : String} {token : Token} :
    parse text = .ok token ↔ ∃ parts : Parts, parts.text = text ∧ parts.Denote token := by
  constructor
  · intro read
    obtain ⟨selector, options, spelled, plain, closed, accepted, behind⟩ := exists_spell_of_parse read
    exact ⟨⟨token.name, selector, options, plain, closed⟩, spelled.symm, rfl, accepted, behind⟩
  · rintro ⟨parts, rfl, denoted⟩
    rw [Parts.text, parse_spell parts.options parts.plain parts.closed, denoted.selector, Outcome.map_ok,
      ← denoted.name, ← denoted.options]

section
variable {selector otherSelector options otherOptions : Option String}

private theorem options_unique
    (same : options.elim [] (fun text => ':' :: text.toList) = otherOptions.elim [] fun text => ':' :: text.toList) :
    options = otherOptions := by
  cases options with
  | none =>
    cases otherOptions with
    | none => rfl
    | some other => cases same
  | some text =>
    cases otherOptions with
    | none => cases same
    | some other => rw [String.toList_injective (List.cons.inj same).2]

private theorem inner_unique {inner other tail otherTail : List Char} (closed : ']' ∉ inner)
    (otherClosed : ']' ∉ other) (same : inner ++ ']' :: tail = other ++ ']' :: otherTail) :
    inner = other ∧ tail = otherTail := by
  obtain ⟨fronts, behind⟩ :=
    front_unique (inside_of_not_mem closed) (by simp) (inside_of_not_mem otherClosed) (by simp) same
  exact ⟨fronts, (List.cons.inj behind).2⟩

private theorem selector_unique (closed : ∀ text ∈ selector, ']' ∉ text.toList)
    (otherClosed : ∀ text ∈ otherSelector, ']' ∉ text.toList)
    (same : selector.elim [] (fun text => '[' :: (text.toList ++ [']'])) ++
        options.elim [] (fun text => ':' :: text.toList) =
      otherSelector.elim [] (fun text => '[' :: (text.toList ++ [']'])) ++
        otherOptions.elim [] fun text => ':' :: text.toList) :
    selector = otherSelector ∧ options = otherOptions := by
  cases selector with
  | none =>
    cases otherSelector with
    | none => exact ⟨rfl, options_unique same⟩
    | some other => cases options <;> simp at same
  | some text =>
    cases otherSelector with
    | none => cases otherOptions <;> simp at same
    | some other =>
      simp only [Option.elim_some, List.cons_append, List.append_assoc, List.nil_append] at same
      obtain ⟨inner, behind⟩ := inner_unique (closed text rfl) (otherClosed other rfl) (List.cons.inj same).2
      exact ⟨congrArg some (String.toList_injective inner), options_unique behind⟩

end

/-- A text has its parts in one way. -/
theorem text_injective : Function.Injective Parts.text := by
  intro parts others same
  have spelled := congrArg String.toList same
  simp only [Parts.text, toList_spell] at spelled
  -- The first bracket or colon ends the name, and the first closing bracket the selector, in both alike.
  obtain ⟨names, behind⟩ := front_unique parts.plain.inside (stops_behind_name _ _) others.plain.inside
    (stops_behind_name _ _) spelled
  obtain ⟨selectors, options⟩ := selector_unique parts.closed others.closed behind
  exact Parts.ext (String.toList_injective names) selectors options

theorem parse_eq_error_iff {text : String} {error : GrammarError} : parse text = .error error ↔ Refused text error := by
  constructor
  · intro failed
    obtain ⟨name, plain, ⟨options, rfl⟩ | ⟨rest, rfl, unended⟩ | ⟨inner, after, rfl, closed⟩⟩ := form_cases text
    · rw [parse_spell options plain (by simp)] at failed
      cases failed
    · rw [parse_unclosed plain unended] at failed
      cases failed
      exact .unclosed plain rfl unended
    · rw [parse_closed plain closed] at failed
      rcases Outcome.bind_eq_error_iff.mp failed with invalid | ⟨selector, accepted, failed⟩
      · obtain ⟨fault, -, rfl⟩ := Outcome.mapError_eq_error_iff.mp invalid
        exact .selector plain rfl closed invalid
      · rcases Outcome.bind_eq_error_iff.mp failed with behind | ⟨options, -, impossible⟩
        · obtain ⟨present, unmarked, rfl⟩ := readOptions_eq_error_iff.mp behind
          rw [String.ofList_toList]
          exact .trailing plain rfl closed accepted (by simpa using present) unmarked
        · cases impossible
  · intro refused
    cases refused with
    | unclosed plain whole unended =>
      subst whole
      exact parse_unclosed plain unended
    | selector plain whole closed invalid =>
      subst whole
      rw [parse_closed plain closed, invalid]
      rfl
    | @trailing name inner after _ plain whole closed accepted present unmarked =>
      subst whole
      have behind (token : String) : readOptions token after.toList = .error (.trailingText token after) :=
        readOptions_eq_error_iff.mpr ⟨by simpa using present, unmarked, by rw [String.ofList_toList]⟩
      rw [parse_closed plain closed, accepted, Outcome.ok_bind, behind]
      rfl

theorem parse_spell_text {token : Token} (plain : PlainName token.name)
    (accepted : ∀ selector ∈ token.selector, ∃ source, Selector.parse source = .ok selector)
    {options : Option String} (behind : options.getD "" = token.options) :
    parse (spell token.name (token.selector.map Selector.text) options) = .ok token := by
  have reread : ∀ selector ∈ token.selector, Selector.parse selector.text = .ok selector := fun selector found => by
    obtain ⟨source, read⟩ := accepted selector found
    exact Selector.parse_text (Selector.wellFormed_of_parse read)
  obtain ⟨name, rest, selector⟩ := token
  subst behind
  rw [parse_spell options plain]
  · cases selector with
    | none => rfl
    | some selector =>
      rw [Option.map_some, readSelector, reread selector rfl]
      rfl
  · intro text found
    obtain ⟨selector, here, rfl⟩ := Option.map_eq_some_iff.mp found
    exact (Selector.not_mem_of_parse (reread selector here)).1

/-- A text is read exactly if it has the parts of a token, it has them in one way only, and else it is refused for
one of three reasons. Whatever is read is read again from what is printed of it. -/
theorem parse_grammar :
    (∀ text token, parse text = .ok token ↔ ∃ parts : Parts, parts.text = text ∧ parts.Denote token) ∧
    Function.Injective Parts.text ∧
    (∀ text error, parse text = .error error ↔ Refused text error) ∧
    ∀ token : Token, PlainName token.name →
      (∀ selector ∈ token.selector, ∃ source, Selector.parse source = .ok selector) →
      ∀ options : Option String, options.getD "" = token.options →
        parse (spell token.name (token.selector.map Selector.text) options) = .ok token :=
  ⟨fun _ _ => parse_eq_ok_iff, text_injective, fun _ _ => parse_eq_error_iff,
    fun _ plain accepted _ behind => parse_spell_text plain accepted behind⟩

/-- White space and signs in a selector are not printed, so the text that was read need not come back. -/
theorem parse_grammar_range :
    Selector.parse " 1 :+07: " = .ok (.slice (some 1) (some 7) none) ∧
    spell "a" (some (Selector.text (.slice (some 1) (some 7) none))) (some "k=[1]:x") = "a[1:7]:k=[1]:x" ∧
    parse "a[1:7]:k=[1]:x" = .ok ⟨"a", "k=[1]:x", some (.slice (some 1) (some 7) none)⟩ ∧
    parse "a[1:7]k" = .error (.trailingText "a[1:7]k" "k") := by
  have read : Selector.parse " 1 :+07: " = .ok (.slice (some 1) (some 7) none) := rfl
  have accepted : ∀ selector ∈ some (Selector.slice (some 1) (some 7) none),
      ∃ source, Selector.parse source = .ok selector := by
    rintro _ ⟨⟩
    exact ⟨_, read⟩
  refine ⟨read, by decide, ?_, ?_⟩
  · exact parse_grammar.2.2.2 ⟨"a", "k=[1]:x", some (.slice (some 1) (some 7) none)⟩ (by decide) accepted
      (some "k=[1]:x") rfl
  · exact (parse_grammar.2.2.1 "a[1:7]k" _).mpr
      (.trailing (by decide) (rfl : _ = "a" ++ "[" ++ "1:7" ++ "]" ++ "k") (by decide) rfl (by decide) (by decide))

end ParamSweep.Token
