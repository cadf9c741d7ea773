import Mathlib.Data.List.TakeWhile
import ParamSweep.Proofs.Outcome
import ParamSweep.Token

/-! How a token is spelled. Reading is exact: what is read from a spelling are the parts that were
spelled, and every text that is read is the spelling of what was read. -/

namespace ParamSweep

namespace Text

section
variable {test : Char → Bool} {front rest : List Char}

theorem takeWhile_front (inside : ∀ char ∈ front, test char = true)
    (stops : ∀ char ∈ rest.head?, test char = false) : (front ++ rest).takeWhile test = front := by
  rw [List.takeWhile_append_of_pos inside]
  cases rest with
  | nil => exact List.append_nil front
  | cons char others => simp [stops char rfl]

theorem dropWhile_front (inside : ∀ char ∈ front, test char = true)
    (stops : ∀ char ∈ rest.head?, test char = false) : (front ++ rest).dropWhile test = rest := by
  rw [List.dropWhile_append_of_pos inside]
  cases rest with
  | nil => rfl
  | cons char others => simp [stops char rfl]

end
end Text

namespace Token
open Text

/-- A name that no selector and no options can begin in. -/
def PlainName (name : String) : Prop := '[' ∉ name.toList ∧ ':' ∉ name.toList

instance (name : String) : Decidable (PlainName name) :=
  inferInstanceAs (Decidable ('[' ∉ name.toList ∧ ':' ∉ name.toList))

/-- A name, the text of a selector in its brackets, and options behind their colon. -/
def spell (name : String) (selector options : Option String) : String :=
  name ++ selector.elim "" (fun text => "[" ++ text ++ "]") ++ options.elim "" (":" ++ ·)

def readSelector : Option String → Except GrammarError (Option Selector)
  | none => .ok none
  | some text => (Selector.parse text).map some

theorem plainName_iff {name : String} : PlainName name ↔ ∀ char ∈ name.toList, endsName char = false := by
  simp only [PlainName, endsName, Bool.or_eq_false_iff, decide_eq_false_iff_not]
  constructor
  · intro plain char member
    exact ⟨fun same => plain.1 (same ▸ member), fun same => plain.2 (same ▸ member)⟩
  · intro plain
    exact ⟨fun member => (plain _ member).1 rfl, fun member => (plain _ member).2 rfl⟩

theorem toList_spell (name : String) (selector options : Option String) :
    (spell name selector options).toList =
      name.toList ++ (selector.elim [] (fun text => '[' :: (text.toList ++ [']'])) ++
        options.elim [] (fun text => ':' :: text.toList)) := by
  cases selector <;> cases options <;> simp [spell]

theorem stops_behind_name (selector options : Option String) :
    ∀ char ∈ ((selector.elim [] fun text => '[' :: (text.toList ++ [']'])) ++
      options.elim [] fun text => ':' :: text.toList).head?, (!endsName char) = false := by
  cases selector <;> cases options <;> simp [endsName]

section
variable {test : Char → Bool} {front rest : List Char}

/-- A text has one front that passes a test and ends where the test fails. -/
theorem front_unique {other tail : List Char} (inside : ∀ char ∈ front, test char = true)
    (stops : ∀ char ∈ rest.head?, test char = false) (otherInside : ∀ char ∈ other, test char = true)
    (otherStops : ∀ char ∈ tail.head?, test char = false) (same : front ++ rest = other ++ tail) :
    front = other ∧ rest = tail := by
  have fronts := takeWhile_front inside stops
  have behind := dropWhile_front inside stops
  rw [same] at fronts behind
  exact ⟨fronts.symm.trans (takeWhile_front otherInside otherStops),
    behind.symm.trans (dropWhile_front otherInside otherStops)⟩

end

theorem inside_of_not_mem {mark : Char} {text : List Char} (absent : mark ∉ text) :
    ∀ char ∈ text, decide (char ≠ mark) = true :=
  fun _ member => decide_eq_true fun same => absent (same ▸ member)

theorem PlainName.inside {name : String} (plain : PlainName name) :
    ∀ char ∈ name.toList, (!endsName char) = true := fun char member => by
  simp [plainName_iff.mp plain char member]

/-- The name ends where a bracket or a colon begins, or where the text ends. -/
private theorem parse_eq_readRest {token name : String} {rest : List Char} (plain : PlainName name)
    (spelled : token.toList = name.toList ++ rest) (stops : ∀ char ∈ rest.head?, (!endsName char) = false) :
    parse token = readRest token name rest := by
  rw [parse, spelled, takeWhile_front plain.inside stops, dropWhile_front plain.inside stops, String.ofList_toList]

private theorem readOptions_elim (token : String) (options : Option String) :
    readOptions token (options.elim [] fun text => ':' :: text.toList) = .ok (options.getD "") := by
  cases options <;> simp [readOptions]

private theorem readRest_bracket (token name : String) {text : List Char} (closed : ']' ∉ text) (after : List Char) :
    readRest token name ('[' :: (text ++ ']' :: after)) = (do
      let selector ← Selector.parse (String.ofList text)
      let options ← readOptions token after
      .ok ⟨name, options, some selector⟩) := by
  have inside := inside_of_not_mem closed
  have stops : ∀ char ∈ (']' :: after).head?, decide (char ≠ ']') = false := by simp
  simp only [readRest, takeWhile_front inside stops, dropWhile_front inside stops]

theorem parse_spell {name : String} {selector : Option String} (options : Option String)
    (plain : PlainName name) (closed : ∀ text ∈ selector, ']' ∉ text.toList) :
    parse (spell name selector options) =
      (readSelector selector).map fun found => ⟨name, options.getD "", found⟩ := by
  rw [parse_eq_readRest plain (toList_spell name selector options) (stops_behind_name selector options)]
  cases selector with
  | none =>
    cases options <;> simp [readRest, readOptions, readSelector]
  | some text =>
    have read := readRest_bracket (spell name (some text) options) name (closed text rfl)
      (options.elim [] fun text => ':' :: text.toList)
    simp only [Option.elim_some, List.cons_append, List.append_assoc, List.nil_append, read,
      String.ofList_toList, readOptions_elim, readSelector]
    cases Selector.parse text <;> rfl

/-- A selector in its brackets is read before what follows them. -/
theorem parse_closed {name inner : String} (plain : PlainName name) (closed : ']' ∉ inner.toList) (after : String) :
    parse (name ++ "[" ++ inner ++ "]" ++ after) = (do
      let selector ← Selector.parse inner
      let options ← readOptions (name ++ "[" ++ inner ++ "]" ++ after) after.toList
      .ok ⟨name, options, some selector⟩) := by
  have spelled : (name ++ "[" ++ inner ++ "]" ++ after).toList =
      name.toList ++ '[' :: (inner.toList ++ ']' :: after.toList) := by simp
  rw [parse_eq_readRest plain spelled (by simp [endsName]), readRest_bracket _ _ closed, String.ofList_toList]

theorem parse_unselected {name : String} (plain : PlainName name) (options : String) :
    parse (name ++ ":" ++ options) = .ok ⟨name, options, none⟩ := by
  have spelled : name ++ ":" ++ options = spell name none (some options) := by
    apply String.toList_injective
    rw [toList_spell]
    simp
  have closed : ∀ text ∈ (none : Option String), ']' ∉ text.toList := fun _ impossible => by cases impossible
  rw [spelled, parse_spell (some options) plain closed]
  rfl

theorem parse_unclosed {name text : String} (plain : PlainName name) (unended : ']' ∉ text.toList) :
    parse (name ++ "[" ++ text) = .error (.unclosedSelector (name ++ "[" ++ text)) := by
  have spelled : (name ++ "[" ++ text).toList = name.toList ++ '[' :: text.toList := by simp
  have kept : text.toList.dropWhile (fun char => decide (char ≠ ']')) = [] :=
    List.dropWhile_eq_nil_iff.mpr (inside_of_not_mem unended)
  rw [parse_eq_readRest plain spelled (by simp [endsName])]
  simp only [readRest, kept]

private theorem readOptions_eq_ok_iff {token options : String} {rest : List Char} :
    readOptions token rest = .ok options ↔
      ∃ text : Option String, rest = text.elim [] (fun text => ':' :: text.toList) ∧ options = text.getD "" := by
  constructor
  · intro read
    unfold readOptions at read
    split at read
    · cases read
      exact ⟨none, rfl, rfl⟩
    next chars =>
      cases read
      exact ⟨some (String.ofList chars), by simp, rfl⟩
    · cases read
  · rintro ⟨text, rfl, rfl⟩
    exact readOptions_elim token text

theorem readOptions_eq_error_iff {token : String} {rest : List Char} {error : GrammarError} :
    readOptions token rest = .error error ↔
      rest ≠ [] ∧ rest.head? ≠ some ':' ∧ error = .trailingText token (String.ofList rest) := by
  unfold readOptions
  split
  · simp
  · simp
  next present unmarked =>
    have other : rest.head? ≠ some ':' := fun colon => by
      obtain ⟨options, rfl⟩ := List.head?_eq_some_iff.mp colon
      exact unmarked options rfl
    simpa [other, eq_comm] using fun _ => present

/-- Behind its name a text has options or nothing, or a bracket, which may be closed. -/
theorem form_cases (text : String) : ∃ name, PlainName name ∧
    ((∃ options, text = spell name none options) ∨
      (∃ rest, text = name ++ "[" ++ rest ∧ ']' ∉ rest.toList) ∨
      ∃ inner after, text = name ++ "[" ++ inner ++ "]" ++ after ∧ ']' ∉ inner.toList) := by
  have whole := List.takeWhile_append_dropWhile (p := (!endsName ·)) (l := text.toList)
  have stop := List.head?_dropWhile_not (!endsName ·) text.toList
  have plain : PlainName (String.ofList (text.toList.takeWhile (!endsName ·))) :=
    plainName_iff.mpr fun char member => by
      rw [String.toList_ofList] at member
      simpa using List.mem_takeWhile_imp member
  generalize text.toList.takeWhile (!endsName ·) = name at whole plain
  generalize text.toList.dropWhile (!endsName ·) = rest at whole stop
  refine ⟨String.ofList name, plain, ?_⟩
  cases rest with
  | nil =>
    refine .inl ⟨none, String.toList_injective ?_⟩
    rw [← whole, toList_spell]
    simp
  | cons char rest =>
    have ends : char = '[' ∨ char = ':' := by simpa [endsName, Decidable.or_iff_not_imp_left] using stop
    rcases ends with rfl | rfl
    · by_cases closes : ']' ∈ rest
      · obtain ⟨inner, after, rfl, closed⟩ := List.eq_append_cons_of_mem closes
        refine .inr (.inr ⟨String.ofList inner, String.ofList after, String.toList_injective ?_, by simpa using closed⟩)
        simp [← whole]
      · refine .inr (.inl ⟨String.ofList rest, String.toList_injective ?_, by simpa using closes⟩)
        simp [← whole]
    · refine .inl ⟨some (String.ofList rest), String.toList_injective ?_⟩
      rw [← whole, toList_spell]
      simp

/-- What is read from a text spells that text. -/
theorem exists_spell_of_parse {token : String} {parsed : Token} (read : parse token = .ok parsed) :
    ∃ selector options, token = spell parsed.name selector options ∧ PlainName parsed.name ∧
      (∀ text ∈ selector, ']' ∉ text.toList) ∧ readSelector selector = .ok parsed.selector ∧
      parsed.options = options.getD "" := by
  obtain ⟨name, plain, ⟨options, rfl⟩ | ⟨rest, rfl, unended⟩ | ⟨inner, after, rfl, closed⟩⟩ := form_cases token
  · rw [parse_spell options plain (by simp)] at read
    cases read
    exact ⟨none, options, rfl, plain, by simp, rfl, rfl⟩
  · rw [parse_unclosed plain unended] at read
    cases read
  · rw [parse_closed plain closed] at read
    obtain ⟨selector, accepted, read⟩ := Outcome.bind_eq_ok_iff.mp read
    obtain ⟨options, behind, read⟩ := Outcome.bind_eq_ok_iff.mp read
    obtain ⟨text, spelled, rfl⟩ := readOptions_eq_ok_iff.mp behind
    cases read
    refine ⟨some inner, text, String.toList_injective ?_, plain, by simpa using closed, ?_, rfl⟩
    · simp [toList_spell, spelled]
    · rw [readSelector, accepted, Outcome.map_ok]

end Token
end ParamSweep
