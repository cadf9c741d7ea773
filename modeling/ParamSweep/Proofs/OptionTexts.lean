import ParamSweep.Options
import ParamSweep.Proofs.Brackets
import ParamSweep.Proofs.Combinations

/-! How option texts are put together. Behind a comma an option text goes on as another one would, and its
options win. Spelled one by one, options are read as they were. -/

namespace ParamSweep

namespace Dict

universe u

variable {α : Type u}

theorem empty_extend (dict : Dict α) : empty.extend dict = dict := by
  apply ext_get?
  intro key
  rw [get?_extend, get?_empty, Option.or_none]

theorem ofList_append (left right : List (String × α)) :
    ofList (left ++ right) = (ofList left).extend (ofList right) := by
  apply ext_get?
  intro key
  rw [get?_extend, get?_ofList, get?_ofList, get?_ofList, List.reverse_append, List.lookup_append]

end Dict

namespace Options
open Text

/-- The fragments of an option text that count. -/
def fragments (text : List Char) : List (List Char) :=
  ((cutAtDepth (outside ',') 0 text).map trim).filter (!·.isEmpty)

def readEntry (fragment : List Char) : Except GrammarError (String × Value) :=
  (readFragment true fragment).mapError (.option (String.ofList fragment))

theorem parse_empty_eq (text : String) :
    parse Dict.empty text =
      if isBalanced text.toList then ((fragments text.toList).mapM readEntry).map Dict.ofList
      else .error (.unbalanced text) := by
  have trimmed : ((splitTopLevel ',' text.toList).map String.ofList).map (fun fragment => trim fragment.toList) =
      (cutAtDepth (outside ',') 0 text.toList).map trim := by
    rw [← map_trim_splitTopLevel, List.map_map]
    apply List.map_congr_left
    intro piece _
    rw [Function.comp_apply, String.toList_ofList]
  unfold parse split
  split
  · simp only [Outcome.ok_bind, readFragments, trimmed]
    change ((fragments text.toList).mapM readEntry).map Dict.ofList >>= _ = _
    cases (fragments text.toList).mapM readEntry <;> rfl
  · rfl

theorem parse_empty_eq_ok_iff {text : String} {options : Config} :
    parse Dict.empty text = .ok options ↔ isBalanced text.toList = true ∧
      ∃ entries, (fragments text.toList).mapM readEntry = .ok entries ∧ Dict.ofList entries = options := by
  rw [parse_empty_eq]
  split
  next balanced => simp only [balanced, true_and, Outcome.map_eq_ok_iff]
  next unbalanced => simp [unbalanced]

theorem outside_comma_level : ∀ char depth, outside ',' char depth = true → depthStep char = 0 :=
  outside_level (by decide)

theorem fragments_append {left : List Char} (balanced : isBalanced left = true) (right : List Char) :
    fragments (left ++ ',' :: right) = fragments left ++ fragments right := by
  unfold fragments
  rw [cutAtDepth_append_cons outside_comma_level balanced (by decide), List.map_append, List.filter_append]

/-- Behind a comma options win over those before it. -/
theorem parse_append {left right : String} {first second : Config} (readFirst : parse Dict.empty left = .ok first)
    (readSecond : parse Dict.empty right = .ok second) :
    parse Dict.empty (left ++ "," ++ right) = .ok (first.extend second) := by
  obtain ⟨closedFirst, entries, read, rfl⟩ := parse_empty_eq_ok_iff.mp readFirst
  obtain ⟨closedSecond, others, readOthers, rfl⟩ := parse_empty_eq_ok_iff.mp readSecond
  have joined : (left ++ "," ++ right).toList = left.toList ++ ',' :: right.toList := by simp
  have comma : isBalanced (',' :: right.toList) = true := closedSecond
  rw [parse_empty_eq_ok_iff, joined, fragments_append closedFirst]
  refine ⟨isBalanced_append closedFirst comma, entries ++ others, ?_, Dict.ofList_append entries others⟩
  rw [List.mapM_append, read, readOthers]
  rfl

/-- A text that option texts hold as it is: no white space at its ends, and no bracket, comma or equals sign. -/
@[mk_iff]
structure Bare (text : String) : Prop where
  present : text ≠ ""
  trimmed : Trimmed text.toList
  unmarked : ∀ char ∈ text.toList, depthStep char = 0 ∧ char ≠ ',' ∧ char ≠ '='

instance (text : String) : Decidable (Bare text) :=
  let unmarked (char : Char) : Prop := depthStep char = 0 ∧ char ≠ ',' ∧ char ≠ '='
  have : DecidablePred unmarked := fun _ => inferInstanceAs (Decidable (_ ∧ _ ∧ _))
  have : Decidable (∀ char ∈ text.toList, unmarked char) := List.decidableBAll unmarked text.toList
  decidable_of_iff' _ (bare_iff text)

/-- Whether a text spells a value, as one piece behind an equals sign. -/
structure Spells (text : List Char) (value : Value) : Prop where
  intact : Intact (outside ',') text
  unequal : '=' ∉ text
  trimmed : Trimmed text
  read : Value.ofChars text = value

theorem spells_of_unmarked {text : List Char} {value : Value}
    (unmarked : ∀ char ∈ text, depthStep char = 0 ∧ char ≠ ',' ∧ char ≠ '=') (trimmed : Trimmed text)
    (read : Value.ofChars text = value) : Spells text value where
  intact := intact_of_bracketless (fun char member => (unmarked char member).1) fun char member =>
    outside_of_ne (unmarked char member).2.1
  unequal member := (unmarked '=' member).2.2 rfl
  trimmed := trimmed
  read := read

def spellEntry (spell : Value → List Char) (entry : String × Value) : List Char :=
  entry.1.toList ++ '=' :: spell entry.2

section
variable {spell : Value → List Char} {entry : String × Value}

private theorem intact_spellEntry (named : Bare entry.1) (spelled : Spells (spell entry.2) entry.2) :
    Intact (outside ',') (spellEntry spell entry) := by
  have name : Intact (outside ',') (entry.1.toList ++ ['=']) := by
    apply intact_of_bracketless
    · intro char member
      rcases List.mem_append.mp member with inside | mark
      · exact (named.unmarked char inside).1
      · rw [List.mem_singleton.mp mark]
        decide
    · intro char member depth
      rcases List.mem_append.mp member with inside | mark
      · exact outside_of_ne (named.unmarked char inside).2.1 depth
      · rw [List.mem_singleton.mp mark]
        exact outside_of_ne (by decide) depth
  rw [spellEntry, ← List.singleton_append, ← List.append_assoc]
  exact name.append spelled.intact

private theorem trim_spellEntry (named : Bare entry.1) (spelled : Spells (spell entry.2) entry.2) :
    trim (spellEntry spell entry) = spellEntry spell entry := by
  have mark : Trimmed ['='] := trimmed_of_blankless fun char member => by
    rw [List.mem_singleton.mp member]
    decide
  rw [spellEntry, ← List.singleton_append]
  exact (named.trimmed.append (mark.append spelled.trimmed)).trim_eq

theorem readEntry_spellEntry (named : Bare entry.1) (spelled : Spells (spell entry.2) entry.2) :
    readEntry (spellEntry spell entry) = .ok entry := by
  have closed : isBalanced entry.1.toList = true :=
    isBalanced_of_bracketless fun char member => (named.unmarked char member).1
  have equals : ∀ char (depth : Int), (char = '=' && decide (depth = 0)) = true → depthStep char = 0 := by
    intro char depth cuts
    simp only [Bool.and_eq_true, decide_eq_true_eq] at cuts
    rw [cuts.1]
    decide
  have cut : cutAtDepth (fun char depth => char = '=' && depth = 0) 0 (spellEntry spell entry) =
      [entry.1.toList, spell entry.2] := by
    rw [spellEntry, cutAtDepth_append_cons equals closed (by decide), cutAtDepth_of_absent, cutAtDepth_of_absent]
    · rfl
    · intro char member depth
      have other : char ≠ '=' := fun same => spelled.unequal (same ▸ member)
      simp [other]
    · intro char member depth
      simp [(named.unmarked char member).2.2]
  have key : trimEnd entry.1.toList = entry.1.toList := trimEnd_eq_self_iff.mpr named.trimmed.2
  have present : entry.1.toList.isEmpty = false := by
    rw [List.isEmpty_eq_false_iff]
    intro empty
    exact named.present (String.toList_injective empty)
  unfold readEntry readFragment
  rw [cut]
  simp [key, entryOf, present, readValue, spelled.trimmed.trim_eq, spelled.read]

end

/-- Spelled one by one with commas between them, options are read as they were. -/
theorem parse_spelled {spell : Value → List Char} {entries : List (String × Value)}
    (spelled : ∀ entry ∈ entries, Bare entry.1 ∧ Spells (spell entry.2) entry.2) :
    parse Dict.empty (String.ofList ([','].intercalate (entries.map (spellEntry spell)))) =
      .ok (Dict.ofList entries) := by
  have intact : ∀ item ∈ entries.map (spellEntry spell), Intact (outside ',') item := by
    intro item member
    obtain ⟨entry, inside, rfl⟩ := List.mem_map.mp member
    exact intact_spellEntry (spelled entry inside).1 (spelled entry inside).2
  have cut : fragments ([','].intercalate (entries.map (spellEntry spell))) = entries.map (spellEntry spell) := by
    cases entries with
    | nil => rfl
    | cons first rest =>
      unfold fragments
      rw [cutAtDepth_intercalate outside_comma_level (by decide) (by simp) intact, List.map_map]
      rw [List.map_congr_left (g := spellEntry spell), List.filter_eq_self]
      · intro item member
        obtain ⟨entry, inside, rfl⟩ := List.mem_map.mp member
        simp [spellEntry]
      · intro entry member
        exact trim_spellEntry (spelled entry member).1 (spelled entry member).2
  rw [parse_empty_eq_ok_iff, String.toList_ofList, cut]
  refine ⟨isBalanced_intercalate (by decide) fun item member => (intact item member).balanced, entries, ?_, rfl⟩
  rw [List.mapM_map, Outcome.mapM_eq_ok_iff, List.forall₂_same]
  exact fun entry member => readEntry_spellEntry (spelled entry member).1 (spelled entry member).2

end Options
end ParamSweep
