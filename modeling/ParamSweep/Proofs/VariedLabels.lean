import ParamSweep.Label.Varied
import ParamSweep.Proofs.LabelTexts
import ParamSweep.Proofs.SharedEntries

/-! Labels that show differences. What all configurations share is left out, and whatever is left out of one is
the same in the others. What a label shows can be read off it again, so equal labels stand for equal parameters. -/

namespace ParamSweep

namespace Value

/-- To be equal as parameters is to be identical for values without parts. -/
theorem Scalar.eq_of_beq {plain : String → Prop} {value other : Value} (scalar : Scalar plain value)
    (same : (value == other) = true) : value = other := by
  change value.equal other = true at same
  cases scalar <;> cases other <;> simp_all [equal]

end Value

namespace Config

/-- A key that configurations share is under one value in all of them. -/
theorem exists_value_of_shared {configs : List Config} {key : String}
    (member : key ∈ (sharedByAll configs).keys) :
    ∃ value, ∀ config ∈ configs, ∃ found, config.get? key = some found ∧
      (found = value ∨ (found == value) = true) := by
  obtain ⟨value, held⟩ := Dict.mem_keys_iff.mp member
  cases configs with
  | nil => cases held
  | cons first rest =>
    obtain ⟨here, later⟩ := get?_foldl_shared_iff.mp held
    refine ⟨value, fun config among => ?_⟩
    rcases List.mem_cons.mp among with rfl | among
    · exact ⟨value, here, .inl rfl⟩
    · obtain ⟨found, there, same⟩ := later config among
      exact ⟨found, there, .inr same⟩

theorem Spelled.eraseAll {named : String → Prop} {valued : Value → Prop} {config : Config}
    (spelled : config.Spelled named valued) (keys : List String) : Spelled named valued (config.eraseAll keys) := by
  rintro ⟨key, value⟩ member free
  have held := Dict.get?_eq_some_iff.mpr member
  rw [Dict.get?_eraseAll] at held
  split at held
  · cases held
  · exact spelled _ (Dict.get?_eq_some_iff.mp held) free

theorem Spelled.valued_of_get? {named : String → Prop} {valued : Value → Prop} {config : Config}
    (spelled : config.Spelled named valued) {key : String} {value : Value} (free : isReserved key = false)
    (held : config.get? key = some value) : valued value :=
  (spelled (key, value) (Dict.get?_eq_some_iff.mp held) free).2

/-- Leaving out what all configurations share hides no difference between two of them. -/
theorem parameters_eraseAll_eq_iff {plain : String → Prop} {named : String → Prop} {configs : List Config}
    (default : Option Config) {left right : Config} (leftMember : left ∈ configs) (rightMember : right ∈ configs)
    (leftSpelled : left.Spelled named (Value.Scalar plain)) (rightSpelled : right.Spelled named (Value.Scalar plain)) :
    parameters (left.eraseAll (sharedByAll (default.toList ++ configs)).keys) =
        parameters (right.eraseAll (sharedByAll (default.toList ++ configs)).keys) ↔
      ∀ key, isReserved key = false → left.get? key = right.get? key := by
  rw [parameters_eq_iff]
  refine forall₂_congr fun key free => ?_
  rw [Dict.get?_eraseAll, Dict.get?_eraseAll]
  split
  next common =>
    obtain ⟨value, all⟩ := exists_value_of_shared common
    have held {config : Config} (member : config ∈ configs) (spelled : config.Spelled named (Value.Scalar plain)) :
        config.get? key = some value := by
      obtain ⟨found, there, same⟩ := all config (List.mem_append_right _ member)
      rcases same with rfl | same
      · exact there
      · rw [there, (spelled.valued_of_get? free there).eq_of_beq same]
    rw [held leftMember leftSpelled, held rightMember rightSpelled]
    simp
  · rfl

end Config

namespace Text

/-- Cuts a text around the first occurrence of a mark. -/
def cutFirst (mark : Char) (text : List Char) : List Char × List Char :=
  (text.takeWhile (· != mark), (text.dropWhile (· != mark)).tail)

theorem cutFirst_append {mark : Char} {before : List Char} (absent : mark ∉ before) (after : List Char) :
    cutFirst mark (before ++ mark :: after) = (before, after) := by
  have inside : ∀ char ∈ before, (char != mark) = true := fun char member =>
    bne_iff_ne.mpr fun same => absent (same ▸ member)
  unfold cutFirst
  rw [List.takeWhile_append_of_pos inside, List.dropWhile_append_of_pos inside]
  simp

end Text

namespace Label
open Config Text
open Value (Scalar)

/-- The entry that a piece of a label shows. -/
def readPiece (piece : List Char) : String × Value :=
  (String.ofList (cutFirst '=' piece).1, Value.ofChars (cutFirst '=' piece).2)

/-- The entries that an option text shows. -/
def readOptionText (text : List Char) : List (String × Value) :=
  if text.isEmpty then [] else (text.splitOn ',').map readPiece

/-- The name and the entries that a label shows. -/
def read (text : String) : String × List (String × Value) :=
  (String.ofList (cutFirst ':' text.toList).1, readOptionText (cutFirst ':' text.toList).2)

section
variable {entry : String × Value}

private theorem readPiece_spellEntry (key : PlainText entry.1) (scalar : Scalar PlainText entry.2) :
    readPiece (Options.spellEntry Value.label entry) = entry := by
  have equalless : '=' ∉ entry.1.toList := fun inside => (key.2 _ inside).2.2.2 rfl
  rw [readPiece, Options.spellEntry, cutFirst_append equalless, Value.label, scalar.compact_chars fun _ word => word,
    scalar.ofChars_chars, String.ofList_toList]

private theorem comma_not_mem_spellEntry (key : PlainText entry.1) (scalar : Scalar PlainText entry.2) :
    ',' ∉ Options.spellEntry Value.label entry := by
  rw [Options.spellEntry, Value.label, scalar.compact_chars fun _ word => word]
  intro inside
  rcases List.mem_append.mp inside with inside | inside
  · exact (key.2 _ inside).2.2.1 rfl
  · rcases List.mem_cons.mp inside with same | inside
    · cases same
    · exact (scalar.plainChar (fun _ word => word) _ inside).2.2.1 rfl

end

theorem readOptionText_optionText {entries : List (String × Value)}
    (plain : ∀ entry ∈ entries, PlainText entry.1 ∧ Scalar PlainText entry.2) :
    readOptionText (optionText entries).toList = entries := by
  rw [toList_optionText_of_plain fun entry member => (plain entry member).1]
  cases entries with
  | nil => rfl
  | cons first rest =>
    have commaless : ∀ piece ∈ (first :: rest).map (Options.spellEntry Value.label), ',' ∉ piece := by
      intro piece member
      obtain ⟨entry, among, rfl⟩ := List.mem_map.mp member
      exact comma_not_mem_spellEntry (plain entry among).1 (plain entry among).2
    have present : ([','].intercalate ((first :: rest).map (Options.spellEntry Value.label))).isEmpty = false := by
      cases rest <;> simp [Options.spellEntry]
    rw [readOptionText, present, if_neg Bool.false_ne_true, List.splitOn_intercalate ',' commaless (by simp),
      List.map_map]
    refine (List.map_congr_left fun entry member => ?_).trans (List.map_id _)
    exact readPiece_spellEntry (plain entry member).1 (plain entry member).2

theorem read_label {name : String} (colonless : ':' ∉ name.toList) {entries : List (String × Value)}
    (plain : ∀ entry ∈ entries, PlainText entry.1 ∧ Scalar PlainText entry.2) :
    read (name ++ ":" ++ optionText entries) = (name, entries) := by
  have whole : (name ++ ":" ++ optionText entries).toList = name.toList ++ ':' :: (optionText entries).toList := by simp
  rw [read, whole, cutFirst_append colonless, readOptionText_optionText plain, String.ofList_toList]

/-- What a label shows of a configuration whose shared entries are left out. -/
def shown (common config : Config) : List (String × Value) := (parameters (config.eraseAll common.keys)).entries

theorem varied_eq {default : Option Config} {configs : List Config}
    (named : ∀ config ∈ configs, ∃ name, config.get? nameKey = some (.str name) ∧ ':' ∉ name.toList) :
    varied nameKey default configs = .ok (configs.map fun config =>
      nameOf (config.get? nameKey) ++ ":" ++ optionText (shown (sharedByAll (default.toList ++ configs)) config)) := by
  have all : configs.all (·.contains nameKey) = true := by
    refine List.all_eq_true.mpr fun config member => ?_
    obtain ⟨name, held, -⟩ := named config member
    rw [Dict.contains, held, Option.isSome_some]
  have names : namesUnder nameKey configs = configs.map fun config => nameOf (config.get? nameKey) := by
    rw [namesUnder, all, if_pos rfl]
  have rests : (Partition.of false default configs).varied =
      configs.map (·.eraseAll (sharedByAll (default.toList ++ configs)).keys) := rfl
  unfold varied
  dsimp only
  rw [rests, names, List.zip_map', List.mapM_map, Outcome.mapM_eq_ok_iff, List.forall₂_map_right_iff, List.forall₂_same]
  intro config member
  obtain ⟨name, held, colonless⟩ := named config member
  rw [Function.comp_apply, held]
  exact under_of_colonless colonless _

/-- Each configuration gets a label, and two labels are equal exactly if the names and the parameters are. -/
theorem varied_eq_iff {default : Option Config} {configs : List Config}
    (named : ∀ config ∈ configs, ∃ name, config.get? nameKey = some (.str name) ∧ ':' ∉ name.toList)
    (spelled : ∀ config ∈ configs, config.Spelled PlainText (Scalar PlainText)) :
    ∃ labels, varied nameKey default configs = .ok labels ∧ labels.length = configs.length ∧
      ∀ (i j : Nat) (left right : Config), configs[i]? = some left → configs[j]? = some right →
        (labels[i]? = labels[j]? ↔ left.get? nameKey = right.get? nameKey ∧
          ∀ key, isReserved key = false → left.get? key = right.get? key) := by
  refine ⟨_, varied_eq named, by simp, fun i j left right first second => ?_⟩
  have plain {config : Config} (member : config ∈ configs) :
      ∀ entry ∈ shown (sharedByAll (default.toList ++ configs)) config, PlainText entry.1 ∧ Scalar PlainText entry.2 :=
    fun entry inside => ((spelled config member).eraseAll _).of_mem_parameters inside
  have leftMember := List.mem_of_getElem? first
  have rightMember := List.mem_of_getElem? second
  obtain ⟨leftName, leftNamed, leftColonless⟩ := named left leftMember
  obtain ⟨rightName, rightNamed, rightColonless⟩ := named right rightMember
  rw [List.getElem?_map, List.getElem?_map, first, second, Option.map_some, Option.map_some, Option.some.injEq,
    leftNamed, rightNamed, ← parameters_eraseAll_eq_iff default leftMember rightMember (spelled left leftMember)
      (spelled right rightMember)]
  constructor
  · intro same
    have shows := congrArg read same
    rw [nameOf, nameOf, read_label leftColonless (plain leftMember), read_label rightColonless (plain rightMember)]
      at shows
    obtain ⟨sameName, sameEntries⟩ := Prod.mk.inj shows
    exact ⟨by rw [sameName], Dict.ext sameEntries⟩
  · rintro ⟨sameName, sameParameters⟩
    cases sameName
    rw [shown, shown, sameParameters]

def withNumber (number : Int64) : Config := Dict.ofList [(nameKey, .str "n"), ("k", .int number)]

theorem varied_three_configs :
    ∃ labels, varied nameKey none [withNumber 1, withNumber 2, withNumber 1] = .ok labels ∧
      labels[0]? ≠ labels[1]? ∧ labels[0]? = labels[2]? := by
  have entries (number : Int64) : (withNumber number).entries = [(nameKey, .str "n"), ("k", .int number)] := by
    have sorted : [(nameKey, Value.str "n"), ("k", .int number)].Pairwise fun left right => left.1 < right.1 := by
      simp only [List.pairwise_pair]
      decide
    rw [withNumber, Dict.ofList_of_sorted sorted]
  have spelled (number : Int64) : (withNumber number).Spelled PlainText (Scalar PlainText) := by
    intro entry member free
    rw [entries] at member
    rcases List.mem_cons.mp member with rfl | last
    · cases free
    · obtain rfl := List.mem_singleton.mp last
      exact ⟨show PlainText "k" by decide, .int number⟩
  have named (number : Int64) : ∃ name, (withNumber number).get? nameKey = some (.str name) ∧ ':' ∉ name.toList :=
    ⟨"n", Dict.get?_eq_some_iff.mpr (by simp [entries]), by decide⟩
  obtain ⟨labels, given, -, distinct⟩ := @varied_eq_iff none [withNumber 1, withNumber 2, withNumber 1]
    (by simp [named]) (by simp [spelled])
  refine ⟨labels, given, fun same => ?_, (distinct 0 2 _ _ rfl rfl).mpr ⟨rfl, fun _ _ => rfl⟩⟩
  have equal := ((distinct 0 1 _ _ rfl rfl).mp same).2 "k" (by decide)
  have held (number : Int64) : (withNumber number).get? "k" = some (.int number) :=
    Dict.get?_eq_some_iff.mpr (by simp [entries])
  rw [held, held] at equal
  exact absurd (Value.int.inj (Option.some.inj equal)) (by decide)

end Label
end ParamSweep
