import ParamSweep.Label.Varied
import ParamSweep.Proofs.LabelTexts
import ParamSweep.Proofs.SharedEntries

/-! Labels under names that carry options. Such a label shows the carried options that are not held by the entries
that it is made for. In a label of differences these are what remains without the shared entries, so a carried option
shows also where the configuration does hold its key and shares it with all others. -/

namespace ParamSweep

namespace Config

/-- Whether all configurations hold a value under a key that equals the one of the first. -/
def AgreeOn (configs : List Config) (key : String) : Prop :=
  ∃ first rest value, configs = first :: rest ∧ first.get? key = some value ∧
    ∀ other ∈ rest, ∃ found, other.get? key = some found ∧ (found == value) = true

section
variable {configs : List Config} {key : String}

theorem agreeOn_iff : AgreeOn configs key ↔ key ∈ (sharedByAll configs).keys := by
  rw [Dict.mem_keys_iff]
  constructor
  · rintro ⟨first, rest, value, rfl, here, later⟩
    exact ⟨value, get?_foldl_shared_iff.mpr ⟨here, later⟩⟩
  · rintro ⟨value, held⟩
    cases configs with
    | nil => cases held
    | cons first rest =>
      obtain ⟨here, later⟩ := get?_foldl_shared_iff.mp held
      exact ⟨first, rest, value, rfl, here, later⟩

theorem AgreeOn.exists_value (agree : AgreeOn configs key) {config : Config} (member : config ∈ configs) :
    ∃ value, config.get? key = some value := by
  obtain ⟨first, rest, value, rfl, here, later⟩ := agree
  rcases List.mem_cons.mp member with rfl | member
  · exact ⟨value, here⟩
  · obtain ⟨found, there, -⟩ := later config member
    exact ⟨found, there⟩

end

/-- What remains of a configuration without the entries that some configurations share. -/
def apart (configs : List Config) (config : Config) : Config := config.eraseAll (sharedByAll configs).keys

theorem get?_apart_eq_some_iff {configs : List Config} {config : Config} {key : String} {value : Value} :
    (config.apart configs).get? key = some value ↔ config.get? key = some value ∧ ¬AgreeOn configs key := by
  rw [apart, Dict.get?_eraseAll, agreeOn_iff]
  split
  next shared => simp [shared]
  next unshared => simp [unshared]

end Config

namespace Label
open Config Text

/-- A name without the options that it carries, and these with their values as plain text. A name without a colon
carries none. -/
def carried (name : String) : Except GrammarError (String × Config) :=
  if name.toList.contains ':' then do
    let token ← Token.parse name
    let fragments ← Options.split token.options
    let options ← Options.readFragments false fragments
    .ok (token.name, options)
  else .ok (name, Dict.empty)

/-- A name followed by two groups of entries. -/
def spell (name : String) (first second : List (String × Value)) : String :=
  name ++ ":" ++ ",".intercalate ([optionText first, optionText second].filter (!·.isEmpty))

theorem spell_nil (name : String) (entries : List (String × Value)) :
    spell name [] entries = name ++ ":" ++ optionText entries := by
  have none : optionText [] = "" := rfl
  unfold spell
  rw [none]
  by_cases empty : optionText entries = "" <;> simp [empty]

/-- Of the options that a name carries a label shows those that are not held. -/
theorem under_eq (name : String) (hidden order : List String) (config : Config) :
    under name hidden order config = (carried name).map fun (bare, options) =>
      spell bare (options.filter fun key _ => !config.contains key).entries
        (ordered order (config.eraseAll hidden)) := by
  unfold under carried
  split
  · unfold mergeName
    cases Token.parse name with
    | error error => rfl
    | ok token =>
      simp only [Outcome.ok_bind]
      cases Options.split token.options with
      | error error => rfl
      | ok fragments =>
        simp only [Outcome.ok_bind]
        cases Options.readFragments false fragments <;> rfl
  · exact congrArg Except.ok (spell_nil name _).symm

/-- The name that a configuration is labelled under, which is empty if any of them lacks the key. -/
def nameIn (key : String) (configs : List Config) (config : Config) : String :=
  if configs.all (·.contains key) then nameOf (config.get? key) else ""

theorem varied_eq_mapM (key : String) (default : Option Config) (configs : List Config) :
    varied key default configs = configs.mapM fun config =>
      under (nameIn key configs config) reservedKeys [] (config.apart (default.toList ++ configs)) := by
  have names : namesUnder key configs = configs.map (nameIn key configs) := by
    unfold namesUnder nameIn
    split <;> rfl
  have rests : (Partition.of false default configs).varied = configs.map (apart (default.toList ++ configs)) := rfl
  unfold varied
  dsimp only
  rw [rests, names, List.zip_map', List.mapM_map]
  rfl

/-- A label of differences shows a carried option exactly if the configuration lacks its key or all agree on it. So it
repeats nothing that the configuration holds exactly if its name carries nothing that all agree on. -/
theorem varied_shows {key : String} {default : Option Config} {configs : List Config} {labels : List String}
    (given : varied key default configs = .ok labels) :
    labels.length = configs.length ∧
      ∀ (index : Nat) (config : Config), configs[index]? = some config →
        ∃ (label bare : String) (options shown rest : Config), labels[index]? = some label ∧
          carried (nameIn key configs config) = .ok (bare, options) ∧
          label = spell bare shown.entries rest.entries ∧
          (∀ option value, shown.get? option = some value ↔ options.get? option = some value ∧
            (config.get? option = none ∨ AgreeOn (default.toList ++ configs) option)) ∧
          (∀ param value, rest.get? param = some value ↔ config.get? param = some value ∧
            isReserved param = false ∧ ¬AgreeOn (default.toList ++ configs) param) ∧
          ((∀ option ∈ shown.keys, config.get? option = none) ↔
            ∀ option ∈ options.keys, ¬AgreeOn (default.toList ++ configs) option) := by
  rw [varied_eq_mapM] at given
  have pairs := Outcome.mapM_eq_ok_iff.mp given
  refine ⟨pairs.length_eq.symm, fun index config found => ?_⟩
  obtain ⟨label, there, labelled⟩ := Outcome.exists_result_at pairs found
  rw [under_eq] at labelled
  obtain ⟨⟨bare, options⟩, read, rfl⟩ := Outcome.map_eq_ok_iff.mp labelled
  have member : config ∈ default.toList ++ configs := List.mem_append_right _ (List.mem_of_getElem? found)
  have shows (option : String) (value : Value) :
      (options.filter fun key _ => !(config.apart (default.toList ++ configs)).contains key).get? option = some value ↔
        options.get? option = some value ∧
          (config.get? option = none ∨ AgreeOn (default.toList ++ configs) option) := by
    have lacks : (config.apart (default.toList ++ configs)).get? option = none ↔
        config.get? option = none ∨ AgreeOn (default.toList ++ configs) option := by
      simp only [Option.eq_none_iff_forall_ne_some, ne_eq, get?_apart_eq_some_iff]
      by_cases agree : AgreeOn (default.toList ++ configs) option <;> simp [agree]
    rw [Dict.get?_filter, Option.filter_eq_some_iff, ← lacks]
    simp [Dict.contains]
  refine ⟨_, bare, options, _, parameters (config.apart (default.toList ++ configs)), there, read, ?_, shows, ?_, ?_⟩
  · simp [ordered, parameters]
  · intro param value
    rw [get?_parameters]
    split
    next reserved => simp [reserved]
    next free => rw [get?_apart_eq_some_iff]; simp [free]
  · simp only [Dict.mem_keys_iff, shows]
    constructor
    · rintro unheld option ⟨value, carries⟩ agree
      obtain ⟨held, here⟩ := agree.exists_value member
      have absent := unheld option ⟨value, carries, .inr agree⟩
      cases here.symm.trans absent
    · rintro apart option ⟨value, carries, absent | agree⟩
      · exact absent
      · exact absurd agree (apart option ⟨value, carries⟩)

/-- A configuration whose name carries an option, with a value under the key of that option if it holds one. -/
def carrying (held : Option Value) (number : Int64) : Config :=
  let named := Dict.ofList [(nameKey, .str "t:K=[1,2]"), ("f", .int number)]
  held.elim named (named.insert "K")

theorem varied_shows_one_lacking :
    ∃ labels, varied nameKey none [carrying none 1, carrying (some (.int 1)) 2] = .ok labels ∧
      ∀ (index : Nat) (config : Config), [carrying none 1, carrying (some (.int 1)) 2][index]? = some config →
        ∃ (label : String) (shown rest : Config), labels[index]? = some label ∧
          label = spell "t" shown.entries rest.entries ∧
          (shown.get? "K" = some (.str "[1,2]") ↔ config.get? "K" = none) := by
  have given : varied nameKey none [carrying none 1, carrying (some (.int 1)) 2] =
      .ok [spell "t" [("K", .str "[1,2]")] [("f", .int 1)], spell "t" [] [("K", .int 1), ("f", .int 2)]] := rfl
  obtain ⟨-, each⟩ := varied_shows given
  refine ⟨_, given, fun index config found => ?_⟩
  have member := List.mem_of_getElem? found
  obtain ⟨label, bare, options, shown, rest, there, read, written, shows, -⟩ := each index config found
  have name : nameIn nameKey [carrying none 1, carrying (some (.int 1)) 2] config = "t:K=[1,2]" := by
    simp only [List.mem_cons, List.not_mem_nil, or_false] at member
    rcases member with rfl | rfl <;> rfl
  have carries : carried "t:K=[1,2]" = .ok ("t", Dict.ofList [("K", .str "[1,2]")]) := rfl
  rw [name, carries] at read
  cases read
  refine ⟨label, shown, rest, there, written, (shows _ _).trans ?_⟩
  have disagree : ¬AgreeOn [carrying none 1, carrying (some (.int 1)) 2] "K" := fun agree => by
    obtain ⟨value, held⟩ := agree.exists_value List.mem_cons_self
    cases held
  constructor
  · rintro ⟨-, lacks | agree⟩
    · exact lacks
    · exact absurd agree disagree
  · exact fun lacks => ⟨rfl, .inl lacks⟩

/-- Both configurations hold the option that their name carries, with the same value, and it shows in both labels. -/
theorem varied_shows_agreed_fails :
    varied nameKey none [carrying (some (.int 1)) 1, carrying (some (.int 1)) 2] =
      .ok ["t:K=[1,2],f=1", "t:K=[1,2],f=2"] ∧
    ∀ config ∈ [carrying (some (.int 1)) 1, carrying (some (.int 1)) 2],
      config.get? nameKey = some (.str "t:K=[1,2]") ∧ config.get? "K" = some (.int 1) := by
  have given : varied nameKey none [carrying (some (.int 1)) 1, carrying (some (.int 1)) 2] =
      .ok [spell "t" [("K", .str "[1,2]")] [("f", .int 1)], spell "t" [("K", .str "[1,2]")] [("f", .int 2)]] := rfl
  have texts : [spell "t" [("K", .str "[1,2]")] [("f", .int 1)], spell "t" [("K", .str "[1,2]")] [("f", .int 2)]] =
      ["t:K=[1,2],f=1", "t:K=[1,2],f=2"] := by
    decide
  rw [given, texts]
  refine ⟨rfl, fun config member => ?_⟩
  simp only [List.mem_cons, List.not_mem_nil, or_false] at member
  rcases member with rfl | rfl <;> exact ⟨rfl, rfl⟩

end Label
end ParamSweep
