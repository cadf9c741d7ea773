import ParamSweep.Param.Family
import ParamSweep.Proofs.AxisOrder

/-! Labels of completed configurations. Where hiding a parameter goes by its value alone, a parameter that is absent is
treated as one that has its default everywhere, so filling in the defaults leaves the label and its failure as they
are. -/

namespace ParamSweep

/-- A rule that goes by the value of its parameter and not by the rest of the configuration. -/
def HideRule.ByValue : HideRule → Prop
  | .value _ => True
  | .predicate _ => False

namespace Param

/-- One of the values that the parameter hides is the value it has. -/
def HiddenValue (param : Param) (config : Config) : Prop :=
  ∃ hidden, HideRule.value hidden ∈ param.hideRules ∧ (param.valueIn config == hidden) = true

/-- Why a parameter cannot be shown: its value is not among the valid ones, or it is valid but no truth value, and the
parameter is a flag. -/
inductive Refused (param : Param) (config : Config) : Error → Prop where
  | invalid {valid : List Value} (restricted : param.validValues = some valid)
      (outside : valid.contains (param.valueIn config) = false) :
      Refused param config (.invalidValue param.key (param.valueIn config).text (valid.map Value.text))
  | notBoolean (inside : ∀ valid ∈ param.validValues, valid.contains (param.valueIn config) = true)
      (flag : param.isFlag = true) (other : ∀ on, param.valueIn config ≠ .bool on) :
      Refused param config (.notBoolean param.key (param.valueIn config).text)

section
variable {param : Param} {config left right : Config} {error : Error}

theorem isHidden_iff (byValue : ∀ rule ∈ param.hideRules, rule.ByValue) :
    param.isHidden config = true ↔ param.HiddenValue config := by
  rw [isHidden, List.any_eq_true]
  constructor
  · rintro ⟨rule, member, hides⟩
    cases rule with
    | value hidden => exact ⟨hidden, member, hides⟩
    | predicate holds => exact (byValue _ member).elim
  · rintro ⟨hidden, member, same⟩
    exact ⟨.value hidden, member, same⟩

theorem render_eq_error_iff {value : Value} : param.render value = .error error ↔
    param.isFlag = true ∧ (∀ on, value ≠ .bool on) ∧ error = .notBoolean param.key value.text := by
  unfold render isFlag
  cases param.style with
  | keyed => simp
  | flag =>
    cases value with
    | bool on => cases on <;> simp
    | none | int | float | str | list | tuple | dict => simp [eq_comm]

theorem item_of_inside (inside : ∀ valid ∈ param.validValues, valid.contains (param.valueIn config) = true) :
    param.item config = param.render (param.valueIn config) := by
  unfold item
  cases restricted : param.validValues with
  | none => rfl
  | some valid => exact if_pos (inside valid restricted)

theorem item_of_outside {valid : List Value} (restricted : param.validValues = some valid)
    (outside : valid.contains (param.valueIn config) = false) : param.item config =
      .error (.invalidValue param.key (param.valueIn config).text (valid.map Value.text)) := by
  simp only [item, restricted, outside, Bool.false_eq_true, if_false]

/-- An item fails with a reason why the parameter cannot be shown, and only with one. -/
theorem item_eq_error_iff : param.item config = .error error ↔ param.Refused config error := by
  constructor
  · intro failed
    by_cases inside : ∀ valid ∈ param.validValues, valid.contains (param.valueIn config) = true
    · rw [item_of_inside inside] at failed
      obtain ⟨flag, other, rfl⟩ := render_eq_error_iff.mp failed
      exact .notBoolean inside flag other
    · obtain ⟨valid, restricted, outside⟩ : ∃ valid, param.validValues = some valid ∧
          valid.contains (param.valueIn config) = false := by simpa using inside
      rw [item_of_outside restricted outside] at failed
      cases failed
      exact .invalid restricted outside
  · intro refused
    cases refused with
    | invalid restricted outside => exact item_of_outside restricted outside
    | notBoolean inside flag other =>
      rw [item_of_inside inside]
      exact render_eq_error_iff.mpr ⟨flag, other, rfl⟩

theorem visibleItem_eq_error_iff : param.visibleItem config = .error error ↔
    param.isHidden config = false ∧ param.Refused config error := by
  unfold visibleItem
  cases param.isHidden config with
  | true => simp
  | false => simp [item_eq_error_iff]

theorem exists_visibleItem_iff : (∃ item, param.visibleItem config = .ok item) ↔
    param.isHidden config = true ∨ ∀ error, ¬param.Refused config error := by
  cases outcome : param.visibleItem config with
  | ok item =>
    refine iff_of_true ⟨item, rfl⟩ ?_
    cases hidden : param.isHidden config with
    | true => exact .inl rfl
    | false =>
      refine .inr fun error refused => ?_
      have failed := visibleItem_eq_error_iff.mpr ⟨hidden, refused⟩
      rw [outcome] at failed
      cases failed
  | error error =>
    obtain ⟨shown, refused⟩ := visibleItem_eq_error_iff.mp outcome
    simpa [shown] using ⟨error, refused⟩

/-- What a parameter shows depends on its value alone, if whether it is hidden does. -/
theorem visibleItem_congr (byValue : ∀ rule ∈ param.hideRules, rule.ByValue)
    (same : param.valueIn left = param.valueIn right) : param.visibleItem left = param.visibleItem right := by
  have hidden : param.isHidden left = param.isHidden right := by
    rw [Bool.eq_iff_iff, isHidden_iff byValue, isHidden_iff byValue, HiddenValue, HiddenValue, same]
  have item : param.item left = param.item right := by rw [Param.item, Param.item, same]
  rw [visibleItem, visibleItem, hidden, item]

end
end Param

namespace Family

section
variable {family : Family}

private theorem map_fst_completed (config : Config) :
    (family.params.map fun param => (param.key, param.valueIn config)).map Prod.fst = family.keys := by
  rw [List.map_map]
  rfl

theorem get?_complete (distinct : family.keys.Nodup) (config : Config) {param : Param}
    (member : param ∈ family.params) : (family.complete config).get? param.key = some (param.valueIn config) :=
  (Dict.get?_ofList_eq_some_iff ((map_fst_completed config).symm ▸ distinct)).mpr (List.mem_map_of_mem member)

theorem keys_complete_perm (distinct : family.keys.Nodup) (config : Config) :
    (family.complete config).keys.Perm family.keys := by
  rw [← map_fst_completed config] at distinct ⊢
  exact (Dict.entries_ofList_perm distinct).map Prod.fst

theorem valueIn_complete (distinct : family.keys.Nodup) (config : Config) {param : Param}
    (member : param ∈ family.params) : param.valueIn (family.complete config) = param.valueIn config := by
  rw [Param.valueIn, get?_complete distinct config member, Option.getD_some]

theorem complete_complete (distinct : family.keys.Nodup) (config : Config) :
    family.complete (family.complete config) = family.complete config := by
  unfold complete
  refine congrArg Dict.ofList (List.map_congr_left fun param member => ?_)
  rw [← complete, valueIn_complete distinct config member]

/-- A label fails with what the first parameter reports that is shown but cannot be. -/
theorem items_eq_error_iff {config : Config} {error : Error} : family.items config = .error error ↔
    ∃ before param after, family.params = before ++ param :: after ∧
      (∀ earlier ∈ before, earlier.isHidden config = true ∨ ∀ other, ¬earlier.Refused config other) ∧
      param.isHidden config = false ∧ param.Refused config error := by
  have failed : family.items config = .error error ↔
      family.params.mapM (·.visibleItem config) = .error error := by
    rw [items, Outcome.bind_eq_error_iff]
    simp
  rw [failed, Outcome.mapM_eq_error_iff]
  simp only [Param.exists_visibleItem_iff, Param.visibleItem_eq_error_iff]

private theorem items_congr (byValue : ∀ param ∈ family.params, ∀ rule ∈ param.hideRules, rule.ByValue)
    {left right : Config} (same : ∀ param ∈ family.params, param.valueIn left = param.valueIn right) :
    family.items left = family.items right := by
  have shown : family.params.mapM (·.visibleItem left) = family.params.mapM (·.visibleItem right) :=
    Outcome.mapM_congr fun param member => Param.visibleItem_congr (byValue param member) (same param member)
  rw [items, items, shown]

/-- Filled in defaults change neither the label nor its failure, and filling them in again changes nothing. The label
fails as the first parameter does whose value is none of those that it hides and cannot be shown. -/
theorem items_complete (distinct : family.keys.Nodup)
    (byValue : ∀ param ∈ family.params, ∀ rule ∈ param.hideRules, rule.ByValue) (config : Config) :
    family.items (family.complete config) = family.items config ∧
    family.complete (family.complete config) = family.complete config ∧
    (family.complete config).keys.Perm family.keys ∧
    (∀ param ∈ family.params, (family.complete config).get? param.key = some (param.valueIn config)) ∧
    ∀ error, family.items config = .error error ↔
      ∃ before param after, family.params = before ++ param :: after ∧
        (∀ earlier ∈ before, earlier.HiddenValue config ∨ ∀ other, ¬earlier.Refused config other) ∧
        ¬param.HiddenValue config ∧ param.Refused config error := by
  refine ⟨?_, complete_complete distinct config, keys_complete_perm distinct config,
    fun param member => get?_complete distinct config member, fun error => ?_⟩
  · exact items_congr byValue fun param member => valueIn_complete distinct config member
  · have hidden {param : Param} (member : param ∈ family.params) :
        param.isHidden config = true ↔ param.HiddenValue config := Param.isHidden_iff (byValue param member)
    rw [items_eq_error_iff]
    refine exists_congr fun before => exists_congr fun param => exists_congr fun after =>
      and_congr_right fun cut => and_congr (forall₂_congr fun earlier member => or_congr_left ?_) ?_
    · exact hidden (cut ▸ List.mem_append_left _ member)
    · have here : param ∈ family.params := cut ▸ List.mem_append_right before List.mem_cons_self
      rw [← Bool.not_eq_true, hidden here]

/-- A parameter with valid values, which hides another one, a flag and an abbreviated parameter. -/
def mixed : Family where
  name := "f"
  params :=
    [{ Param.keyed "mode" (.str "fast") with
        validValues := some [.str "fast", .str "slow"], hideRules := [.value (.str "off")] },
      Param.flag "a_on", { Param.keyed "k" (.int 4) with abbreviation := some "K" }]
  constraint := none

theorem items_complete_hidden_mode :
    mixed.keys.Nodup ∧ (∀ param ∈ mixed.params, ∀ rule ∈ param.hideRules, rule.ByValue) ∧
    mixed.items (mixed.complete (Dict.ofList [("mode", .str "off")])) = .ok "K4" ∧
    mixed.items (mixed.complete (Dict.ofList [("a_on", .int 3), ("mode", .str "off")])) =
      .error (.notBoolean "a_on" "3") := by
  have distinct : mixed.keys.Nodup := by decide
  have byValue : ∀ param ∈ mixed.params, ∀ rule ∈ param.hideRules, rule.ByValue := by
    simp [mixed, Param.keyed, Param.flag, HideRule.ByValue]
  refine ⟨distinct, byValue, ?_, ?_⟩
  · exact (items_complete distinct byValue _).1.trans rfl
  · obtain ⟨same, -, -, -, failed⟩ :=
      items_complete distinct byValue (Dict.ofList [("a_on", .int 3), ("mode", .str "off")])
    rw [same, failed]
    refine ⟨[_], Param.flag "a_on", [_], rfl, ?_, ?_, .notBoolean ?_ rfl ?_⟩
    · exact List.forall_mem_singleton.mpr (.inl ⟨.str "off", List.mem_cons_self, rfl⟩)
    · rintro ⟨hidden, member, equal⟩
      cases List.mem_singleton.mp member
      cases equal
    · rintro valid ⟨⟩
    · rintro on ⟨⟩

end
end Family
end ParamSweep
