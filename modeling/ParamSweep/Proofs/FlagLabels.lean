import ParamSweep.Param.Family
import ParamSweep.Proofs.AxisOrder
import ParamSweep.Proofs.SweepLabels

/-! Labels of flags. A label lists the names of the flags that are on, so it tells which these are exactly if the flags
show different names and none shows nothing. -/

namespace ParamSweep

namespace Text

section
variable {replacement others : List Char} {first : Char}

/-- Taking a pattern out of a text leaves characters of the text. -/
theorem replaceFrom_nil_sublist (pattern : List Char) (covered : Nat) (text : List Char) :
    (replaceFrom pattern [] covered text).Sublist text := by
  induction text generalizing covered with
  | nil => simp [replaceFrom]
  | cons char rest ih =>
    cases covered with
    | succ covered => exact (ih covered).cons char
    | zero =>
      rw [replaceFrom]
      split
      · exact (ih 0).cons_cons char
      · split
        · exact (ih _).cons char
        · exact (ih 0).cons_cons char

private theorem isPrefix_of_append {rest tail : List Char} (once : first ∉ others)
    (matched : others <+: rest ++ first :: tail) : others <+: rest := by
  induction others generalizing rest with
  | nil => exact List.nil_prefix
  | cons char others ih =>
    obtain ⟨differs, once⟩ : first ≠ char ∧ first ∉ others := by simpa using once
    cases rest with
    | nil => exact absurd (List.cons_prefix_cons.mp matched).1.symm differs
    | cons next rest =>
      obtain ⟨same, matched⟩ := List.cons_prefix_cons.mp matched
      exact List.cons_prefix_cons.mpr ⟨same, ih once matched⟩

/-- A pattern that does not overlap itself is replaced at the end of a text, whatever else is. -/
theorem replaceFrom_append_pattern (once : first ∉ others) {covered : Nat} {text : List Char}
    (inside : covered ≤ text.length) :
    replaceFrom (first :: others) replacement covered (text ++ first :: others) =
      replaceFrom (first :: others) replacement covered text ++ replacement := by
  induction text generalizing covered with
  | nil =>
    obtain rfl : covered = 0 := Nat.le_zero.mp inside
    exact (replaces_self (List.cons_ne_nil _ _)).replaceAll_eq (List.cons_ne_nil _ _)
  | cons char rest ih =>
    cases covered with
    | succ covered => exact ih (Nat.le_of_succ_le_succ inside)
    | zero =>
      have same : (first :: others).isPrefixOf (char :: (rest ++ first :: others)) =
          (first :: others).isPrefixOf (char :: rest) := by
        rw [Bool.eq_iff_iff, List.isPrefixOf_iff_prefix, List.isPrefixOf_iff_prefix, List.cons_prefix_cons,
          List.cons_prefix_cons, and_congr_right_iff]
        exact fun _ => ⟨isPrefix_of_append once, fun matched => matched.trans (List.prefix_append _ _)⟩
      rw [List.cons_append, replaceFrom, replaceFrom, same]
      split
      next impossible => cases impossible
      split
      next matched =>
        have fits := (List.cons_prefix_cons.mp (List.isPrefixOf_iff_prefix.mp matched)).2.length_le
        rw [List.length_cons, Nat.add_sub_cancel, ih fits, List.append_assoc]
      next => rw [ih (Nat.zero_le _), List.cons_append]

end

/-- What a join of texts holds between its commas: the texts themselves, empty ones aside. -/
theorem filter_splitOn_intercalate {separator : Char} {pieces : List (List Char)}
    (free : ∀ piece ∈ pieces, separator ∉ piece) :
    (([separator].intercalate pieces).splitOn separator).filter (!·.isEmpty) = pieces.filter (!·.isEmpty) := by
  cases pieces with
  | nil => rfl
  | cons first rest => rw [List.splitOn_intercalate separator free (List.cons_ne_nil _ _)]

/-- What is joined with commas between can be told from the whole, up to empty texts. -/
theorem filter_eq_of_intercalate_eq {left right : List String} (freeLeft : ∀ text ∈ left, ',' ∉ text.toList)
    (freeRight : ∀ text ∈ right, ',' ∉ text.toList) (same : ",".intercalate left = ",".intercalate right) :
    left.filter (!·.isEmpty) = right.filter (!·.isEmpty) := by
  have spelled (texts : List String) (free : ∀ text ∈ texts, ',' ∉ text.toList) :
      (((",".intercalate texts).toList.splitOn ',').filter (!·.isEmpty)) =
        (texts.filter (!·.isEmpty)).map String.toList := by
    rw [String.toList_intercalate]
    refine (filter_splitOn_intercalate (List.forall_mem_map.mpr free)).trans ?_
    rw [List.filter_map]
    congr 2
    funext text
    rw [Function.comp_apply, Bool.eq_iff_iff]
    simp
  apply List.map_injective_iff.mpr fun _ _ => String.toList_inj.mp
  rw [← spelled left freeLeft, same, spelled right freeRight]

end Text

namespace Param

/-- What a flag shows of a key that ends in `_on`: the rest of it, without what else looks like the ending. -/
def stripped (base : String) : String := Text.replaceEach [("_on", "")] base

theorem flagName_flag (base : String) : (flag (base ++ "_on")).flagName = stripped base := by
  have ended : Text.replaceAll ['_', 'o', 'n'] [] (base.toList ++ ['_', 'o', 'n']) =
      Text.replaceAll ['_', 'o', 'n'] [] base.toList :=
    (Text.replaceFrom_append_pattern (by decide) (Nat.zero_le _)).trans (List.append_nil _)
  simp only [flagName, flag, keyed, Option.getD_none, stripped, Text.replaceEach, List.foldl_cons, List.foldl_nil,
    String.toList_append]
  exact congrArg String.ofList ended

/-- Without a further ending inside, what the flag shows is what the key has in front of its ending. -/
theorem stripped_eq_self {base : String} (absent : ¬['_', 'o', 'n'] <:+: base.toList) : stripped base = base := by
  have kept {text : List Char} (absent : ¬['_', 'o', 'n'] <:+: text) :
      Text.replaceAll ['_', 'o', 'n'] [] text = text := by
    induction text with
    | nil => rfl
    | cons char rest ih =>
      have differs : ¬['_', 'o', 'n'].isPrefixOf (char :: rest) = true := fun matched =>
        absent (List.isPrefixOf_iff_prefix.mp matched).isInfix
      rw [Text.replaceAll, Text.replaceFrom, if_neg (by simp), if_neg differs]
      exact congrArg (char :: ·) (ih fun inside => absent (List.infix_cons inside))
  exact (congrArg String.ofList (kept absent)).trans String.ofList_toList

theorem stripped_sublist (base : String) : (stripped base).toList.Sublist base.toList := by
  simp only [stripped, Text.replaceEach, List.foldl_cons, List.foldl_nil, String.toList_ofList]
  exact Text.replaceFrom_nil_sublist _ 0 _

theorem visibleItem_flag {key : String} {config : Config} {on : Bool} (held : config.get? key = some (.bool on)) :
    (flag key).visibleItem config = .ok (if on then (flag key).flagName else "") := by
  have value : (flag key).valueIn config = .bool on := by
    rw [valueIn]
    exact congrArg (Option.getD · _) held
  have hidden : (flag key).isHidden config = !on := by
    rw [isHidden, value]
    cases on <;> rfl
  have item : (flag key).item config = (flag key).render (.bool on) := congrArg (flag key).render value
  rw [visibleItem, hidden, item]
  cases on <;> rfl

end Param

namespace Family
open Param

/-- A family of flags with keys that end in `_on`. -/
def ofFlags (name : String) (constraint : Option Constraint) (bases : List String) : Family where
  name
  params := bases.map fun base => flag (base ++ "_on")
  constraint

/-- Whether a configuration holds a truth value under every key of a family. -/
def Answered (family : Family) (config : Config) : Prop :=
  ∀ key ∈ family.keys, ∃ on, config.get? key = some (.bool on)

/-- Whether a flag is on. -/
def isOn (config : Config) (base : String) : Bool :=
  match config.get? (base ++ "_on") with
  | some (.bool on) => on
  | _ => false

section
variable {name : String} {constraint : Option Constraint} {bases : List String} {left right config : Config}

theorem keys_ofFlags : (ofFlags name constraint bases).keys = bases.map (· ++ "_on") := by
  rw [keys, ofFlags, List.map_map]
  rfl

theorem Answered.get?_eq (answered : (ofFlags name constraint bases).Answered config) {base : String}
    (member : base ∈ bases) : config.get? (base ++ "_on") = some (.bool (isOn config base)) := by
  obtain ⟨on, held⟩ := answered _ (keys_ofFlags ▸ List.mem_map_of_mem member)
  rw [isOn, held]

/-- The names that the flags show which are on. -/
def shownNames (bases : List String) (config : Config) : List String := (bases.filter (isOn config)).map stripped

private theorem filter_map_ite {α : Type} (test : α → Bool) (shown : α → String) (items : List α) :
    (items.map fun item => if test item then shown item else "").filter (!·.isEmpty) =
      ((items.filter test).map shown).filter (!·.isEmpty) := by
  induction items with
  | nil => rfl
  | cons item rest ih => cases on : test item <;> simp [on, List.filter_cons, ih]

/-- The label of flags lists the names of those that are on. -/
theorem Answered.items_eq (answered : (ofFlags name constraint bases).Answered config) :
    (ofFlags name constraint bases).items config =
      .ok (",".intercalate ((shownNames bases config).filter (!·.isEmpty))) := by
  have shown : (ofFlags name constraint bases).params.mapM (·.visibleItem config) =
      .ok (bases.map fun base => if isOn config base then stripped base else "") := by
    rw [Outcome.mapM_eq_ok_iff, ofFlags, List.forall₂_map_left_iff, List.forall₂_map_right_iff, List.forall₂_same]
    intro base member
    rw [visibleItem_flag (answered.get?_eq member), flagName_flag]
  rw [items, shown]
  exact congrArg (fun items => Except.ok (",".intercalate items)) (filter_map_ite _ _ bases)

private theorem free_shownNames (plain : ∀ base ∈ bases, ',' ∉ base.toList) (config : Config) :
    ∀ text ∈ (shownNames bases config).filter (!·.isEmpty), ',' ∉ text.toList := by
  intro text listed inside
  obtain ⟨base, on, rfl⟩ := List.mem_map.mp (List.mem_filter.mp listed).1
  exact plain base (List.mem_filter.mp on).1 ((stripped_sublist base).subset inside)

private theorem filter_shownNames (shown : ∀ base ∈ bases, stripped base ≠ "") (config : Config) :
    (shownNames bases config).filter (!·.isEmpty) = shownNames bases config := by
  rw [List.filter_eq_self]
  intro text member
  obtain ⟨base, on, rfl⟩ := List.mem_map.mp member
  simpa using shown base (List.mem_filter.mp on).1

/-- Different names tell which flags are on. -/
private theorem isOn_of_shownNames_eq (distinct : (bases.map stripped).Nodup)
    (names : shownNames bases left = shownNames bases right) {base : String} (member : base ∈ bases)
    (on : isOn left base = true) : isOn right base = true := by
  have listed : stripped base ∈ shownNames bases right :=
    names ▸ List.mem_map_of_mem (List.mem_filter.mpr ⟨member, on⟩)
  obtain ⟨again, found, same⟩ := List.mem_map.mp listed
  obtain ⟨among, on⟩ := List.mem_filter.mp found
  rwa [← List.inj_on_of_nodup_map distinct among member same]

/-- Where the flags show different names, labels are equal exactly if all flags have the same values. -/
theorem Answered.items_eq_iff (plain : ∀ base ∈ bases, ',' ∉ base.toList) (distinct : (bases.map stripped).Nodup)
    (shown : ∀ base ∈ bases, stripped base ≠ "") (first : (ofFlags name constraint bases).Answered left)
    (second : (ofFlags name constraint bases).Answered right) :
    (ofFlags name constraint bases).items left = (ofFlags name constraint bases).items right ↔
      ∀ key ∈ (ofFlags name constraint bases).keys, left.get? key = right.get? key := by
  rw [keys_ofFlags, List.forall_mem_map, first.items_eq, second.items_eq]
  constructor
  · intro same base member
    have names := Text.filter_eq_of_intercalate_eq (free_shownNames plain left) (free_shownNames plain right)
      (Except.ok.inj same)
    simp only [filter_shownNames shown] at names
    have agree : isOn left base = isOn right base := Bool.eq_iff_iff.mpr
      ⟨isOn_of_shownNames_eq distinct names member, isOn_of_shownNames_eq distinct names.symm member⟩
    rw [first.get?_eq member, second.get?_eq member, agree]
  · intro same
    have alike : bases.filter (isOn left) = bases.filter (isOn right) :=
      List.filter_congr fun base member => by rw [isOn, isOn, same base member]
    rw [shownNames, alike, shownNames]

/-- Names without a further ending inside are shown in full, so with them labels tell the flags apart. -/
theorem Answered.items_eq_iff_of_absent (plain : ∀ base ∈ bases, ',' ∉ base.toList) (distinct : bases.Nodup)
    (present : ∀ base ∈ bases, base ≠ "") (absent : ∀ base ∈ bases, ¬['_', 'o', 'n'] <:+: base.toList)
    (first : (ofFlags name constraint bases).Answered left) (second : (ofFlags name constraint bases).Answered right) :
    (ofFlags name constraint bases).items left = (ofFlags name constraint bases).items right ↔
      ∀ key ∈ (ofFlags name constraint bases).keys, left.get? key = right.get? key := by
  have whole : bases.map stripped = bases := by
    conv_rhs => rw [← List.map_id bases]
    exact List.map_congr_left fun base member => stripped_eq_self (absent base member)
  refine first.items_eq_iff plain (whole.symm ▸ distinct) (fun base member => ?_) second
  rw [stripped_eq_self (absent base member)]
  exact present base member

/-- A configuration that answers for every flag of a family. -/
def answers (bases : List String) (on : String → Bool) : Config :=
  Dict.ofList (bases.map fun base => (base ++ "_on", .bool (on base)))

theorem get?_answers (distinct : bases.Nodup) (on : String → Bool) {base : String} (member : base ∈ bases) :
    (answers bases on).get? (base ++ "_on") = some (.bool (on base)) := by
  have keys : ((bases.map fun base => (base ++ "_on", Value.bool (on base))).map Prod.fst).Nodup := by
    rw [List.map_map]
    exact distinct.map fun _ _ => (String.append_left_inj "_on").mp
  exact (Dict.get?_ofList_eq_some_iff keys).mpr (List.mem_map_of_mem member)

theorem answered_answers (distinct : bases.Nodup) (on : String → Bool) :
    (ofFlags name constraint bases).Answered (answers bases on) := by
  rw [Answered, keys_ofFlags, List.forall_mem_map]
  exact fun base member => ⟨on base, get?_answers distinct on member⟩

theorem items_answers (distinct : bases.Nodup) (on : String → Bool) :
    (ofFlags name constraint bases).items (answers bases on) =
      .ok (",".intercalate (((bases.filter on).map stripped).filter (!·.isEmpty))) := by
  have same : bases.filter (isOn (answers bases on)) = bases.filter on :=
    List.filter_congr fun base member => by rw [isOn, get?_answers distinct on member]
  rw [(answered_answers distinct on).items_eq, shownNames, same]

/-- With all flags off but one, the label is its name. -/
theorem items_answers_single (distinct : bases.Nodup) {base : String} (member : base ∈ bases) :
    (ofFlags name constraint bases).items (answers bases (· == base)) = .ok (stripped base) := by
  rw [items_answers distinct, List.filter_beq, List.count_eq_one_of_mem distinct member]
  by_cases shown : stripped base = "" <;> simp [shown]

/-- Flags that answer all have a label. That labels are equal exactly if all flags have the same values takes flags
that show different names, none of which is empty. -/
theorem items_ofFlags_iff (distinct : bases.Nodup) (plain : ∀ base ∈ bases, ',' ∉ base.toList) :
    let family := ofFlags name constraint bases
    (∀ config, family.Answered config → ∃ label, family.items config = .ok label) ∧
    ((∀ left right, family.Answered left → family.Answered right →
      (family.items left = family.items right ↔ ∀ key ∈ family.keys, left.get? key = right.get? key)) ↔
      (bases.map stripped).Nodup ∧ ∀ base ∈ bases, stripped base ≠ "") := by
  intro family
  refine ⟨fun config answered => ⟨_, answered.items_eq⟩, fun determined => ?_, ?_⟩
  · have told {on other : String → Bool} (labels : family.items (answers bases on) = family.items (answers bases other))
        {base : String} (member : base ∈ bases) : on base = other base := by
      have held := (determined _ _ (answered_answers distinct on) (answered_answers distinct other)).mp labels
        (base ++ "_on") (keys_ofFlags ▸ List.mem_map_of_mem member)
      rw [get?_answers distinct on member, get?_answers distinct other member] at held
      exact Value.bool.inj (Option.some.inj held)
    constructor
    · rw [List.nodup_map_iff_inj_on distinct]
      intro first here second there same
      have labels : family.items (answers bases (· == first)) = family.items (answers bases (· == second)) := by
        rw [items_answers_single distinct here, items_answers_single distinct there, same]
      simpa using told labels here
    · intro base member empty
      have labels : family.items (answers bases (· == base)) = family.items (answers bases fun _ => false) := by
        rw [items_answers_single distinct member, items_answers distinct, empty, List.filter_false]
        rfl
      simpa using told labels member
  · rintro ⟨apart, shown⟩ left right first second
    exact first.items_eq_iff plain apart shown second

theorem items_ofFlags_iff_inner_ending :
    let family := ofFlags "f" none ["a", "a_on_b"]
    let first := answers ["a", "a_on_b"] (· == "a")
    let second := answers ["a", "a_on_b"] (· == "a_on_b")
    (∃ label, family.items first = .ok label) ∧ family.items first ≠ family.items second := by
  intro family first second
  have distinct : ["a", "a_on_b"].Nodup := by decide
  obtain ⟨labelled, told⟩ := @items_ofFlags_iff "f" none ["a", "a_on_b"] distinct (by decide)
  refine ⟨labelled first (answered_answers distinct _), fun same => ?_⟩
  have held := (told.mpr (by decide) first second (answered_answers distinct _) (answered_answers distinct _)).mp same
    "a_on" (by decide)
  have on := (get?_answers distinct (· == "a") List.mem_cons_self).symm.trans
    (held.trans (get?_answers distinct (· == "a_on_b") List.mem_cons_self))
  exact absurd (Value.bool.inj (Option.some.inj on)) (by decide)

/-- The names of two flags, one of which has the ending of the keys in its own name as well, show alike. -/
theorem items_ofFlags_fails :
    let family := ofFlags "f" none ["a", "a_on"]
    let first := answers ["a", "a_on"] (· == "a")
    let second := answers ["a", "a_on"] (· == "a_on")
    family.Answered first ∧ family.Answered second ∧ family.items first = .ok "a" ∧ family.items second = .ok "a" ∧
      first.get? "a_on" ≠ second.get? "a_on" := by
  have distinct : ["a", "a_on"].Nodup := by decide
  have held (on : String → Bool) : (answers ["a", "a_on"] on).get? "a_on" = some (.bool (on "a")) :=
    get?_answers distinct on List.mem_cons_self
  refine ⟨answered_answers distinct _, answered_answers distinct _, ?_, ?_, ?_⟩
  · exact items_answers_single distinct (by decide)
  · exact items_answers_single distinct (by decide)
  · rw [held, held]
    simp

end
end Family
end ParamSweep
