import ParamSweep.Proofs.CastStability
import ParamSweep.Proofs.Combinations
import ParamSweep.Proofs.JsonTexts
import ParamSweep.Proofs.ValueEquality
import ParamSweep.Value.Json

/-! Values written as JSON and read back. A value without floating-point numbers comes back as it is, but with lists in
place of tuples, unless it is nested deeper than is read. -/

namespace ParamSweep

namespace Json

theorem toList_arrayText (items : List String) :
    (arrayText items).toList = '[' :: ([','].intercalate (items.map String.toList) ++ [']']) := by
  simp [arrayText, String.toList_intercalate]

theorem toList_objectText (members : List (String × String)) : (objectText members).toList =
    '\x7b' :: ([','].intercalate (members.map fun (key, item) => (stringText key).toList ++ ':' :: item.toList) ++
      ['\x7d']) := by
  simp [objectText, String.toList_intercalate, Function.comp_def]

end Json

namespace Value

mutual

/-- How many lists, tuples and dictionaries stand inside each other from a value down. -/
def depth : Value → Nat
  | .list items | .tuple items => depthOfItems items + 1
  | .dict entries => depthOfEntries entries + 1
  | _ => 0
termination_by structural value => value

def depthOfItems : List Value → Nat
  | [] => 0
  | item :: rest => max item.depth (depthOfItems rest)
termination_by structural items => items

def depthOfEntries : List (String × Value) → Nat
  | [] => 0
  | (_, value) :: rest => max value.depth (depthOfEntries rest)
termination_by structural entries => entries

end

mutual

/-- The value with the list of its items in place of every tuple. -/
def listed : Value → Value
  | .list items | .tuple items => .list (listedItems items)
  | .dict entries => .dict (listedEntries entries)
  | value => value
termination_by structural value => value

def listedItems : List Value → List Value
  | [] => []
  | item :: rest => item.listed :: listedItems rest
termination_by structural items => items

def listedEntries : List (String × Value) → List (String × Value)
  | [] => []
  | (key, value) :: rest => (key, value.listed) :: listedEntries rest
termination_by structural entries => entries

end

/-- Whether a value is no tuple. -/
def NotTuple : Value → Prop
  | .tuple _ => False
  | _ => True

mutual

/-- Only what holds a tuple is changed. -/
theorem listed_eq_self_iff (value : Value) : value.listed = value ↔ value.Every NotTuple :=
  match value with
  | .none => by simp [listed, Every, NotTuple]
  | .bool value => by simp [listed, Every, NotTuple]
  | .int value => by simp [listed, Every, NotTuple]
  | .float value => by simp [listed, Every, NotTuple]
  | .str text => by simp [listed, Every, NotTuple]
  | .list items => by simp [listed, Every, NotTuple, listedItems_eq_self_iff items]
  | .tuple items => by simp [listed, Every, NotTuple]
  | .dict entries => by simp [listed, Every, NotTuple, listedEntries_eq_self_iff entries]
termination_by structural value

theorem listedItems_eq_self_iff (items : List Value) : listedItems items = items ↔ EveryItem NotTuple items :=
  match items with
  | [] => by simp [listedItems, EveryItem]
  | item :: rest => by simp [listedItems, EveryItem, listed_eq_self_iff item, listedItems_eq_self_iff rest]
termination_by structural items

theorem listedEntries_eq_self_iff (entries : List (String × Value)) :
    listedEntries entries = entries ↔ EveryEntry NotTuple entries :=
  match entries with
  | [] => by simp [listedEntries, EveryEntry]
  | (_, value) :: rest => by
    simp [listedEntries, EveryEntry, listed_eq_self_iff value, listedEntries_eq_self_iff rest]
termination_by structural entries

end

theorem map_fst_listedEntries (entries : List (String × Value)) :
    (listedEntries entries).map Prod.fst = entries.map Prod.fst := by
  induction entries with
  | nil => rfl
  | cons first rest ih => rw [listedEntries, List.map_cons, List.map_cons, ih]

theorem ofJsonNumber_toInt (number : Int64) : ofJsonNumber (.integer number.toInt) = .int number := by
  simp only [ofJsonNumber, Number.int64?_toInt]

mutual

/-- What is written for a value is read as JSON nested as deep, which means the value with lists for tuples. -/
theorem exists_reads (value : Value) (floatless : value.Every NotFloat) (ordered : value.Every KeysInOrder) :
    ∃ json, Json.Reads value.json.toList json ∧ json.depth = value.depth ∧ ofJson? json = some value.listed :=
  match value with
  | .none => ⟨.null, Json.reads_null, rfl, rfl⟩
  | .bool value => ⟨.bool value, Json.reads_boolText value, rfl, rfl⟩
  | .int number => by
    refine ⟨.number (Json.integerText number.toInt), ?_, rfl, ?_⟩
    · rw [json, String.toList_ofList]
      exact Json.reads_intText number.toInt
    · rw [ofJson?, Json.value?_integerText, Option.map_some, ofJsonNumber_toInt]
      rfl
  | .float number => floatless.elim
  | .str text => ⟨.string (some text), Json.reads_stringText text, rfl, rfl⟩
  | .list items | .tuple items => by
    obtain ⟨parts, reads, depths, meaning⟩ := exists_readsItems items floatless.2 ordered.2
    refine ⟨.array parts, ?_, congrArg (· + 1) depths, ?_⟩
    · rw [json, Json.toList_arrayText]
      exact Json.reads_array reads
    · rw [ofJson?, meaning]
      rfl
  | .dict entries => by
    obtain ⟨members, reads, depths, meaning⟩ := exists_readsEntries entries floatless.2 ordered.2
    refine ⟨.object members, ?_, congrArg (· + 1) depths, ?_⟩
    · rw [json, Json.toList_objectText]
      exact Json.reads_object reads
    · have sorted : (listedEntries entries).Pairwise fun left right => left.1 < right.1 := by
        rw [← List.pairwise_map, map_fst_listedEntries, List.pairwise_map]
        exact ordered.1
      rw [ofJson?, meaning, Option.map_some, Dict.ofList_of_sorted sorted]
      rfl
termination_by structural value

theorem exists_readsItems (items : List Value) (floatless : EveryItem NotFloat items)
    (ordered : EveryItem KeysInOrder items) :
    ∃ parts, List.Forall₂ Json.Reads ((jsonItems items).map String.toList) parts ∧
      Json.depthOfItems parts = depthOfItems items ∧ ofJsonItems? parts = some (listedItems items) :=
  match items with
  | [] => ⟨[], .nil, rfl, rfl⟩
  | item :: rest => by
    obtain ⟨part, read, depth, meant⟩ := exists_reads item floatless.1 ordered.1
    obtain ⟨parts, reads, depths, meaning⟩ := exists_readsItems rest floatless.2 ordered.2
    refine ⟨part :: parts, .cons read reads, ?_, ?_⟩
    · rw [Json.depthOfItems, depth, depths, depthOfItems]
    · rw [ofJsonItems?, meant, meaning]
      rfl
termination_by structural items

theorem exists_readsEntries (entries : List (String × Value)) (floatless : EveryEntry NotFloat entries)
    (ordered : EveryEntry KeysInOrder entries) :
    ∃ members, List.Forall₂ Json.ReadsMember
        ((jsonEntries entries).map fun (key, item) => (Json.stringText key).toList ++ ':' :: item.toList) members ∧
      Json.depthOfMembers members = depthOfEntries entries ∧
      ofJsonMembers? members = some (listedEntries entries) :=
  match entries with
  | [] => ⟨[], .nil, rfl, rfl⟩
  | (key, item) :: rest => by
    obtain ⟨part, read, depth, meant⟩ := exists_reads item floatless.1 ordered.1
    obtain ⟨members, reads, depths, meaning⟩ := exists_readsEntries rest floatless.2 ordered.2
    refine ⟨(some key, part) :: members, .cons ⟨key, _, rfl, rfl, read⟩ reads, ?_, ?_⟩
    · rw [Json.depthOfMembers, depth, depths, depthOfEntries]
    · rw [ofJsonMembers?, meant, meaning]
      rfl
termination_by structural entries

end

/-- What is written for a value is read back unless it is nested too deep. -/
theorem parseJson?_eq {value : Value} (floatless : value.Every NotFloat) (ordered : value.Every KeysInOrder) :
    parseJson? value.json = if value.depth ≤ maximalDepth then some value.listed else Option.none := by
  obtain ⟨json, reads, depths, meaning⟩ := exists_reads value floatless ordered
  simp only [parseJson?, Json.parse?_of_reads reads, depths, meaning]

/-- The kinds of values. -/
inductive Kind where
  | none
  | bool
  | int
  | float
  | str
  | list
  | tuple
  | dict

/-- The order in which JSON is tried as a value of each kind. -/
def kinds : List Kind := [.none, .bool, .int, .float, .str, .list, .tuple, .dict]

/-- JSON as a value of one kind. Any number does for a floating-point one, and an array for a list or a tuple. -/
def ofJsonAs? : Kind → Json → Option Value
  | .none, .null => some .none
  | .bool, .bool value => some (.bool value)
  | .int, .number spelled =>
    match spelled.value? with
    | some (.integer value) => (Number.int64? value).map .int
    | _ => Option.none
  | .float, .number spelled =>
    match spelled.value? with
    | some (.integer value) => some (.float (Binary64.ofInt value))
    | some (.float value) => some (.float value)
    | Option.none => Option.none
  | .str, .string text => text.map .str
  | .list, .array items => (ofJsonItems? items).map .list
  | .tuple, .array items => (ofJsonItems? items).map .tuple
  | .dict, .object members => (ofJsonMembers? members).map fun entries => .dict (Dict.ofList entries).entries
  | _, _ => Option.none

/-- JSON means the value of the first kind that it can be read as. -/
theorem ofJson?_eq_findSome? (json : Json) : ofJson? json = kinds.findSome? (ofJsonAs? · json) := by
  cases json with
  | null => rfl
  | bool value => rfl
  | number spelled =>
    rw [ofJson?]
    cases found : spelled.value? with
    | none => simp [kinds, ofJsonAs?, found]
    | some number =>
      cases number with
      | integer value => cases held : Number.int64? value <;> simp [kinds, ofJsonAs?, found, held, ofJsonNumber]
      | float value => simp [kinds, ofJsonAs?, found, ofJsonNumber]
  | string text => cases text <;> rfl
  | array items =>
    rw [ofJson?]
    cases found : ofJsonItems? items <;> simp [kinds, ofJsonAs?, found]
  | object members =>
    rw [ofJson?]
    cases found : ofJsonMembers? members <;> simp [kinds, ofJsonAs?, found]

/-- A value without floating-point numbers comes back with lists for tuples, so without tuples it comes back as it is.
Of each part the first kind is taken that its JSON can be read as. -/
theorem parse_json {value : Value} (floatless : value.Every NotFloat) (ordered : value.Every KeysInOrder)
    (shallow : value.depth ≤ 100) :
    parseJson? value.json = some value.listed ∧ (value.listed = value ↔ value.Every NotTuple) ∧
      ∀ json, ofJson? json = kinds.findSome? (ofJsonAs? · json) := by
  refine ⟨?_, listed_eq_self_iff value, ofJson?_eq_findSome?⟩
  rw [parseJson?_eq floatless ordered, if_pos (Nat.le_trans shallow (by decide))]

/-- Empty parts, the least integer, characters that are escaped and a tuple inside a list. -/
def nestedParts : Value :=
  .dict
    [("", .dict []), ("\"\x01", .list [.tuple [.int (-0x8000000000000000), .tuple []], .none]), ("é", .str "\n\\\x7f")]

theorem parse_json_nested_parts :
    nestedParts.Every NotFloat ∧ nestedParts.Every KeysInOrder ∧ nestedParts.depth ≤ 100 ∧
    parseJson? nestedParts.json = some (.dict
      [("", .dict []), ("\"\x01", .list [.list [.int (-0x8000000000000000), .list []], .none]),
        ("é", .str "\n\\\x7f")]) := by
  have floatless : nestedParts.Every NotFloat := by simp [nestedParts, Every, EveryItem, EveryEntry, NotFloat]
  have ordered : nestedParts.Every KeysInOrder := by
    simp only [nestedParts, Every, EveryItem, EveryEntry, KeysInOrder, and_true]
    exact ⟨by decide, .nil⟩
  have shallow : nestedParts.depth ≤ 100 := by decide
  exact ⟨floatless, ordered, shallow, (parse_json floatless ordered shallow).1⟩

end Value
end ParamSweep
