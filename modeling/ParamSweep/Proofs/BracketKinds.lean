import ParamSweep.Proofs.OptionPieces

/-! The kinds of brackets. Depth counts square and round brackets alike, so a bracket may be closed by one of the other
kind. That is all that is missing: brackets are nested properly exactly if they are balanced and none is closed so. -/

namespace ParamSweep

namespace Text

/-- Which bracket closes which. -/
def Closes (opening closing : Char) : Prop :=
  opening = '[' ∧ closing = ']' ∨ opening = '(' ∧ closing = ')'

instance (opening closing : Char) : Decidable (Closes opening closing) :=
  inferInstanceAs (Decidable (_ ∨ _))

/-- Whether each closing bracket closes the last that is still open, which is of its own kind, and none stays open.
Brackets that are open before the text are listed with the last of them first. -/
inductive Nested : List Char → List Char → Prop
  | done : Nested [] []
  | plain {opened rest : List Char} {char : Char} (level : depthStep char = 0) (later : Nested opened rest) :
      Nested opened (char :: rest)
  | opens {opened rest : List Char} {char : Char} (inward : depthStep char = 1) (later : Nested (char :: opened) rest) :
      Nested opened (char :: rest)
  | closes {opened rest : List Char} {opening closing : Char} (own : Closes opening closing)
      (later : Nested opened rest) : Nested (opening :: opened) (closing :: rest)

/-- Whether somewhere a bracket is closed by one of the other kind. -/
def Crossed (text : List Char) : Prop :=
  ∃ before opening inner closing after, text = before ++ opening :: (inner ++ closing :: after) ∧
    depthStep opening = 1 ∧ isBalanced inner = true ∧ depthStep closing = -1 ∧ ¬Closes opening closing

theorem Closes.steps {opening closing : Char} (own : Closes opening closing) :
    depthStep opening = 1 ∧ depthStep closing = -1 := by
  rcases own with ⟨rfl, rfl⟩ | ⟨rfl, rfl⟩ <;> decide

private theorem depthStep_cases (char : Char) : depthStep char = 0 ∨ depthStep char = 1 ∨ depthStep char = -1 := by
  unfold depthStep
  split
  · exact .inr (.inl rfl)
  · split
    · exact .inr (.inr rfl)
    · exact .inl rfl

section
variable {char : Char}

private theorem closesFrom_plain (level : depthStep char = 0) (deep : Nat) (rest : List Char) :
    closesFrom deep (char :: rest) = closesFrom deep rest := by
  simp [closesFrom, level]

private theorem closesFrom_opening (inward : depthStep char = 1) (deep : Nat) (rest : List Char) :
    closesFrom deep (char :: rest) = closesFrom (deep + 1 : Nat) rest := by
  have above : (0 : Int) ≤ (deep + 1 : Nat) := Int.natCast_nonneg _
  rw [closesFrom, inward, ← Int.natCast_succ, decide_eq_true above, Bool.true_and]

private theorem closesFrom_closing (outward : depthStep char = -1) (deep : Nat) (rest : List Char) :
    closesFrom (deep + 1 : Nat) (char :: rest) = closesFrom deep rest := by
  have level : ((deep + 1 : Nat) : Int) + -1 = deep := by omega
  rw [closesFrom, outward, level, decide_eq_true (Int.natCast_nonneg _), Bool.true_and]

end

theorem Nested.closesFrom {opened text : List Char} (nested : Nested opened text) :
    closesFrom opened.length text = true := by
  induction nested with
  | done => rfl
  | plain level _ ih => rwa [closesFrom_plain level]
  | opens inward _ ih => rwa [closesFrom_opening inward]
  | closes own _ ih => rwa [List.length_cons, closesFrom_closing own.steps.2]

/-- A front that closes some of the open brackets leaves the others open. -/
private theorem Nested.behind {top opened inner rest : List Char} (nested : Nested (top ++ opened) (inner ++ rest))
    (closes : Text.closesFrom top.length inner = true) : Nested opened rest := by
  generalize held : top ++ opened = stack at nested
  induction inner generalizing stack top with
  | nil =>
    obtain rfl : top = [] := by simpa [Text.closesFrom] using closes
    rwa [← held] at nested
  | cons char inner ih =>
    cases nested with
    | plain level later => exact ih ((closesFrom_plain level _ _).symm.trans closes) stack held later
    | opens inward later =>
      have deeper : Text.closesFrom (char :: top).length inner = true :=
        (closesFrom_opening inward _ _).symm.trans closes
      exact ih deeper _ (congrArg (char :: ·) held) later
    | closes own later =>
      cases top with
      | nil => simp [Text.closesFrom, own.steps.2] at closes
      | cons first top =>
        have outer := (closesFrom_closing own.steps.2 top.length inner).symm.trans closes
        exact ih outer _ (List.cons.inj held).2 later

private theorem Nested.exists_behind {opened before rest : List Char} (nested : Nested opened (before ++ rest)) :
    ∃ stack, Nested stack rest := by
  induction before generalizing opened with
  | nil => exact ⟨opened, nested⟩
  | cons char before ih =>
    cases nested with
    | plain _ later => exact ih later
    | opens _ later => exact ih later
    | closes _ later => exact ih later

theorem Nested.not_crossed {opened text : List Char} (nested : Nested opened text) : ¬Crossed text := by
  rintro ⟨before, opening, inner, closing, after, rfl, inward, balanced, outward, other⟩
  obtain ⟨stack, nested⟩ := nested.exists_behind
  cases nested with
  | plain level => omega
  | closes own => exact absurd own.steps.2 (by omega)
  | opens _ later =>
    have behind : Nested (opening :: stack) (closing :: after) := @Nested.behind [] _ _ _ later balanced
    cases behind with
    | plain level => omega
    | opens inward => omega
    | closes own => exact other own

private theorem not_crossed_of_cons {char : Char} {rest : List Char} (uncrossed : ¬Crossed (char :: rest)) :
    ¬Crossed rest := by
  rintro ⟨before, opening, inner, closing, after, rfl, crossed⟩
  exact uncrossed ⟨char :: before, opening, inner, closing, after, rfl, crossed⟩

/-- Whether the open brackets are closed by their own kind. The one at an index is closed behind a text that closes
those before it. -/
private def ClosedByOwn (opened text : List Char) : Prop :=
  ∀ (index : Nat) (opening : Char), opened[index]? = some opening →
    ∀ body closing after, text = body ++ closing :: after →
      closesFrom index body = true → depthStep closing = -1 → Closes opening closing

theorem nested_of_uncrossed {opened text : List Char} (closes : closesFrom opened.length text = true)
    (own : ClosedByOwn opened text) (uncrossed : ¬Crossed text) : Nested opened text := by
  induction text generalizing opened with
  | nil =>
    obtain rfl : opened = [] := by simpa [closesFrom] using closes
    exact .done
  | cons char rest ih =>
    have later := not_crossed_of_cons uncrossed
    rcases depthStep_cases char with level | inward | outward
    · refine .plain level (ih ((closesFrom_plain level _ _).symm.trans closes) ?_ later)
      rintro index opening found body closing after rfl behind
      exact own index opening found (char :: body) closing after rfl ((closesFrom_plain level _ _).trans behind)
    · have deeper : closesFrom (char :: opened).length rest = true := (closesFrom_opening inward _ _).symm.trans closes
      refine .opens inward (ih deeper ?_ later)
      rintro index opening found body closing after rfl behind
      cases index with
      | zero =>
        obtain rfl : char = opening := by simpa using found
        exact fun outward => Classical.byContradiction fun other =>
          uncrossed ⟨[], char, body, closing, after, rfl, inward, behind, outward, other⟩
      | succ index =>
        exact own index opening found (char :: body) closing after rfl ((closesFrom_opening inward _ _).trans behind)
    · cases opened with
      | nil => simp [closesFrom, outward] at closes
      | cons opening opened =>
        have outer := (closesFrom_closing outward opened.length rest).symm.trans closes
        refine .closes (own 0 opening rfl [] char rest rfl rfl outward) (ih outer ?_ later)
        rintro index other found body closing after rfl behind
        have deeper := (closesFrom_closing outward index body).trans behind
        exact own (index + 1) other found (char :: body) closing after rfl deeper

theorem nested_iff {text : List Char} : Nested [] text ↔ isBalanced text = true ∧ ¬Crossed text := by
  constructor
  · exact fun nested => ⟨nested.closesFrom, nested.not_crossed⟩
  · rintro ⟨balanced, uncrossed⟩
    exact nested_of_uncrossed balanced (fun index opening found => by simp at found) uncrossed

theorem closesFrom_behind {depth : Int} {left right : List Char} (closes : closesFrom depth (left ++ right) = true) :
    closesFrom (depth + rise left) right = true := by
  induction left generalizing depth with
  | nil => rwa [rise, Int.add_zero]
  | cons char left ih =>
    rw [List.cons_append, closesFrom, Bool.and_eq_true] at closes
    rw [rise, ← Int.add_assoc]
    exact ih closes.2

end Text

namespace Options
open Text

theorem isBalanced_of_mem_fragments {text fragment : List Char} (balanced : isBalanced text = true)
    (member : fragment ∈ fragments text) : isBalanced fragment = true := by
  obtain ⟨piece, inside, rfl⟩ := List.mem_map.mp (List.mem_filter.mp member).1
  have intact := intact_of_mem_cutAtDepth outside_comma_level (outside_of_pos ',') balanced piece inside
  exact (intact.of_outline (outline_trim piece).symm).balanced

theorem isBalanced_of_parse {aliases : Dict String} {text : String} {options : Config}
    (read : parse aliases text = .ok options) : isBalanced text.toList = true := by
  obtain ⟨fragments, cut, -⟩ := Outcome.bind_eq_ok_iff.mp read
  unfold split at cut
  split at cut
  · assumption
  · cases cut

/-- Balanced and properly nested are the same for a text exactly if it is not balanced with a bracket closed by one of
the other kind. In accepted options the value behind an equals sign is properly nested exactly if in it no bracket is
closed so. -/
theorem balanced_iff_nested_iff (aliases : Dict String) (text : String) :
    ((isBalanced text.toList = true ↔ Nested [] text.toList) ↔
      (isBalanced text.toList = true → ¬Crossed text.toList)) ∧
    ∀ options, parse aliases text = .ok options → ∀ fragment ∈ fragments text.toList, ∀ key value,
      fragment = key ++ '=' :: value → rise key = 0 → (Nested [] value ↔ ¬Crossed value) := by
  refine ⟨?_, fun options read fragment member key value spelled outer => ?_⟩
  · rw [nested_iff]
    tauto
  · have balanced := isBalanced_of_mem_fragments (isBalanced_of_parse read) member
    rw [spelled] at balanced
    have behind := closesFrom_behind balanced
    rw [outer] at behind
    have closed : isBalanced value = true := behind
    rw [nested_iff, and_iff_right closed]

theorem balanced_iff_nested_iff_pair :
    (∃ options, parse Dict.empty "k=[(1,2)],b" = .ok options) ∧ Nested [] "[(1,2)]".toList ∧
      ¬Crossed "[(1,2)]".toList := by
  have nested : Nested [] "[(1,2)]".toList :=
    .opens rfl (.opens rfl (.plain rfl (.plain rfl (.plain rfl (.closes (by decide) (.closes (by decide) .done))))))
  have read := (balanced_iff_nested_iff Dict.empty "k=[(1,2)],b").2 _ rfl "k=[(1,2)]".toList (by decide) "k".toList
  exact ⟨⟨_, rfl⟩, nested, (read "[(1,2)]".toList rfl rfl).mp nested⟩

/-- A list that a round bracket closes is balanced, and read as the text that it is. -/
theorem balanced_crossed_fails :
    isBalanced "a=[1,2)".toList = true ∧ ¬Nested [] "a=[1,2)".toList ∧
    parse Dict.empty "a=[1,2)" = .ok (Dict.ofList [("a", .str "[1,2)")]) := by
  have kept : Value.ofText "[1,2)" = .str "[1,2)" := by
    rw [Value.ofText, Value.ofChars_eq]
    rfl
  have read : parse Dict.empty "a=[1,2)" = .ok (Dict.ofList [("a", Value.ofText "[1,2)")]) := rfl
  refine ⟨by decide, fun nested => ?_, kept ▸ read⟩
  exact nested.not_crossed
    ⟨"a=".toList, '[', "1,2".toList, ')', [], by decide, by decide, by decide, by decide, by decide⟩

end Options
end ParamSweep
