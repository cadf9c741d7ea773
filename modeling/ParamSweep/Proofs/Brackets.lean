import Mathlib.Data.List.DropRight
import ParamSweep.Text.Bracket

/-! Bracket depth under concatenation. A balanced text comes back to the depth where it began, so what follows
it is cut as if it stood alone. Behind an opening bracket it is cut nowhere. -/

namespace ParamSweep.Text

theorem trimStart_eq_self_iff {text : List Char} :
    trimStart text = text ↔ ∀ char ∈ text.head?, isBlank char = false := by
  unfold trimStart
  rw [List.dropWhile_eq_self_iff]
  cases text <;> simp

theorem trimEnd_eq_self_iff {text : List Char} :
    trimEnd text = text ↔ ∀ char ∈ text.getLast?, isBlank char = false := by
  have reversed := @trimStart_eq_self_iff text.reverse
  rw [List.head?_reverse] at reversed
  rw [← reversed, trimEnd, List.reverse_eq_iff, trimStart]

theorem trim_trimStart (text : List Char) : trim (trimStart text) = trim text := by
  unfold trim trimStart
  rw [List.dropWhile_idempotent]

/-- A text with no white space at its ends. -/
def Trimmed (text : List Char) : Prop :=
  (∀ char ∈ text.head?, isBlank char = false) ∧ ∀ char ∈ text.getLast?, isBlank char = false

-- Characters are finitely many, so the instance that decides this for the whole type must not be found.
instance (text : List Char) : Decidable (Trimmed text) :=
  @instDecidableAnd _ _ (Option.decidableForallMem text.head?) (Option.decidableForallMem text.getLast?)

theorem Trimmed.trim_eq {text : List Char} (trimmed : Trimmed text) : trim text = text := by
  unfold trim
  rw [trimStart_eq_self_iff.mpr trimmed.1, trimEnd_eq_self_iff.mpr trimmed.2]

theorem Trimmed.append {left right : List Char} (before : Trimmed left) (after : Trimmed right) :
    Trimmed (left ++ right) := by
  constructor
  · intro char first
    cases left with
    | nil => exact after.1 char first
    | cons head rest => exact before.1 char first
  · intro char last
    rw [List.getLast?_append] at last
    cases found : right.getLast? with
    | none => exact before.2 char (by simpa [found] using last)
    | some final => exact after.2 char (by simpa [found] using last)

theorem trimmed_of_blankless {text : List Char} (blankless : ∀ char ∈ text, isBlank char = false) : Trimmed text :=
  ⟨fun char first => blankless char (List.mem_of_mem_head? first),
    fun char last => blankless char (List.mem_of_getLast? last)⟩

theorem trimmed_enclosed {first last : Char} (opened : isBlank first = false) (closed : isBlank last = false)
    (inner : List Char) : Trimmed (first :: (inner ++ [last])) := by
  refine ⟨fun char head => ?_, fun char final => ?_⟩
  · cases head
    exact opened
  · rw [← List.cons_append, List.getLast?_append] at final
    cases final
    exact closed

theorem trimmed_trim (text : List Char) : Trimmed (trim text) := by
  have leading : trimEnd (trimStart text) <+: trimStart text :=
    List.reverse_suffix.mp (List.reverse_reverse _ ▸ List.dropWhile_suffix isBlank)
  constructor
  · intro char first
    have started : trimStart (trimStart text) = trimStart text := List.dropWhile_idempotent _ _
    refine trimStart_eq_self_iff.mp started char ?_
    obtain ⟨behind, whole⟩ := leading
    rw [← whole, List.head?_append]
    exact Option.or_eq_some_iff.mpr (.inl first)
  · have ended : trimEnd (trimEnd (trimStart text)) = trimEnd (trimStart text) := by
      unfold trimEnd
      rw [List.reverse_reverse, List.dropWhile_idempotent]
    exact trimEnd_eq_self_iff.mp ended

theorem filter_intercalate (keep : Char → Bool) (separator : List Char) (texts : List (List Char)) :
    (separator.intercalate texts).filter keep = (separator.filter keep).intercalate (texts.map (List.filter keep)) := by
  induction texts with
  | nil => rfl
  | cons first rest ih =>
    cases rest with
    | nil => simp
    | cons next others =>
      rw [List.intercalate_cons_cons, List.filter_append, List.filter_append, ih]
      simp

/-- A class of characters without brackets and commas has nothing that divides a text. -/
theorem unmarked_of_class {belongs : Char → Bool} {char : Char} (member : belongs char = true)
    (marks : ['[', '(', ']', ')', ','].any belongs = false) : depthStep char = 0 ∧ char ≠ ',' := by
  have other {mark : Char} (listed : mark ∈ ['[', '(', ']', ')', ',']) : char ≠ mark := by
    rintro rfl
    exact List.any_eq_false.mp marks char listed member
  refine ⟨?_, other (by simp)⟩
  rw [depthStep, if_neg, if_neg]
  · exact not_or.mpr ⟨other (by simp), other (by simp)⟩
  · exact not_or.mpr ⟨other (by simp), other (by simp)⟩

theorem closesFrom_append {depth base : Int} {text : List Char} (closes : closesFrom depth text = true)
    (above : 0 ≤ base) (rest : List Char) : closesFrom (depth + base) (text ++ rest) = closesFrom base rest := by
  induction text generalizing depth with
  | nil =>
    obtain rfl : depth = 0 := by simpa [closesFrom] using closes
    rw [Int.zero_add, List.nil_append]
  | cons char text ih =>
    simp only [closesFrom, Bool.and_eq_true, decide_eq_true_eq] at closes
    have later := ih closes.2
    simp only [List.cons_append, closesFrom, Bool.and_eq_right_iff_imp, Int.add_right_comm depth base, later]
    exact fun _ => decide_eq_true (by omega)

variable {separates : Char → Int → Bool}

theorem cutAtDepth_ne_nil (separates : Char → Int → Bool) (depth : Int) (text : List Char) :
    cutAtDepth separates depth text ≠ [] := by
  induction text generalizing depth with
  | nil => simp [cutAtDepth]
  | cons char rest ih =>
    unfold cutAtDepth
    split
    · simp
    · simp [ih]

private theorem modifyHead_append {items : List (List Char)} (present : items ≠ []) (f : List Char → List Char)
    (others : List (List Char)) : (items ++ others).modifyHead f = items.modifyHead f ++ others := by
  cases items with
  | nil => exact absurd rfl present
  | cons first rest => rfl

/-- A separator outside all brackets cuts a balanced text off what follows it. -/
theorem cutAtDepth_append_cons {depth : Int} {text : List Char} {separator : Char}
    (level : ∀ char depth, separates char depth = true → depthStep char = 0)
    (closes : closesFrom depth text = true) (outside : separates separator 0 = true) (rest : List Char) :
    cutAtDepth separates depth (text ++ separator :: rest) =
      cutAtDepth separates depth text ++ cutAtDepth separates 0 rest := by
  induction text generalizing depth with
  | nil =>
    obtain rfl : depth = 0 := by simpa [closesFrom] using closes
    simp [cutAtDepth, outside]
  | cons char text ih =>
    simp only [closesFrom, Bool.and_eq_true] at closes
    rw [List.cons_append, cutAtDepth, cutAtDepth]
    split
    next cuts =>
      have kept := closes.2
      rw [level char depth cuts, Int.add_zero] at kept
      rw [ih kept, List.cons_append]
    next => rw [ih closes.2, modifyHead_append (cutAtDepth_ne_nil _ _ _)]

/-- How much deeper a text ends than it begins. -/
def rise : List Char → Int
  | [] => 0
  | char :: rest => depthStep char + rise rest

theorem add_rise_of_closes {depth : Int} {text : List Char} (closes : closesFrom depth text = true) :
    depth + rise text = 0 := by
  induction text generalizing depth with
  | nil => simpa [closesFrom, rise] using closes
  | cons char text ih =>
    simp only [closesFrom, Bool.and_eq_true] at closes
    rw [rise, ← Int.add_assoc, ih closes.2]

/-- Behind a text that is not cut, what follows is cut from the depth where the text ends. -/
theorem cutAtDepth_append_of_uncut {depth : Int} {text : List Char} (uncut : cutAtDepth separates depth text = [text])
    (rest : List Char) : cutAtDepth separates depth (text ++ rest) =
      (cutAtDepth separates (depth + rise text) rest).modifyHead (text ++ ·) := by
  induction text generalizing depth with
  | nil =>
    rw [rise, Int.add_zero]
    exact (congrFun List.modifyHead_id _).symm
  | cons char text ih =>
    rw [cutAtDepth] at uncut
    rw [List.cons_append, cutAtDepth]
    split at uncut
    · cases uncut
    next kept =>
      obtain ⟨first, others, pieces⟩ :=
        List.exists_cons_of_ne_nil (cutAtDepth_ne_nil separates (depth + depthStep char) text)
      rw [pieces, List.modifyHead_cons] at uncut
      obtain ⟨rfl, rfl⟩ : first = text ∧ others = [] := by simpa using uncut
      rw [if_neg kept, ih pieces, List.modifyHead_modifyHead, rise, Int.add_assoc]
      rfl

/-- Behind brackets that are open a separator of the outside cuts nothing. -/
theorem cutAtDepth_append_inside {depth base : Int} {text : List Char}
    (outer : ∀ char depth, 0 < depth → separates char depth = false) (closes : closesFrom depth text = true)
    (above : 0 ≤ depth) (inside : 0 < base) (rest : List Char) :
    cutAtDepth separates (depth + base) (text ++ rest) = (cutAtDepth separates base rest).modifyHead (text ++ ·) := by
  induction text generalizing depth with
  | nil =>
    obtain rfl : depth = 0 := by simpa [closesFrom] using closes
    rw [Int.zero_add]
    exact (congrFun List.modifyHead_id _).symm
  | cons char text ih =>
    simp only [closesFrom, Bool.and_eq_true, decide_eq_true_eq] at closes
    rw [List.cons_append, cutAtDepth, if_neg (by simp [outer char (depth + base) (by omega)]),
      Int.add_right_comm, ih closes.2 closes.1, List.modifyHead_modifyHead]
    rfl

theorem cutAtDepth_of_absent {text : List Char} (absent : ∀ char ∈ text, ∀ depth, separates char depth = false)
    (depth : Int) : cutAtDepth separates depth text = [text] := by
  induction text generalizing depth with
  | nil => rfl
  | cons char text ih =>
    rw [cutAtDepth, if_neg (by simp [absent char List.mem_cons_self depth]),
      ih fun other member => absent other (List.mem_cons_of_mem _ member)]
    rfl

/-- A balanced text that is cut nowhere. -/
structure Intact (separates : Char → Int → Bool) (text : List Char) : Prop where
  balanced : isBalanced text = true
  uncut : cutAtDepth separates 0 text = [text]

theorem isBalanced_append {left right : List Char} (before : isBalanced left = true) (after : isBalanced right = true) :
    isBalanced (left ++ right) = true :=
  (closesFrom_append before (Int.le_refl 0) right).trans after

theorem isBalanced_of_bracketless {text : List Char} (bracketless : ∀ char ∈ text, depthStep char = 0) :
    isBalanced text = true := by
  induction text with
  | nil => rfl
  | cons char text ih =>
    have later := ih fun other member => bracketless other (List.mem_cons_of_mem _ member)
    unfold isBalanced closesFrom
    rw [bracketless char List.mem_cons_self]
    exact later

theorem Intact.append {left right : List Char} (before : Intact separates left) (after : Intact separates right) :
    Intact separates (left ++ right) where
  balanced := isBalanced_append before.balanced after.balanced
  uncut := by
    rw [cutAtDepth_append_of_uncut before.uncut, add_rise_of_closes before.balanced, after.uncut]
    rfl

theorem intact_of_bracketless {text : List Char} (bracketless : ∀ char ∈ text, depthStep char = 0)
    (absent : ∀ char ∈ text, ∀ depth, separates char depth = false) : Intact separates text :=
  ⟨isBalanced_of_bracketless bracketless, cutAtDepth_of_absent absent 0⟩

theorem intact_enclosed {opening closing : Char} {inner : List Char}
    (outer : ∀ char depth, 0 < depth → separates char depth = false) (opens : depthStep opening = 1)
    (closes : depthStep closing = -1) (kept : separates opening 0 = false) (balanced : isBalanced inner = true) :
    Intact separates (opening :: (inner ++ [closing])) where
  balanced := by
    have back := closesFrom_append balanced Int.one_nonneg [closing]
    simp only [isBalanced, closesFrom, opens, Int.zero_add] at back ⊢
    simp [back, closes]
  uncut := by
    have through := cutAtDepth_append_inside outer balanced (Int.le_refl 0) Int.zero_lt_one [closing]
    rw [Int.zero_add] at through
    simp [cutAtDepth, kept, opens, through, outer closing 1 Int.zero_lt_one]

theorem isBalanced_intercalate {separator : Char} {items : List (List Char)} (level : depthStep separator = 0)
    (balanced : ∀ item ∈ items, isBalanced item = true) : isBalanced ([separator].intercalate items) = true := by
  have mark : isBalanced [separator] = true := isBalanced_of_bracketless (by simpa using level)
  induction items with
  | nil => rfl
  | cons first rest ih =>
    have here := balanced first List.mem_cons_self
    have later := ih fun item member => balanced item (List.mem_cons_of_mem _ member)
    cases rest with
    | nil => rwa [List.intercalate_singleton]
    | cons next others =>
      rw [List.intercalate_cons_cons]
      exact isBalanced_append (isBalanced_append here mark) later

/-- Joined by a separator, texts that it does not cut are what it cuts the whole into. -/
theorem cutAtDepth_intercalate {separator : Char} {items : List (List Char)}
    (level : ∀ char depth, separates char depth = true → depthStep char = 0) (outside : separates separator 0 = true)
    (present : items ≠ []) (intact : ∀ item ∈ items, Intact separates item) :
    cutAtDepth separates 0 ([separator].intercalate items) = items := by
  induction items with
  | nil => exact absurd rfl present
  | cons first rest ih =>
    have here := intact first List.mem_cons_self
    cases rest with
    | nil => rw [List.intercalate_singleton, here.uncut]
    | cons next others =>
      have later := ih (List.cons_ne_nil next others) fun item member => intact item (List.mem_cons_of_mem _ member)
      rw [List.intercalate_cons_cons, List.append_assoc, List.singleton_append,
        cutAtDepth_append_cons level here.balanced outside, here.uncut, later]
      rfl

/-- Whether a separator stands outside all brackets. A text that has closed too many counts as outside. -/
def outside (separator char : Char) (depth : Int) : Bool := char = separator && decide (depth ≤ 0)

theorem outside_level {separator : Char} (level : depthStep separator = 0) :
    ∀ char depth, outside separator char depth = true → depthStep char = 0 := by
  intro char depth cuts
  simp only [outside, Bool.and_eq_true, decide_eq_true_eq] at cuts
  rw [cuts.1, level]

theorem outside_of_pos (separator : Char) : ∀ char depth, 0 < depth → outside separator char depth = false := by
  intro char depth inside
  simp only [outside, Bool.and_eq_false_iff, decide_eq_false_iff_not]
  exact .inr (by omega)

theorem outside_of_ne {separator char : Char} (other : char ≠ separator) (depth : Int) :
    outside separator char depth = false := by
  simp [outside, other]

theorem map_trim_splitTopLevel (separator : Char) (text : List Char) :
    (splitTopLevel separator text).map trim = (cutAtDepth (outside separator) 0 text).map trim := by
  unfold splitTopLevel outside
  split
  next pieces => rw [pieces]
  next first rest pieces =>
    rw [pieces, List.map_cons, List.map_cons, List.map_map]
    congr 1
    exact List.map_congr_left fun piece _ => trim_trimStart piece

end ParamSweep.Text
