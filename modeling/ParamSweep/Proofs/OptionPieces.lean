import ParamSweep.Proofs.BracketOutline
import ParamSweep.Proofs.OptionTexts

/-! The pieces of an option text. The commas outside all brackets of a balanced text, and no others, divide it into
pieces. Each of these is balanced too and has no more commas outside all brackets. -/

namespace ParamSweep

namespace Text

theorem rise_append (left right : List Char) : rise (left ++ right) = rise left + rise right := by
  induction left with
  | nil => rw [List.nil_append, rise, Int.zero_add]
  | cons char left ih => rw [List.cons_append, rise, rise, ih, Int.add_assoc]

theorem rise_of_balanced {text : List Char} (balanced : isBalanced text = true) : rise text = 0 := by
  have level := add_rise_of_closes balanced
  omega

section
variable {separates : Char → Int → Bool}

private theorem closes_pieces (level : ∀ char depth, separates char depth = true → depthStep char = 0)
    (outer : ∀ char depth, 0 < depth → separates char depth = false) {depth : Int} {text first : List Char}
    {others : List (List Char)} (above : 0 ≤ depth) (closes : closesFrom depth text = true)
    (cut : cutAtDepth separates depth text = first :: others) :
    (closesFrom depth first = true ∧ cutAtDepth separates depth first = [first]) ∧
      ∀ piece ∈ others, Intact separates piece := by
  induction text generalizing depth first others with
  | nil =>
    cases cut
    exact ⟨⟨closes, rfl⟩, by simp⟩
  | cons char rest ih =>
    obtain ⟨next, later, pieces⟩ :=
      List.exists_cons_of_ne_nil (cutAtDepth_ne_nil separates (depth + depthStep char) rest)
    rw [closesFrom, Bool.and_eq_true, decide_eq_true_eq] at closes
    obtain ⟨here, behind⟩ := ih closes.1 closes.2 pieces
    rw [cutAtDepth] at cut
    split at cut
    next cuts =>
      -- A separator is outside all brackets, so the next piece begins at depth zero.
      obtain rfl : depth = 0 := Int.le_antisymm
        (Int.not_lt.mp fun inside => Bool.false_ne_true ((outer char depth inside).symm.trans cuts)) above
      rw [level char 0 cuts, Int.add_zero] at pieces here
      cases pieces ▸ cut
      refine ⟨⟨rfl, rfl⟩, List.forall_mem_cons.mpr ⟨⟨here.1, here.2⟩, behind⟩⟩
    next kept =>
      rw [pieces, List.modifyHead_cons] at cut
      cases cut
      refine ⟨⟨?_, ?_⟩, behind⟩
      · rw [closesFrom, here.1, Bool.and_true]
        exact decide_eq_true closes.1
      · rw [cutAtDepth, if_neg kept, here.2]
        rfl

/-- What a balanced text is cut into is balanced and cut no further. -/
theorem intact_of_mem_cutAtDepth (level : ∀ char depth, separates char depth = true → depthStep char = 0)
    (outer : ∀ char depth, 0 < depth → separates char depth = false) {text : List Char}
    (balanced : isBalanced text = true) : ∀ piece ∈ cutAtDepth separates 0 text, Intact separates piece := by
  obtain ⟨first, others, cut⟩ := List.exists_cons_of_ne_nil (cutAtDepth_ne_nil separates 0 text)
  obtain ⟨here, behind⟩ := closes_pieces level outer (Int.le_refl 0) balanced cut
  rw [cut]
  exact List.forall_mem_cons.mpr ⟨⟨here.1, here.2⟩, behind⟩

end

/-- In a text that a separator does not cut, it stands inside brackets only. -/
theorem rise_pos_of_uncut {separator : Char} {depth : Int} {before after : List Char}
    (uncut : cutAtDepth (outside separator) depth (before ++ separator :: after) = [before ++ separator :: after]) :
    0 < depth + rise before := by
  induction before generalizing depth with
  | nil =>
    rw [List.nil_append, cutAtDepth] at uncut
    split at uncut
    · cases uncut
    next kept => simpa [outside, rise] using kept
  | cons char before ih =>
    rw [List.cons_append, cutAtDepth] at uncut
    split at uncut
    · cases uncut
    next =>
      obtain ⟨first, others, pieces⟩ := List.exists_cons_of_ne_nil
        (cutAtDepth_ne_nil (outside separator) (depth + depthStep char) (before ++ separator :: after))
      rw [pieces, List.modifyHead_cons] at uncut
      obtain ⟨rfl, rfl⟩ : first = before ++ separator :: after ∧ others = [] := by simpa using uncut
      rw [rise, ← Int.add_assoc]
      exact ih pieces

theorem Intact.rise_ne_zero {separator : Char} {text before after : List Char}
    (intact : Intact (outside separator) text) (found : text = before ++ separator :: after) : rise before ≠ 0 := by
  have inside := rise_pos_of_uncut (found ▸ intact.uncut)
  omega

/-- Among joined pieces a comma outside all brackets is one that joins them. -/
theorem joint_of_rise_eq_zero {first before after : List Char} {others : List (List Char)}
    (intact : ∀ piece ∈ first :: others, Intact (outside ',') piece)
    (found : [','].intercalate (first :: others) = before ++ ',' :: after) (outer : rise before = 0) :
    ∃ left next right, others = left ++ next :: right ∧ before = [','].intercalate (first :: left) := by
  obtain ⟨here, behind⟩ := List.forall_mem_cons.mp intact
  induction others generalizing first before with
  | nil =>
    rw [List.intercalate_singleton] at found
    exact absurd outer (here.rise_ne_zero found)
  | cons next rest ih =>
    rw [List.intercalate_cons_cons, List.append_assoc, List.singleton_append] at found
    rcases List.append_eq_append_iff.mp found with ⟨between, rfl, tails⟩ | ⟨between, inside, tails⟩
    · cases between with
      | nil => exact ⟨[], next, rest, rfl, by simp⟩
      | cons mark between =>
        obtain ⟨rfl, same⟩ := List.cons.inj tails
        have level : depthStep ',' = 0 := rfl
        rw [rise_append, rise_of_balanced here.balanced, rise, level, Int.zero_add, Int.zero_add] at outer
        obtain ⟨there, later⟩ := List.forall_mem_cons.mp behind
        obtain ⟨left, following, right, rfl, rfl⟩ := ih behind same outer there later
        exact ⟨next :: left, following, right, rfl, by simp [List.intercalate_cons_cons]⟩
    · cases between with
      | nil => exact ⟨[], next, rest, rfl, by simpa using inside.symm⟩
      | cons mark between =>
        obtain ⟨rfl, -⟩ := List.cons.inj tails
        exact absurd outer (here.rise_ne_zero inside)

end Text

namespace Options
open Text

/-- Pieces put together again: each but the first stands behind a comma and a gap. -/
def joined (first : List Char) (rest : List (List Char × List Char)) : List Char :=
  [','].intercalate (first :: rest.map fun part => part.1 ++ part.2)

/-- How commas divide a text into pieces, where white space behind a comma belongs to no piece. -/
structure Divided (text first : List Char) (rest : List (List Char × List Char)) : Prop where
  whole : text = joined first rest
  gaps : ∀ part ∈ rest, (∀ char ∈ part.1, isBlank char = true) ∧ ∀ char ∈ part.2.head?, isBlank char = false
  commas : ∀ before after, text = before ++ ',' :: after →
    (rise before = 0 ↔ ∃ left next right, rest = left ++ next :: right ∧ before = joined first left)
  pieces : ∀ piece ∈ first :: rest.map Prod.snd,
    isBalanced piece = true ∧ ∀ before after, piece = before ++ ',' :: after → rise before ≠ 0

/-- A piece behind its gap. -/
private def parted (piece : List Char) : List Char × List Char := (piece.takeWhile isBlank, trimStart piece)

private theorem map_parted (pieces : List (List Char)) :
    (pieces.map parted).map (fun part => part.1 ++ part.2) = pieces := by
  rw [List.map_map]
  exact (List.map_congr_left fun piece _ => List.takeWhile_append_dropWhile).trans (List.map_id _)

theorem divided_of_intact {first : List Char} {others : List (List Char)}
    (intact : ∀ piece ∈ first :: others, Intact (outside ',') piece) :
    Divided ([','].intercalate (first :: others)) first (others.map parted) where
  whole := by rw [joined, map_parted]
  gaps := by
    refine List.forall_mem_map.mpr fun piece _ => ⟨fun char => List.mem_takeWhile_imp, fun char head => ?_⟩
    exact trimStart_eq_self_iff.mp (List.dropWhile_idempotent _ _) char head
  commas before after found := by
    constructor
    · intro outer
      obtain ⟨left, next, right, rfl, rfl⟩ := joint_of_rise_eq_zero intact found outer
      exact ⟨left.map parted, parted next, right.map parted, by simp, by rw [joined, map_parted]⟩
    · rintro ⟨left, next, right, parts, rfl⟩
      obtain ⟨left, later, rfl, rfl, -⟩ := List.map_eq_append_iff.mp parts
      rw [joined, map_parted]
      refine rise_of_balanced (isBalanced_intercalate (by decide) fun piece member => (intact piece ?_).balanced)
      rw [← List.cons_append]
      exact List.mem_append_left later member
  pieces := by
    have trimmed : ∀ piece ∈ first :: others.map trimStart, Intact (outside ',') piece := by
      obtain ⟨here, behind⟩ := List.forall_mem_cons.mp intact
      refine List.forall_mem_cons.mpr ⟨here, List.forall_mem_map.mpr fun piece member => ?_⟩
      exact (behind piece member).of_outline (outline_trimStart piece).symm
    rw [List.map_map]
    exact fun piece member => ⟨(trimmed piece member).balanced, fun _ _ => (trimmed piece member).rise_ne_zero⟩

/-- A balanced text is divided at the commas outside all brackets, into pieces that are balanced and divided no
further. -/
theorem split_divided {text : String} (balanced : isBalanced text.toList = true) :
    ∃ first rest, split text = .ok ((first :: rest.map Prod.snd).map String.ofList) ∧
      Divided text.toList first rest := by
  obtain ⟨first, others, cut⟩ := List.exists_cons_of_ne_nil (cutAtDepth_ne_nil (outside ',') 0 text.toList)
  have intact := intact_of_mem_cutAtDepth outside_comma_level (outside_of_pos ',') balanced
  have whole := intercalate_cutAtDepth 0 text.toList
  rw [cut] at intact whole
  refine ⟨first, others.map parted, ?_, ?_⟩
  · have pieces : splitTopLevel ',' text.toList = first :: others.map trimStart := by
      unfold outside at cut
      rw [splitTopLevel, cut]
    rw [split, if_pos balanced, pieces, List.map_map]
    rfl
  · have divided := divided_of_intact intact
    rwa [whole] at divided

theorem split_divided_nested :
    isBalanced "a=([1, 2],3),  b=(),,c".toList = true ∧
    split "a=([1, 2],3),  b=(),,c" = .ok ["a=([1, 2],3)", "b=()", "", "c"] ∧
    ∃ first rest, split "a=([1, 2],3),  b=(),,c" = .ok ((first :: rest.map Prod.snd).map String.ofList) ∧
      Divided "a=([1, 2],3),  b=(),,c".toList first rest :=
  ⟨by decide, rfl, split_divided (by decide)⟩

end Options
end ParamSweep
