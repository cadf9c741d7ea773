import Mathlib.Data.List.Forall2
import ParamSweep.Proofs.Brackets

/-! The outline of a text is what it holds of brackets and commas. Where commas cut a text depends on nothing else,
and no bracket needs to close for it: pieces of the same outlines are cut apart alike. -/

namespace ParamSweep.Text

/-- The brackets and commas of a text, in order. -/
def outline (text : List Char) : List Char := text.filter fun char => depthStep char != 0 || char == ','

@[simp] theorem outline_append (left right : List Char) : outline (left ++ right) = outline left ++ outline right :=
  List.filter_append ..

theorem outline_eq_nil_iff {text : List Char} :
    outline text = [] ↔ ∀ char ∈ text, depthStep char = 0 ∧ char ≠ ',' := by
  simp [outline]

theorem outline_intercalate (separator : List Char) (texts : List (List Char)) :
    outline (separator.intercalate texts) = (outline separator).intercalate (texts.map outline) :=
  filter_intercalate _ separator texts

/-- Texts that hold at least what others do are joined to the same only if they are the same. -/
theorem intercalate_sublist {ι : Type} {left right : ι → List Char} {items : List ι} (separator : List Char)
    (inside : ∀ item ∈ items, (left item).Sublist (right item)) :
    (separator.intercalate (items.map left)).Sublist (separator.intercalate (items.map right)) ∧
      (separator.intercalate (items.map left) = separator.intercalate (items.map right) ↔
        ∀ item ∈ items, left item = right item) := by
  induction items with
  | nil => exact ⟨.refl _, by simp⟩
  | cons first rest ih =>
    obtain ⟨here, later⟩ := List.forall_mem_cons.mp inside
    cases rest with
    | nil => simpa using here
    | cons next others =>
      obtain ⟨behind, same⟩ := ih later
      simp only [List.map_cons, List.intercalate_cons_cons] at behind same ⊢
      refine ⟨(here.append (.refl separator)).append behind, ?_⟩
      rw [List.forall_mem_cons, ← same]
      constructor
      · intro joined
        have lengths := congrArg List.length joined
        simp only [List.length_append] at lengths
        have bound := here.length_le
        have bounds := behind.length_le
        have first := here.eq_of_length (by omega)
        rw [first] at joined
        exact ⟨first, List.append_cancel_left joined⟩
      · rintro ⟨first, rest⟩
        rw [first, rest]

private theorem outline_of_blank {text : List Char} (blank : ∀ char ∈ text, isBlank char = true) : outline text = [] :=
  outline_eq_nil_iff.mpr fun char member => unmarked_of_class (blank char member) (by decide)

theorem outline_trimStart (text : List Char) : outline (trimStart text) = outline text := by
  conv_rhs => rw [← List.takeWhile_append_dropWhile (p := isBlank) (l := text)]
  rw [outline_append, outline_of_blank fun char member => List.mem_takeWhile_imp member, List.nil_append, trimStart]

theorem outline_enclosed {opening closing : Char} (opens : depthStep opening ≠ 0) (closes : depthStep closing ≠ 0)
    (inner : List Char) : outline (opening :: (inner ++ [closing])) = opening :: (outline inner ++ [closing]) := by
  simp [outline, opens, closes]

/-- White space around a text has no part in its outline. -/
theorem outline_trim (text : List Char) : outline (trim text) = outline text := by
  unfold trim trimEnd
  rw [outline, List.filter_reverse, ← outline, ← trimStart, outline_trimStart, outline, List.filter_reverse,
    List.reverse_reverse, ← outline, outline_trimStart]

theorem rise_outline (text : List Char) : rise (outline text) = rise text := by
  induction text with
  | nil => rfl
  | cons char rest ih =>
    rw [outline, List.filter_cons]
    split
    · rw [rise, rise, ← outline, ih]
    next unmarked =>
      have level : depthStep char = 0 := by simp_all
      rw [rise, level, Int.zero_add, ← outline, ih]

theorem length_cutAtDepth_outline (depth : Int) (text : List Char) :
    (cutAtDepth (outside ',') depth (outline text)).length = (cutAtDepth (outside ',') depth text).length := by
  induction text generalizing depth with
  | nil => rfl
  | cons char rest ih =>
    rw [outline, List.filter_cons, ← outline]
    split
    · rw [cutAtDepth, cutAtDepth]
      split
      · rw [List.length_cons, List.length_cons, ih]
      · rw [List.length_modifyHead, List.length_modifyHead, ih]
    next unmarked =>
      have plain : depthStep char = 0 ∧ char ≠ ',' := by simp_all
      rw [cutAtDepth, outside_of_ne plain.2, if_neg Bool.false_ne_true, List.length_modifyHead, plain.1, Int.add_zero,
        ih]

/-- Put together again with commas between them, pieces are the text that they were cut from. -/
theorem intercalate_cutAtDepth (depth : Int) (text : List Char) :
    [','].intercalate (cutAtDepth (outside ',') depth text) = text := by
  induction text generalizing depth with
  | nil => rfl
  | cons char rest ih =>
    rw [cutAtDepth]
    split
    next cuts =>
      obtain ⟨rfl, -⟩ : char = ',' ∧ depth ≤ 0 := by simpa [outside] using cuts
      obtain ⟨first, others, pieces⟩ := List.exists_cons_of_ne_nil (cutAtDepth_ne_nil (outside ',') depth rest)
      have whole := ih depth
      rw [pieces] at whole ⊢
      rw [List.intercalate_cons_cons, whole]
      rfl
    next =>
      obtain ⟨first, others, pieces⟩ :=
        List.exists_cons_of_ne_nil (cutAtDepth_ne_nil (outside ',') (depth + depthStep char) rest)
      have whole := ih (depth + depthStep char)
      rw [pieces] at whole ⊢
      cases others with
      | nil => simpa using whole
      | cons => simpa [List.intercalate_cons_cons] using whole

theorem uncut_of_outline {depth : Int} {left right : List Char} (same : outline left = outline right)
    (uncut : cutAtDepth (outside ',') depth left = [left]) : cutAtDepth (outside ',') depth right = [right] := by
  have single : (cutAtDepth (outside ',') depth right).length = 1 := by
    rw [← length_cutAtDepth_outline, ← same, length_cutAtDepth_outline, uncut, List.length_singleton]
  obtain ⟨piece, pieces⟩ := List.length_eq_one_iff.mp single
  have whole := intercalate_cutAtDepth depth right
  rw [pieces, List.intercalate_singleton] at whole
  rw [pieces, whole]

theorem closesFrom_outline {depth : Int} (above : 0 ≤ depth) (text : List Char) :
    closesFrom depth (outline text) = closesFrom depth text := by
  induction text generalizing depth with
  | nil => rfl
  | cons char rest ih =>
    rw [outline, List.filter_cons, ← outline]
    split
    · rw [closesFrom, closesFrom]
      by_cases under : 0 ≤ depth + depthStep char
      · rw [ih under]
      · simp [under]
    next unmarked =>
      have level : depthStep char = 0 := by simp_all
      rw [closesFrom, level, Int.add_zero, ih above]
      simp [above]

theorem Intact.of_outline {left right : List Char} (intact : Intact (outside ',') left)
    (same : outline left = outline right) : Intact (outside ',') right where
  balanced := by
    rw [isBalanced, ← closesFrom_outline (Int.le_refl 0), ← same, closesFrom_outline (Int.le_refl 0)]
    exact intact.balanced
  uncut := uncut_of_outline same intact.uncut

/-- Whether texts are what commas cut a text into from a depth on: none of them is cut, and each but the last ends
outside all brackets. -/
inductive Pieces : Int → List (List Char) → Prop
  | last {depth : Int} {text : List Char} (uncut : cutAtDepth (outside ',') depth text = [text]) : Pieces depth [text]
  | cons {depth : Int} {text : List Char} {rest : List (List Char)}
      (uncut : cutAtDepth (outside ',') depth text = [text]) (outer : depth + rise text ≤ 0)
      (later : Pieces (depth + rise text) rest) : Pieces depth (text :: rest)

theorem pieces_cutAtDepth (depth : Int) (text : List Char) : Pieces depth (cutAtDepth (outside ',') depth text) := by
  induction text generalizing depth with
  | nil => exact .last rfl
  | cons char rest ih =>
    have longer {piece : List Char} (kept : ¬outside ',' char depth = true)
        (uncut : cutAtDepth (outside ',') (depth + depthStep char) piece = [piece]) :
        cutAtDepth (outside ',') depth (char :: piece) = [char :: piece] := by
      rw [cutAtDepth, if_neg kept, uncut]
      rfl
    rw [cutAtDepth]
    split
    next cuts =>
      have outer : depth ≤ 0 := by simp_all [outside]
      exact .cons rfl (by simpa [rise] using outer) (by simpa [rise] using ih depth)
    next kept =>
      cases pieces : cutAtDepth (outside ',') (depth + depthStep char) rest with
      | nil => exact absurd pieces (cutAtDepth_ne_nil _ _ _)
      | cons first others =>
        have behind := ih (depth + depthStep char)
        rw [pieces] at behind
        rw [List.modifyHead_cons]
        cases behind with
        | last uncut => exact .last (longer kept uncut)
        | cons uncut outer later =>
          rw [Int.add_assoc] at outer later
          exact .cons (longer kept uncut) outer later

theorem cutAtDepth_of_pieces {depth : Int} {texts : List (List Char)} (pieces : Pieces depth texts) :
    cutAtDepth (outside ',') depth ([','].intercalate texts) = texts := by
  induction pieces with
  | last uncut => rw [List.intercalate_singleton, uncut]
  | @cons depth text rest uncut outer later ih =>
    obtain ⟨next, others, rfl⟩ : ∃ next others, rest = next :: others := by
      cases later <;> exact ⟨_, _, rfl⟩
    have comma : outside ',' ',' (depth + rise text) = true := by simpa [outside] using outer
    rw [List.intercalate_cons_cons, List.append_assoc, cutAtDepth_append_of_uncut uncut, List.singleton_append,
      cutAtDepth, if_pos comma, ih, List.modifyHead_cons, List.append_nil]

theorem Pieces.of_outline {depth : Int} {texts others : List (List Char)} (pieces : Pieces depth texts)
    (same : List.Forall₂ (fun left right => outline left = outline right) texts others) : Pieces depth others := by
  induction pieces generalizing others with
  | last uncut =>
    cases same with
    | cons here there =>
      cases there
      exact .last (uncut_of_outline here uncut)
  | @cons depth text rest uncut outer _ ih =>
    cases same with
    | @cons _ other _ rest here there =>
      have level : rise other = rise text := by rw [← rise_outline, ← here, rise_outline]
      exact .cons (uncut_of_outline here uncut) (level ▸ outer) (level ▸ ih there)

/-- Texts as they stand in print, with a space in front of all but the first. -/
def spaced : List (List Char) → List (List Char)
  | [] => []
  | first :: rest => first :: rest.map (' ' :: ·)

theorem intercalate_spaced (texts : List (List Char)) :
    [','].intercalate (spaced texts) = [',', ' '].intercalate texts := by
  cases texts with
  | nil => rfl
  | cons first rest =>
    rw [spaced]
    induction rest generalizing first with
    | nil => simp
    | cons next others ih =>
      have later := ih (' ' :: next)
      rw [List.map_cons, List.intercalate_cons_cons, later]
      cases others <;> simp [List.intercalate_cons_cons]

theorem map_trim_spaced {texts : List (List Char)} (trimmed : ∀ text ∈ texts, Trimmed text) :
    (spaced texts).map trim = texts := by
  have unspaced (text : List Char) : trim (' ' :: text) = trim text := rfl
  have kept : texts.map trim = texts :=
    (List.map_congr_left fun text member => (trimmed text member).trim_eq).trans (List.map_id _)
  cases texts with
  | nil => rfl
  | cons first rest =>
    simp only [spaced, List.map_cons, List.map_map, Function.comp_def, unspaced] at kept ⊢
    exact kept

theorem Pieces.of_spaced {depth : Int} {pieces texts : List (List Char)} (cut : Pieces depth pieces)
    (same : List.Forall₂ (fun piece text => outline piece = outline text) pieces texts) :
    Pieces depth (spaced texts) := by
  apply cut.of_outline
  cases same with
  | nil => exact .nil
  | cons here later => exact .cons here (List.forall₂_map_right_iff.mpr later)

end ParamSweep.Text
