import ParamSweep.Text.Blank

/-! Bracket depth. An opening bracket goes one level down and a closing one comes back up; separators
count only outside all brackets. -/

namespace ParamSweep.Text

/-- What a character adds to the bracket depth. -/
def depthStep (char : Char) : Int :=
  if char = '[' ∨ char = '(' then 1 else if char = ']' ∨ char = ')' then -1 else 0

/-- Cuts before and after each character that `separates` at the depth where it stands. A separator
itself leaves the depth unchanged. -/
def cutAtDepth (separates : Char → Int → Bool) : Int → List Char → List (List Char)
  | _, [] => [[]]
  | depth, char :: rest =>
    if separates char depth then [] :: cutAtDepth separates depth rest
    else (cutAtDepth separates (depth + depthStep char) rest).modifyHead (char :: ·)

/-- Pieces between the separators outside all brackets, without the white space that follows a
separator. A text that has closed too many brackets counts as outside. -/
def splitTopLevel (separator : Char) (text : List Char) : List (List Char) :=
  match cutAtDepth (fun char depth => char = separator && decide (depth ≤ 0)) 0 text with
  | [] => []
  | first :: rest => first :: rest.map trimStart

/-- Scans on from a depth: no bracket may close before one is open, and none may stay open. -/
def closesFrom : Int → List Char → Bool
  | depth, [] => depth = 0
  | depth, char :: rest => 0 ≤ depth + depthStep char && closesFrom (depth + depthStep char) rest

def isBalanced (text : List Char) : Bool := closesFrom 0 text

theorem length_le_of_mem_cutAtDepth {separates : Char → Int → Bool} {text : List Char} :
    ∀ {depth : Int} {piece : List Char}, piece ∈ cutAtDepth separates depth text →
      piece.length ≤ text.length := by
  induction text with
  | nil => simp [cutAtDepth]
  | cons char rest ih =>
    intro depth piece mem
    unfold cutAtDepth at mem
    split at mem
    · rcases List.mem_cons.mp mem with rfl | found
      · simp
      · exact Nat.le_succ_of_le (ih found)
    · cases parts : cutAtDepth separates (depth + depthStep char) rest with
      | nil => simp [parts] at mem
      | cons first others =>
        rw [parts, List.modifyHead_cons] at mem
        have bound {part : List Char} (inside : part ∈ first :: others) : part.length ≤ rest.length :=
          ih (parts ▸ inside)
        rcases List.mem_cons.mp mem with rfl | found
        · simpa using bound List.mem_cons_self
        · exact Nat.le_succ_of_le (bound (List.mem_cons_of_mem first found))

theorem length_le_of_mem_splitTopLevel {separator : Char} {text piece : List Char}
    (mem : piece ∈ splitTopLevel separator text) : piece.length ≤ text.length := by
  unfold splitTopLevel at mem
  split at mem
  · simp at mem
  next first rest parts =>
    have bound := fun {part : List Char} (inside : part ∈ first :: rest) =>
      length_le_of_mem_cutAtDepth (parts ▸ inside)
    rcases List.mem_cons.mp mem with rfl | found
    · exact bound (by simp)
    · obtain ⟨part, inside, rfl⟩ := List.mem_map.mp found
      exact Nat.le_trans (length_trimStart_le part) (bound (by simp [inside]))

end ParamSweep.Text
