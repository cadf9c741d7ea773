import ParamSweep.Proofs.JsonScalars

/-! Compact JSON texts. A text that is read as one value wherever it stands can be put between commas in brackets, and
behind a key in braces, and what that makes is read as the array or the object again. -/

namespace ParamSweep

namespace Json

/-- Neither white space nor a closing bracket is in front. -/
def Begins (text : List Char) : Prop :=
  ∃ first others, text = first :: others ∧ isSpace first = false ∧ first ≠ ']' ∧ first ≠ '\x7d'

/-- A text is read as a value of the syntax whatever stands behind it, unless that goes on with a number. The bound
covers the calls that reading takes inside each other. -/
structure Reads (text : List Char) (json : Json) : Prop where
  begins : Begins text
  reads : ∀ (calls : Nat) (rest : List Char), 2 * text.length ≤ calls → Stops rest →
    readValue calls (text ++ rest) = some (json, rest)

section
variable {text rest : List Char} {json : Json}

theorem Begins.append (begins : Begins text) (rest : List Char) : Begins (text ++ rest) := by
  obtain ⟨first, others, rfl, shown⟩ := begins
  exact ⟨first, others ++ rest, rfl, shown⟩

theorem Begins.intercalate (begins : Begins text) (separator : List Char) (texts : List (List Char)) :
    Begins (separator.intercalate (text :: texts)) := by
  cases texts with
  | nil => rwa [List.intercalate_singleton]
  | cons next texts =>
    rw [List.intercalate_cons_cons, List.append_assoc]
    exact begins.append _

theorem Begins.skipSpace_eq (begins : Begins text) : skipSpace text = text := by
  obtain ⟨first, others, rfl, shown, -⟩ := begins
  exact List.dropWhile_cons_of_neg (Bool.eq_false_iff.mp shown)

/-- What is read in one call. -/
theorem reads_of_single (begins : Begins text)
    (reads : ∀ calls rest, Stops rest → readValue (calls + 1) (text ++ rest) = some (json, rest)) : Reads text json where
  begins
  reads calls rest enough stops := by
    obtain ⟨first, others, rfl, -⟩ := begins
    cases calls with
    | zero => cases enough
    | succ calls => exact reads calls rest stops

theorem reads_null : Reads ['n', 'u', 'l', 'l'] .null :=
  reads_of_single ⟨'n', _, rfl, by decide⟩ fun _ _ _ => rfl

theorem reads_boolText (value : Bool) : Reads (boolText value).toList (.bool value) := by
  cases value
  · exact reads_of_single ⟨'f', _, rfl, by decide⟩ fun _ _ _ => rfl
  · exact reads_of_single ⟨'t', _, rfl, by decide⟩ fun _ _ _ => rfl

theorem toList_stringText (text : String) :
    (stringText text).toList = '"' :: (text.toList.flatMap escapeChar ++ ['"']) := by
  rw [stringText, String.toList_ofList]
  rfl

theorem reads_stringText (text : String) : Reads (stringText text).toList (.string (some text)) := by
  rw [toList_stringText]
  refine reads_of_single ⟨'"', _, rfl, by decide⟩ fun calls rest _ => ?_
  rw [List.cons_append, List.append_assoc, List.singleton_append, readValue, readString_escaped]
  rfl

/-- A digit or a minus sign begins a number and nothing else. -/
theorem reads_intText (number : Int) : Reads (Number.intText number) (.number (integerText number)) := by
  obtain ⟨first, others, spelled⟩ : ∃ first others, Number.intText number = first :: others :=
    List.exists_cons_of_ne_nil (by simp [Number.intText, Nat.toDigits_ne_nil])
  have numeric : first = '-' ∨ first.isDigit = true := Number.mem_intText (spelled ▸ List.mem_cons_self)
  have other (mark : Char) (unsigned : mark ≠ '-') (undigital : mark.isDigit = false) : first ≠ mark := by
    rintro rfl
    rcases numeric with same | digit
    · exact unsigned same
    · rw [undigital] at digit
      cases digit
  have read (rest : List Char) (stops : Stops rest) := readNumber_intText number stops
  rw [spelled] at read ⊢
  refine reads_of_single ⟨first, others, rfl, ?_, other _ (by decide) rfl, other _ (by decide) rfl⟩
    fun calls rest stops => ?_
  · simp [isSpace, other ' ', other '\n', other '\t', other '\r']
  · rw [readValue, read rest stops]
    · rfl
    all_goals
      intro _ same
      exact other _ (by decide) rfl (List.cons.inj same).1

end

/-- What a reader of parts between commas does with the text of one part: it stops at the closing bracket and goes on
behind a comma. -/
structure ReadsPart {α : Type} (read : Nat → List Char → Option (List α × List Char)) (closing : Char)
    (text : List Char) (part : α) : Prop where
  begins : Begins text
  last : ∀ calls rest, 2 * text.length ≤ calls → read (calls + 1) (text ++ closing :: rest) = some ([part], rest)
  more : ∀ calls others, 2 * text.length ≤ calls → Begins others →
    read (calls + 1) (text ++ ',' :: others) = (read calls others).map fun (parts, after) => (part :: parts, after)

theorem readsPart_intercalate {α : Type} {read : Nat → List Char → Option (List α × List Char)} {closing : Char}
    {texts : List (List Char)} {parts : List α} (pairs : List.Forall₂ (ReadsPart read closing) texts parts)
    (present : texts ≠ []) {calls : Nat} (enough : 2 * ([','].intercalate texts).length < calls) (rest : List Char) :
    read calls ([','].intercalate texts ++ closing :: rest) = some (parts, rest) := by
  induction pairs generalizing calls with
  | nil => exact absurd rfl present
  | @cons text _ _ _ here pairs ih =>
    obtain ⟨calls, rfl⟩ := Nat.exists_eq_add_one_of_ne_zero (Nat.ne_zero_of_lt enough)
    cases pairs with
    | nil =>
      rw [List.intercalate_singleton] at enough ⊢
      exact here.last calls rest (Nat.le_of_lt_succ enough)
    | @cons next _ texts _ there pairs =>
      rw [List.intercalate_cons_cons, List.length_append, List.length_append, List.length_singleton] at enough
      rw [List.intercalate_cons_cons, List.append_assoc, List.append_assoc, List.singleton_append,
        here.more calls _ (by omega) ((there.begins.intercalate [','] texts).append _),
        ih (List.cons_ne_nil _ _) (by omega)]
      rfl

theorem Reads.readsPart {text : List Char} {item : Json} (reads : Reads text item) : ReadsPart readItems ']' text item where
  begins := reads.begins
  last calls rest enough := by
    rw [readItems, reads.reads calls _ enough (stops_cons.mpr (by decide))]
    rfl
  more calls others enough begins := by
    rw [readItems, reads.reads calls _ enough (stops_cons.mpr (by decide))]
    change (readItems calls (skipSpace others)).bind _ = _
    rw [begins.skipSpace_eq]
    cases readItems calls others <;> rfl

/-- The text of a member: its key, a colon and a text that is read as its value. -/
def ReadsMember (text : List Char) (member : Option String × Json) : Prop :=
  ∃ key inner, text = (stringText key).toList ++ ':' :: inner ∧ member.1 = some key ∧ Reads inner member.2

theorem ReadsMember.readsPart {text : List Char} {member : Option String × Json} (reads : ReadsMember text member) :
    ReadsPart readMembers '\x7d' text member := by
  obtain ⟨key, item⟩ := member
  obtain ⟨name, inner, rfl, rfl, reads⟩ := reads
  have spelled (rest : List Char) : (stringText name).toList ++ ':' :: inner ++ rest =
      '"' :: (name.toList.flatMap escapeChar ++ '"' :: ':' :: (inner ++ rest)) := by
    rw [toList_stringText]
    simp
  have shorter {calls : Nat} (enough : 2 * ((stringText name).toList ++ ':' :: inner).length ≤ calls) :
      2 * inner.length ≤ calls := by
    rw [List.length_append, List.length_cons] at enough
    omega
  refine ⟨?_, fun calls rest enough => ?_, fun calls others enough begins => ?_⟩
  · rw [toList_stringText]
    exact ⟨'"', _, rfl, by decide⟩
  · rw [spelled, readMembers, readString_escaped]
    change (readValue calls (skipSpace (inner ++ '\x7d' :: rest))).bind _ = _
    rw [(reads.begins.append _).skipSpace_eq, reads.reads calls _ (shorter enough) (stops_cons.mpr (by decide))]
    rfl
  · rw [spelled, readMembers, readString_escaped]
    change (readValue calls (skipSpace (inner ++ ',' :: others))).bind _ = _
    rw [(reads.begins.append _).skipSpace_eq, reads.reads calls _ (shorter enough) (stops_cons.mpr (by decide))]
    change (readMembers calls (skipSpace others)).bind _ = _
    rw [begins.skipSpace_eq]
    cases readMembers calls others <;> rfl

/-- Parts between commas in a pair of brackets, if reading the brackets comes down to reading the parts. -/
theorem reads_enclosed {α : Type} {read : Nat → List Char → Option (List α × List Char)} {opening closing : Char}
    {make : List α → Json} {texts : List (List Char)} {parts : List α}
    (shown : isSpace opening = false ∧ opening ≠ ']' ∧ opening ≠ '\x7d')
    (empty : ∀ calls rest, readValue (calls + 1) (opening :: closing :: rest) = some (make [], rest))
    (filled : ∀ calls others, Begins others → readValue (calls + 1) (opening :: others) =
      (read calls others).map fun (parts, after) => (make parts, after))
    (pairs : List.Forall₂ (ReadsPart read closing) texts parts) :
    Reads (opening :: ([','].intercalate texts ++ [closing])) (make parts) := by
  refine ⟨⟨opening, _, rfl, shown⟩, fun calls rest enough _ => ?_⟩
  rw [List.length_cons, List.length_append, List.length_singleton] at enough
  rw [List.cons_append, List.append_assoc, List.singleton_append]
  obtain ⟨calls, rfl⟩ := Nat.exists_eq_add_one_of_ne_zero (n := calls) (by omega)
  cases texts with
  | nil =>
    cases pairs
    exact empty calls rest
  | cons first texts =>
    have begins : Begins ([','].intercalate (first :: texts) ++ closing :: rest) := by
      cases pairs with
      | cons here _ => exact (here.begins.intercalate [','] texts).append _
    rw [filled calls _ begins, readsPart_intercalate pairs (List.cons_ne_nil _ _) (by omega)]
    rfl

theorem reads_array {texts : List (List Char)} {items : List Json} (pairs : List.Forall₂ Reads texts items) :
    Reads ('[' :: ([','].intercalate texts ++ [']'])) (.array items) := by
  refine reads_enclosed (by decide) (fun _ _ => rfl) (fun calls others begins => ?_)
    (pairs.imp fun _ _ reads => reads.readsPart)
  rw [readValue, begins.skipSpace_eq]
  obtain ⟨first, others, rfl, -, unclosing, -⟩ := begins
  split
  next closed => exact absurd (List.cons.inj closed).1 unclosing
  next => rfl

theorem reads_object {texts : List (List Char)} {members : List (Option String × Json)}
    (pairs : List.Forall₂ ReadsMember texts members) :
    Reads ('\x7b' :: ([','].intercalate texts ++ ['\x7d'])) (.object members) := by
  refine reads_enclosed (by decide) (fun _ _ => rfl) (fun calls others begins => ?_)
    (pairs.imp fun _ _ reads => reads.readsPart)
  rw [readValue, begins.skipSpace_eq]
  obtain ⟨first, others, rfl, -, -, unclosing⟩ := begins
  split
  next closed => exact absurd (List.cons.inj closed).1 unclosing
  next => rfl

/-- A whole text is read with calls enough for its length. -/
theorem parse?_of_reads {text : String} {json : Json} (reads : Reads text.toList json) : parse? text = some json := by
  have read := reads.reads (2 * text.toList.length + 2) [] (Nat.le_add_right _ 2) stops_nil
  rw [List.append_nil] at read
  simp only [parse?, reads.begins.skipSpace_eq, read]
  rfl

end Json
end ParamSweep
