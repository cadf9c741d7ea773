import ParamSweep.Proofs.OptionTexts
import ParamSweep.Proofs.SelectorText
import ParamSweep.Value.Printer

/-! Values in labels. A label spells a value without spaces and single quotes, and from that spelling the value
is read again: absent values, truth values, integers, words that are read as themselves, and tuples of these. -/

namespace ParamSweep

namespace Text

/-- What labels keep of a text. -/
def compact (text : List Char) : List Char := text.filter fun char => char != ' ' && char != '\''

/-- The characters of words: no white space, no quote and no mark of the option grammar, brackets aside. -/
def PlainChar (char : Char) : Prop := isBlank char = false ∧ char ≠ '\'' ∧ char ≠ ',' ∧ char ≠ '='

instance (char : Char) : Decidable (PlainChar char) :=
  inferInstanceAs (Decidable (isBlank char = false ∧ char ≠ '\'' ∧ char ≠ ',' ∧ char ≠ '='))

def PlainText (text : String) : Prop := text ≠ "" ∧ ∀ char ∈ text.toList, PlainChar char

-- Characters are finitely many, so the instance that decides this for the whole type must not be found.
instance (text : String) : Decidable (PlainText text) :=
  @instDecidableAnd _ _ _ (List.decidableBAll PlainChar text.toList)

def Bracketless (text : List Char) : Prop := ∀ char ∈ text, depthStep char = 0

instance (text : List Char) : Decidable (Bracketless text) :=
  List.decidableBAll (fun char => depthStep char = 0) text

theorem digit_bounds {char : Char} (digit : char.isDigit = true) : 48 ≤ char.toNat ∧ char.toNat ≤ 57 := by
  simpa [Char.isDigit, UInt32.le_iff_toNat_le] using digit

theorem ne_of_isDigit {char other : Char} (digit : char.isDigit = true) (outside : other.isDigit = false) :
    char ≠ other := by
  rintro rfl
  rw [digit] at outside
  cases outside

theorem plainChar_of_isDigit {char : Char} (digit : char.isDigit = true) : PlainChar char := by
  have bounds := digit_bounds digit
  refine ⟨?_, ne_of_isDigit digit (by decide), ne_of_isDigit digit (by decide), ne_of_isDigit digit (by decide)⟩
  simp [isBlank, blankRanges]
  omega

theorem toLower_of_isDigit {char : Char} (digit : char.isDigit = true) : char.toLower = char := by
  have bounds := digit_bounds digit
  unfold Char.toLower
  rw [dif_neg]
  simp [UInt32.le_iff_toNat_le]
  omega

theorem compact_append (left right : List Char) : compact (left ++ right) = compact left ++ compact right :=
  List.filter_append ..

theorem compact_intercalate (separator : List Char) (texts : List (List Char)) :
    compact (separator.intercalate texts) = (compact separator).intercalate (texts.map compact) :=
  filter_intercalate _ separator texts

theorem compact_of_plain {text : List Char} (plain : ∀ char ∈ text, PlainChar char) : compact text = text := by
  unfold compact
  rw [List.filter_eq_self]
  intro char member
  obtain ⟨dark, unquoted, -⟩ := plain char member
  have unspaced : char ≠ ' ' := by
    rintro rfl
    cases dark
  simp [unspaced, unquoted]

end Text

namespace Number
open Text

theorem readDigits?_toDigits (number : Nat) : readDigits? (Nat.toDigits 10 number) = some number := by
  have digits : (Nat.toDigits 10 number).all Char.isDigit = true :=
    List.all_eq_true.mpr fun char member => Nat.isDigit_of_mem_toDigits (by decide) (by decide) member
  have present : (Nat.toDigits 10 number).isEmpty = false := by simp [Nat.toDigits_ne_nil]
  simp [readDigits?, digits, present, Nat.ofDigitChars_ten_toDigits]

theorem int64?_toInt (number : Int64) : int64? number.toInt = some number := by
  have low := Int64.le_toInt number
  have high := Int64.toInt_lt number
  unfold int64?
  rw [if_pos ⟨by omega, by omega⟩, Int64.ofInt_toInt]

private theorem takeSign_intText (number : Int) :
    takeSign (intText number) = (decide (number < 0), Nat.toDigits 10 number.natAbs) := by
  unfold intText
  by_cases negative : number < 0
  · simp [negative, takeSign]
  · have digits : ∀ char ∈ Nat.toDigits 10 number.natAbs, char.isDigit = true := fun char member =>
      Nat.isDigit_of_mem_toDigits (by decide) (by decide) member
    rw [if_neg negative, List.nil_append, decide_eq_false negative]
    unfold takeSign
    split
    next spelled => exact absurd (digits '-' (spelled ▸ List.mem_cons_self)) (by decide)
    next spelled => exact absurd (digits '+' (spelled ▸ List.mem_cons_self)) (by decide)
    · rfl

theorem readInt64?_intText (number : Int64) : readInt64? (intText number.toInt) = some number := by
  unfold readInt64?
  rw [takeSign_intText]
  simp only [readDigits?_toDigits]
  have signed : (if decide (number.toInt < 0) = true then -(number.toInt.natAbs : Int) else number.toInt.natAbs) =
      number.toInt := by
    split
    next negative =>
      have below := of_decide_eq_true negative
      omega
    next natural =>
      have above := of_decide_eq_false (Bool.eq_false_iff.mpr natural)
      omega
  rw [signed, int64?_toInt]

theorem mem_intText {number : Int} {char : Char} (member : char ∈ intText number) :
    char = '-' ∨ char.isDigit = true := by
  unfold intText at member
  rcases List.mem_append.mp member with sign | digit
  · split at sign
    · exact .inl (List.mem_singleton.mp sign)
    · cases sign
  · exact .inr (Nat.isDigit_of_mem_toDigits (by decide) (by decide) digit)

theorem plainChar_of_mem_intText {number : Int} {char : Char} (member : char ∈ intText number) : PlainChar char := by
  rcases mem_intText member with rfl | digit
  · decide
  · exact plainChar_of_isDigit digit

end Number

namespace Value
open Text Number

/-- A value without parts. A text must be one that is read as itself. -/
inductive Scalar (plain : String → Prop) : Value → Prop
  | none : Scalar plain .none
  | bool (value : Bool) : Scalar plain (.bool value)
  | int (number : Int64) : Scalar plain (.int number)
  | str {text : String} (spelled : plain text) (kept : ofText text = .str text) : Scalar plain (.str text)

private theorem ofWord?_of_head {char : Char} (other : char.toLower ≠ 't' ∧ char.toLower ≠ 'f' ∧ char.toLower ≠ 'n')
    (rest : List Char) : ofWord? (char :: rest) = Option.none := by
  unfold ofWord?
  rw [List.map_cons]
  split
  next same => exact absurd (List.cons.inj same).1 other.1
  next same => exact absurd (List.cons.inj same).1 other.2.1
  next same => exact absurd (List.cons.inj same).1 other.2.2
  · rfl

private theorem enclosed?_of_head {opening closing char : Char} (other : char ≠ opening) (rest : List Char) :
    enclosed? opening closing (char :: rest) = Option.none := by
  simp [enclosed?, other]

theorem ofChars_list (inner : List Char) :
    ofChars ('[' :: (inner ++ [']'])) = .list ((itemTexts inner).map ofChars) := by
  have found : enclosed? '[' ']' ('[' :: (inner ++ [']'])) = some inner := by simp [enclosed?]
  rw [ofChars_eq, ofWord?_of_head (by decide), found]

theorem ofChars_tuple (inner : List Char) :
    ofChars ('(' :: (inner ++ [')'])) = .tuple ((itemTexts inner).map ofChars) := by
  have found : enclosed? '(' ')' ('(' :: (inner ++ [')'])) = some inner := by simp [enclosed?]
  rw [ofChars_eq, ofWord?_of_head (by decide), enclosed?_of_head (by decide), found]

theorem ofChars_intText (number : Int64) : ofChars (intText number.toInt) = .int number := by
  obtain ⟨first, rest, spelled⟩ : ∃ first rest, intText number.toInt = first :: rest := by
    apply List.exists_cons_of_ne_nil
    simp [intText, Nat.toDigits_ne_nil]
  -- Neither a digit nor a sign begins a word or opens a bracket.
  have numeric : first = '-' ∨ first.isDigit = true := mem_intText (spelled ▸ List.mem_cons_self)
  have wordless : first.toLower ≠ 't' ∧ first.toLower ≠ 'f' ∧ first.toLower ≠ 'n' := by
    rcases numeric with rfl | digit
    · decide
    · rw [toLower_of_isDigit digit]
      exact ⟨ne_of_isDigit digit (by decide), ne_of_isDigit digit (by decide), ne_of_isDigit digit (by decide)⟩
  have unopened : first ≠ '[' ∧ first ≠ '(' := by
    rcases numeric with rfl | digit
    · decide
    · exact ⟨ne_of_isDigit digit (by decide), ne_of_isDigit digit (by decide)⟩
  have word : ofWord? (intText number.toInt) = Option.none := spelled ▸ ofWord?_of_head wordless rest
  have listed : enclosed? '[' ']' (intText number.toInt) = Option.none := spelled ▸ enclosed?_of_head unopened.1 rest
  have tupled : enclosed? '(' ')' (intText number.toInt) = Option.none := spelled ▸ enclosed?_of_head unopened.2 rest
  have trimmed : trim (intText number.toInt) = intText number.toInt :=
    (trimmed_of_blankless fun char member => (plainChar_of_mem_intText member).1).trim_eq
  rw [ofChars_eq, word, listed, tupled]
  simp only [ofScalar, trimmed, readInt64?_intText]

/-- A value without parts is read from its text. -/
theorem Scalar.ofChars_chars {plain : String → Prop} {value : Value} (scalar : Scalar plain value) :
    ofChars value.chars = value := by
  cases scalar with
  | none => rw [ofChars_eq]; rfl
  | bool value => cases value <;> (rw [ofChars_eq]; rfl)
  | int number => exact ofChars_intText number
  | str spelled kept => exact kept

/-- A class of characters that spells the fixed words, numbers and the texts among the values spells all of these. -/
theorem Scalar.forall_chars {plain : String → Prop} {value : Value} {allowed : Char → Prop} [DecidablePred allowed]
    (scalar : Scalar plain value)
    (fixed : ["None", "True", "False", "-"].all fun word => word.toList.all fun char => allowed char)
    (digits : ∀ char, char.isDigit = true → allowed char)
    (words : ∀ text, plain text → ∀ char ∈ text.toList, allowed char) : ∀ char ∈ value.chars, allowed char := by
  simp only [List.all_eq_true, decide_eq_true_eq] at fixed
  cases scalar with
  | none => exact fixed "None" (by simp)
  | bool value =>
    cases value with
    | true => exact fixed "True" (by simp)
    | false => exact fixed "False" (by simp)
  | int number =>
    intro char member
    rcases mem_intText member with rfl | digit
    · exact fixed "-" (by simp) '-' (by simp)
    · exact digits char digit
  | str spelled kept => exact words _ spelled

theorem Scalar.plainChar {plain : String → Prop} {value : Value} (scalar : Scalar plain value)
    (words : ∀ text, plain text → PlainText text) : ∀ char ∈ value.chars, PlainChar char :=
  scalar.forall_chars (by decide) (fun _ => plainChar_of_isDigit) fun text spelled => (words text spelled).2

theorem Scalar.bracketless {plain : String → Prop} {value : Value} (scalar : Scalar plain value)
    (words : ∀ text, plain text → Bracketless text.toList) : Bracketless value.chars :=
  scalar.forall_chars (by decide) (fun _ digit => (unmarked_of_class digit (by decide)).1) words

theorem Scalar.mono {plain other : String → Prop} {value : Value} (scalar : Scalar plain value)
    (words : ∀ text, plain text → other text) : Scalar other value := by
  cases scalar with
  | none => exact .none
  | bool value => exact .bool value
  | int number => exact .int number
  | str spelled kept => exact .str (words _ spelled) kept

/-- A value without parts is spelled by its text if texts among the values can stand in options as they are. -/
theorem Scalar.spells_chars {value : Value} (scalar : Scalar Options.Bare value) :
    Options.Spells value.chars value := by
  have own {value : Value} (wordless : Scalar (fun _ => False) value) : Options.Spells value.chars value := by
    have plain := wordless.plainChar fun _ => False.elim
    have bracketless := wordless.bracketless fun _ => False.elim
    refine Options.spells_of_unmarked (fun char member => ⟨bracketless char member, (plain char member).2.2⟩) ?_
      wordless.ofChars_chars
    exact trimmed_of_blankless fun char member => (plain char member).1
  cases scalar with
  | none => exact own .none
  | bool value => exact own (.bool value)
  | int number => exact own (.int number)
  | str bare kept => exact Options.spells_of_unmarked bare.unmarked bare.trimmed kept

theorem Scalar.compact_chars {plain : String → Prop} {value : Value} (scalar : Scalar plain value)
    (words : ∀ text, plain text → PlainText text) : compact value.chars = value.chars :=
  compact_of_plain (scalar.plainChar words)

/-- A word without brackets. -/
def Word (text : String) : Prop := PlainText text ∧ Bracketless text.toList

instance (text : String) : Decidable (Word text) :=
  inferInstanceAs (Decidable (PlainText text ∧ Bracketless text.toList))

theorem Word.bare {text : String} (word : Word text) : Options.Bare text where
  present := word.1.1
  trimmed := trimmed_of_blankless fun char member => (word.1.2 char member).1
  unmarked char member := ⟨word.2 char member, (word.1.2 char member).2.2⟩

/-- A value without parts, or a tuple of such values to any depth. A tuple of one keeps a comma behind its item,
which is read as an item too. -/
inductive Literal : Value → Prop
  | scalar {value : Value} (given : Scalar Word value) : Literal value
  | tuple {items : List Value} (several : items.length ≠ 1) (given : ∀ item ∈ items, Literal item) :
      Literal (.tuple items)

/-- How labels spell a value. -/
def label (value : Value) : List Char := compact value.chars

theorem charsOfItems_eq (items : List Value) : charsOfItems items = [',', ' '].intercalate (items.map chars) := by
  induction items with
  | nil => rfl
  | cons first rest ih =>
    cases rest with
    | nil => simp [charsOfItems]
    | cons next others =>
      rw [charsOfItems, ih]
      simp

theorem label_tuple {items : List Value} (several : items.length ≠ 1) :
    label (.tuple items) = '(' :: ([','].intercalate (items.map label) ++ [')']) := by
  have inner : compact (charsOfItems items) = [','].intercalate (items.map label) := by
    rw [charsOfItems_eq, compact_intercalate, List.map_map]
    rfl
  rw [← inner, label, chars, if_neg several, compact_append]
  simp [compact]

theorem trim_ne_nil_of_mem {text : List Char} {char : Char} (member : char ∈ text) (visible : isBlank char = false) :
    trim text ≠ [] := by
  intro empty
  rcases mem_trim_or_isBlank member with inside | blank
  · rw [empty] at inside
    cases inside
  · rw [visible] at blank
    cases blank

theorem itemTexts_of_visible {inner : List Char} (visible : trim inner ≠ []) :
    itemTexts inner = (cutAtDepth (outside ',') 0 inner).map trim := by
  rw [itemTexts, if_neg (by simpa using visible), map_trim_splitTopLevel]

/-- Pieces that commas do not cut are the items that they are joined to, white space at their ends aside. A single one
must not be blank. -/
theorem itemTexts_intercalate {pieces : List (List Char)} (intact : ∀ piece ∈ pieces, Intact (outside ',') piece)
    (visible : ∀ piece, pieces = [piece] → trim piece ≠ []) :
    itemTexts ([','].intercalate pieces) = pieces.map trim := by
  cases pieces with
  | nil => rfl
  | cons first rest =>
    have shown : trim ([','].intercalate (first :: rest)) ≠ [] := by
      cases rest with
      | nil => simpa using visible first rfl
      | cons second others =>
        have comma : ',' ∈ [','].intercalate (first :: second :: others) := by
          rw [List.intercalate_cons_cons]
          simp
        exact trim_ne_nil_of_mem comma (by decide)
    rw [itemTexts_of_visible shown,
      cutAtDepth_intercalate Options.outside_comma_level (by decide) (List.cons_ne_nil _ _) intact]

/-- Joined between brackets, pieces are one piece. -/
theorem spells_enclosed {opening closing : Char} {pieces : List (List Char)} {value : Value}
    (inward : depthStep opening = 1) (outward : depthStep closing = -1)
    (given : ∀ piece ∈ pieces, Intact (outside ',') piece ∧ '=' ∉ piece)
    (read : ofChars (opening :: ([','].intercalate pieces ++ [closing])) = value) :
    Options.Spells (opening :: ([','].intercalate pieces ++ [closing])) value := by
  have bracket (char : Char) (deep : depthStep char ≠ 0) : isBlank char = false ∧ char ≠ ',' ∧ char ≠ '=' := by
    refine ⟨Bool.eq_false_iff.mpr fun blank => deep (unmarked_of_class blank (by decide)).1, ?_, ?_⟩
    · rintro rfl
      exact deep (by decide)
    · rintro rfl
      exact deep (by decide)
  have first := bracket opening (by omega)
  have last := bracket closing (by omega)
  have balanced : isBalanced ([','].intercalate pieces) = true :=
    isBalanced_intercalate (by decide) fun piece member => (given piece member).1.balanced
  refine ⟨intact_enclosed (outside_of_pos ',') inward outward (outside_of_ne first.2.1 0) balanced, fun member => ?_,
    trimmed_enclosed first.1 last.1 _, read⟩
  rcases List.mem_cons.mp member with mark | member
  · exact first.2.2 mark.symm
  · rcases List.mem_append.mp member with inside | mark
    · rcases mem_or_of_mem_intercalate inside with mark | ⟨piece, among, held⟩
      · cases mark
      · exact (given piece among).2 held
    · exact last.2.2 (List.mem_singleton.mp mark).symm

theorem Scalar.spells {value : Value} (scalar : Scalar Word value) : Options.Spells value.label value := by
  rw [label, scalar.compact_chars fun _ word => word.1]
  exact (scalar.mono fun _ word => word.bare).spells_chars

private theorem spells_tuple {items : List Value} (several : items.length ≠ 1)
    (given : ∀ item ∈ items, Options.Spells item.label item) :
    Options.Spells (label (.tuple items)) (.tuple items) := by
  have single : ∀ piece, items.map label = [piece] → trim piece ≠ [] := by
    intro piece alone
    exact absurd (by simpa using congrArg List.length alone) several
  have texts : itemTexts ([','].intercalate (items.map label)) = (items.map label).map trim :=
    itemTexts_intercalate (List.forall_mem_map.mpr fun item member => (given item member).intact) single
  rw [label_tuple several]
  refine spells_enclosed (by decide) (by decide)
    (List.forall_mem_map.mpr fun item member => ⟨(given item member).intact, (given item member).unequal⟩) ?_
  rw [ofChars_tuple, texts, List.map_map, List.map_map]
  congr 1
  refine (List.map_congr_left fun item member => ?_).trans (List.map_id items)
  simp only [Function.comp_apply, (given item member).trimmed.trim_eq, (given item member).read, id]

theorem Literal.spells {value : Value} (literal : Literal value) : Options.Spells value.label value := by
  induction literal with
  | scalar given => exact given.spells
  | tuple several _ ih => exact spells_tuple several ih

end Value
end ParamSweep
