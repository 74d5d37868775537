import CircuitNetwork.Json.Reader
import CircuitNetwork.Json.Writer
import CircuitNetwork.Proofs.Netlist.Vector

namespace CircuitNetwork.Json

/-!
# Reading what was written

A value on one line is read back as itself, whatever text follows it. Numbers are
integers here: a decimal is only ever a text that was read.
-/

/-- The codes that are escaped, those with a short escape among them. -/
def hexCodes : List Nat :=
  List.range 0x20 ++ [0x26, 0x3c, 0x3e, 0x2028, 0x2029]

/-- Such a code is written with four digits, which are read as the code. -/
theorem hexUnit?_hexDigits :
    ∀ code ∈ hexCodes,
      let digits := (Text.hexDigits 4 code).toList
      let digit := fun place => digits.getD place '0'
      digits = [digit 0, digit 1, digit 2, digit 3] ∧
        hexUnit? (digit 0) (digit 1) (digit 2) (digit 3) = some code := by
  decide +kernel

theorem readCodes_hexDigits
    {code : Nat}
    (member : code ∈ hexCodes)
    (rest : List Char)
    (codes : List Nat) :
    readCodes (("\\u" ++ Text.hexDigits 4 code).toList ++ rest) codes =
      readCodes rest (code :: codes) := by
  obtain ⟨digits, read⟩ := hexUnit?_hexDigits code member
  rw [String.toList_append, digits]
  simp only [List.cons_append, List.nil_append, String.reduceToList, readCodes, read]

/-- An escaped character is read as its code. -/
theorem readCodes_escapeChar
    (c : Char)
    (rest : List Char)
    (codes : List Nat) :
    readCodes ((escapeChar c).toList ++ rest) codes = readCodes rest (c.toNat :: codes) := by
  unfold escapeChar
  split
  case h_1 | h_2 | h_3 | h_4 | h_5 =>
    simp [readCodes, escapedCode?, *]
  case h_6 notTab notLine notReturn notQuote notBackslash =>
    split
    · rename_i escaped
      apply readCodes_hexDigits
      simpa [hexCodes] using escaped
    · rw [String.toList_singleton, List.singleton_append, readCodes]
      · intro quote
        exact notQuote (congrArg Char.toNat quote)
      · intro _ _ _ _ _ backslash
        exact absurd (congrArg Char.toNat backslash) notBackslash
      · intro _ _ backslash
        exact absurd (congrArg Char.toNat backslash) notBackslash

theorem readCodes_text
    (text rest : List Char)
    (codes : List Nat) :
    readCodes ((text.map escapeChar).flatMap String.toList ++ '\x22' :: rest) codes =
      some (codes.reverse ++ text.map Char.toNat, rest) := by
  induction text generalizing codes with
  | nil => simp [readCodes]
  | cons c text inductionHypothesis =>
      rw [List.map_cons, List.flatMap_cons, List.append_assoc, readCodes_escapeChar,
        inductionHypothesis]
      simp

/-- A character is no half of a surrogate pair. -/
theorem not_surrogate
    (c : Char) :
    isLeading c.toNat = false ∧ isTrailing c.toNat = false := by
  have valid : c.toNat < 0xd800 ∨ 0xdfff < c.toNat ∧ c.toNat < 0x110000 := c.valid
  simp only [isLeading, isTrailing, Bool.and_eq_false_iff, decide_eq_false_iff_not]
  omega

theorem joinCodes_toNat
    (text : List Char) :
    joinCodes (text.map Char.toNat) = text := by
  induction text with
  | nil => rfl
  | cons c text inductionHypothesis =>
      cases text with
      | nil => simp [joinCodes, not_surrogate c]
      | cons next text =>
          rw [List.map_cons] at inductionHypothesis
          simp [joinCodes, not_surrogate c, inductionHypothesis]

/-- A string is read up to its closing quote, whatever follows. -/
theorem readText_writeText
    (text : String) :
    ∃ inside,
      (writeText text).toList = '\x22' :: inside ∧
        ∀ rest, readText (inside ++ rest) = some (text, rest) := by
  refine ⟨(text.toList.map escapeChar).flatMap String.toList ++ ['\x22'], ?_, fun rest => ?_⟩
  · simp [writeText, String.toList_join]
  · rw [List.append_assoc, List.singleton_append, readText, readCodes_text]
    simp [joinCodes_toNat]

/-- A text that does not carry a number on. -/
def Ends (rest : List Char) : Prop :=
  ∀ c ∈ rest.head?, c.isDigit = false ∧ c ∉ ['.', 'e', 'E']

/-- The value of written digits. -/
theorem decimalValue_toDigits
    (number : Nat) :
    decimalValue (Nat.toDigits 10 number) = number := by
  have same (digits : List Char) : decimalValue digits = Nat.ofDigitChars 10 digits 0 := by
    simp only [decimalValue, Nat.ofDigitChars, Nat.mul_comm]
    rfl
  rw [same, Nat.ofDigitChars_ten_toDigits]

theorem takeWhile_toDigits
    (number : Nat)
    {rest : List Char}
    (ends : Ends rest) :
    (Nat.toDigits 10 number ++ rest).takeWhile Char.isDigit = Nat.toDigits 10 number ∧
      (Nat.toDigits 10 number ++ rest).dropWhile Char.isDigit = rest := by
  have digits : ∀ c ∈ Nat.toDigits 10 number, c.isDigit :=
    fun c => Nat.isDigit_of_mem_toDigits (by decide) (by decide)
  rw [List.takeWhile_append_of_pos digits, List.dropWhile_append_of_pos digits]
  cases rest with
  | nil => simp
  | cons c rest =>
      have stop := (ends c rfl).1
      simp [stop]

theorem readFraction_of_ends
    {rest : List Char}
    (ends : Ends rest) :
    readFraction rest = some ([], rest) := by
  unfold readFraction
  split
  · exact absurd List.mem_cons_self (ends '.' rfl).2
  · rfl

theorem readExponent_of_ends
    {rest : List Char}
    (ends : Ends rest) :
    readExponent rest = some ([], rest) := by
  cases rest with
  | nil => rfl
  | cons c rest =>
      have other := (ends c rfl).2
      simp only [List.mem_cons, not_or] at other
      simp [readExponent, other]

theorem toDigits_eq_cons
    (number : Nat) :
    ∃ first others, Nat.toDigits 10 number = first :: others ∧ first.isDigit := by
  have nonempty : Nat.toDigits 10 number ≠ [] := Nat.toDigits_ne_nil
  obtain ⟨first, others, digits⟩ := List.exists_cons_of_ne_nil nonempty
  have member : first ∈ Nat.toDigits 10 number := by simp [digits]
  exact ⟨first, others, digits, Nat.isDigit_of_mem_toDigits (by decide) (by decide) member⟩

theorem readNumber_int
    (number : Int)
    {rest : List Char}
    (ends : Ends rest) :
    readNumber ((toString number).toList ++ rest) = some (int number, rest) := by
  obtain ⟨taken, left⟩ := takeWhile_toDigits number.natAbs ends
  rw [Bit.toList_toString_int]
  by_cases negative : number < 0
  · have value : -(decimalValue (Nat.toDigits 10 number.natAbs) : Int) = number := by
      rw [decimalValue_toDigits]
      omega
    simp [readNumber, negative, taken, left, readFraction_of_ends ends, readExponent_of_ends ends,
      value]
  · have value : (decimalValue (Nat.toDigits 10 number.natAbs) : Int) = number := by
      rw [decimalValue_toDigits]
      omega
    obtain ⟨first, others, digits, isDigit⟩ := toDigits_eq_cons number.natAbs
    have unsigned : ((Nat.toDigits 10 number.natAbs ++ rest).take 1).filter (· = '-') = [] := by
      have different : first ≠ '-' := by
        rintro rfl
        exact absurd isDigit (by decide)
      simp [digits, different]
    simp [readNumber, negative, taken, left, readFraction_of_ends ends, readExponent_of_ends ends,
      value, unsigned]

/-- The characters that are passed over between values. -/
def blanks : List Char :=
  [' ', '\t', '\n', '\r']

theorem skipBlanks_cons
    {first : Char}
    (visible : first ∉ blanks)
    (rest : List Char) :
    skipBlanks (first :: rest) = first :: rest := by
  simp only [blanks, List.mem_cons, not_or] at visible
  simp [skipBlanks, visible]

theorem ends_cons
    {c : Char}
    (mark : c ∈ [',', ']', '\x7d'])
    (rest : List Char) :
    Ends (c :: rest) := by
  intro first same
  cases same
  simp only [List.mem_cons, List.not_mem_nil, or_false] at mark
  rcases mark with rfl | rfl | rfl <;> exact ⟨by decide, by decide⟩

/-- The characters of a value on one line. -/
def valueText (value : Json) : List Char :=
  (compact value).toList

/-- A value is read back from its one-line form, whatever follows. The form has no blank and no
closing bracket in front. -/
structure Legible (value : Json) : Prop where
  starts : ∃ first others, valueText value = first :: others ∧ first ∉ blanks ∧ first ≠ ']'
  reads :
    ∀ {depth rest}, Ends rest → (valueText value).length ≤ depth →
      readValue (depth + 1) (valueText value ++ rest) = some (value, rest)

theorem legible_null : Legible null :=
  ⟨⟨'n', _, rfl, by decide, by decide⟩, fun _ _ => rfl⟩

theorem legible_str
    (text : String) :
    Legible (str text) := by
  obtain ⟨inside, shape, read⟩ := readText_writeText text
  have written : valueText (str text) = '\x22' :: inside := shape
  refine ⟨⟨_, _, written, by decide, by decide⟩, fun _ _ => ?_⟩
  rw [written, List.cons_append, readValue, skipBlanks_cons (by decide)]
  simp [read]

theorem toString_int_eq_cons
    (number : Int) :
    ∃ first others,
      (toString number).toList = first :: others ∧ (first = '-' ∨ first.isDigit) := by
  rw [Bit.toList_toString_int]
  by_cases negative : number < 0
  · exact ⟨'-', _, by simp [negative]; rfl, .inl rfl⟩
  · obtain ⟨first, others, digits, isDigit⟩ := toDigits_eq_cons number.natAbs
    exact ⟨first, others, by simp [negative, digits], .inr isDigit⟩

theorem numeric_not_mem
    {first : Char}
    (numeric : first = '-' ∨ first.isDigit) :
    first ∉ ']' :: blanks := by
  intro member
  simp only [blanks, List.mem_cons, List.not_mem_nil, or_false] at member
  rcases numeric with rfl | isDigit
  · revert member
    decide
  · rcases member with rfl | rfl | rfl | rfl | rfl <;> exact absurd isDigit (by decide)

theorem readValue_number
    {first : Char}
    (visible : first ∉ blanks)
    (numeric : first = '-' ∨ first.isDigit)
    (depth : Nat)
    (rest : List Char) :
    readValue (depth + 1) (first :: rest) = readNumber (first :: rest) := by
  rw [readValue, skipBlanks_cons visible]
  split <;> simp_all

theorem legible_int
    (number : Int) :
    Legible (int number) := by
  obtain ⟨first, others, shape, numeric⟩ := toString_int_eq_cons number
  obtain ⟨noBracket, visible⟩ := not_or.mp (mt List.mem_cons.mpr (numeric_not_mem numeric))
  have written : valueText (int number) = first :: others := shape
  refine ⟨⟨first, others, written, visible, noBracket⟩, fun {depth rest} ends _ => ?_⟩
  have read := readNumber_int number ends
  rw [shape, List.cons_append] at read
  rw [written, List.cons_append, readValue_number visible numeric, read]

/-- Texts with commas between them. -/
def listed {α : Type} (text : α → List Char) (items : List α) : List Char :=
  [','].intercalate (items.map text)

theorem listed_singleton
    {α : Type}
    (text : α → List Char)
    (item : α) :
    listed text [item] = text item :=
  List.intercalate_singleton

theorem listed_cons_cons
    {α : Type}
    (text : α → List Char)
    (item next : α)
    (items : List α) :
    listed text (item :: next :: items) = text item ++ ',' :: listed text (next :: items) := by
  rw [listed, List.map_cons, List.map_cons, List.intercalate_cons_cons, List.append_assoc]
  rfl

theorem listed_starts
    {α : Type}
    {text : α → List Char}
    {item : α}
    {first : Char}
    {others : List Char}
    (shape : text item = first :: others)
    (items : List α) :
    ∃ others, listed text (item :: items) = first :: others := by
  cases items with
  | nil => exact ⟨others, (listed_singleton text item).trans shape⟩
  | cons next items => exact ⟨_, by rw [listed_cons_cons, shape, List.cons_append]⟩

theorem valueText_arr
    (items : List Json) :
    valueText (arr items) = '[' :: listed valueText items ++ [']'] := by
  have texts : (compactItems items).map String.toList = items.map valueText := by
    induction items with
    | nil => rfl
    | cons item rest inductionHypothesis =>
        rw [compactItems, List.map_cons, List.map_cons, inductionHypothesis, valueText]
  simp [valueText, compact, listed, String.toList_intercalate, texts]

/-- An item is read up to the comma or the bracket behind it. -/
theorem readItems_step
    {item : Json}
    (legible : Legible item)
    {depth : Nat}
    (deep : (valueText item).length ≤ depth)
    {mark : Char}
    (isMark : mark = ',' ∨ mark = ']')
    (done : List Json)
    (rest : List Char) :
    readItems (depth + 2) (valueText item ++ mark :: rest) done =
      if mark = ',' then readItems (depth + 1) rest (item :: done)
      else some (arr (done.reverse ++ [item]), rest) := by
  have ends : Ends (mark :: rest) := ends_cons (by simp; tauto) rest
  rw [readItems, legible.reads ends deep]
  rcases isMark with rfl | rfl
  · simp [skipBlanks_cons (by decide : ',' ∉ blanks)]
  · simp [skipBlanks_cons (by decide : ']' ∉ blanks)]

/-- Items are read one after the other, each within what is left of the depth. -/
theorem readItems_listed
    {items : List Json}
    (legible : ∀ item ∈ items, Legible item)
    (nonempty : items ≠ [])
    {depth : Nat}
    (deep : (listed valueText items).length + 2 ≤ depth)
    (done : List Json)
    (rest : List Char) :
    readItems depth (listed valueText items ++ ']' :: rest) done =
      some (arr (done.reverse ++ items), rest) := by
  induction items generalizing depth done with
  | nil => exact absurd rfl nonempty
  | cons item items inductionHypothesis =>
      obtain ⟨first, others⟩ := List.forall_mem_cons.mp legible
      obtain ⟨depth, rfl⟩ := Nat.exists_eq_add_of_le' (Nat.le_of_add_left_le deep)
      cases items with
      | nil =>
          rw [listed_singleton] at deep ⊢
          exact readItems_step first (by omega) (.inr rfl) done rest
      | cons next items =>
          rw [listed_cons_cons, List.length_append, List.length_cons] at deep
          rw [listed_cons_cons, List.append_assoc, List.cons_append,
            readItems_step first (by omega) (.inl rfl), if_pos rfl,
            inductionHypothesis others (by simp) (by omega), List.reverse_cons, List.append_assoc]
          rfl

theorem readValue_bracket
    {first : Char}
    (visible : first ∉ blanks)
    (noBracket : first ≠ ']')
    (depth : Nat)
    (rest : List Char) :
    readValue (depth + 1) ('[' :: first :: rest) = readItems depth (first :: rest) [] := by
  rw [readValue, skipBlanks_cons (by decide)]
  simp [skipBlanks_cons visible, noBracket]

theorem legible_arr
    {items : List Json}
    (legible : ∀ item ∈ items, Legible item) :
    Legible (arr items) := by
  refine ⟨⟨'[', _, valueText_arr items, by decide, by decide⟩, fun {depth rest} _ deep => ?_⟩
  cases items with
  | nil => rfl
  | cons item items =>
      obtain ⟨first, _, shape, visible, noBracket⟩ := (legible item List.mem_cons_self).starts
      obtain ⟨others, listShape⟩ := listed_starts shape items
      rw [valueText_arr, List.length_append, List.length_cons, List.length_singleton] at deep
      rw [valueText_arr]
      have read := readItems_listed legible (by simp) deep [] rest
      rw [List.append_assoc, List.singleton_append, List.cons_append]
      rw [listShape] at read ⊢
      rw [List.cons_append, readValue_bracket visible noBracket]
      exact read

/-- The characters of an object's member on one line. -/
def memberText (member : String × Json) : List Char :=
  (writeText member.1).toList ++ ':' :: valueText member.2

theorem valueText_obj
    (members : List (String × Json)) :
    valueText (obj members) = '\x7b' :: listed memberText members ++ ['\x7d'] := by
  have texts : (compactMembers members).map String.toList = members.map memberText := by
    induction members with
    | nil => rfl
    | cons member rest inductionHypothesis =>
        rw [compactMembers, List.map_cons, List.map_cons, inductionHypothesis, memberText]
        simp [valueText]
  simp [valueText, compact, listed, String.toList_intercalate, texts]

/-- A member starts with the quote of its name. -/
theorem memberText_starts
    (member : String × Json) :
    ∃ inside,
      memberText member = '\x22' :: (inside ++ ':' :: valueText member.2) ∧
        ∀ rest, readText (inside ++ rest) = some (member.1, rest) := by
  obtain ⟨inside, shape, read⟩ := readText_writeText member.1
  exact ⟨inside, by rw [memberText, shape, List.cons_append], read⟩

/-- A member is read up to the comma or the brace behind it. -/
theorem readMembers_step
    {member : String × Json}
    (legible : Legible member.2)
    {depth : Nat}
    (deep : (memberText member).length ≤ depth)
    {mark : Char}
    (isMark : mark = ',' ∨ mark = '\x7d')
    (done : List (String × Json))
    (rest : List Char) :
    readMembers (depth + 2) (memberText member ++ mark :: rest) done =
      if mark = ',' then readMembers (depth + 1) rest (member :: done)
      else some (obj (done.reverse ++ [member]), rest) := by
  have ends : Ends (mark :: rest) := ends_cons (by simp; tauto) rest
  obtain ⟨inside, shape, read⟩ := memberText_starts member
  have shorter : (valueText member.2).length ≤ depth := by
    rw [memberText, List.length_append, List.length_cons] at deep
    omega
  rw [shape, List.cons_append, List.append_assoc, List.cons_append, readMembers,
    skipBlanks_cons (by decide)]
  simp only [read, skipBlanks_cons (by decide : ':' ∉ blanks), legible.reads ends shorter]
  rcases isMark with rfl | rfl
  · simp [skipBlanks_cons (by decide : ',' ∉ blanks)]
  · simp [skipBlanks_cons (by decide : '\x7d' ∉ blanks)]

theorem readMembers_listed
    {members : List (String × Json)}
    (legible : ∀ member ∈ members, Legible member.2)
    (nonempty : members ≠ [])
    {depth : Nat}
    (deep : (listed memberText members).length + 2 ≤ depth)
    (done : List (String × Json))
    (rest : List Char) :
    readMembers depth (listed memberText members ++ '\x7d' :: rest) done =
      some (obj (done.reverse ++ members), rest) := by
  induction members generalizing depth done with
  | nil => exact absurd rfl nonempty
  | cons member members inductionHypothesis =>
      obtain ⟨first, others⟩ := List.forall_mem_cons.mp legible
      obtain ⟨depth, rfl⟩ := Nat.exists_eq_add_of_le' (Nat.le_of_add_left_le deep)
      cases members with
      | nil =>
          rw [listed_singleton] at deep ⊢
          exact readMembers_step first (by omega) (.inr rfl) done rest
      | cons next members =>
          rw [listed_cons_cons, List.length_append, List.length_cons] at deep
          rw [listed_cons_cons, List.append_assoc, List.cons_append,
            readMembers_step first (by omega) (.inl rfl), if_pos rfl,
            inductionHypothesis others (by simp) (by omega), List.reverse_cons, List.append_assoc]
          rfl

theorem legible_obj
    {members : List (String × Json)}
    (legible : ∀ member ∈ members, Legible member.2) :
    Legible (obj members) := by
  refine ⟨⟨'\x7b', _, valueText_obj members, by decide, by decide⟩, fun {depth rest} _ deep => ?_⟩
  cases members with
  | nil => rfl
  | cons member members =>
      obtain ⟨inside, shape, -⟩ := memberText_starts member
      obtain ⟨others, listShape⟩ := listed_starts shape members
      rw [valueText_obj, List.length_append, List.length_cons, List.length_singleton] at deep
      rw [valueText_obj]
      have read := readMembers_listed legible (by simp) deep [] rest
      rw [List.append_assoc, List.singleton_append, List.cons_append]
      rw [listShape] at read ⊢
      exact read

/-- A text of one value is read as that value. -/
theorem parse?_compact
    {value : Json}
    (legible : Legible value) :
    parse? (compact value) = some value := by
  have read :
      readValue ((valueText value).length + 1) (valueText value ++ []) = some (value, []) :=
    legible.reads (by simp [Ends]) (Nat.le_refl _)
  rw [List.append_nil, valueText] at read
  simp [parse?, read, skipBlanks]

end CircuitNetwork.Json
