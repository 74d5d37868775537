import CircuitNetwork.Netlist.Param
import Mathlib.Data.Nat.Digits.Lemmas
import Mathlib.Tactic.Common
import Mathlib.Tactic.Ring

namespace CircuitNetwork

/-!
# Numbers in cell parameters

Bytes write a number exactly if they are binary digits, all but the last 32 of
them zeros. A number is written as the 32 digits of its word and read back reduced
to a signed word.
-/

/-! ## Characters -/

namespace Text

theorem firstCharacter?_zero
    (rest : List UInt8) :
    firstCharacter? (0x30 :: rest) = some '0' := by
  have encoded : (0x30 :: rest).take 4 = String.utf8EncodeChar '0' ++ rest.take 3 := rfl
  rw [firstCharacter?, encoded, List.toByteArray_append]
  exact ByteArray.utf8DecodeChar?_utf8EncodeChar_append

theorem eq_zero_of_firstCharacter?
    {first : UInt8}
    {rest : List UInt8}
    (starts : firstCharacter? (first :: rest) = some '0') :
    first = 0x30 := by
  obtain ⟨behind, encoded⟩ := ByteArray.exists_of_utf8DecodeChar?_eq_some starts
  have zero : String.utf8EncodeChar '0' = [0x30] := rfl
  have bytes := congrArg (fun array => array.data.toList.head?) encoded
  simpa [zero] using bytes

/-- Characters are zeros exactly if their bytes are. No longer character has such a byte, and what
is left of one that was cut is a replacement character. -/
theorem all_characters_eq_zero_iff
    (bytes : List UInt8) :
    (characters bytes).all (· = '0') = true ↔ ∀ byte ∈ bytes, byte = 0x30 := by
  induction bytes with
  | nil =>
      simp [characters, charactersBehind]
  | cons first rest inductionHypothesis =>
      rw [characters] at inductionHypothesis
      by_cases isZero : first = 0x30
      · have narrow : '0'.utf8Size - 1 = 0 := rfl
        rw [isZero, characters, charactersBehind, firstCharacter?_zero]
        simp [narrow, inductionHypothesis]
      · rw [characters, charactersBehind]
        cases starts : firstCharacter? (first :: rest) with
        | none =>
            simp [isZero]
        | some character =>
            have notZero : character ≠ '0' := by
              rintro rfl
              exact isZero (eq_zero_of_firstCharacter? starts)
            simp [isZero, notZero]

end Text

namespace Param

/-! ## Binary digits -/

/-- Whether a byte is a binary digit. -/
def IsDigit (byte : UInt8) : Prop :=
  byte = 0x30 ∨ byte = 0x31

/-- The number with given binary digits, the most significant first. -/
def number (digits : List UInt8) : Nat :=
  Nat.ofDigits 2 (digits.reverse.map fun digit => digit.toNat - 0x30)

@[simp] theorem number_nil : number [] = 0 := rfl

theorem number_append
    (high low : List UInt8) :
    number (high ++ low) = number high * 2 ^ low.length + number low := by
  simp only [number, List.reverse_append, List.map_append, Nat.ofDigits_append, List.length_map,
    List.length_reverse]
  ring

theorem number_cons
    (digit : UInt8)
    (rest : List UInt8) :
    number (digit :: rest) = (digit.toNat - 0x30) * 2 ^ rest.length + number rest := by
  have single : number [digit] = digit.toNat - 0x30 := by simp [number]
  rw [← List.singleton_append, number_append, single]

theorem number_replicate_zero
    (count : Nat) :
    number (List.replicate count 0x30) = 0 := by
  induction count with
  | zero =>
      rfl
  | succ count inductionHypothesis =>
      rw [List.replicate_succ, number_cons, inductionHypothesis]
      simp

theorem number_lt
    {digits : List UInt8}
    (binary : ∀ digit ∈ digits, IsDigit digit) :
    number digits < 2 ^ digits.length := by
  induction digits with
  | nil =>
      simp
  | cons digit rest inductionHypothesis =>
      have below := inductionHypothesis fun other member =>
        binary other (List.mem_cons_of_mem _ member)
      rw [number_cons, List.length_cons, pow_succ]
      rcases binary digit List.mem_cons_self with rfl | rfl
      · change 0 * _ + _ < _
        omega
      · change 1 * _ + _ < _
        omega

/-- As many binary digits that write the same number are the same digits. -/
theorem eq_of_number_eq
    {first second : List UInt8}
    (firstBinary : ∀ digit ∈ first, IsDigit digit)
    (secondBinary : ∀ digit ∈ second, IsDigit digit)
    (sameLength : first.length = second.length)
    (sameNumber : number first = number second) :
    first = second := by
  induction first generalizing second with
  | nil =>
      exact (List.length_eq_zero_iff.mp sameLength.symm).symm
  | cons digit rest inductionHypothesis =>
      cases second with
      | nil =>
          simp at sameLength
      | cons other otherRest =>
          have restLength : rest.length = otherRest.length := by simpa using sameLength
          have restBinary : ∀ one ∈ rest, IsDigit one :=
            fun one member => firstBinary one (List.mem_cons_of_mem _ member)
          have otherRestBinary : ∀ one ∈ otherRest, IsDigit one :=
            fun one member => secondBinary one (List.mem_cons_of_mem _ member)
          have restBelow := number_lt restBinary
          have otherBelow := number_lt otherRestBinary
          rw [number_cons, number_cons, restLength] at sameNumber
          rw [restLength] at restBelow
          -- The numbers of the rests are below the place of the first digit, so it is the same one.
          have both : digit = other ∧ number rest = number otherRest := by
            rcases firstBinary digit List.mem_cons_self with rfl | rfl <;>
              rcases secondBinary other List.mem_cons_self with rfl | rfl <;>
              simp at sameNumber ⊢ <;> omega
          rw [both.1, inductionHypothesis restBinary otherRestBinary restLength both.2]

/-- Reading digits after a value shifts the value and adds the number that they write. -/
theorem foldlM_digits_eq_some_iff
    {digits : List UInt8}
    {value result : Nat} :
    digits.foldlM
        (fun value digit =>
          if digit = 0x30 then some (2 * value)
          else if digit = 0x31 then some (2 * value + 1)
          else none)
        value = some result ↔
      (∀ digit ∈ digits, IsDigit digit) ∧ result = value * 2 ^ digits.length + number digits := by
  induction digits generalizing value with
  | nil =>
      simp [eq_comm]
  | cons digit rest inductionHypothesis =>
      rw [List.foldlM_cons, number_cons, List.length_cons, pow_succ, List.forall_mem_cons]
      by_cases isDigit : IsDigit digit
      · have read :
            (if digit = 0x30 then some (2 * value)
              else if digit = 0x31 then some (2 * value + 1)
              else none) = some (2 * value + (digit.toNat - 0x30)) := by
          rcases isDigit with rfl | rfl <;> rfl
        have shifted : (2 * value + (digit.toNat - 0x30)) * 2 ^ rest.length + number rest =
            value * (2 ^ rest.length * 2) +
              ((digit.toNat - 0x30) * 2 ^ rest.length + number rest) := by
          ring
        rw [read, Option.bind_eq_bind, Option.bind_some, inductionHypothesis, shifted]
        simp only [isDigit, true_and]
      · obtain ⟨notZero, notOne⟩ := not_or.mp isDigit
        rw [if_neg notZero, if_neg notOne]
        simp [isDigit]

theorem binaryValue?_eq_some_iff
    {digits : List UInt8}
    {result : Nat} :
    binaryValue? digits = some result ↔
      (∀ digit ∈ digits, IsDigit digit) ∧ result = number digits := by
  rw [binaryValue?, foldlM_digits_eq_some_iff, Nat.zero_mul, Nat.zero_add]

/-! ## Words -/

/-- The binary digits of the lowest bits of a word, the most significant first. -/
def lowDigits (count word : Nat) : List UInt8 :=
  (List.range count).map fun index => if word.testBit (count - 1 - index) then 0x31 else 0x30

@[simp] theorem length_lowDigits
    (count word : Nat) :
    (lowDigits count word).length = count := by
  simp [lowDigits]

theorem isDigit_of_mem_lowDigits
    {count word : Nat}
    {digit : UInt8}
    (member : digit ∈ lowDigits count word) :
    IsDigit digit := by
  obtain ⟨index, -, rfl⟩ := List.mem_map.mp member
  split
  · exact .inr rfl
  · exact .inl rfl

theorem lowDigits_succ
    (count word : Nat) :
    lowDigits (count + 1) word =
      (if word.testBit count then 0x31 else 0x30) :: lowDigits count word := by
  unfold lowDigits
  rw [List.range_succ_eq_map, List.map_cons, List.map_map]
  congr 1
  apply List.map_congr_left
  intro index _
  have shifted : count + 1 - 1 - (index + 1) = count - 1 - index := by omega
  simp only [Function.comp_apply, Nat.succ_eq_add_one, shifted]

/-- The lowest bits of a word write its remainder. -/
theorem number_lowDigits
    (count word : Nat) :
    number (lowDigits count word) = word % 2 ^ count := by
  induction count with
  | zero =>
      simp [lowDigits, Nat.mod_one]
  | succ count inductionHypothesis =>
      have split : word % 2 ^ (count + 1) =
          word % 2 ^ count + 2 ^ count * (word / 2 ^ count % 2) := Nat.mod_pow_succ
      rw [lowDigits_succ, number_cons, inductionHypothesis, length_lowDigits, split]
      by_cases bit : word.testBit count = true
      · have digit : word / 2 ^ count % 2 = 1 := by
          simpa [Nat.testBit_eq_decide_div_mod_eq] using bit
        rw [if_pos bit, digit]
        change 1 * _ + _ = _
        ring
      · have digit : word / 2 ^ count % 2 = 0 := by
          simp only [Nat.testBit_eq_decide_div_mod_eq, decide_eq_true_eq] at bit
          omega
        rw [if_neg bit, digit]
        change 0 * _ + _ = _
        ring

theorem signed_eq_bmod
    {word : Nat}
    (bounded : word < 2 ^ 32) :
    signed word = (word : Int).bmod (2 ^ 32) := by
  rw [signed, Int.bmod]
  omega

/-! ## Bytes -/

/-- Reading on from an index collects the bytes that follow it. -/
theorem toList_loop
    (bytes : ByteArray)
    (index : Nat)
    (collected : List UInt8) :
    ByteArray.toList.loop bytes index collected =
      collected.reverse ++ bytes.data.toList.drop index := by
  induction index, collected using ByteArray.toList.loop.induct bytes with
  | case1 index collected inRange inductionHypothesis =>
      have byte : bytes.get! index = bytes.data[index] := getElem!_pos bytes.data index inRange
      have next : bytes.data.toList.drop index =
          bytes.data[index] :: bytes.data.toList.drop (index + 1) :=
        List.drop_eq_getElem_cons inRange
      rw [ByteArray.toList.loop, if_pos inRange, inductionHypothesis, next, byte,
        List.reverse_cons, List.append_assoc, List.singleton_append]
  | case2 index collected outside =>
      rw [ByteArray.toList.loop, if_neg outside, List.drop_eq_nil_of_le (Nat.le_of_not_lt outside),
        List.append_nil]

/-- The bytes of a text are those of its characters. -/
theorem bytes_ofList
    (characters : List Char) :
    bytes ⟨String.ofList characters⟩ = characters.flatMap String.utf8EncodeChar := by
  rw [bytes, String.toUTF8_eq_toByteArray, String.toByteArray_ofList, ByteArray.toList, toList_loop,
    List.utf8Encode, List.data_toByteArray]
  rfl

/-- A digit of one byte that is repeated makes a parameter of that digit alone. -/
theorem allAre_replicate
    {digit : Char}
    (single : String.utf8EncodeChar digit = [digit.toUInt8])
    (count : Nat) :
    (replicate count digit).allAre digit.toUInt8 = true := by
  rw [allAre, replicate, bytes_ofList, List.all_eq_true]
  intro byte member
  obtain ⟨character, repeated, encoded⟩ := List.mem_flatMap.mp member
  rw [List.eq_of_mem_replicate repeated, single] at encoded
  simpa using encoded

theorem bytes_ofInt
    (value : Int) :
    (ofInt value).bytes = lowDigits 32 (value % 0x100000000).toNat := by
  rw [ofInt, bytes_ofList, wordDigits, lowDigits, List.flatMap_map, List.map_eq_flatMap]
  congr 1
  funext index
  split <;> rfl

/-! ## Reading and writing -/

/-- The digits that are read are binary if all are, since those in front of them are zeros. -/
theorem isDigit_drop_iff
    {bytes : List UInt8}
    {surplus : Nat}
    (zeros : ∀ byte ∈ bytes.take surplus, byte = 0x30) :
    (∀ byte ∈ bytes.drop surplus, IsDigit byte) ↔ ∀ byte ∈ bytes, IsDigit byte := by
  conv_rhs => rw [← List.take_append_drop surplus bytes]
  rw [List.forall_mem_append]
  exact (and_iff_right fun byte member => .inl (zeros byte member)).symm

theorem number_drop_lt
    {bytes : List UInt8}
    (binary : ∀ byte ∈ bytes.drop (bytes.length - 32), IsDigit byte) :
    number (bytes.drop (bytes.length - 32)) < 2 ^ 32 := by
  refine Nat.lt_of_lt_of_le (number_lt binary) (Nat.pow_le_pow_right Nat.zero_lt_two ?_)
  rw [List.length_drop]
  omega

/-- Exactly the binary digits with only zeros in front of the last 32 write a number. -/
theorem ofBytes_eq_ok_iff
    {bytes : List UInt8}
    {value : Int} :
    ofBytes bytes = .ok value ↔
      bytes ≠ [] ∧ (∀ byte ∈ bytes, IsDigit byte) ∧
        (∀ byte ∈ bytes.take (bytes.length - 32), byte = 0x30) ∧
          value = (number (bytes.drop (bytes.length - 32)) : Int).bmod (2 ^ 32) := by
  rw [ofBytes, ← List.isEmpty_eq_false_iff, ← Text.all_characters_eq_zero_iff]
  split
  case isTrue isEmpty =>
    simp [isEmpty]
  case isFalse notEmpty =>
    split
    case isFalse notZeros =>
      simp [notZeros]
    case isTrue zeros =>
      have allDigits := isDigit_drop_iff ((Text.all_characters_eq_zero_iff _).mp zeros)
      split
      case h_1 word read =>
        obtain ⟨binary, rfl⟩ := binaryValue?_eq_some_iff.mp read
        rw [signed_eq_bmod (number_drop_lt binary), Except.ok.injEq, eq_comm]
        refine ⟨fun same => ⟨by simpa using notEmpty, allDigits.mp binary, zeros, same⟩, ?_⟩
        rintro ⟨-, -, -, same⟩
        exact same
      case h_2 unread =>
        have notBinary : ¬∀ byte ∈ bytes, IsDigit byte := by
          intro binary
          have read := binaryValue?_eq_some_iff.mpr ⟨allDigits.mpr binary, rfl⟩
          rw [unread] at read
          cases read
        simp [notBinary]

/-- A parameter is read as its bytes are. -/
theorem toInt_eq_ok_iff
    {param : Param}
    {value : Int} :
    param.toInt = .ok value ↔ ofBytes param.bytes = .ok value := by
  rw [toInt]
  rcases ofBytes param.bytes with (defect | number)
  · cases defect <;> simp
  · simp

/-- The word of a number, read as a signed number. -/
theorem signed_emod
    (value : Int) :
    signed (value % 0x100000000).toNat = value.bmod (2 ^ 32) := by
  have bounded : (value % 0x100000000).toNat < 2 ^ 32 := by omega
  have word : ((value % 0x100000000).toNat : Int) = value % (2 ^ 32 : Nat) := by omega
  rw [signed_eq_bmod bounded, word, Int.emod_bmod]

theorem number_bytes_ofInt
    (value : Int) :
    number (ofInt value).bytes = (value % 0x100000000).toNat := by
  rw [bytes_ofInt, number_lowDigits]
  omega

theorem length_bytes_ofInt
    (value : Int) :
    (ofInt value).bytes.length = 32 := by
  rw [bytes_ofInt, length_lowDigits]

theorem isDigit_of_mem_bytes_ofInt
    (value : Int) :
    ∀ byte ∈ (ofInt value).bytes, IsDigit byte := by
  rw [bytes_ofInt]
  exact fun _ => isDigit_of_mem_lowDigits

/-- A number is read back as its signed 32 bit word. -/
theorem toInt_ofInt
    (value : Int) :
    (ofInt value).toInt = .ok (signed (value % 0x100000000).toNat) := by
  have bounded : (value % 0x100000000).toNat < 2 ^ 32 := by omega
  have nonempty : (ofInt value).bytes ≠ [] := by
    rw [← List.length_pos_iff, length_bytes_ofInt]
    decide
  rw [toInt_eq_ok_iff, ofBytes_eq_ok_iff, length_bytes_ofInt, Nat.sub_self, List.drop_zero,
    List.take_zero, number_bytes_ofInt, signed_eq_bmod bounded]
  exact ⟨nonempty, isDigit_of_mem_bytes_ofInt value, by simp, rfl⟩

/-- What bytes write is written with the same last 32 digits, or with zeros in front of fewer. -/
theorem bytes_ofInt_of_ofBytes
    {bytes : List UInt8}
    {value : Int}
    (read : ofBytes bytes = .ok value) :
    (ofInt value).bytes = (bytes.drop (bytes.length - 32)).leftpad 32 0x30 := by
  obtain ⟨-, binary, -, valueEq⟩ := ofBytes_eq_ok_iff.mp read
  have keptBinary : ∀ digit ∈ bytes.drop (bytes.length - 32), IsDigit digit :=
    fun digit member => binary digit (List.mem_of_mem_drop member)
  have bounded := number_drop_lt keptBinary
  have short : (bytes.drop (bytes.length - 32)).length ≤ 32 := by
    rw [List.length_drop]
    omega
  generalize bytes.drop (bytes.length - 32) = digits at keptBinary bounded short valueEq ⊢
  apply eq_of_number_eq (isDigit_of_mem_bytes_ofInt value)
  · intro digit member
    rw [List.leftpad, List.mem_append] at member
    rcases member with padding | member
    · exact .inl (List.eq_of_mem_replicate padding)
    · exact keptBinary digit member
  · rw [length_bytes_ofInt, List.length_leftpad, Nat.max_eq_left short]
  · have word : value % 0x100000000 = number digits := by
      have reduced : value % (2 ^ 32 : Nat) = number digits % (2 ^ 32 : Nat) := by
        rw [valueEq, Int.bmod_emod]
      omega
    rw [number_bytes_ofInt, word, Int.toNat_natCast, List.leftpad, number_append,
      number_replicate_zero, Nat.zero_mul, Nat.zero_add]

/-- Reading gives a number exactly for binary digits with only zeros in front of the last 32, and
the number is the signed 32 bit word of these. A number is written with 32 digits and read back
reduced to such a word, so that what was read is written with the same digits up to zeros in
front. -/
theorem signed_word_codec :
    (∀ (bytes : List UInt8) (value : Int), ofBytes bytes = .ok value ↔
      bytes ≠ [] ∧ (∀ byte ∈ bytes, IsDigit byte) ∧
        (∀ byte ∈ bytes.take (bytes.length - 32), byte = 0x30) ∧
          value = (number (bytes.drop (bytes.length - 32)) : Int).bmod (2 ^ 32)) ∧
    (∀ (param : Param) (value : Int),
      param.toInt = .ok value ↔ ofBytes param.bytes = .ok value) ∧
    (∀ value : Int, (ofInt value).bytes.length = 32 ∧
      (∀ byte ∈ (ofInt value).bytes, IsDigit byte) ∧
        (ofInt value).toInt = .ok (value.bmod (2 ^ 32))) ∧
    ∀ (bytes : List UInt8) (value : Int), ofBytes bytes = .ok value →
      (ofInt value).bytes = (bytes.drop (bytes.length - 32)).leftpad 32 0x30 := by
  refine ⟨fun _ _ => ofBytes_eq_ok_iff, fun _ _ => toInt_eq_ok_iff, fun value => ?_,
    fun _ _ => bytes_ofInt_of_ofBytes⟩
  refine ⟨length_bytes_ofInt value, isDigit_of_mem_bytes_ofInt value, ?_⟩
  rw [toInt_ofInt, signed_emod]

end Param

end CircuitNetwork
