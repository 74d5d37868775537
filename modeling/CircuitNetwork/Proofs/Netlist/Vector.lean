import CircuitNetwork.Netlist.Bit
import Mathlib.Tactic.Common

namespace CircuitNetwork.Bit

/-!
# Written bit vectors

A written form belongs to one bit vector only, so tables that go by written
forms tell all vectors apart.
-/

/-- The decimal digits of a natural number determine it. -/
theorem eq_of_toDigits_eq
    {number other : Nat}
    (same : Nat.toDigits 10 number = Nat.toDigits 10 other) :
    number = other := by
  calc
    number = Nat.ofDigitChars 10 (Nat.toDigits 10 number) 0 :=
      Nat.ofDigitChars_ten_toDigits.symm
    _ = Nat.ofDigitChars 10 (Nat.toDigits 10 other) 0 := by
      rw [same]
    _ = other :=
      Nat.ofDigitChars_ten_toDigits

/-- The characters of a written integer: a sign if it is negative, then its digits. -/
theorem toList_toString_int
    (number : Int) :
    (toString number).toList =
      (if number < 0 then ['-'] else []) ++ Nat.toDigits 10 number.natAbs := by
  cases number with
  | ofNat natural =>
      simp [toString, Int.repr]
  | negSucc natural =>
      have negative : Int.negSucc natural < 0 := Int.negSucc_lt_zero natural
      simp [negative, toString, Int.repr]

/-- Only digits and a sign occur in a written integer. -/
theorem isDigit_or_minus_of_mem
    {number : Int}
    {character : Char}
    (member : character ∈ (toString number).toList) :
    character.isDigit = true ∨ character = '-' := by
  rw [toList_toString_int, List.mem_append] at member
  rcases member with sign | digit
  · right
    split at sign
    · simpa using sign
    · simp at sign
  · left
    exact Nat.isDigit_of_mem_toDigits (by decide) (by decide) digit

/-- A minus sign is no digit, so a written integer starts with one only if it is negative. -/
theorem eq_of_toString_int_eq
    {number other : Int}
    (same : (toString number).toList = (toString other).toList) :
    number = other := by
  rw [toList_toString_int, toList_toString_int] at same
  have noSign : ∀ natural : Nat, '-' ∉ Nat.toDigits 10 natural := by
    intro natural member
    have digit := Nat.isDigit_of_mem_toDigits (by decide) (by decide) member
    revert digit
    decide
  by_cases negative : number < 0
  · by_cases otherNegative : other < 0
    · simp only [negative, otherNegative, ↓reduceIte, List.cons_append, List.nil_append,
        List.cons.injEq, true_and] at same
      have sameSize := eq_of_toDigits_eq same
      omega
    · simp only [negative, otherNegative, ↓reduceIte, List.cons_append, List.nil_append] at same
      exact (noSign other.natAbs (same ▸ List.mem_cons_self)).elim
  · by_cases otherNegative : other < 0
    · simp only [negative, otherNegative, ↓reduceIte, List.cons_append, List.nil_append] at same
      exact (noSign number.natAbs (same ▸ List.mem_cons_self)).elim
    · simp only [negative, otherNegative, ↓reduceIte, List.nil_append] at same
      have sameSize := eq_of_toDigits_eq same
      omega

/-- The written form of a bit has no comma. -/
theorem comma_not_mem_text
    (bit : Bit) :
    ',' ∉ bit.text.toList := by
  intro member
  unfold text at member
  split at member
  · revert member
    decide
  · split at member
    · revert member
      decide
    · rcases isDigit_or_minus_of_mem member with digit | sign
      · revert digit
        decide
      · revert sign
        decide

/-- A letter is not part of a written integer. -/
theorem letter_not_mem_toString
    {number : Int}
    {letter : Char}
    (isLetter : letter = 'z' ∨ letter = 'x') :
    letter ∉ (toString number).toList := by
  intro member
  rcases isDigit_or_minus_of_mem member with digit | sign
  · rcases isLetter with rfl | rfl <;> revert digit <;> decide
  · rcases isLetter with rfl | rfl <;> revert sign <;> decide

theorem text_injective
    {bit other : Bit}
    (same : bit.text.toList = other.text.toList) :
    bit = other := by
  unfold text at same
  split at same
  · rename_i isZ
    split at same
    · rename_i otherZ
      rw [isZ, otherZ]
    · split at same
      · exact absurd same (by decide)
      · exact (letter_not_mem_toString (Or.inl rfl) (same ▸ (by decide : 'z' ∈ "z".toList))).elim
  · split at same
    · rename_i isX
      split at same
      · exact absurd same (by decide)
      · split at same
        · rename_i otherX
          rw [isX, otherX]
        · exact
            (letter_not_mem_toString (Or.inr rfl) (same ▸ (by decide : 'x' ∈ "x".toList))).elim
    · split at same
      · exact
          (letter_not_mem_toString (Or.inl rfl) (same.symm ▸ (by decide : 'z' ∈ "z".toList))).elim
      · split at same
        · exact
            (letter_not_mem_toString (Or.inr rfl)
              (same.symm ▸ (by decide : 'x' ∈ "x".toList))).elim
        · cases bit
          cases other
          exact congrArg Bit.mk (eq_of_toString_int_eq same)

/-- Different bit vectors have different written forms. -/
theorem vectorText_injective
    {bits others : List Bit}
    (same : vectorText bits = vectorText others) :
    bits = others := by
  have sameInside :
      [','].intercalate (bits.map fun bit => bit.text.toList) =
        [','].intercalate (others.map fun bit => bit.text.toList) := by
    have sameList := congrArg String.toList same
    simpa [vectorText, String.toList_intercalate, Function.comp_def] using sameList
  have noComma : ∀ vector : List Bit, ∀ word ∈ vector.map fun bit => bit.text.toList,
      ',' ∉ word := by
    intro vector word member
    obtain ⟨bit, -, rfl⟩ := List.mem_map.mp member
    exact comma_not_mem_text bit
  have nonempty : ∀ bit : Bit, bit.text.toList ≠ [] := by
    intro bit
    unfold text
    split
    · decide
    · split
      · decide
      · rw [toList_toString_int]
        simp
  have sameWords :
      (bits.map fun bit => bit.text.toList) = others.map fun bit => bit.text.toList := by
    cases bits with
    | nil =>
        cases others with
        | nil =>
            rfl
        | cons other rest =>
            cases rest <;> simp [List.intercalate, nonempty] at sameInside
    | cons bit rest =>
        cases others with
        | nil =>
            cases rest <;> simp [List.intercalate, nonempty] at sameInside
        | cons other otherRest =>
            rw [← List.splitOn_intercalate ',' (noComma (bit :: rest)) (by simp), sameInside,
              List.splitOn_intercalate ',' (noComma (other :: otherRest)) (by simp)]
  exact (List.map_inj_right fun _ _ => text_injective).mp sameWords

end CircuitNetwork.Bit
