import CircuitNetwork.Failure

namespace CircuitNetwork.Bit

/-!
# Literal bit vectors

A vector of zeros and ones, least significant bit first, is a number.
-/

/-- The number that a vector writes, if all its bits are zeros and ones. -/
def value? : List Bit → Option Nat
  | [] => some 0
  | bit :: rest =>
      match value? rest with
      | none => none
      | some high =>
          if bit = zero then some (2 * high)
          else if bit = one then some (2 * high + 1)
          else none

/-- The value of a vector of at most 63 literal bits. -/
def literalValue (bits : List Bit) : Except Reason Nat :=
  if bits.length > 63 then
    .error (.literalTooWide bits.length)
  else
    match value? bits with
    | some value => .ok value
    | none => .error (.notLiteral (bits.findIdx fun bit => bit ≠ zero ∧ bit ≠ one) bits)

end CircuitNetwork.Bit
