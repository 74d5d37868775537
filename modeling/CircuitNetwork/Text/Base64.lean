import CircuitNetwork.Text.Characters

namespace CircuitNetwork.Text

/-!
# Encoded bytes

Bytes are encoded as digits of six bits, four for three bytes. Fewer bytes at the
end are filled up with equal signs. Line breaks between the digits do not count.
-/

/-- The value of a digit of six bits. -/
def sixBits? (c : Char) : Option Nat :=
  if 'A' ≤ c && c ≤ 'Z' then some (c.toNat - 0x41)
  else if 'a' ≤ c && c ≤ 'z' then some (c.toNat - 0x61 + 26)
  else if '0' ≤ c && c ≤ '9' then some (c.toNat - 0x30 + 52)
  else if c = '+' then some 62
  else if c = '/' then some 63
  else none

/-- The first bytes of a number of 24 bits. -/
def firstBytes (count value : Nat) : List UInt8 :=
  [value / 0x10000, value / 0x100, value].take count |>.map UInt8.ofNat

/-- The bytes that digits stand for. -/
def decodeDigits? : List Char → Option (List UInt8)
  | [] => some []
  | [a, b, '=', '='] => do
      return firstBytes 1 (((← sixBits? a) * 64 + (← sixBits? b)) * 0x1000)
  | [a, b, c, '='] => do
      return firstBytes 2 ((((← sixBits? a) * 64 + (← sixBits? b)) * 64 + (← sixBits? c)) * 64)
  | a :: b :: c :: d :: rest => do
      let high := (← sixBits? a) * 64 + (← sixBits? b)
      let low := (← sixBits? c) * 64 + (← sixBits? d)
      return firstBytes 3 (high * 0x1000 + low) ++ (← decodeDigits? rest)
  | _ => none

/-- The text of encoded bytes. -/
def decodeBase64? (text : String) : Option String := do
  let bytes ← decodeDigits? (text.toList.filter fun c => c ≠ '\r' && c ≠ '\n')
  return String.ofList (characters bytes)

end CircuitNetwork.Text
