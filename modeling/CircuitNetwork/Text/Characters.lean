namespace CircuitNetwork.Text

/-!
# Characters of bytes

Bytes that need not be well encoded, read character by character. A byte with
which no character starts counts as a replacement character.
-/

/-- The character that bytes start with, which takes four of them at most. -/
def firstCharacter? (bytes : List UInt8) : Option Char :=
  (bytes.take 4).toByteArray.utf8DecodeChar? 0

/-- The characters of bytes behind those that still belong to a character before them. -/
def charactersBehind : Nat → List UInt8 → List Char
  | _, [] => []
  | pending + 1, _ :: rest => charactersBehind pending rest
  | 0, first :: rest =>
      match firstCharacter? (first :: rest) with
      | some c => c :: charactersBehind (c.utf8Size - 1) rest
      | none => '�' :: charactersBehind 0 rest

/-- The characters of bytes. -/
def characters (bytes : List UInt8) : List Char := charactersBehind 0 bytes

end CircuitNetwork.Text
