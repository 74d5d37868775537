namespace CircuitNetwork

/-!
# Bits

A bit of a connection is a literal or a reference to a net. It is a single
number: nets count from two, zero and one are themselves, and the unknown and
the undriven bit are the two numbers below zero.
-/

/-- One bit of a connection. -/
structure Bit where
  code : Int
  deriving Repr, DecidableEq, Inhabited

namespace Bit

/-- The undriven bit. -/
def z : Bit := ⟨-2⟩

/-- The unknown bit. -/
def x : Bit := ⟨-1⟩

/-- The literal zero. -/
def zero : Bit := ⟨0⟩

/-- The literal one. -/
def one : Bit := ⟨1⟩

/-- The bit of a net. -/
def net (number : Nat) : Bit := ⟨number⟩

/-- A bit that refers to no net. -/
def isConst (bit : Bit) : Bool :=
  bit.code < 2

/-- The written form of a bit: a letter for the two special literals, else its number. -/
def text (bit : Bit) : String :=
  if bit = z then "z"
  else if bit = x then "x"
  else toString bit.code

/-- The written form of a bit vector, least significant bit first. -/
def vectorText (bits : List Bit) : String :=
  "[" ++ ",".intercalate (bits.map text) ++ "]"

/-- Whether every bit of a vector is the given one. -/
def allAre (bits : List Bit) (wanted : Bit) : Bool :=
  bits.all (· = wanted)

end Bit

end CircuitNetwork
