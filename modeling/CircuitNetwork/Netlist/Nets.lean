import CircuitNetwork.Failure

namespace CircuitNetwork

/-!
# Net numbers

An allocator hands out net numbers in increasing order, from two on.
-/

/-- The allocator of net numbers. -/
structure Nets where
  next : Nat := 2
  deriving Repr, DecidableEq, Inhabited

namespace Nets

/-- The next bits, as many as asked for. -/
def take (nets : Nets) (count : Nat) : List Bit × Nets :=
  ((List.range count).map fun index => Bit.net (nets.next + index), ⟨nets.next + count⟩)

/-- The length that no bit vector exceeds: a bit takes eight of the 2^48 bytes that can be
addressed. -/
def maxLength : Int := 0x200000000000

/-- Allocate bits. There are no vectors of negative length, and none that no memory can hold. -/
def fresh (count : Int) : EStateM Failure Nets (List Bit) :=
  if count < 0 ∨ maxLength < count then
    throw (.ofCrash .impossibleLength)
  else
    modifyGet (·.take count.toNat)

end Nets

end CircuitNetwork
