import CircuitNetwork.Combinator.Comparator
import CircuitNetwork.Combinator.Operator
import CircuitNetwork.Failure
import CircuitNetwork.Signal

namespace CircuitNetwork

/-!
# Conditions of two port combinators

A decider compares its first signal with a second operand, and an arithmetic
combinator combines the two. The second operand is a signal or a constant. A
draft is a condition as it is asked for, before it is known to be well formed.
-/

/-- A second operand. -/
inductive Operand where
  | signal (signal : Signal)
  | constant (value : Int32)
  deriving Repr, DecidableEq, Inhabited

namespace Operand

/-- The signal that an operand reads. -/
def signal? : Operand → Option Signal
  | signal read => some read
  | constant _ => none

/-- Put one signal in the place of another. -/
def rename (old new : Signal) : Operand → Operand
  | signal read => signal (if read = old then new else read)
  | constant value => constant value

end Operand

/-- What a decider combinator does: if the comparison holds, it puts out one, or the count that its
output signal has on the input. -/
structure Decider where
  first : Signal
  second : Operand
  comparator : Comparator
  output : Signal
  copyCount : Bool
  deriving Repr, DecidableEq, Inhabited

/-- What an arithmetic combinator does. -/
structure Arithmetic where
  first : Signal
  second : Operand
  operator : Operator
  output : Signal
  deriving Repr, DecidableEq, Inhabited

/-- The fields that are asked for in a condition of either kind. -/
structure ConditionDraft where
  first : Signal
  second : Option Signal
  constant : Option Int32
  symbol : String
  output : Signal
  deriving Repr, DecidableEq, Inhabited

namespace ConditionDraft

/-- The second operand, if exactly one is given. -/
def operand? (draft : ConditionDraft) : Option Operand :=
  match draft.second, draft.constant with
  | some read, none => some (.signal read)
  | none, some value => some (.constant value)
  | _, _ => none

/-- Check the operands and the output signal, then the symbol. -/
def check
    {α : Type}
    (draft : ConditionDraft)
    (ofSymbol? : String → Option α)
    (invalid : String → Reason) :
    Except Reason (Operand × α) :=
  match draft.operand? with
  | none => .error .operandChoice
  | some operand =>
      if draft.first.isZero then .error .missingFirst
      else if draft.output.isZero then .error .missingOutput
      else
        match ofSymbol? draft.symbol with
        | none => .error (invalid draft.symbol)
        | some meaning => .ok (operand, meaning)

/-- The decider that a draft asks for. -/
def decider (draft : ConditionDraft) (copyCount : Bool) : Except Reason Decider := do
  let (second, comparator) ← draft.check Comparator.ofSymbol? .invalidComparator
  return {
    first := draft.first
    second := second
    comparator := comparator
    output := draft.output
    copyCount := copyCount }

/-- The arithmetic combinator that a draft asks for. -/
def arithmetic (draft : ConditionDraft) : Except Reason Arithmetic := do
  let (second, operator) ← draft.check Operator.ofSymbol? .invalidOperation
  return {
    first := draft.first
    second := second
    operator := operator
    output := draft.output }

end ConditionDraft

end CircuitNetwork
