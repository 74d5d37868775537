namespace CircuitNetwork

/-!
# Comparisons

The comparisons that a decider combinator can make between two counts.
-/

/-- A comparison of two counts. -/
inductive Comparator where
  | less
  | lessEqual
  | greater
  | greaterEqual
  | equal
  | notEqual
  deriving Repr, DecidableEq, Inhabited

namespace Comparator

/-- The written form of a comparison. -/
def symbol : Comparator → String
  | less => "<"
  | lessEqual => "≤"
  | greater => ">"
  | greaterEqual => "≥"
  | equal => "="
  | notEqual => "≠"

/-- The comparison with a given written form. -/
def ofSymbol? : String → Option Comparator
  | "<" => some less
  | "≤" => some lessEqual
  | ">" => some greater
  | "≥" => some greaterEqual
  | "=" => some equal
  | "≠" => some notEqual
  | _ => none

/-- Whether a comparison holds. -/
def holds : Comparator → Int32 → Int32 → Bool
  | less, a, b => a < b
  | lessEqual, a, b => a ≤ b
  | greater, a, b => b < a
  | greaterEqual, a, b => b ≤ a
  | equal, a, b => a = b
  | notEqual, a, b => a ≠ b

end Comparator

end CircuitNetwork
